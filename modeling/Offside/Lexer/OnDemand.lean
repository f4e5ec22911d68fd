import Offside.Lexer.Scanner

/-!
# Tokens on demand

A lexer hands out the tokens of a source one at a time. `next` takes a token, `peek` looks at it.
A step of the scanner can produce several tokens; they wait in a queue. A failed step may leave
tokens in the queue as well: the failure is reported first, and they are handed out after it.
-/

namespace Offside

/-- A scan with the tokens that it has produced and not handed out. -/
structure Lexer where
  scanner : Scanner
  queue : List Token := []
  /-- What the scan noted down, in order. -/
  events : List Scanner.Event := []
deriving Repr, DecidableEq

namespace Lexer

/-- The lexer of a source. -/
def ofSource (source : Text) (tabWidth : Int) : Lexer :=
  { scanner := .ofSource source tabWidth }

/-- Takes steps, at most `fuel`, until a token waits, the source ends or a step fails. -/
def fill : (fuel : Nat) → Lexer → Lexer × Option Halt
  | 0, l => (l, none)
  | fuel + 1, l =>
    if !l.queue.isEmpty || l.scanner.done then (l, none)
    else
      let st := l.scanner.step
      let l : Lexer :=
        { scanner := st.scanner, queue := l.queue ++ st.tokens, events := l.events ++ st.events }
      match st.halt with
      | some h => (l, some h)
      | none => fill fuel l

/-- Sees to it that a token waits. After the end of the source that is the end again. -/
def ensure (l : Lexer) : Lexer × Option Halt :=
  if !l.queue.isEmpty then (l, none)
  else if l.scanner.done then ({ l with queue := [l.scanner.token .eof] }, none)
  else l.fill l.scanner.bound

/-- Takes the next token. -/
def next (l : Lexer) : Except Halt Token × Lexer :=
  match l.ensure with
  | (l, some h) => (.error h, l)
  | (l, none) =>
    match l.queue with
    | [] => (.error .crash, l)
    | t :: queue => (.ok t, { l with queue })

/-- Looks at the next token. -/
def peek (l : Lexer) : Except Halt Token × Lexer :=
  match l.ensure with
  | (l, some h) => (.error h, l)
  | (l, none) =>
    match l.queue with
    | [] => (.error .crash, l)
    | t :: _ => (.ok t, l)

/-- Takes every token up to the end of the source or up to a failure. -/
def drain (l : Lexer) : List Token × Option Halt × Lexer :=
  if l.scanner.done then
    (if l.queue.isEmpty then [l.scanner.token .eof] else l.queue, none, { l with queue := [] })
  else
    let r := l.scanner.run
    (l.queue ++ r.tokens, r.halt,
      { scanner := r.scanner, queue := r.pending, events := l.events ++ r.events })

end Lexer

/-- What a scan has produced so far, in numbers. -/
structure Scanner.Stats where
  tokens : Nat
  lines : Nat
  maxDepth : Nat
  /-- How many tokens of each kind that occurs. -/
  counts : List (Token.Kind × Nat)
deriving Repr, DecidableEq

namespace Scanner

/-- The tokens among the notes. -/
def Event.token? : Event → Option Token
  | .token t => some t
  | .measured .. => none

/-- The depth that a note records. -/
def Event.depth : Event → Nat
  | .token _ => 0
  | .measured _ _ _ layout => layout.depth

/-- The numbers that belong to the notes. -/
def Stats.ofEvents (events : List Event) : Stats :=
  let kinds := (events.filterMap Event.token?).map (·.kind)
  { tokens := kinds.length
    lines := kinds.count .newline
    maxDepth := (events.map Event.depth).foldl max 0
    counts := (Token.Kind.all.map fun k => (k, kinds.count k)).filter (0 < ·.2) }

end Scanner

end Offside
