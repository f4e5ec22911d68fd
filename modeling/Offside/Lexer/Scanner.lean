import Offside.Layout
import Offside.Lexer.Lexeme

/-!
# The scanner

Walks through a source and produces its tokens. A step either takes a line into the layout, or skips
blank space and comments, or reads one content token, or ends the source. `run` takes steps until the
source ends or a step fails; the fuel is a bound on the number of steps, so it never runs out.
-/

namespace Offside

/-- Where a scan stands. -/
structure Scanner where
  /-- The source that is not read yet. -/
  rest : Text
  line : Int := 1
  column : Int := 1
  layout : Layout := {}
  /-- Whether the next line's indentation is still to be measured. -/
  atLineStart : Bool := true
  /-- Whether the current logical line has a content token. -/
  lineContent : Bool := false
  /-- Whether the end of the source has been reported. -/
  done : Bool := false
  tabWidth : Int := 4
deriving Repr, DecidableEq

namespace Scanner

/-- The width of a tab unless another one is asked for. -/
def defaultTabWidth : Int := 4

/-- The width that a request for a tab width has: one that is not positive is ignored. -/
def effectiveTabWidth (asked : Option Int) : Int :=
  match asked with
  | some w => if 0 < w then w else defaultTabWidth
  | none => defaultTabWidth

/-- The scan of a source, before its first step. -/
def ofSource (source : Text) (tabWidth : Int) : Scanner := { rest := source, tabWidth }

/-- What a scan notes down as it goes on. -/
inductive Event where
  /-- It produced a token. -/
  | token (t : Token)
  /-- It measured a line: `count` structural tokens follow, and `layout` holds from here on. -/
  | measured (line width : Int) (count : Nat) (layout : Layout)
deriving Repr, DecidableEq

/-- What one step gives. -/
structure Step where
  /-- Where the scan stands after the step. -/
  scanner : Scanner
  /-- The tokens that the step produces. -/
  tokens : List Token := []
  /-- What is noted down before those tokens. -/
  notes : List Event := []
  /-- Why the scan cannot simply go on. -/
  halt : Option Halt := none
deriving Repr, DecidableEq

/-- The notes of a step, its tokens among them. -/
def Step.events (st : Step) : List Event := st.notes ++ st.tokens.map .token

/-- A token at the current position. -/
def token (s : Scanner) (kind : Token.Kind) (subtype : Token.Subtype := .plain)
    (literal : Text := []) : Token :=
  { kind, subtype, literal, line := s.line, column := s.column }

/-- Passes over `n` bytes of the current line. -/
def skip (s : Scanner) (n : Nat) : Scanner :=
  { s with rest := s.rest.drop n, column := s.column + n }

/-- Passes over the bytes that satisfy `p`, none of which ends the line. -/
def skipWhile (s : Scanner) (p : UInt8 → Bool) : Scanner := s.skip (s.rest.takeWhile p).length

/-- Passes over a comment, up to the end of its line. -/
def skipComment (s : Scanner) : Scanner := s.skipWhile fun b => !Lexeme.isLineEnd b

/-- The text after the line end at the start of a text. A carriage return and a line feed together
are one line end. -/
def afterLineEnd : Text → Text
  | [] => []
  | b :: s =>
    if b = 13 then
      match s with
      | [] => []
      | c :: t => if c = 10 then t else c :: t
    else s

/-- Passes over a line end. -/
def breakLine (s : Scanner) : Scanner :=
  { s with rest := afterLineEnd s.rest, line := s.line + 1, column := 1 }

/-- Takes a line of the given width, which has content, into the layout. -/
def enterLine (s : Scanner) (width : Int) : Step :=
  let s := { s with atLineStart := false }
  match s.layout.measure width with
  | none => { scanner := s, halt := some .crash }
  | some m =>
    { scanner := { s with layout := m.layout }
      tokens := m.kinds.map fun kind => s.token kind
      notes := [.measured s.line width m.kinds.length m.layout]
      halt :=
        if m.aligned then none
        else some (.report ((Diagnostic.indentationError
          "unindent does not match any outer indentation level" [] s.line s.column).withFact
            "width" (.int width))) }

/-- The start of a line: a line without content is passed over, any other enters the layout. -/
def startLine (s : Scanner) : Step :=
  let blank := s.rest.takeWhile Lexeme.isBlank
  let s := s.skip blank.length
  match s.rest with
  | [] => { scanner := { s with atLineStart := false } }
  | b :: _ =>
    if b = 35 then
      let s := s.skipComment
      { scanner := if s.rest.isEmpty then s else s.breakLine }
    else if Lexeme.isLineEnd b then { scanner := s.breakLine }
    else s.enterLine (Layout.width s.tabWidth blank)

/-- The end of the source: the last line is ended and every block is closed. -/
def finish (s : Scanner) : Step :=
  let line := if s.lineContent then [s.token .newline] else []
  { scanner := { s with layout := s.layout.flush, lineContent := false, done := true }
    tokens := line ++ List.replicate s.layout.depth (s.token .dedent) ++ [s.token .eof] }

/-- The end of a line. Inside brackets it means nothing. -/
def endLine (s : Scanner) : Step :=
  if s.layout.joined then { scanner := s.breakLine }
  else
    { scanner := { s.breakLine with lineContent := false, atLineStart := true }
      tokens := [s.token .newline .plain "\n"] }

/-- What a bracket does to the layout. -/
def bracketed (layout : Layout) : Token.Subtype → Layout
  | .bracket b => if b.isOpening then layout.openBracket else layout.closeBracket
  | _ => layout

/-- Reads the content token at the start of `b :: rest`, which is what is left of the source. -/
def content (s : Scanner) (b : UInt8) (rest : Text) : Step :=
  match Lexeme.first b rest with
  | .ok x =>
    { scanner := { s.skip x.width with layout := bracketed s.layout x.subtype, lineContent := true }
      tokens := [s.token x.kind x.subtype x.literal] }
  | .error (.unterminated text) =>
    { scanner := s.skip text.length
      halt := some (.report
        (.syntaxError "EOL while scanning string literal" text s.line s.column)) }
  | .error (.unrecognized c) =>
    let shown := Text.ofChar c
    { scanner := s
      halt := some (.report (.unknownTokenError ("unrecognized character '" ++ shown ++ "'") shown
        s.line s.column)) }

/-- Goes on inside a line. -/
def inLine (s : Scanner) : Step :=
  let s := s.skipWhile Lexeme.isBlank
  match s.rest with
  | [] => s.finish
  | b :: rest =>
    if Lexeme.isLineEnd b then s.endLine
    else if b = 35 then { scanner := s.skipComment }
    else s.content b rest

/-- One step of the scan. -/
def step (s : Scanner) : Step :=
  if s.atLineStart && !s.layout.joined then s.startLine else s.inLine

/-- A bound on the number of steps: each step reads a byte, or starts a line, or ends the source. -/
def bound (s : Scanner) : Nat := 2 * s.rest.length + 2

/-- What a run gives. -/
structure Run where
  /-- The tokens in order, those of a failed step not among them. -/
  tokens : List Token := []
  /-- Why the run stopped before the end of the source. -/
  halt : Option Halt := none
  /-- Where the scan stands after the run. -/
  scanner : Scanner
  /-- The tokens of the failed step. -/
  pending : List Token := []
  /-- The steps taken, in order. -/
  steps : List Step := []
deriving Repr, DecidableEq

/-- Everything that a run noted down. -/
def Run.events (r : Run) : List Event := r.steps.flatMap Step.events

/-- Steps that are still to be asked for, and how many tokens those before them have produced. -/
structure Ahead where
  produced : Nat := 0
  steps : List Step

/-- Asks for steps until `n` tokens have been produced: what these steps noted down, and those that
are then still to be asked for. -/
def ask (n produced : Nat) : List Step → List Event × Ahead
  | [] => ([], { produced, steps := [] })
  | st :: steps =>
    if n ≤ produced then ([], { produced, steps := st :: steps })
    else
      let (events, ahead) := ask n (produced + st.tokens.length) steps
      (st.events ++ events, ahead)

/-- Asks for steps until `n` tokens have been produced. -/
def Ahead.until (a : Ahead) (n : Nat) : List Event × Ahead := ask n a.produced a.steps

/-- Takes at most `fuel` steps, until the source ends or a step fails. -/
def runFor : (fuel : Nat) → Scanner → Run
  | 0, s => { scanner := s }
  | fuel + 1, s =>
    if s.done then { scanner := s }
    else
      let st := s.step
      match st.halt with
      | some h =>
        { halt := some h, scanner := st.scanner, pending := st.tokens, steps := [st] }
      | none =>
        let r := runFor fuel st.scanner
        { r with tokens := st.tokens ++ r.tokens, steps := st :: r.steps }

/-- Takes steps until the source ends or a step fails. -/
def run (s : Scanner) : Run := runFor s.bound s

end Scanner

/-- The tokens of a source up to its end, or up to the failure that keeps the scan from getting there. -/
def tokenize (source : Text) (tabWidth : Int) : Scanner.Run :=
  (Scanner.ofSource source tabWidth).run

end Offside
