import Offside.Engine.Cache
import Offside.Compile
import Offside.Tree.JavaScript
import Offside.Tree.Evaluation

/-!
# The engine

An engine compiles sources under rules and remembers the programs. A source that was compiled before
under rules of the same effect is not compiled again. A compilation that fails is not remembered.
-/

namespace Offside

/-- An engine. -/
structure Engine where
  /-- How wide a tab is; not positive for the usual width. -/
  tabWidth : Int := 0
  /-- What is logged of a compilation. -/
  verbosity : Compile.Verbosity := .failures
  cache : Cache := {}
deriving Repr

namespace Engine

/-- An engine whose cache has the capacity that is asked for; a negative one is ignored. -/
def ofOptions (tabWidth : Int) (capacity : Option Int) (verbosity : Compile.Verbosity) : Engine :=
  let cache : Cache := match capacity with
    | some n => if n < 0 then {} else { capacity := n.toNat }
    | none => {}
  { tabWidth, verbosity, cache }

/-- The options of a compilation by the engine. -/
def options (e : Engine) (rules : List Rule) : Compile.Options :=
  { rules, tabWidth := Scanner.effectiveTabWidth (some e.tabWidth) }

/-- The fingerprint of a source under rules. -/
def fingerprint (e : Engine) (source : Text) (rules : List Rule) : Fingerprint :=
  Fingerprint.ofRequest source e.tabWidth rules

/-- The program that a compilation gives. It is numbered by the compilations that have succeeded before it. -/
def compiled (e : Engine) (source : Text) (rules : List Rule) (out : Compile.Output) : Compiled :=
  { source, rules, fingerprint := e.fingerprint source rules, program := out.program
    serial := e.cache.stats.misses }

/-- What a compilation comes to whose fingerprint has been looked up, and the engine after it. The
cache may have changed since the look-up. A crash is not counted. -/
def conclude (e : Engine) (source : Text) (rules : List Rule) :
    (found : Option Compiled) → Except Halt Compiled × Engine
  | some p => (.ok p, { e with cache := e.cache.hit })
  | none =>
    match Offside.compile (e.options rules) source with
    | .error .crash => (.error .crash, e)
    | .error h => (.error h, { e with cache := e.cache.fail })
    | .ok out =>
      let p := e.compiled source rules out
      (.ok p, { e with cache := e.cache.store p })

/-- The program for a source under rules, and the engine after it. -/
def compile (e : Engine) (source : Text) (rules : List Rule) : Except Halt Compiled × Engine :=
  e.conclude source rules (e.cache.lookup (e.fingerprint source rules))

/-- The records that a compilation by the engine logs. -/
def compileLog (e : Engine) (source : Text) (rules : List Rule) : List Log.Record :=
  let program : Text × Log.Value := ("program", .text (e.fingerprint source rules).describe)
  match e.cache.lookup (e.fingerprint source rules) with
  | some _ => [{ message := "cache hit", attributes := [program] }]
  | none =>
    let steps := Compile.log e.verbosity (e.options rules) source
    match Offside.compile (e.options rules) source with
    | .error _ => steps
    | .ok out =>
      let statements : Text × Log.Value := ("statements", .int out.program.statements.length)
      steps ++ [{ message := "compiled", attributes := [program, statements] }]

/-- The JavaScript of a program, which a tree without a child that is needed does not have. -/
def rendering (p : Program) : Except Halt Text :=
  match p.render with
  | some js => .ok js
  | none => .error .crash

/-- The JavaScript of a source under rules. -/
def render (e : Engine) (source : Text) (rules : List Rule) : Except Halt Text × Engine :=
  match e.compile source rules with
  | (.error h, e) => (.error h, e)
  | (.ok p, e) => (rendering p.program, e)

/-- The values of a source under rules, one for each statement. -/
def evaluate (e : Engine) (source : Text) (rules : List Rule) : Except Halt (List Value) × Engine :=
  match e.compile source rules with
  | (.error h, e) => (.error h, e)
  | (.ok p, e) => (p.program.evaluate, e)

/-- Forgets every program. -/
def reset (e : Engine) : Engine := { e with cache := e.cache.reset }

end Engine

end Offside
