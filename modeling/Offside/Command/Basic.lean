import Offside.Command.Arguments
import Offside.Config.File
import Offside.Wrapper
import Offside.Tree.Outline

/-!
# The command line

Runs a command: it reads the configuration and the source, does its work, and writes to the standard
streams or to a file. The exit code tells apart what went wrong.
-/

namespace Offside.Command

/-- How a command ends. -/
inductive ExitCode where
  | success | invalidArguments | inputOutput | compilation | evaluation
deriving Repr, DecidableEq

/-- The number of an exit code. -/
def ExitCode.number : ExitCode → Nat
  | success => 0
  | invalidArguments => 1
  | inputOutput => 2
  | compilation => 3
  | evaluation => 4

/-- Why a command ends before its work is done. -/
inductive Failure where
  /-- Something is wrong with the request, the files or the output. -/
  | plain (code : ExitCode) (message : Text)
  /-- Something is wrong with the source; the report is in full. -/
  | diagnosed (code : ExitCode) (detail : Text)
  /-- There is no standard input to read. -/
  | crashed
deriving Repr, DecidableEq

namespace Failure

/-- The failure of a compilation or an evaluation. -/
def ofHalt (code : ExitCode) : Halt → Failure
  | .report d =>
    match d.detail? with
    | some detail => diagnosed code detail
    | none => crashed
  | .plain message => plain code message
  | .crash | .endless => crashed

/-- What is printed about the failure. -/
def message : Failure → Text
  | plain _ message => "Error: " ++ message
  | diagnosed _ detail => detail
  | crashed => []

/-- The exit code. -/
def code : Failure → ExitCode
  | plain code _ | diagnosed code _ => code
  | crashed => .invalidArguments

/-- Whether a change of the source may help. -/
def isRecoverable : Failure → Bool
  | plain code _ => code == .inputOutput
  | diagnosed _ _ => true
  | crashed => false

end Failure

/-- What has been printed. -/
structure Console where
  output : Text := []
  errors : Text := []
deriving Repr, DecidableEq

/-- What a command finds around it. -/
structure Surroundings where
  /-- The standard input; none if nothing is to be read there. -/
  input : Option Text := none
  environment : List (Text × Text) := []
deriving Repr, DecidableEq

/-- A step of a command. What has been printed stays when it fails. -/
abbrev Session (m : Type → Type) := ExceptT Failure (StateT Console m)

variable {m : Type → Type} [Monad m]

/-- Prints to the standard output. -/
def print (t : Text) : Session m Unit := modify fun c => { c with output := c.output ++ t }

/-- Prints a line to the standard error output. -/
def complain (t : Text) : Session m Unit := modify fun c => { c with errors := c.errors ++ t ++ "\n" }

/-- Does something with files. -/
def access {α : Type} (x : m α) : Session m α := ExceptT.lift (StateT.lift x)

/-- Goes on with a result, or fails. -/
def orFail {ε α : Type} (failure : ε → Failure) : Except ε α → Session m α
  | .ok a => pure a
  | .error e => throw (failure e)

/-- The failure of a request. -/
def invalid (message : Text) : Failure := .plain .invalidArguments message

/-! ## Setting up -/

/-- What a command works with. -/
structure Setup where
  settings : Settings
  config : Config
  engine : Engine
  /-- Whether debug records are logged. -/
  logsDebug : Bool
deriving Repr

/-- Logs records. -/
def log (debug : Bool) (records : List Log.Record) : Session m Unit :=
  (records.filterMap (Log.line? debug)).forM complain

/-- The rules that are set by flags. -/
def flagRules (s : Settings) : Except Text (List Rule) := do
  let disabled ← s.disable.mapM fun name => do
    match ← Policy.ofName (Text.trimmed name) with
    | .disable c => .ok (Rule.disable c)
    | .blacklistVariable => .error "use --blacklist to forbid variable names"
  .ok (disabled ++ if s.blacklist.isEmpty then [] else [.blacklist s.blacklist])

variable [FileAccess m]

/-- Loads the configuration: that of the flag, or the one of the project, or the usual one. -/
def loadConfig (debug : Bool) (s : Settings) : Session m Config := do
  if s.config.isEmpty then
    match ← access (Config.find ".") with
    | none => pure {}
    | some path =>
      log debug [{ message := "using config", attributes := [("path", .text path)] }]
      orFail (fun f => invalid f.message) (← access (Config.load path))
  else orFail (fun f => invalid f.message) (← access (Config.load s.config))

/-- Sets a command up. -/
def setUp (around : Surroundings) (s : Settings) : Session m Setup := do
  let debug := s.debug || Log.debugByEnvironment around.environment
  let config ← loadConfig debug s
  let rules ← orFail invalid (flagRules s)
  let config := config.withRules rules
  log debug
    [{ message := "configured"
       attributes := [("version", .text config.version), ("rules", .int config.rules.length),
         ("tab_width", .int config.tabWidth)] }]
  pure
    { settings := s
      config
      engine := Engine.ofOptions config.tabWidth none (if s.debug then .statements else .failures)
      logsDebug := debug }

/-! ## The commands -/

/-- Reads the source. Gives the name it goes by as well. -/
def readSource (around : Surroundings) (path : Option Text) : Session m (Text × Text) := do
  match path with
  | none =>
    match around.input with
    | some source => pure (source, "stdin")
    | none => throw (invalid "no input: pass a file, '-' or pipe source on stdin")
  | some path =>
    if path = "-" then
      match around.input with
      | some source => pure (source, "stdin")
      | none => throw .crashed
    else
      match ← access (FileAccess.read path) with
      | .ok source => pure (source, path)
      | .error e =>
        throw (.plain .inputOutput ("error reading file " ++ path ++ ": " ++ e.message))

/-- Compiles a source. -/
def compileSource (s : Setup) (source : Text) : Session m Compiled := do
  log s.logsDebug (s.engine.compileLog source s.config.rules)
  orFail (Failure.ofHalt .compilation) (s.engine.compile source s.config.rules).1

/-- Writes the JavaScript of a source in a format. -/
def render (around : Surroundings) (s : Setup) (f : Format) (path : Option Text) : Session m Unit := do
  let (source, name) ← readSource around path
  let program ← compileSource s source
  let js ← orFail (fun e => invalid e.message) (Wrapper.wrap (some program) name f)
  let output := s.settings.output
  if output.isEmpty then print js
  else
    match ← access (FileAccess.write output js (f == .node)) with
    | .error e => throw (.plain .inputOutput ("error writing " ++ output ++ ": " ++ e.message))
    | .ok () =>
      log s.logsDebug
        [{ message := "wrote output"
           attributes := [("path", .text output), ("program", .text program.fingerprint.describe)] }]

/-- Renders a file that is watched. What a change of the file may mend is only printed. -/
def renderWatched (around : Surroundings) (s : Setup) (f : Format) (path : Text) :
    Session m Unit := do
  let here ← access FileAccess.workingDirectory
  match ← access (FileAccess.absence? (Path.parent (Path.absolute here path))) with
  | some reason => throw (.plain .inputOutput ("failed to watch " ++ path ++ ": " ++ reason))
  | none =>
    tryCatch (render around s f (some path)) fun failure =>
      if failure.isRecoverable then complain failure.message else throw failure

/-- Runs the command that renders. -/
def runRender (around : Surroundings) (s : Setup) (path : Option Text) : Session m Unit := do
  let f ← orFail (fun e => invalid e.message) (Format.ofName s.settings.format)
  if s.settings.watch then
    match path with
    | none => throw (invalid "--watch needs a file argument")
    | some path =>
      if path = "-" then throw (invalid "--watch needs a file argument")
      else renderWatched around s f path
  else render around s f path

/-- Runs the command that evaluates: prints the value of each statement. -/
def runEval (around : Surroundings) (s : Setup) (path : Option Text) : Session m Unit := do
  let (source, _) ← readSource around path
  let program ← compileSource s source
  let values ← orFail (Failure.ofHalt .evaluation) program.program.evaluate
  values.forM fun v => print (v.format ++ "\n")

/-- Runs the command that prints tokens, up to where they stop. -/
def runTokens (around : Surroundings) (s : Setup) (path : Option Text) : Session m Unit := do
  let (source, _) ← readSource around path
  let run := tokenize source s.config.tabWidth
  run.tokens.forM fun t => print (t.describe ++ "\n")
  match run.halt with
  | none => pure ()
  | some h => throw (.ofHalt .compilation (Compile.withSource source h))

/-- Runs the command that prints the tree. -/
def runAst (around : Surroundings) (s : Setup) (path : Option Text) : Session m Unit := do
  let (source, _) ← readSource around path
  let program ← compileSource s source
  print (outlineText program.program.outline)

/-- Runs the command that only compiles. -/
def runCheck (around : Surroundings) (s : Setup) (path : Option Text) : Session m Unit := do
  let (source, name) ← readSource around path
  let program ← compileSource s source
  print ("ok " ++ name ++ " " ++ program.fingerprint.describe ++ "\n")

/-- Runs a command. -/
def runCommand (around : Surroundings) (command : Name) (s : Setup) (path : Option Text) :
    Session m Unit :=
  match command with
  | .render => runRender around s path
  | .eval => runEval around s path
  | .tokens => runTokens around s path
  | .ast => runAst around s path
  | .check => runCheck around s path

/-! ## Command lines -/

/-- The text about the program. -/
def usage : Text :=
  Text.join "\n"
    ["Compile an indentation-based scripting language to JavaScript", "", "Usage:",
      "  pyjs [command] [file|-]", "", "Commands:",
      "  ast     Print the syntax tree",
      "  check   Compile source and report errors without producing output",
      "  eval    Evaluate source and print the value of each statement",
      "  render  Compile source to JavaScript",
      "  tokens  Print the token stream", ""]

/-- Runs what a command line asks for. -/
def session (around : Surroundings) (arguments : List Text) : Session m Unit := do
  match ← orFail invalid (readArguments arguments) with
  | .help => print usage
  | .run command settings path =>
    let s ← setUp around settings
    runCommand around command s path

/-- How a command line ended. -/
structure Outcome where
  code : ExitCode
  console : Console
deriving Repr, DecidableEq

/-- Runs a command line; none if there is no standard input where one is asked for. -/
def run (around : Surroundings) (arguments : List Text) : m (Option Outcome) := do
  match ← ((session around arguments).run.run {}) with
  | (.ok (), console) => pure (some { code := .success, console })
  | (.error .crashed, _) => pure none
  | (.error failure, console) =>
    pure (some
      { code := failure.code
        console := { console with errors := console.errors ++ failure.message ++ "\n" } })

end Offside.Command
