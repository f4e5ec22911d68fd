import Offside.Text.Quoted
import Offside.Text.Closeness

/-!
# Command-line arguments

A command line is a command with flags and other arguments in any order. A flag is given by its name
behind two hyphens or by a letter behind one; its value follows behind an equals sign or as the next
argument, and a switch needs none. Two hyphens alone end the flags.
-/

namespace Offside.Command

/-- A command. -/
inductive Name where
  | render | eval | tokens | ast | check
deriving Repr, DecidableEq

/-- The commands and their names, and those of the commands about the program itself. -/
def commands : List (Text × Option Name) :=
  [("render", some .render), ("eval", some .eval), ("tokens", some .tokens), ("ast", some .ast),
    ("check", some .check), ("help", none), ("completion", none)]

/-- What has been set by flags. -/
structure Settings where
  config : Text := []
  disable : List Text := []
  blacklist : List Text := []
  debug : Bool := false
  noColor : Bool := false
  format : Text := "script"
  output : Text := []
  watch : Bool := false
  help : Bool := false
deriving Repr, DecidableEq

/-- How a flag takes its value. -/
inductive Flag.Effect where
  | text (set : Text → Settings → Settings)
  | list (add : List Text → Settings → Settings)
  | switch (set : Bool → Settings → Settings)

/-- A flag. -/
structure Flag where
  name : Text
  letter : Option UInt8 := none
  effect : Flag.Effect

/-- The flags of every command. -/
def commonFlags : List Flag :=
  [{ name := "config", letter := some 99, effect := .text fun v s => { s with config := v } },
    { name := "disable", effect := .list fun v s => { s with disable := s.disable ++ v } },
    { name := "blacklist", effect := .list fun v s => { s with blacklist := s.blacklist ++ v } },
    { name := "debug", effect := .switch fun v s => { s with debug := v } },
    { name := "no-color", effect := .switch fun v s => { s with noColor := v } }]

/-- The flag that asks for help. -/
def helpFlag : Flag :=
  { name := "help", letter := some 104, effect := .switch fun v s => { s with help := v } }

/-- The flags of a command. -/
def flagsOf : Option Name → List Flag
  | some .render =>
    commonFlags ++
      [{ name := "format", effect := .text fun v s => { s with format := v } },
        { name := "output", letter := some 111, effect := .text fun v s => { s with output := v } },
        { name := "watch", letter := some 119, effect := .switch fun v s => { s with watch := v } }]
  | _ => commonFlags

namespace Flag

/-- Whether the flag needs no value. -/
def isSwitch (f : Flag) : Bool :=
  match f.effect with
  | .switch _ => true
  | _ => false

/-- The flag as messages name it. -/
def describe (f : Flag) : Text :=
  let name := "--" ++ f.name
  match f.letter with
  | some b => "-" ++ [b] ++ ", " ++ name
  | none => name

/-- The flag with a name. -/
def named? (flags : List Flag) (name : Text) : Option Flag := flags.find? (·.name == name)

/-- The flag with a letter. -/
def lettered? (flags : List Flag) (letter : UInt8) : Option Flag :=
  flags.find? (·.letter == some letter)

end Flag

/-! ## Values -/

/-- The message about a record with a quote where none may be. -/
def recordFault (column : Nat) (what : Text) : Text :=
  "parse error on line 1, column " ++ Text.ofNat column ++ ": " ++ what

/-- Reads a field between quotes, behind the first one, which ends before a comma or at the end. Gives
the rest behind the comma, if there is one. -/
def quotedField : (column : Nat) → Text → Except Text (Text × Option Text × Nat)
  | column, [] => .error (recordFault column "extraneous or missing \" in quoted-field")
  | column, 34 :: s =>
    match s with
    | [] => .ok ([], none, column + 1)
    | 34 :: s => (quotedField (column + 2) s).map fun (t, rest) => (34 :: t, rest)
    | 44 :: s => .ok ([], some s, column + 2)
    | 10 :: _ => .ok ([], none, column + 1)
    | _ => .error (recordFault column "extraneous or missing \" in quoted-field")
  | column, b :: s => (quotedField (column + 1) s).map fun (t, rest) => (b :: t, rest)

/-- Reads the fields of a record, with commas between them. -/
def fields : (fuel : Nat) → (column : Nat) → Text → Except Text (List Text)
  | 0, _, _ => .ok []
  | fuel + 1, column, s =>
    match s with
    | 34 :: s => do
      let (field, rest, column) ← quotedField (column + 1) s
      match rest with
      | none => .ok [field]
      | some rest => (fields fuel column rest).map (field :: ·)
    | s =>
      let line := s.takeWhile (· ≠ 10)
      let field := line.takeWhile (· ≠ 44)
      if field.contains 34 then
        .error (recordFault (column + (field.takeWhile (· ≠ 34)).length) "bare \" in non-quoted field")
      else
        match line.drop field.length with
        | [] => .ok [field]
        | _ => (fields fuel (column + field.length + 1) (s.drop (field.length + 1))).map (field :: ·)

/-- Reads the values of a list, which are one record. -/
def listOf (s : Text) : Except Text (List Text) :=
  if s.isEmpty then .ok []
  else
    let s := s.dropWhile (· = 10)
    if s.isEmpty then .error "EOF" else fields (s.length + 1) 1 s

/-- Reads a truth value. -/
def boolOf (s : Text) : Except Text Bool :=
  if ["1", "t", "T", "TRUE", "true", "True"].any fun w => Text.ofString w == s then .ok true
  else if ["0", "f", "F", "FALSE", "false", "False"].any fun w => Text.ofString w == s then .ok false
  else .error ("strconv.ParseBool: parsing " ++ Text.quoted s ++ ": invalid syntax")

/-- The settings after a flag with a value. -/
def Flag.apply (f : Flag) (value : Text) (s : Settings) : Except Text Settings :=
  let outcome : Except Text Settings := match f.effect with
    | .text set => .ok (set value s)
    | .list add => (listOf value).map fun vs => add vs s
    | .switch set => (boolOf value).map fun b => set b s
  outcome.mapError fun fault =>
    "invalid argument " ++ Text.quoted value ++ " for " ++ Text.quoted f.describe ++ " flag: " ++ fault

/-! ## Flags among arguments -/

/-- The name and the value of a flag behind its hyphens. -/
def splitValue (s : Text) : Text × Option Text :=
  let name := s.takeWhile (· ≠ 61)
  match s.drop name.length with
  | [] => (name, none)
  | _ :: value => (name, some value)

/-- Reads letters of flags; all but the last are switches. Gives the arguments left. -/
def readLetters (flags : List Flag) : (letters : Text) → (arguments : List Text) → Settings →
    Except Text (Settings × List Text)
  | [], arguments, s => .ok (s, arguments)
  | b :: rest, arguments, s =>
    match Flag.lettered? flags b with
    | none => .error ("unknown shorthand flag: '" ++ [b] ++ "' in -" ++ (b :: rest))
    | some f =>
      match rest with
      | 61 :: c :: value => (f.apply (c :: value) s).map fun s => (s, arguments)
      | rest =>
        if f.isSwitch then do
          let s ← f.apply "true" s
          readLetters flags rest arguments s
        else
          match rest, arguments with
          | _ :: _, arguments => (f.apply rest s).map fun s => (s, arguments)
          | [], value :: arguments => (f.apply value s).map fun s => (s, arguments)
          | [], [] => .error ("flag needs an argument: '" ++ [b] ++ "' in -" ++ [b])

/-- Reads a flag by its name behind the hyphens. Gives the arguments left. -/
def readName (flags : List Flag) (text : Text) (arguments : List Text) (s : Settings) :
    Except Text (Settings × List Text) :=
  if text.head? = some 45 ∨ text.head? = some 61 then .error ("bad flag syntax: --" ++ text)
  else
    let (name, value) := splitValue text
    match Flag.named? flags name, value with
    | none, _ => .error ("unknown flag: --" ++ name)
    | some f, some value => (f.apply value s).map fun s => (s, arguments)
    | some f, none =>
      if f.isSwitch then (f.apply "true" s).map fun s => (s, arguments)
      else
        match arguments with
        | value :: arguments => (f.apply value s).map fun s => (s, arguments)
        | [] => .error ("flag needs an argument: --" ++ name)

/-- Reads flags up to the end of the arguments. Gives the other arguments. -/
def readFlags (flags : List Flag) : (fuel : Nat) → List Text → Settings →
    Except Text (Settings × List Text)
  | 0, _, s => .ok (s, [])
  | _ + 1, [], s => .ok (s, [])
  | fuel + 1, argument :: arguments, s =>
    match argument with
    | [45, 45] => .ok (s, arguments)
    | 45 :: 45 :: name => do
      let (s, arguments) ← readName flags name arguments s
      readFlags flags fuel arguments s
    | 45 :: b :: letters => do
      let (s, arguments) ← readLetters flags (b :: letters) arguments s
      readFlags flags fuel arguments s
    | argument => do
      let (s, others) ← readFlags flags fuel arguments s
      .ok (s, argument :: others)

/-! ## The command -/

/-- Whether an argument takes the next one as its value. A flag that is not known does. -/
def takesValue (flags : List Flag) (argument : Text) : Bool :=
  match argument with
  | 45 :: 45 :: name => !argument.contains 61 && !(Flag.named? flags name).any Flag.isSwitch
  | [45, b] => b != 61 && !(Flag.lettered? flags b).any Flag.isSwitch
  | _ => false

/-- The first argument that is neither a flag nor the value of one, and the arguments without it.
`valued` says that the first argument is the value of a flag. -/
def firstWord (flags : List Flag) : (valued : Bool) → List Text → Option (Text × List Text)
  | _, [] => none
  | valued, argument :: arguments =>
    let isFlag := argument.isEmpty || argument.head? == some 45
    if !valued && argument == ("--" : Text) then none
    else if valued || isFlag then
      (firstWord flags (!valued && takesValue flags argument) arguments).map fun (word, others) =>
        (word, argument :: others)
    else some (argument, arguments)

/-- The commands that may have been meant by a word. -/
def similar (word : Text) : List Text :=
  let word := Text.lower word
  let names := (commands.map (·.1)).filter (· ≠ ("help" : Text))
  names.filter fun name =>
    Closeness.editDistance word name ≤ 2 || name.startsWith word

/-- The message about a word that is no command. -/
def unknownCommand (word : Text) : Text :=
  let similar := similar word
  let line (name : Text) : Text := "\t" ++ name ++ "\n"
  let hint : Text := if similar.isEmpty then []
    else "\n\nDid you mean this?\n" ++ similar.flatMap line
  "unknown command " ++ Text.quoted word ++ " for \"pyjs\"" ++ hint

/-- What a command line asks for. -/
inductive Request where
  /-- The text about the program. -/
  | help
  | run (command : Name) (settings : Settings) (input : Option Text)
deriving Repr, DecidableEq

/-- The request of a command with its arguments. -/
def requestOf (command : Option Name) (arguments : List Text) : Except Text Request := do
  let flags := flagsOf command ++ [helpFlag]
  let (settings, others) ← readFlags flags (arguments.length + 1) arguments {}
  match command with
  | none => .ok .help
  | some command =>
    if settings.help then .ok .help
    else
      match others with
      | [] => .ok (.run command settings none)
      | [input] => .ok (.run command settings (some input))
      | others =>
        .error ("accepts at most 1 arg(s), received " ++ Text.ofNat others.length)

/-- Reads a command line. -/
def readArguments (arguments : List Text) : Except Text Request :=
  match firstWord commonFlags false arguments with
  | none => requestOf none arguments
  | some (word, others) =>
    match commands.lookup word with
    | none => .error (unknownCommand word)
    | some none => .ok .help
    | some (some command) => requestOf (some command) others

end Offside.Command
