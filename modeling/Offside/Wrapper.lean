import Offside.Engine.Basic
import Offside.Text.Closeness
import Offside.Template.Parser
import Offside.Template.Execution

/-!
# Output files

Wraps the JavaScript of a program into a file: a plain script, a function of its own in strict mode,
or an executable script. The formats are templates, and a template of one's own may be used instead,
which may call them.
-/

namespace Offside

/-- Why no file could be written. -/
inductive WrapError where
  | noProgram
  | emptyTemplate
  /-- No format has the name. -/
  | unknownFormat (name : Text) (hint : Option Text)
  | unreadableTemplate
  | failedTemplate
deriving Repr, DecidableEq

namespace WrapError

/-- The class of the error. -/
def type : WrapError → Text
  | unreadableTemplate | failedTemplate => "template"
  | _ => "validation"

/-- The valid name that may have been meant. -/
def hint : WrapError → Text
  | unknownFormat _ (some hint) => hint
  | _ => []

/-- Whether the error was caused by another one. -/
def isCaused : WrapError → Bool
  | unreadableTemplate | failedTemplate => true
  | _ => false

/-- What went wrong. -/
def reason : WrapError → Text
  | noProgram => "program cannot be nil"
  | emptyTemplate => "template cannot be empty"
  | unknownFormat name _ => "unsupported format '" ++ name ++ "'"
  | unreadableTemplate => "failed to parse template"
  | failedTemplate => "failed to execute template"

/-- The message, without that of a cause. -/
def message (e : WrapError) : Text :=
  let hint : Text := if e.hint.isEmpty then [] else "; did you mean '" ++ e.hint ++ "'?"
  "[" ++ e.type ++ "] generator error: " ++ e.reason ++ hint

end WrapError

/-- A format of output files. -/
inductive Format where
  | script | module | node
deriving Repr, DecidableEq

namespace Format

/-- Every format. -/
def all : List Format := [script, module, node]

/-- The name. -/
def name : Format → Text
  | script => "script"
  | module => "module"
  | node => "node"

/-- The format with a name. -/
def ofName (name : Text) : Except WrapError Format :=
  match all.find? (·.name == name) with
  | some f => .ok f
  | none => .error (.unknownFormat name (Closeness.ranked name (all.map Format.name)).head?)

end Format

namespace Wrapper

/-- The sources of the templates for the parts of a file and for the formats, in the order of their
names. -/
def components : List (Text × Text) :=
  [("body", "\x7b\x7bdefine \"body\"\x7d\x7d\x7b\x7b.Body\x7d\x7d\x7b\x7bend\x7d\x7d"),
    ("header",
      "\x7b\x7bdefine \"header\"\x7d\x7d// Code generated by pyjs from \x7b\x7b.Name\x7d\x7d. DO NOT EDIT.\n// program \x7b\x7b.ID\x7d\x7d\n\x7b\x7bend\x7d\x7d"),
    ("module",
      "\x7b\x7bdefine \"module\"\x7d\x7d\x7b\x7btemplate \"header\" .\x7d\x7d(function () \x7b\n\"use strict\";\n\x7b\x7btemplate \"body\" .\x7d\x7d\n\x7d)();\n\x7b\x7bend\x7d\x7d"),
    ("node",
      "\x7b\x7bdefine \"node\"\x7d\x7d#!/usr/bin/env node\n\x7b\x7btemplate \"header\" .\x7d\x7d\"use strict\";\n\x7b\x7btemplate \"body\" .\x7d\x7d\n\x7b\x7bend\x7d\x7d"),
    ("script",
      "\x7b\x7bdefine \"script\"\x7d\x7d\x7b\x7btemplate \"header\" .\x7d\x7d\x7b\x7btemplate \"body\" .\x7d\x7d\n\x7b\x7bend\x7d\x7d")]

/-- The source of a component. -/
def component? (name : Text) : Option Text := components.lookup name

/-- The sources of all components. -/
def allComponents : Text := Text.join "\n" (components.map (·.2))

/-- The templates of the components. -/
def library : Template.Library := (Template.parse? "components" allComponents).getD []

/-- The empty texts behind a list of so many: a list that is full gets room for as many again. -/
def spare (length : Nat) : List Text :=
  if length = 0 then [] else List.replicate (length.nextPowerOfTwo - length) []

/-- What a template sees of a program. -/
def datum (name : Text) (p : Compiled) : Template.Datum :=
  let name : Text := if name.isEmpty then "stdin" else name
  let statements := p.program.statements.map fun s => (s.render).getD []
  .record
    [("Name", .text name), ("ID", .text p.fingerprint.describe),
      ("Body", .text (p.program.render.getD [])),
      ("Statements", .list statements (spare statements.length))]

/-- Writes the file of a program in a format. -/
def wrap (p : Option Compiled) (name : Text) (f : Format) : Except WrapError Text :=
  match p with
  | none => .error .noProgram
  | some p =>
    match library.write? f.name (datum name p) with
    | some t => .ok t
    | none => .error .failedTemplate

/-- Writes the file of a program by a template of one's own. -/
def wrapBy (p : Option Compiled) (name template : Text) : Except WrapError Text :=
  if template.isBlank then .error .emptyTemplate
  else
    match p with
    | none => .error .noProgram
    | some p =>
      match Template.parse? "custom" template with
      | none => .error .unreadableTemplate
      | some custom =>
        match (custom.foldl Template.Library.add library).write? "custom" (datum name p) with
        | some t => .ok t
        | none => .error .failedTemplate

end Wrapper

end Offside
