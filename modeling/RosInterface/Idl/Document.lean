import RosInterface.Text.Lines
import RosInterface.Idl.Comment
import RosInterface.Idl.Annotation
import RosInterface.Idl.Statement

/-!
# IDL files

The declarations of an IDL file are collected line by line. Of each line the comment is cut, then
the blanks at the ends, then the annotations. What has been read so far is a `Progress`: the
declarations that are complete, the modules that are open, and the struct or enum that is open.

## Main definitions

* `Idl.Error`: why a text is no IDL file.
* `Idl.Progress`: what has been read so far.
* `Idl.Progress.step`: what one more line adds.
* `Idl.declarations`: what a whole text declares.
-/

namespace RosInterface.Idl

open Text

/-- Why a text is no IDL file. Lines are counted from one. -/
inductive Error where
  /-- A declaration of a kind that is not supported. -/
  | unsupported (line : Nat) (text : List Char)
  /-- A typedef in the body of a struct or enum. -/
  | typedefInBody (line : Nat)
  /-- A module in the body of a struct or enum. -/
  | moduleInBody (line : Nat)
  /-- A struct or enum in the body of another one. -/
  | nested (line : Nat) (text : List Char)
  /-- A statement that cannot be read. -/
  | malformed (line : Nat) (error : SyntaxError)
  /-- A closing brace without anything to close. -/
  | unmatchedBrace (line : Nat)
  /-- Content outside the bodies of structs and enums. -/
  | unexpected (line : Nat) (text : List Char)
  /-- A struct that is still open at the end. -/
  | unclosedStruct
  /-- An enum that is still open at the end. -/
  | unclosedEnum
  /-- Modules that are still open at the end. -/
  | unclosedModules (modules : Path)
deriving DecidableEq

/-- The text that tells a user about the error. -/
def Error.message : Error → String
  | unsupported line text =>
    "unsupported IDL declaration at line " ++ numeral line ++ ": " ++ String.ofList text
  | typedefInBody line => "typedef inside a declaration at line " ++ numeral line
  | moduleInBody line => "module inside a declaration at line " ++ numeral line
  | nested line text =>
    "nested declaration unsupported at line " ++ numeral line ++ ": " ++ String.ofList text
  | malformed line error => "parse error at line " ++ numeral line ++ ": " ++ error.message
  | unmatchedBrace line => "unmatched closing brace at line " ++ numeral line
  | unexpected line text =>
    "unexpected top-level statement at line " ++ numeral line ++ ": " ++ String.ofList text
  | unclosedStruct => "unclosed struct declaration"
  | unclosedEnum => "unclosed enum declaration"
  | unclosedModules modules => "unclosed module '" ++ "::".intercalate modules ++ "'"

/-- A struct or enum that is open. -/
inductive Body where
  /-- A struct, with the members so far. -/
  | struct (name : String) (members : List Member)
  /-- An enum, with the values so far. -/
  | enum (name : String) (values : List String)
deriving DecidableEq

/-- What has been read so far. -/
structure Progress where
  /-- The declarations that are complete. -/
  declarations : Declarations
  /-- The modules that are open, the outermost first. -/
  modules : Path
  /-- The struct or enum that is open. -/
  body : Option Body
  /-- The state of the annotations. -/
  annotations : AnnotationState

namespace Progress

/-- Nothing has been read. -/
def start : Progress :=
  ⟨.empty, [], none, .start⟩

/-- A line is one that can be read: its comment, the blanks at its ends and its annotations are
taken away. -/
def prepare (progress : Progress) (raw : List Char) : Progress × List Char :=
  let (annotations, line) := skipAnnotations progress.annotations (trim (withoutComment raw))
  ({ progress with annotations }, line)

/-- Declares a typedef in the modules that are open. -/
def addTypedef (progress : Progress) (member : Member) : Progress :=
  let declarations := progress.declarations
  let path := progress.modules ++ [member.name]
  let typedefs := declarations.typedefs.insert path member
  { progress with declarations := { declarations with typedefs } }

/-- Closes the struct or enum that is open, or else the innermost module. -/
def close (line : Nat) (progress : Progress) : Except Error Progress :=
  let declarations := progress.declarations
  match progress.body with
  | some (.struct name members) =>
    let structs := declarations.structs ++ [(progress.modules ++ [name], members)]
    .ok { progress with body := none, declarations := { declarations with structs } }
  | some (.enum name values) =>
    let enums := declarations.enums.insert (progress.modules ++ [name]) values
    .ok { progress with body := none, declarations := { declarations with enums } }
  | none =>
    if progress.modules.isEmpty then .error (.unmatchedBrace line)
    else .ok { progress with modules := progress.modules.dropLast }

/-- Reads a line in the body of the struct or enum that is open. -/
def addContent (line : Nat) (text : List Char) (progress : Progress) : Except Error Progress :=
  match progress.body with
  | some (.struct name members) =>
    match memberOfLine text with
    | .error e => .error (.malformed line (.member e))
    | .ok member => .ok { progress with body := some (.struct name (members ++ [member])) }
  | some (.enum name values) =>
    match enumValueOfLine text with
    | .error e => .error (.malformed line e)
    | .ok value => .ok { progress with body := some (.enum name (values ++ value.toList)) }
  | none => .error (.unexpected line text)

/-- Adds what a prepared line says. -/
def execute (line : Nat) (text : List Char) (progress : Progress) : Except Error Progress :=
  let inBody := progress.body.isSome
  match Statement.ofLine text with
  | .skipped => .ok progress
  | .unsupported => .error (.unsupported line text)
  | .typedef =>
    if inBody then .error (.typedefInBody line)
    else
      match typedefOfLine text with
      | .error e => .error (.malformed line (.typedef e))
      | .ok member => .ok (progress.addTypedef member)
  | .openModule name =>
    if inBody then .error (.moduleInBody line)
    else .ok { progress with modules := progress.modules ++ [name] }
  | .openStruct name =>
    if inBody then .error (.nested line text)
    else .ok { progress with body := some (.struct name []) }
  | .openEnum name =>
    if inBody then .error (.nested line text)
    else .ok { progress with body := some (.enum name []) }
  | .close => progress.close line
  | .content => progress.addContent line text

/-- Adds what a line of the text says. -/
def step (line : Nat) (raw : List Char) (progress : Progress) : Except Error Progress :=
  let (progress, text) := progress.prepare raw
  progress.execute line text

/-- Adds what lines of the text say, the first of which has the given number. -/
def run (line : Nat) : List (List Char) → Progress → Except Error Progress
  | [], progress => .ok progress
  | raw :: rest, progress =>
    match progress.step line raw with
    | .error e => .error e
    | .ok progress => run (line + 1) rest progress

/-- The declarations of a text that has been read to its end. Whatever was opened is closed. -/
def finish (progress : Progress) : Except Error Declarations :=
  match progress.body with
  | some (.struct _ _) => .error .unclosedStruct
  | some (.enum _ _) => .error .unclosedEnum
  | none =>
    if progress.modules.isEmpty then .ok progress.declarations
    else .error (.unclosedModules progress.modules)

end Progress

/-- What an IDL file declares. -/
def declarations (text : List Char) : Except Error Declarations :=
  match Progress.run 1 (lines text) .start with
  | .error e => .error e
  | .ok progress => progress.finish

end RosInterface.Idl
