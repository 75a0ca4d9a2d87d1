import RosInterface.Text.Lines
import RosInterface.Msg.Line

/-!
# Message specifications

A message specification is the definition of a message. The definitions of the messages that it
depends on may follow it, each after a line of equals signs and a header line `MSG:` with a name.
Their fields are not used, but they must be well-formed.

## Main definitions

* `Msg.SpecificationError`: why a text is no specification.
* `Msg.dependencies`: the definitions of other messages in a text.
* `Msg.specificationFields`: the fields of the message that a text defines.
-/

namespace RosInterface.Msg

open Text

/-- Why a text is no specification of a message. -/
inductive SpecificationError where
  /-- The definition of the message is malformed. -/
  | malformedMain
  /-- The definition of a message that it depends on is malformed. -/
  | malformedDependency (name : String)
  /-- A string literal is a single quote, which makes the reader give up. -/
  | loneQuote
deriving DecidableEq

/-- The parts of a text between separators. -/
def parts : List (List Char) → List (List (List Char))
  | [] => [[]]
  | line :: rest =>
    if isSeparator (trim line) then [] :: parts rest
    else
      match parts rest with
      | [] => [[line]]
      | part :: more => (line :: part) :: more

/-- The name and the lines of the definition in a part that begins with a header. -/
def dependency? : List (List Char) → Option (String × List (List Char))
  | header :: line :: rest =>
    ("MSG: ".toList.isPrefixOf? (trim header)).map fun name =>
      (String.ofList (trim name), line :: rest)
  | _ => none

/-- The definitions of other messages in a text. -/
def dependencies (text : List Char) : List (String × List (List Char)) :=
  (parts (lines text)).filterMap dependency?

/-- The lines of a text before the first separator. -/
def mainLines (text : List Char) : List (List Char) :=
  (lines text).takeWhile fun line => !isSeparator (trim line)

/-- The error for a failure in a part of a text. -/
def SpecificationError.ofFailure (malformed : SpecificationError) : Failure → SpecificationError
  | .malformed => malformed
  | .loneQuote => .loneQuote

/-- Requires that the definition of a message is well-formed. -/
def checkDependency (definition : String × List (List Char)) : Except SpecificationError Unit :=
  match fieldsOfLines definition.2 with
  | .error e => .error (.ofFailure (.malformedDependency definition.1) e)
  | .ok _ => .ok ()

/-- The fields of the message that a text defines. -/
def specificationFields (text : List Char) : Except SpecificationError (List MessageField) :=
  match fieldsOfLines (mainLines text) with
  | .error e => .error (.ofFailure .malformedMain e)
  | .ok fields => do
    (dependencies text).forM checkDependency
    return fields

end RosInterface.Msg
