import RosInterface.QualifiedName
import RosInterface.Msg.Specification

/-!
# Interface definitions

The definition of a message is one specification. That of a service has two, for the request and
the response, and that of an action three, for the goal, the result and the feedback, with a line
of three dashes between them. A section without any declaration defines a record without fields.

## Main definitions

* `Msg.Error`: why a text is no definition of an interface.
* `Msg.sections`: the sections of a definition.
* `Msg.recordName`: the qualified name of an interface of a known kind.
* `Msg.Reader`: how specifications are read.
* `Msg.messageRecordsWith`, `Msg.serviceRecordsWith`, `Msg.actionRecordsWith`,
  `Msg.interfaceRecordsWith`: the records that a text defines, with a given reader.
* `Msg.reader`: the reader of this library.
* `Msg.messageRecords`, `Msg.serviceRecords`, `Msg.actionRecords`, `Msg.interfaceRecords`: the
  records that a text defines, with this reader.

## Main results

* `Msg.length_sections`: a text has one section more than it has lines of three dashes.
-/

namespace RosInterface.Msg

open Text

/-- Why a text is no definition of an interface. -/
inductive Error where
  /-- The name is empty. -/
  | invalidName (name : String)
  /-- The name is not that of an interface of the kind. -/
  | invalidNameFormat (name : String)
  /-- A service or an action has a wrong number of sections. -/
  | wrongSectionCount (owner : String) (name : QualifiedName) (expected found : Nat)
  /-- The section of a record is malformed. -/
  | malformed (record : QualifiedName) (error : SpecificationError)
deriving DecidableEq

namespace Error

/-- The text that tells a user about the error. -/
def message : Error → String
  | invalidName name => "invalid interface name: " ++ name
  | invalidNameFormat name => "invalid interface name format: " ++ name
  | wrongSectionCount owner name expected found =>
    owner ++ " '" ++ name.text ++ "' must have " ++ numeral expected
      ++ " sections separated by '---', found " ++ numeral found
  | malformed record .malformedMain =>
    "failed to parse '" ++ record.text ++ "': failed to parse main message spec `" ++ record.text
      ++ "`"
  | malformed record (.malformedDependency name) =>
    "failed to parse '" ++ record.text ++ "': failed to parse dependent message spec `" ++ name
      ++ "`"
  | malformed record .loneQuote =>
    "failed to parse '" ++ record.text ++ "': a string literal is a single quote"

/-- The reader gave up, so that there is no answer at all. -/
def isFatal : Error → Bool
  | malformed _ .loneQuote => true
  | _ => false

end Error

/-! ### Sections -/

/-- A line of three dashes. -/
def isDashes (line : List Char) : Bool :=
  trim line = ['-', '-', '-']

/-- The texts between the lines of three dashes. -/
def sectionsOfLines : List (List Char) → List (List Char)
  | [] => [[]]
  | line :: rest =>
    if isDashes line then [] :: sectionsOfLines rest
    else
      match sectionsOfLines rest with
      | [] => [line]
      | first :: more => (line ++ first) :: more

/-- The sections of a definition. -/
def sections (text : List Char) : List (List Char) :=
  sectionsOfLines (rawLines text)

theorem length_sectionsOfLines (ls : List (List Char)) :
    (sectionsOfLines ls).length = ls.countP isDashes + 1 := by
  induction ls with
  | nil => rfl
  | cons line rest ih =>
    rw [sectionsOfLines]
    by_cases h : isDashes line
    · simp [h, ih]
    · rw [if_neg h, List.countP_cons_of_neg h, ← ih]
      split <;> rename_i hs
      · rw [hs] at ih
        simp at ih
      · rw [hs]
        rfl

/-- A text has one section more than it has lines of three dashes. -/
theorem length_sections (text : List Char) :
    (sections text).length = (rawLines text).countP isDashes + 1 :=
  length_sectionsOfLines (rawLines text)

/-- A text that declares nothing: it has only blank lines and comments. -/
def declaresNothing (text : List Char) : Bool :=
  (lines text).all fun line => (trim line).isEmpty || ['#'].isPrefixOf (trim line)

/-! ### Records -/

/-- How the specification of a record is read: the fields that a text declares. -/
abbrev Reader :=
  QualifiedName → List Char → Except SpecificationError (List MessageField)

/-- The qualified name of an interface of a kind: a package, the segment of the kind and a name.
The segment of a message may be left out. -/
def recordName (kind : Kind) (name : String) : Except Error QualifiedName :=
  match QualifiedName.parse? name with
  | none => .error (.invalidNameFormat name)
  | some q =>
    match q.namespaces with
    | [_, segment] => if segment = kind.segment then .ok q else .error (.invalidNameFormat name)
    | [package] =>
      if kind = .message then .ok { q with namespaces := [package, kind.segment] }
      else .error (.invalidNameFormat name)
    | _ => .error (.invalidNameFormat name)

/-- The record that a section defines. -/
def sectionRecord (read : Reader) (record : QualifiedName) (text : List Char) :
    Except Error Record :=
  if declaresNothing text then .ok ⟨record.text, []⟩
  else
    match read record text with
    | .error e => .error (.malformed record e)
    | .ok fields =>
      let package := record.package?.getD ""
      .ok ⟨record.text, fields.map fun field => ⟨field.name, field.type.descriptor package⟩⟩

/-- The records that sections define, each named after the owner with one of the suffixes. -/
def partRecords (read : Reader) (owner : QualifiedName) :
    List String → List (List Char) → Except Error (List Record)
  | suffix :: suffixes, text :: texts => do
    let first ← sectionRecord read (owner.withName (owner.name ++ suffix)) text
    let others ← partRecords read owner suffixes texts
    return first :: others
  | _, _ => .ok []

/-- The records of a definition that must have a section for each suffix. -/
def sectionedRecords (read : Reader) (ownerWord : String) (owner : QualifiedName)
    (suffixes : List String) (text : List Char) : Except Error (List Record) :=
  let found := sections text
  if found.length = suffixes.length then partRecords read owner suffixes found
  else .error (.wrongSectionCount ownerWord owner suffixes.length found.length)

/-- The record that a text defines as a message, with a given reader of specifications. -/
def messageRecordsWith (read : Reader) (name : String) (text : List Char) :
    Except Error (List Record) := do
  let owner ← recordName .message name
  let record ← sectionRecord read owner text
  return [record]

/-- The records that a text defines as a service, with a given reader of specifications. -/
def serviceRecordsWith (read : Reader) (name : String) (text : List Char) :
    Except Error (List Record) := do
  let owner ← recordName .service name
  sectionedRecords read "service" owner ServiceParts.suffixes.toList text

/-- The records that a text defines as an action, with a given reader of specifications. -/
def actionRecordsWith (read : Reader) (name : String) (text : List Char) :
    Except Error (List Record) := do
  let owner ← recordName .action name
  sectionedRecords read "action" owner ActionParts.suffixes.toList text

/-- The records that a text defines as an interface of the kind that stands in the name, or as a
message if none does. -/
def interfaceRecordsWith (read : Reader) (name : String) (text : List Char) :
    Except Error (List Record) :=
  match QualifiedName.parse? name with
  | none => .error (.invalidName name)
  | some q =>
    match q.kindSegment?.bind Kind.ofSegment? with
    | some .service => serviceRecordsWith read name text
    | some .action => actionRecordsWith read name text
    | _ => messageRecordsWith read name text

/-! ### The reader of this library -/

/-- The reader of specifications of this library, which has no use for the name of the record. -/
def reader : Reader :=
  fun _ => specificationFields

/-- The record that a text defines as a message. -/
def messageRecords : String → List Char → Except Error (List Record) :=
  messageRecordsWith reader

/-- The records that a text defines as a service. -/
def serviceRecords : String → List Char → Except Error (List Record) :=
  serviceRecordsWith reader

/-- The records that a text defines as an action. -/
def actionRecords : String → List Char → Except Error (List Record) :=
  actionRecordsWith reader

/-- The records that a text defines as an interface of the kind that stands in the name. -/
def interfaceRecords : String → List Char → Except Error (List Record) :=
  interfaceRecordsWith reader

end RosInterface.Msg
