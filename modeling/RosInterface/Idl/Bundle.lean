import RosInterface.Idl.Document
import RosInterface.Idl.Scope

/-!
# IDL bundles

A *bundle* is the text of several IDL files, with lines of equals signs between them. Each section
begins with a header line, `IDL:` and the path of the interface in the section. Blank lines and
the blanks at the ends of lines do not count. All sections share one scope: a name in one of them
may refer to a declaration in another.

## Main definitions

* `Idl.Section`: a section of a bundle.
* `Idl.sections`: the sections of a bundle.
* `Idl.findSection?`: the section of an interface.
* `Idl.records`, `Idl.bundleRecords`: the records that a file or a bundle declares.
-/

namespace RosInterface.Idl

open Text

/-- Why a text is no bundle. -/
inductive BundleError where
  /-- A section does not begin with a header but with another line. -/
  | missingHeader (line : List Char)
  /-- A header has no path. -/
  | emptyPath
  /-- There are no sections. -/
  | noSections
  /-- The text of a section is no IDL file. -/
  | malformedSection (path : Path) (error : Error)
deriving DecidableEq

/-- The text that tells a user about the error. -/
def BundleError.message : BundleError → String
  | missingHeader line => "missing `IDL:` header: " ++ String.ofList line
  | emptyPath => "empty IDL path in section header"
  | noSections => "no IDL sections found"
  | malformedSection path error => "IDL section '" ++ "/".intercalate path ++ "': " ++ error.message

/-- A section of a bundle. -/
structure Section where
  /-- The path in the header. -/
  path : Path
  /-- The lines after the header. -/
  body : List (List Char)
deriving DecidableEq

/-- The text of a section: its lines with line feeds between them. -/
def Section.text (s : Section) : List Char :=
  List.intercalate ['\n'] s.body

/-- A trimmed line that separates sections: one or more equals signs. -/
def isSeparator (line : List Char) : Bool :=
  !line.isEmpty && line.all (· == '=')

/-- The groups of lines between separators. The first group may be empty, and so may others. -/
def groups : List (List Char) → List (List (List Char))
  | [] => [[]]
  | line :: rest =>
    if isSeparator line then [] :: groups rest
    else
      match groups rest with
      | [] => [[line]]
      | group :: more => (line :: group) :: more

/-- The section of a group of lines that are not blank. -/
def sectionOfLines (header : List Char) (body : List (List Char)) :
    Except BundleError Section :=
  match "IDL:".toList.isPrefixOf? header with
  | none => .error (.missingHeader header)
  | some path =>
    if (pathSegments path).isEmpty then .error .emptyPath
    else .ok ⟨pathSegments path, body⟩

/-- The sections of groups of lines. A group without lines is no section. -/
def sectionsOfGroups : List (List (List Char)) → Except BundleError (List Section)
  | [] => .ok []
  | [] :: rest => sectionsOfGroups rest
  | (header :: body) :: rest => do
    let first ← sectionOfLines header body
    let others ← sectionsOfGroups rest
    return first :: others

/-- The lines of a bundle that are not blank, trimmed. -/
def bundleLines (text : List Char) : List (List Char) :=
  ((lines text).map trim).filter fun line => !line.isEmpty

/-- The sections of a bundle, of which there must be one. -/
def sections (text : List Char) : Except BundleError (List Section) := do
  let sections ← sectionsOfGroups (groups (bundleLines text))
  if sections.isEmpty then throw .noSections
  return sections

/-- The first section whose header has the path of a name. -/
def findSection? (sections : List Section) (name : String) : Option Section :=
  sections.find? fun s => s.path = pathSegments name.toList

/-! ### Records -/

/-- The records that an IDL file declares. -/
def records (text : List Char) : Except Error (List Record) :=
  (declarations text).map Declarations.records

/-- The declarations of sections, added to declarations that were read before. -/
def mergeSections (before : Declarations) : List Section → Except BundleError Declarations
  | [] => .ok before
  | s :: rest =>
    match declarations s.text with
    | .error e => .error (.malformedSection s.path e)
    | .ok found => mergeSections (before.merge found) rest

/-- The records that a bundle declares. -/
def bundleRecords (text : List Char) : Except BundleError (List Record) := do
  let sections ← sections text
  let declarations ← mergeSections .empty sections
  return declarations.records

end RosInterface.Idl
