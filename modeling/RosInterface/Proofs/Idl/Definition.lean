import RosInterface.Proofs.Idl.MemberText
import RosInterface.Idl.Document

/-!
# Writing IDL files

What an IDL file declares is a list of trees: modules hold further definitions, and structs, enums
and typedefs are their leaves. A tree is written with one line for every member, value and
typedef, and with two lines for what opens and closes a module, a struct or an enum.

## Main definitions

* `Idl.Definition`: a module, a struct, an enum or a typedef.
* `Idl.Definition.lines`, `Idl.fileText`: definitions as lines, and as a file.
* `Idl.Definition.contents`: the structs, enums and typedefs below a definition, under their full
  paths and in the order of the text.
* `Idl.Definition.IsPrintable`: the definitions that can be written.

## Main results

* `Idl.Declarations.structs_addAll`, `Idl.Declarations.enums_addAll`,
  `Idl.Declarations.typedefs_addAll`: what contents add to declarations.
-/

namespace RosInterface.Idl

open Text

/-- A definition in an IDL file. -/
inductive Definition where
  /-- A module with the definitions in it. -/
  | module (name : String) (body : List Definition)
  /-- A struct with its members. -/
  | struct (name : String) (members : List Member)
  /-- An enum with its values. -/
  | enum (name : String) (values : List String)
  /-- A typedef, as the member that stands for it. -/
  | typedef (target : Member)

/-- What is declared under a path. -/
inductive Content where
  /-- A struct with its members. -/
  | struct (members : List Member)
  /-- An enum with its values. -/
  | enum (values : List String)
  /-- A typedef. -/
  | typedef (target : Member)

/-! ### Definitions as text -/

/-- The line of a member. -/
def Member.line (member : Member) : List Char :=
  memberLine member.type.text member.name member.length

/-- The line of a typedef. -/
def typedefLine (target : Member) : List Char :=
  "typedef".toList ++ ' ' :: target.line

theorem typedefLine_eq (target : Member) :
    typedefLine target = "typedef".toList ++ ' ' :: target.line :=
  rfl

/-- The line of a value of an enum. -/
def valueLine (value : String) : List Char :=
  value.toList ++ [',']

/-- The line that opens a module, a struct or an enum. -/
def openingLine (keyword name : String) : List Char :=
  keyword.toList ++ ' ' :: (name.toList ++ [' ', '\x7b'])

/-- The line that closes a module, a struct or an enum. -/
def closingLine : List Char :=
  ['\x7d', ';']

mutual

/-- The lines of a definition. -/
def Definition.lines : Definition → List (List Char)
  | .module name body => openingLine "module" name :: (linesOfAll body ++ [closingLine])
  | .struct name members => openingLine "struct" name :: (members.map Member.line ++ [closingLine])
  | .enum name values => openingLine "enum" name :: (values.map valueLine ++ [closingLine])
  | .typedef target => [typedefLine target]

/-- The lines of definitions. -/
def linesOfAll : List Definition → List (List Char)
  | [] => []
  | definition :: others => definition.lines ++ linesOfAll others

end

/-- A file with definitions, each line of which is ended by a line feed. -/
def fileText (file : List Definition) : List Char :=
  (linesOfAll file).flatMap (· ++ ['\n'])

/-! ### What definitions declare -/

mutual

/-- What a definition in a module declares, under full paths. -/
def Definition.contents (modules : Path) : Definition → List (Path × Content)
  | .module name body => contentsOfAll (modules ++ [name]) body
  | .struct name members => [(modules ++ [name], .struct members)]
  | .enum name values => [(modules ++ [name], .enum values)]
  | .typedef target => [(modules ++ [target.name], .typedef target)]

/-- What definitions in a module declare, under full paths. -/
def contentsOfAll (modules : Path) : List Definition → List (Path × Content)
  | [] => []
  | definition :: others => definition.contents modules ++ contentsOfAll modules others

end

/-- What definitions declare is what each of them declares, in order. -/
theorem contentsOfAll_eq_flatMap (modules : Path) (definitions : List Definition) :
    contentsOfAll modules definitions = definitions.flatMap (Definition.contents modules) := by
  induction definitions with
  | nil => rfl
  | cons definition others ih => rw [contentsOfAll, List.flatMap_cons, ih]

/-- The structs among contents. -/
def structsOf (contents : List (Path × Content)) : List (Path × List Member) :=
  contents.filterMap fun
    | (path, .struct members) => some (path, members)
    | _ => none

/-- The enums among contents. -/
def enumsOf (contents : List (Path × Content)) : List (Path × List String) :=
  contents.filterMap fun
    | (path, .enum values) => some (path, values)
    | _ => none

/-- The typedefs among contents. -/
def typedefsOf (contents : List (Path × Content)) : List (Path × Member) :=
  contents.filterMap fun
    | (path, .typedef target) => some (path, target)
    | _ => none

namespace Declarations

/-- The declarations with one more. -/
def add (declarations : Declarations) : Path × Content → Declarations
  | (path, .struct members) =>
    { declarations with structs := declarations.structs ++ [(path, members)] }
  | (path, .enum values) => { declarations with enums := declarations.enums.insert path values }
  | (path, .typedef target) =>
    { declarations with typedefs := declarations.typedefs.insert path target }

/-- The declarations with more, one after the other. -/
def addAll (declarations : Declarations) (contents : List (Path × Content)) : Declarations :=
  contents.foldl add declarations

theorem addAll_append (declarations : Declarations) (contents more : List (Path × Content)) :
    declarations.addAll (contents ++ more) = (declarations.addAll contents).addAll more :=
  List.foldl_append

/-- The structs are listed in the order in which they are added. -/
theorem structs_addAll (contents : List (Path × Content)) (declarations : Declarations) :
    (declarations.addAll contents).structs = declarations.structs ++ structsOf contents := by
  induction contents generalizing declarations with
  | nil => exact (List.append_nil _).symm
  | cons entry contents ih =>
    rw [addAll, List.foldl_cons, ← addAll, ih]
    obtain ⟨path, content⟩ := entry
    cases content with
    | struct members => exact List.append_assoc _ _ _
    | enum values => rfl
    | typedef target => rfl

/-- The enums are inserted in the order in which they are added. -/
theorem enums_addAll (contents : List (Path × Content)) (declarations : Declarations) :
    (declarations.addAll contents).enums = declarations.enums.insertAll (enumsOf contents) := by
  induction contents generalizing declarations with
  | nil => rfl
  | cons entry contents ih =>
    rw [addAll, List.foldl_cons, ← addAll, ih]
    obtain ⟨path, content⟩ := entry
    cases content <;> rfl

/-- The typedefs are inserted in the order in which they are added. -/
theorem typedefs_addAll (contents : List (Path × Content)) (declarations : Declarations) :
    (declarations.addAll contents).typedefs
      = declarations.typedefs.insertAll (typedefsOf contents) := by
  induction contents generalizing declarations with
  | nil => rfl
  | cons entry contents ih =>
    rw [addAll, List.foldl_cons, ← addAll, ih]
    obtain ⟨path, content⟩ := entry
    cases content <;> rfl

/-- Structs are listed, enums and typedefs are inserted in the order in which they are added. -/
theorem addAll_eq (contents : List (Path × Content)) (declarations : Declarations) :
    declarations.addAll contents = ⟨declarations.structs ++ structsOf contents,
      declarations.enums.insertAll (enumsOf contents),
      declarations.typedefs.insertAll (typedefsOf contents)⟩ := by
  rw [← structs_addAll, ← enums_addAll, ← typedefs_addAll]

end Declarations

/-! ### Definitions that can be written -/

/-- The member can be written: its name does not run into a basic type before it. -/
structure Member.IsPrintable (member : Member) : Prop where
  /-- The name is an identifier. -/
  name : isIdentifier member.name = true
  /-- The type can be written. -/
  type : member.type.IsPrintable
  /-- The number of elements is a word. -/
  length : FitsWord member.length
  /-- The name of a `long` member does not go on with the type. -/
  long : member.type = .basic .long →
    ¬"long".toList <+: member.name.toList ∧ ¬"double".toList <+: member.name.toList
  /-- The name of an `unsigned long` member does not go on with the type. -/
  unsignedLong : member.type = .basic .unsignedLong → ¬"long".toList <+: member.name.toList

instance (member : Member) : Decidable member.IsPrintable :=
  decidable_of_iff
    (isIdentifier member.name = true ∧ member.type.IsPrintable ∧ FitsWord member.length ∧
      (member.type = .basic .long → ¬"long".toList <+: member.name.toList ∧
        ¬"double".toList <+: member.name.toList) ∧
      (member.type = .basic .unsignedLong → ¬"long".toList <+: member.name.toList))
    ⟨fun ⟨hn, ht, hl, h, h'⟩ => ⟨hn, ht, hl, h, h'⟩, fun h => ⟨h.1, h.2, h.3, h.4, h.5⟩⟩

mutual

/-- The definition can be written. -/
def Definition.IsPrintable : Definition → Prop
  | .module name body => isIdentifier name = true ∧ AllPrintable body
  | .struct name members => isIdentifier name = true ∧ ∀ member ∈ members, member.IsPrintable
  | .enum name values => isIdentifier name = true ∧ ∀ value ∈ values, isIdentifier value = true
  | .typedef target => target.IsPrintable

/-- The definitions can be written. -/
def AllPrintable : List Definition → Prop
  | [] => True
  | definition :: others => definition.IsPrintable ∧ AllPrintable others

end

theorem allPrintable_iff {definitions : List Definition} :
    AllPrintable definitions ↔ ∀ definition ∈ definitions, definition.IsPrintable := by
  induction definitions with
  | nil => exact ⟨fun _ definition h => (nomatch h), fun _ => trivial⟩
  | cons definition others ih => rw [AllPrintable, ih, List.forall_mem_cons]

end RosInterface.Idl
