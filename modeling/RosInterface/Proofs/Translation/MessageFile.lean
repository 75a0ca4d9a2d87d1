import RosInterface.Msg.Interface
import RosInterface.Proofs.Idl.Names
import RosInterface.Proofs.Idl.Referent
import RosInterface.Proofs.Idl.RoundTrip
import RosInterface.Proofs.Naming.Path

/-!
# Messages written as IDL files

A message may be written as an IDL file: a struct in a module `msg` in the module of the package.
Its built-in types have other names there, arrays without a fixed size are sequences, and names of
other messages are written with their modules. An array of a fixed size is written through a
typedef of its own. Fields with the same array may share it.

The record that is read from the specification of the message and the one that is read from its IDL
file are the same.

## Main definitions

* `Msg.MessageType.idlType`, `Msg.MessageType.typedef?`: a type as it is written in IDL.
* `Msg.MessageFile`: a message with names for the typedefs.
* `Msg.MessageFile.record`, `Msg.MessageFile.idlText`: the record of a message, and its IDL file.
* `Msg.MessageFile.IsWritable`: the messages that can be written.
* `Msg.MessageFile.IsDelivered`: a reader delivers the fields of the message for a text.

## Main results

* `Msg.MessageFile.declarations_idlText`: what the IDL file declares.
* `Msg.MessageFile.messageRecordsWith_eq`, `Msg.MessageFile.records_eq`: the record of either form.
* `Msg.MessageFile.messageRecordsWith_and_records_eq`: both forms give the same record.
-/

namespace RosInterface

/-- The size of an array fits a word of 64 bits. -/
def Extent.FitsWord : Extent → Prop
  | fixed count => count < UInt64.size
  | bounded limit => limit < UInt64.size
  | unbounded => True

instance : (extent : Extent) → Decidable extent.FitsWord
  | .fixed count => inferInstanceAs (Decidable (count < UInt64.size))
  | .bounded limit => inferInstanceAs (Decidable (limit < UInt64.size))
  | .unbounded => isTrue trivial

namespace Msg

open Text Idl

/-! ### Types -/

/-- A built-in type as it is written in IDL. -/
def BuiltinType.idlType : BuiltinType → TypeExpr
  | bool => .basic .boolean
  | byte => .basic .octet
  | char => .basic .uint8
  | int8 => .basic .int8
  | uint8 => .basic .uint8
  | int16 => .basic .int16
  | uint16 => .basic .uint16
  | int32 => .basic .int32
  | uint32 => .basic .uint32
  | int64 => .basic .int64
  | uint64 => .basic .uint64
  | float32 => .basic .float
  | float64 => .basic .double
  | string limit => .string limit
  | wideString limit => .wideString limit

/-- The limit of a string, if there is one. -/
def BuiltinType.limit? : BuiltinType → Option Nat
  | string limit => limit
  | wideString limit => limit
  | _ => none

namespace MessageType

/-- A type as it is written in IDL in a package. A name stands for an array of a fixed size. -/
def idlType (package arrayName : String) : MessageType → TypeExpr
  | builtin type => type.idlType
  | absolute package name => .named [package, "msg", name]
  | relative name => .named [package, "msg", name]
  | array _ (.fixed _) => .named [arrayName]
  | array element (.bounded limit) => .sequence (element.idlType package arrayName) (some limit)
  | array element .unbounded => .sequence (element.idlType package arrayName) none

/-- The typedef of the name for an array of a fixed size. -/
def typedef? (package arrayName : String) : MessageType → Option Member
  | array element (.fixed count) => some ⟨arrayName, element.idlType package arrayName, some count⟩
  | _ => none

/-- The name of the message that a type refers to. -/
def messageName? : MessageType → Option String
  | builtin _ => none
  | absolute _ name => some name
  | relative name => some name
  | array element _ => element.messageName?

end MessageType

/-- An identifier that is no keyword and no word of a basic type. -/
def IsPlainName (name : String) : Prop :=
  isIdentifier name = true ∧ name ∉ reservedWords

instance (name : String) : Decidable (IsPlainName name) :=
  inferInstanceAs (Decidable (_ ∧ _))

/-- The type is no array, and it can be written. -/
def MessageType.IsElement : MessageType → Prop
  | builtin type => FitsWord type.limit?
  | absolute package name => IsPlainName package ∧ IsPlainName name
  | relative name => IsPlainName name
  | array _ _ => False

/-- The type can be written: it is no array, or an array of what is none. -/
inductive MessageType.IsWritable : MessageType → Prop
  /-- A type that is no array. -/
  | element {type : MessageType} : type.IsElement → IsWritable type
  /-- An array. -/
  | array {element : MessageType} {extent : Extent} : element.IsElement → extent.FitsWord →
      IsWritable (.array element extent)

instance : (type : MessageType) → Decidable type.IsElement
  | .builtin type => inferInstanceAs (Decidable (FitsWord type.limit?))
  | .absolute package name =>
    inferInstanceAs (Decidable (IsPlainName package ∧ IsPlainName name))
  | .relative name => inferInstanceAs (Decidable (IsPlainName name))
  | .array _ _ => isFalse id

theorem MessageType.isWritable_array_iff {element : MessageType} {extent : Extent} :
    (array element extent).IsWritable ↔ element.IsElement ∧ extent.FitsWord := by
  constructor
  · rintro (h | ⟨helement, hextent⟩)
    · exact h.elim
    · exact ⟨helement, hextent⟩
  · rintro ⟨helement, hextent⟩
    exact .array helement hextent

theorem MessageType.isWritable_iff_isElement {type : MessageType}
    (h : ∀ element extent, type ≠ array element extent) : type.IsWritable ↔ type.IsElement := by
  refine ⟨fun hwritable => ?_, .element⟩
  cases hwritable with
  | element helement => exact helement
  | array => exact absurd rfl (h _ _)

instance : (type : MessageType) → Decidable type.IsWritable
  | .array _ _ => decidable_of_iff' _ MessageType.isWritable_array_iff
  | .builtin _ => decidable_of_iff' _ (MessageType.isWritable_iff_isElement nofun)
  | .absolute _ _ => decidable_of_iff' _ (MessageType.isWritable_iff_isElement nofun)
  | .relative _ => decidable_of_iff' _ (MessageType.isWritable_iff_isElement nofun)

/-! ### Messages -/

/-- A message: its package, its name and its fields, with a name for the typedef of each field that
is an array of a fixed size. -/
structure MessageFile where
  /-- The package. -/
  package : String
  /-- The name of the message in the package. -/
  name : String
  /-- The fields. -/
  fields : List MessageField
  /-- The name for the array of a field. -/
  arrayName : MessageField → String

namespace MessageFile

variable (file : MessageFile)

/-- The qualified name of the message. -/
def qualifiedName : QualifiedName :=
  ⟨[file.package, Kind.message.segment], file.name⟩

/-- The record of the message: its fields in order, each with the descriptor of its type. -/
def record : Record :=
  ⟨file.qualifiedName.text,
    file.fields.map fun field => ⟨field.name, field.type.descriptor file.package⟩⟩

/-- The modules around the struct. -/
def modules : Path :=
  [file.package, "msg"]

/-- The typedefs for arrays of a fixed size, each once. -/
def typedefs : List Member :=
  (file.fields.filterMap fun field =>
    field.type.typedef? file.package (file.arrayName field)).eraseDups

/-- The members of the struct. -/
def members : List Member :=
  file.fields.map fun field =>
    ⟨field.name, field.type.idlType file.package (file.arrayName field), none⟩

/-- The definitions in the IDL file. -/
def definitions : List Definition :=
  [.module file.package
    [.module "msg" (file.typedefs.map .typedef ++ [.struct file.name file.members])]]

/-- The IDL file of the message. -/
def idlText : List Char :=
  fileText file.definitions

/-- The message can be written as an IDL file. -/
structure IsWritable : Prop where
  /-- The package is a plain name. -/
  package : IsPlainName file.package
  /-- The name of the message is a plain name. -/
  name : IsPlainName file.name
  /-- The fields have plain names and types that can be written. -/
  fields : ∀ field ∈ file.fields, IsPlainName field.name ∧ field.type.IsWritable
  /-- The names for arrays are plain names. -/
  arrayNames : ∀ target ∈ file.typedefs, IsPlainName target.name
  /-- The name for an array is not that of a message that a field refers to. -/
  arrayName_ne : ∀ target ∈ file.typedefs, ∀ field ∈ file.fields,
    field.type.messageName? ≠ some target.name
  /-- Different arrays have different names. -/
  arrayName_injective : ∀ target ∈ file.typedefs, ∀ other ∈ file.typedefs,
    target.name = other.name → target = other

end MessageFile

/-! ### Written definitions -/

section

variable {package arrayName name : String} {type : MessageType}

theorem IsPlainName.isSegment (h : IsPlainName name) : IsSegment name :=
  isSegment_of_isIdentifier h.1

theorem isScopedName_of_isPlainName (hpackage : IsPlainName package) (hname : IsPlainName name) :
    IsScopedName [package, "msg", name] := by
  refine ⟨List.cons_ne_nil _ _, ?_, ?_⟩
  · simp only [List.forall_mem_cons]
    exact ⟨hpackage.1, by decide, hname.1, fun _ h => nomatch h⟩
  · intro first hfirst
    obtain rfl := Option.some.inj hfirst
    exact hpackage.2

theorem BuiltinType.isPrintable_idlType {type : BuiltinType} (h : FitsWord type.limit?) :
    type.idlType.IsPrintable := by
  cases type with
  | string limit => exact h
  | wideString limit => exact h
  | _ => trivial

theorem MessageType.IsElement.isPrintable_idlType (h : type.IsElement)
    (hpackage : IsPlainName package) : (type.idlType package arrayName).IsPrintable := by
  cases type with
  | builtin type => exact BuiltinType.isPrintable_idlType h
  | absolute other name => exact isScopedName_of_isPlainName h.1 h.2
  | relative name => exact isScopedName_of_isPlainName hpackage h
  | array element extent => exact h.elim

theorem fitsWord_none : FitsWord none :=
  fun m hm => (Option.not_mem_none m hm).elim

theorem fitsWord_some {n : Nat} (h : n < UInt64.size) : FitsWord (some n) := by
  intro m hm
  exact Option.some.inj hm ▸ h

/-- A type that can be written is printed, if the name for its array is a plain name. -/
theorem MessageType.IsWritable.isPrintable_idlType (h : type.IsWritable)
    (hpackage : IsPlainName package)
    (harray : ∀ target, type.typedef? package arrayName = some target → IsPlainName target.name) :
    (type.idlType package arrayName).IsPrintable := by
  cases h with
  | element h => exact h.isPrintable_idlType hpackage
  | @array element extent helement hextent =>
    cases extent with
    | fixed count =>
      have hname : IsPlainName arrayName := harray _ rfl
      refine ⟨List.cons_ne_nil _ _, List.forall_mem_singleton.mpr hname.1, fun first hfirst => ?_⟩
      obtain rfl := Option.some.inj hfirst
      exact hname.2
    | bounded limit => exact ⟨helement.isPrintable_idlType hpackage, fitsWord_some hextent⟩
    | unbounded => exact ⟨helement.isPrintable_idlType hpackage, fitsWord_none⟩

/-- No type of a message is written as a basic type that may run into a name. -/
theorem MessageType.idlType_ne_long (type : MessageType) (package arrayName : String) :
    type.idlType package arrayName ≠ .basic .long ∧
      type.idlType package arrayName ≠ .basic .unsignedLong := by
  rcases type with ⟨_ | _⟩ | _ | _ | ⟨_, _ | _⟩ <;>
    exact ⟨nofun, nofun⟩

/-- A member whose type is written for a message is printed if its parts are. -/
theorem isPrintable_member {member : Member} (hname : IsPlainName member.name)
    (hlength : FitsWord member.length) (hprintable : member.type.IsPrintable)
    (htype : member.type = type.idlType package arrayName) : member.IsPrintable := by
  obtain ⟨hlong, hunsigned⟩ := type.idlType_ne_long package arrayName
  exact {
    name := hname.1
    type := hprintable
    length := hlength
    long := fun h => absurd (htype.symm.trans h) hlong
    unsignedLong := fun h => absurd (htype.symm.trans h) hunsigned }

/-- The typedef for an array of a fixed size can be written. -/
theorem MessageType.IsWritable.isPrintable_typedef (h : type.IsWritable)
    (hpackage : IsPlainName package) {target : Member}
    (htarget : type.typedef? package arrayName = some target) (hname : IsPlainName target.name) :
    target.IsPrintable := by
  cases h with
  | @element type helement => cases type <;> first | cases htarget | exact helement.elim
  | @array element extent helement hextent =>
    cases extent with
    | fixed count =>
      obtain rfl := Option.some.inj htarget
      exact isPrintable_member hname (fitsWord_some hextent) (helement.isPrintable_idlType hpackage)
        rfl
    | bounded limit => cases htarget
    | unbounded => cases htarget

end

namespace MessageFile

variable {file : MessageFile}

theorem mem_typedefs_iff {target : Member} : target ∈ file.typedefs ↔ ∃ field ∈ file.fields,
    field.type.typedef? file.package (file.arrayName field) = some target := by
  rw [typedefs, List.mem_eraseDups, List.mem_filterMap]

/-- The definitions of a message that can be written are printed. -/
theorem IsWritable.allPrintable (h : file.IsWritable) : AllPrintable file.definitions := by
  have htypedefs : ∀ target ∈ file.typedefs, target.IsPrintable := by
    intro target htarget
    obtain ⟨field, hfield, htypedef⟩ := mem_typedefs_iff.mp htarget
    exact (h.fields field hfield).2.isPrintable_typedef h.package htypedef
      (h.arrayNames target htarget)
  have hmembers : ∀ member ∈ file.members, member.IsPrintable := by
    refine List.forall_mem_map.mpr fun field hfield => ?_
    obtain ⟨hname, htype⟩ := h.fields field hfield
    have hprintable := htype.isPrintable_idlType h.package fun target htarget =>
      h.arrayNames target (mem_typedefs_iff.mpr ⟨field, hfield, htarget⟩)
    exact isPrintable_member hname fitsWord_none hprintable rfl
  have hinner : AllPrintable (file.typedefs.map .typedef ++ [.struct file.name file.members]) := by
    rw [allPrintable_iff, List.forall_mem_append, List.forall_mem_map, List.forall_mem_singleton]
    exact ⟨htypedefs, h.name.1, hmembers⟩
  exact ⟨⟨h.package.1, ⟨by decide, hinner⟩, trivial⟩, trivial⟩

/-! ### Written declarations -/

/-- What the IDL file declares: the struct, and the typedefs for arrays. -/
def declarations (file : MessageFile) : Declarations :=
  ⟨[(file.modules ++ [file.name], file.members)], .empty,
    .ofList (file.typedefs.map fun target => (file.modules ++ [target.name], target))⟩

theorem contentsOfAll_definitions (file : MessageFile) :
    contentsOfAll [] file.definitions =
      (file.typedefs.map fun target => (file.modules ++ [target.name], Content.typedef target)) ++
        [(file.modules ++ [file.name], .struct file.members)] := by
  simp only [definitions, contentsOfAll_eq_flatMap, List.flatMap_cons, List.flatMap_nil,
    Definition.contents, List.append_nil, List.flatMap_append, List.flatMap_map]
  rw [List.map_eq_flatMap]
  rfl

/-- **What the IDL file of a message declares.** -/
theorem declarations_idlText (h : file.IsWritable) :
    Idl.declarations file.idlText = .ok file.declarations := by
  rw [idlText, declarations_fileText_eq h.allPrintable, contentsOfAll_definitions,
    Declarations.addAll_eq, declarations]
  congr 2
  · simp [structsOf, Declarations.empty]
  · simp [enumsOf]
    rfl
  · simp [typedefsOf]
    rfl

/-! ### Descriptors -/

/-- The name of a typedef stands for the typedef. -/
theorem get?_typedefs (h : file.IsWritable) {target : Member} (htarget : target ∈ file.typedefs) :
    file.declarations.typedefs.get? (file.modules ++ [target.name]) = some target := by
  refine Table.get?_ofList_eq_some (List.mem_map.mpr ⟨target, htarget, rfl⟩) fun other hother => ?_
  obtain ⟨found, hfound, heq⟩ := List.mem_map.mp hother
  obtain ⟨hpath, rfl⟩ := Prod.mk.inj heq
  have hname : found.name = target.name :=
    List.singleton_inj.mp (List.append_cancel_left hpath)
  exact h.arrayName_injective found hfound target htarget hname

theorem intercalate_messagePath (package name : String) :
    "/".intercalate [package, "msg", name] = package ++ "/msg/" ++ name := by
  rw [String.intercalate_cons_cons, String.intercalate_cons_cons, String.intercalate_singleton,
    String.append_assoc, String.append_assoc, String.append_assoc]
  rfl

/-- A name of a message that is not that of a typedef is a reference to a record. -/
theorem descriptor_messagePath {package name : String}
    (hname : ∀ target ∈ file.typedefs, name ≠ target.name) (steps : Nat) (module : Path) :
    file.declarations.descriptor steps module [package, "msg", name]
      = .record (package ++ "/msg/" ++ name) := by
  have hequal {other : String}
      (hsuffix : [package, "msg", name] <:+ file.modules ++ [other]) :
      [package, "msg", name] = file.modules ++ [other] :=
    hsuffix.eq_of_length rfl
  rw [← intercalate_messagePath]
  refine Declarations.descriptor_eq_record (by simp) (fun other hother hsuffix => ?_)
    (fun other hother hsuffix => ?_) (fun other hother => (List.not_mem_nil hother).elim) steps
  · obtain ⟨entry, hentry, rfl⟩ := List.mem_map.mp (Table.mem_keys_ofList.mp hother)
    obtain ⟨target, htarget, rfl⟩ := List.mem_map.mp hentry
    obtain ⟨-, hlast⟩ : package = file.package ∧ name = target.name := by
      simpa [modules] using hequal hsuffix
    exact hname target htarget hlast
  · obtain ⟨entry, hentry, rfl⟩ := List.mem_map.mp (Declarations.hasStruct_iff.mp hother)
    obtain rfl := List.mem_singleton.mp hentry
    exact (hequal hsuffix).symm

/-- The type of an array's elements has the same descriptor in both forms. -/
theorem descriptorWith_idlType_of_isElement {type : MessageType} (h : type.IsElement)
    (hname : ∀ target ∈ file.typedefs, type.messageName? ≠ some target.name) (arrayName : String)
    (steps : Nat) :
    (type.idlType file.package arrayName).descriptorWith
        (file.declarations.descriptor steps file.modules)
      = type.descriptor file.package := by
  cases type with
  | builtin type =>
    rcases type with _ | _ | _ | _ | _ | _ | _ | _ | _ | _ | _ | _ | _ | _ | ⟨_ | _⟩ <;> rfl
  | absolute package name =>
    exact descriptor_messagePath (fun target ht heq => hname target ht (congrArg some heq)) _ _
  | relative name =>
    exact descriptor_messagePath (fun target ht heq => hname target ht (congrArg some heq)) _ _
  | array element extent => exact h.elim

/-- **A type has the same descriptor in both forms.** -/
theorem descriptorWith_idlType (h : file.IsWritable) {field : MessageField}
    (hfield : field ∈ file.fields) :
    (field.type.idlType file.package (file.arrayName field)).descriptorWith
        (file.declarations.descriptor typedefLimit file.modules)
      = field.type.descriptor file.package := by
  have hname := fun target htarget => h.arrayName_ne target htarget field hfield
  obtain ⟨fieldName, type⟩ := field
  cases (h.fields _ hfield).2 with
  | element helement => exact descriptorWith_idlType_of_isElement helement hname _ _
  | @array element extent helement hextent =>
    have hdescriptor := descriptorWith_idlType_of_isElement helement hname
      (file.arrayName ⟨fieldName, .array element extent⟩)
    cases extent with
    | fixed count =>
      have hget := get?_typedefs h (mem_typedefs_iff.mpr ⟨_, hfield, rfl⟩)
      have hreferent : file.declarations.referent file.modules [_] = _ :=
        Declarations.referent_eq_typedef hget
      change file.declarations.descriptor (15 + 1) file.modules [_] = _
      rw [Declarations.descriptor, hreferent]
      exact congrArg (Descriptor.sequence · (.fixed count)) (hdescriptor 15)
    | bounded limit => exact congrArg (Descriptor.sequence · (.bounded limit)) (hdescriptor _)
    | unbounded => exact congrArg (Descriptor.sequence · .unbounded) (hdescriptor _)

/-! ### Both forms -/

/-- **The record that is read from the IDL file.** -/
theorem records_eq (h : file.IsWritable) : records file.idlText = .ok [file.record] := by
  have hfields : file.members.map (file.declarations.field file.modules) = file.record.fields := by
    rw [members, List.map_map]
    refine List.map_congr_left fun field hfield => ?_
    exact congrArg (Field.mk field.name) (descriptorWith_idlType h hfield)
  have hrecords : file.declarations.records = [file.record] := by
    change [Record.mk file.qualifiedName.text (file.members.map
      (file.declarations.field (file.modules ++ [file.name]).dropLast))] = _
    rw [List.dropLast_concat, hfields]
    rfl
  exact records_eq_ok_iff.mpr ⟨_, declarations_idlText h, hrecords⟩

/-- A reader delivers the fields of the message for a text. A text that declares nothing is not
given to the reader. -/
structure IsDelivered (file : MessageFile) (read : Reader) (text : List Char) : Prop where
  /-- A text that declares nothing stands for no fields. -/
  nothing : declaresNothing text = true → file.fields = []
  /-- The reader gives the fields. -/
  fields : declaresNothing text = false → read file.qualifiedName text = .ok file.fields

/-- The name of a message that can be written is one of a message. -/
theorem recordName_text (h : file.IsWritable) :
    recordName .message file.qualifiedName.text = .ok file.qualifiedName := by
  have hsegments : ∀ segment ∈ file.qualifiedName.segments, IsSegment segment := by
    have hmsg : IsPlainName "msg" := by decide
    exact List.forall_mem_append.mpr ⟨List.forall_mem_cons.mpr
      ⟨h.package.isSegment, List.forall_mem_singleton.mpr hmsg.isSegment⟩,
      List.forall_mem_singleton.mpr h.name.isSegment⟩
  rw [recordName, QualifiedName.parse?_text hsegments]
  exact if_pos rfl

/-- **The record that is read from the specification.** -/
theorem messageRecordsWith_eq {read : Reader} {text : List Char} (h : file.IsWritable)
    (hdelivered : file.IsDelivered read text) :
    messageRecordsWith read file.qualifiedName.text text = .ok [file.record] := by
  have hsection : sectionRecord read file.qualifiedName text = .ok file.record := by
    rw [sectionRecord]
    split
    · rename_i hnothing
      rw [record, hdelivered.nothing hnothing]
      rfl
    · rename_i hdeclares
      rw [hdelivered.fields (Bool.eq_false_iff.mpr hdeclares)]
      rfl
  rw [messageRecordsWith, recordName_text h]
  exact congrArg (·.bind fun record => .ok [record]) hsection

/-- **The specification of a message and its IDL file give the same record.** -/
theorem messageRecordsWith_and_records_eq {read : Reader} {text : List Char} (h : file.IsWritable)
    (hdelivered : file.IsDelivered read text) :
    messageRecordsWith read file.qualifiedName.text text = .ok [file.record] ∧
      records file.idlText = .ok [file.record] :=
  ⟨messageRecordsWith_eq h hdelivered, records_eq h⟩

/-- A message with an array of each size. Two fields share the typedef for theirs, and one refers
to the message itself. -/
def scanFile : MessageFile where
  package := "demo"
  name := "Scan"
  fields := [
    ⟨"origin", .array (.builtin .float64) (.fixed 3)⟩,
    ⟨"target", .array (.builtin .float64) (.fixed 3)⟩,
    ⟨"label", .builtin (.string (some 8))⟩,
    ⟨"poses", .array (.absolute "geometry" "Pose") (.bounded 4)⟩,
    ⟨"parts", .array (.relative "Scan") .unbounded⟩]
  arrayName := fun _ => "double3"

/-- The specification of the message. -/
def scanText : List Char :=
  ("float64[3] origin\n" ++ "float64[3] target\n" ++ "string<=8 label\n"
    ++ "geometry/Pose[<=4] poses\n" ++ "Scan[] parts\n").toList

example : linesOfAll scanFile.definitions =
    ["module demo \x7b", "module msg \x7b", "typedef double double3[3];", "struct Scan \x7b",
      "double3 origin;", "double3 target;", "string<8> label;",
      "sequence<geometry::msg::Pose, 4> poses;", "sequence<demo::msg::Scan> parts;",
      "\x7d;", "\x7d;", "\x7d;"].map String.toList := by
  decide +kernel

theorem messageRecordsWith_and_records_scanFile :
    messageRecords "demo/msg/Scan" scanText = .ok [scanFile.record] ∧
      records scanFile.idlText = .ok [scanFile.record] := by
  have hwritable : scanFile.IsWritable := {
    package := by decide +kernel
    name := by decide +kernel
    fields := by decide +kernel
    arrayNames := by decide +kernel
    arrayName_ne := by decide +kernel
    arrayName_injective := by decide +kernel }
  have hdelivered : scanFile.IsDelivered (fun _ => specificationFields) scanText := {
    nothing := by decide +kernel
    fields := by decide +kernel }
  have hname : scanFile.qualifiedName.text = "demo/msg/Scan" := by decide +kernel
  have hsame := messageRecordsWith_and_records_eq hwritable hdelivered
  rw [hname] at hsame
  exact hsame

end MessageFile

end Msg

end RosInterface
