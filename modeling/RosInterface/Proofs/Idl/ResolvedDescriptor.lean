import RosInterface.Proofs.Idl.Names
import RosInterface.Proofs.Idl.Referent
import RosInterface.Proofs.Naming.Path

/-!
# Descriptors of resolved types

A descriptor that comes out of an IDL file says what a type refers to in the file, or in the bundle.
A reference to a record stands for a struct that is declared and is no typedef, or for something
that is not declared at all. An enum is a primitive type, unless it is also declared as a typedef or
a struct. A typedef is replaced by what it stands for, and only where the chain of typedefs is too
long does its own path stand in the descriptor. All this holds at every depth and along every chain
of typedefs, since each target is read in turn in the modules of its typedef.

A struct comes before an enum with the same path. So a reference to a record may have the name of an
enum, but only of one that is declared as a struct too.

## Main definitions

* `Idl.DeclaredPaths`: the paths that are declared as each kind of thing.
* `Idl.IsResolved`: what a descriptor may be.
* `Descriptor.recordName?`: the record that a descriptor refers to.
* `Idl.RefersProperly`: a descriptor is resolved, and its record is no mere typedef or enum.

## Main results

* `Idl.Declarations.isResolved_descriptor`: the descriptor of a path is resolved.
* `Idl.IsResolved.of_recordName?`: what a reference to a record stands for.
* `Idl.refersProperly_of_records`: the descriptors of files and bundles refer properly.
-/

namespace RosInterface

/-- The name of the record that a descriptor refers to, at any depth. -/
def Descriptor.recordName? : Descriptor → Option String
  | record name => some name
  | sequence element _ => element.recordName?
  | _ => none

namespace Idl

/-- The paths that are declared as each kind of thing. -/
structure DeclaredPaths where
  /-- The path is that of a struct. -/
  isStruct : Path → Prop
  /-- The path is that of an enum. -/
  isEnum : Path → Prop
  /-- The path is that of a typedef. -/
  isTypedef : Path → Prop

/-- The paths that a file declares. -/
def Declarations.paths (declarations : Declarations) : DeclaredPaths where
  isStruct path := declarations.hasStruct path = true
  isEnum path := declarations.enums.contains path = true
  isTypedef path := declarations.typedefs.contains path = true

/-- The paths that one of several files declares. -/
def declaredPaths (files : List Declarations) : DeclaredPaths where
  isStruct path := ∃ file ∈ files, file.paths.isStruct path
  isEnum path := ∃ file ∈ files, file.paths.isEnum path
  isTypedef path := ∃ file ∈ files, file.paths.isTypedef path

/-- Several files together declare what they declare one by one. -/
theorem Declarations.paths_mergeAll (files : List Declarations) :
    (mergeAll files).paths = declaredPaths files := by
  rw [paths, declaredPaths]
  congr 1
  · exact funext fun path => propext hasStruct_mergeAll_iff
  · exact funext fun path => propext contains_enums_mergeAll_iff
  · exact funext fun path => propext contains_typedefs_mergeAll_iff

/-- What a descriptor may be, where the given paths are declared. -/
inductive IsResolved (paths : DeclaredPaths) : Descriptor → Prop
  /-- A reference to a struct that is no typedef. -/
  | struct {path : Path} : paths.isStruct path → ¬paths.isTypedef path →
      IsResolved paths (.record ("/".intercalate path))
  /-- A reference to a record that is not declared here. -/
  | foreign {path : Path} : IsPath path → ¬paths.isStruct path → ¬paths.isEnum path →
      ¬paths.isTypedef path → IsResolved paths (.record ("/".intercalate path))
  /-- A basic type. -/
  | basic (type : BasicType) : IsResolved paths (.primitive type.name)
  /-- An enum that is neither a typedef nor a struct. -/
  | enum {path : Path} : paths.isEnum path → ¬paths.isTypedef path → ¬paths.isStruct path →
      IsResolved paths (.primitive ("/".intercalate path))
  /-- A string. -/
  | string (maxLength : Option Nat) : IsResolved paths (.string maxLength)
  /-- A sequence of what is resolved. -/
  | sequence {element : Descriptor} (extent : Extent) : IsResolved paths element →
      IsResolved paths (.sequence element extent)
  /-- A string of wide characters of any length. -/
  | unboundedWideString : IsResolved paths (.unknown "UnboundedWString")
  /-- A string of wide characters with a greatest length. -/
  | boundedWideString : IsResolved paths (.unknown "BoundedWString")
  /-- A typedef at the end of a long chain. -/
  | typedef {path : Path} : paths.isTypedef path →
      IsResolved paths (.unknown ("::".intercalate path))

/-- A resolved descriptor whose reference to a record, if it has one, names no typedef, and no enum
that is not a struct as well. -/
structure RefersProperly (paths : DeclaredPaths) (descriptor : Descriptor) : Prop where
  /-- The descriptor is resolved. -/
  isResolved : IsResolved paths descriptor
  /-- No typedef has the name of a record that is referred to. -/
  not_isTypedef : ∀ path, paths.isTypedef path →
    descriptor.recordName? ≠ some ("/".intercalate path)
  /-- An enum that has the name of a record that is referred to is also declared as a struct. -/
  isStruct_of_isEnum : ∀ path, paths.isEnum path →
    descriptor.recordName? = some ("/".intercalate path) → paths.isStruct path

/-! ### References to records -/

namespace IsResolved

variable {paths : DeclaredPaths} {descriptor : Descriptor} {path : Path} {name : String}

/-- A reference to a record is to a struct that is no typedef, or to what is not declared. -/
theorem exists_of_recordName? (h : IsResolved paths descriptor)
    (hname : descriptor.recordName? = some name) :
    ∃ path, name = "/".intercalate path ∧ ¬paths.isTypedef path ∧
      (paths.isStruct path ∨ IsPath path ∧ ¬paths.isEnum path) := by
  induction h with
  | @struct path hstruct htypedef =>
    exact ⟨path, (Option.some.inj hname).symm, htypedef, .inl hstruct⟩
  | @foreign path hpath _ henum htypedef =>
    exact ⟨path, (Option.some.inj hname).symm, htypedef, .inr ⟨hpath, henum⟩⟩
  | sequence extent _ ih => exact ih hname
  | basic => cases hname
  | enum => cases hname
  | string => cases hname
  | unboundedWideString => cases hname
  | boundedWideString => cases hname
  | typedef => cases hname

/-- A path of identifiers that has the name of a reference is the path that is referred to. -/
theorem of_recordName? (h : IsResolved paths descriptor)
    (hstructs : ∀ path, paths.isStruct path → IsPath path) (hpath : IsPath path)
    (hname : descriptor.recordName? = some ("/".intercalate path)) :
    ¬paths.isTypedef path ∧ (paths.isEnum path → paths.isStruct path) := by
  obtain ⟨found, hfound, htypedef, hkind⟩ := h.exists_of_recordName? hname
  have hfoundPath : IsPath found := hkind.elim (hstructs found) And.left
  obtain rfl : path = found := hpath.intercalate_injective hfoundPath hfound
  exact ⟨htypedef, fun henum => hkind.elim id fun hforeign => absurd henum hforeign.2⟩

end IsResolved

/-! ### Descriptors of types -/

namespace Declarations

variable {declarations : Declarations}

/-- The descriptor of a type is resolved if those of its paths are. -/
theorem isResolved_descriptorWith {ofPath : Path → Descriptor} {type : TypeExpr}
    (h : type.IsNamed) (hpath : ∀ path, IsPath path → IsResolved declarations.paths (ofPath path)) :
    IsResolved declarations.paths (type.descriptorWith ofPath) := by
  induction type with
  | basic type => exact .basic type
  | named path => exact hpath path h
  | sequence element limit ih =>
    cases limit with
    | none => exact .sequence _ (ih h)
    | some limit => exact .sequence _ (ih h)
  | string limit => exact .string limit
  | wideString limit =>
    cases limit with
    | none => exact .unboundedWideString
    | some limit => exact .boundedWideString

/-- The descriptor of a member is resolved if those of its paths are. -/
theorem isResolved_memberDescriptorWith {ofPath : Path → Descriptor} {member : Member}
    (h : member.IsNamed)
    (hpath : ∀ path, IsPath path → IsResolved declarations.paths (ofPath path)) :
    IsResolved declarations.paths (member.descriptorWith ofPath) := by
  have htype := isResolved_descriptorWith h.type hpath
  rw [Member.descriptorWith]
  split
  · exact .sequence _ htype
  · exact htype

theorem not_isTypedef_of_get? {path : Path} (h : declarations.typedefs.get? path = none) :
    ¬declarations.paths.isTypedef path := by
  simp [paths, Table.contains, h]

/-- A path that refers to no typedef has a resolved descriptor. -/
theorem isResolved_of_referent {steps : Nat} {module path : Path} (hmodule : AreIdentifiers module)
    (hpath : IsPath path)
    (hreferent : ∀ path' target, declarations.referent module path ≠ .typedef path' target) :
    IsResolved declarations.paths (declarations.descriptor steps module path) := by
  obtain ⟨hdeclares, -, hforeign⟩ := declarations.refersTo_referent module path
  cases hfound : declarations.referent module path with
  | typedef path' target => exact absurd hfound (hreferent path' target)
  | struct path' =>
    rw [hfound] at hdeclares
    rw [descriptor_of_struct hfound]
    exact .struct hdeclares.2 (not_isTypedef_of_get? hdeclares.1)
  | enum path' =>
    rw [hfound] at hdeclares
    rw [descriptor_of_enum hfound]
    exact .enum hdeclares.2.2 (not_isTypedef_of_get? hdeclares.1) (by simp [paths, hdeclares.2.1])
  | foreign path' =>
    rw [hfound] at hdeclares
    rw [descriptor_of_foreign hfound]
    obtain rfl := hforeign path' hfound
    exact .foreign (.qualify hmodule hpath) (by simp [paths, hdeclares.2.1])
      (by simp [paths, hdeclares.2.2]) (not_isTypedef_of_get? hdeclares.1)

/-- **The descriptor of a path is resolved**, along any chain of typedefs. -/
theorem isResolved_descriptor (h : declarations.IsNamed) (steps : Nat) {module path : Path}
    (hmodule : AreIdentifiers module) (hpath : IsPath path) :
    IsResolved declarations.paths (declarations.descriptor steps module path) := by
  induction steps generalizing module path with
  | zero =>
    cases hfound : declarations.referent module path with
    | typedef path' target =>
      rw [descriptor_zero_of_typedef hfound]
      exact .typedef (Option.isSome_iff_exists.mpr ⟨target, get?_of_referent hfound⟩)
    | _ => exact isResolved_of_referent hmodule hpath (by simp [hfound])
  | succ steps ih =>
    cases hfound : declarations.referent module path with
    | typedef path' target =>
      obtain ⟨hpath', htarget⟩ :=
        h.typedefs _ (Table.mem_entries_of_get? (get?_of_referent hfound))
      rw [descriptor_succ_of_typedef hfound]
      exact isResolved_memberDescriptorWith htarget fun _ => ih hpath'.2.dropLast
    | _ => exact isResolved_of_referent hmodule hpath (by simp [hfound])

/-- The descriptors in records are resolved, and references name structs or what is foreign. -/
theorem isResolved_of_mem_records (h : declarations.IsNamed) {record : Record}
    (hrecord : record ∈ declarations.records) {field : Field} (hfield : field ∈ record.fields) :
    IsResolved declarations.paths field.descriptor := by
  obtain ⟨⟨path, members⟩, hstruct, rfl⟩ := List.mem_map.mp hrecord
  obtain ⟨member, hmember, rfl⟩ := List.mem_map.mp hfield
  obtain ⟨hpath, hmembers⟩ := h.structs _ hstruct
  exact isResolved_memberDescriptorWith (hmembers member hmember) fun _ =>
    isResolved_descriptor h typedefLimit hpath.2.dropLast

/-- **The descriptors in records refer properly.** -/
theorem refersProperly_of_mem_records (h : declarations.IsNamed) {record : Record}
    (hrecord : record ∈ declarations.records) {field : Field} (hfield : field ∈ record.fields) :
    RefersProperly declarations.paths field.descriptor := by
  have hresolved := isResolved_of_mem_records h hrecord hfield
  have hstructs : ∀ path, declarations.paths.isStruct path → IsPath path := by
    intro path hstruct
    obtain ⟨entry, hentry, rfl⟩ := List.mem_map.mp (hasStruct_iff.mp hstruct)
    exact (h.structs entry hentry).1
  have henums : ∀ path, declarations.paths.isEnum path → IsPath path := by
    intro path henum
    obtain ⟨entry, hentry, rfl⟩ := List.mem_map.mp (Table.contains_eq_true_iff.mp henum)
    exact h.enums entry hentry
  have htypedefs : ∀ path, declarations.paths.isTypedef path → IsPath path := by
    intro path htypedef
    obtain ⟨entry, hentry, rfl⟩ := List.mem_map.mp (Table.contains_eq_true_iff.mp htypedef)
    exact (h.typedefs entry hentry).1
  exact {
    isResolved := hresolved
    not_isTypedef := fun path htypedef hname =>
      (hresolved.of_recordName? hstructs (htypedefs path htypedef) hname).1 htypedef
    isStruct_of_isEnum := fun path henum hname =>
      (hresolved.of_recordName? hstructs (henums path henum) hname).2 henum }

end Declarations

/-! ### Files and bundles -/

/-- **Every descriptor in an accepted file or bundle is resolved.** References to records name
structs that are no typedefs, or what is not declared; an enum is named only where the same path is
declared as a struct. -/
theorem refersProperly_of_records :
    (∀ (text : List Char) (found : List Record), records text = .ok found →
      ∃ declared, declarations text = .ok declared ∧
        ∀ record ∈ found, ∀ field ∈ record.fields,
          RefersProperly declared.paths field.descriptor) ∧
    ∀ (text : List Char) (found : List Record), bundleRecords text = .ok found →
      ∃ parts files, sections text = .ok parts ∧ List.Forall₂ Section.Declares parts files ∧
        ∀ record ∈ found, ∀ field ∈ record.fields,
          RefersProperly (declaredPaths files) field.descriptor := by
  constructor
  · intro text found h
    obtain ⟨declared, hdeclared, rfl⟩ := records_eq_ok_iff.mp h
    exact ⟨declared, hdeclared, fun record hrecord field hfield =>
      Declarations.refersProperly_of_mem_records (isNamed_of_declarations hdeclared) hrecord hfield⟩
  · intro text found h
    obtain ⟨parts, files, hparts, hfiles, rfl⟩ := bundleRecords_eq_ok_iff.mp h
    have hnamed : ∀ file ∈ files, file.IsNamed := by
      intro file hfile
      obtain ⟨s, -, hs⟩ := exists_of_mem_of_forall₂ hfiles hfile
      exact isNamed_of_declarations hs
    refine ⟨parts, files, hparts, hfiles, fun record hrecord field hfield => ?_⟩
    rw [← Declarations.paths_mergeAll]
    exact Declarations.refersProperly_of_mem_records (Declarations.isNamed_mergeAll hnamed)
      hrecord hfield

/-- A module with an enum, a typedef and a struct. -/
def modesText : List Char :=
  ("module p \x7b\nenum Mode \x7b\n  ON,\n\x7d;\ntypedef sequence<Mode, 4> Modes;\n" ++
    "struct S \x7b\n  Modes modes;\n  other::msg::T t;\n  S next;\n\x7d;\n\x7d;\n").toList

/-- A bundle of one section with this module. -/
def modesBundle : List Char :=
  "IDL: p/S\n".toList ++ modesText

/-- The record of the struct. -/
def modesRecord : Record :=
  ⟨"p/S", [⟨"modes", .sequence (.primitive "p/Mode") (.bounded 4)⟩, ⟨"t", .record "other/msg/T"⟩,
    ⟨"next", .record "p/S"⟩]⟩

theorem refersProperly_modesRecord :
    (∃ declared, declarations modesText = .ok declared ∧
      ∀ field ∈ modesRecord.fields, RefersProperly declared.paths field.descriptor) ∧
    ∃ parts files, sections modesBundle = .ok parts ∧
      List.Forall₂ Section.Declares parts files ∧
        ∀ field ∈ modesRecord.fields, RefersProperly (declaredPaths files) field.descriptor := by
  have htext : records modesText = .ok [modesRecord] := by decide +kernel
  have hbundle : bundleRecords modesBundle = .ok [modesRecord] := by decide +kernel
  obtain ⟨declared, hdeclared, hrefers⟩ := refersProperly_of_records.1 _ _ htext
  obtain ⟨parts, files, hparts, hfiles, hrefers'⟩ := refersProperly_of_records.2 _ _ hbundle
  exact ⟨⟨declared, hdeclared, hrefers _ List.mem_cons_self⟩,
    parts, files, hparts, hfiles, hrefers' _ List.mem_cons_self⟩

/-- A path that is declared as a struct and as an enum, and a member of this type. -/
def structAndEnumText : List Char :=
  ("struct A \x7b\n  int32 x;\n\x7d;\nenum A \x7b\n  V\n\x7d;\n" ++
    "struct B \x7b\n  A a;\n\x7d;\n").toList

/-- What this text declares. -/
def structAndEnumDeclarations : Declarations :=
  ⟨[(["A"], [⟨"x", .basic .int32, none⟩]), (["B"], [⟨"a", .named ["A"], none⟩])],
    ⟨[(["A"], ["V"])]⟩, ⟨[]⟩⟩

/-- The records of this text. -/
def structAndEnumRecords : List Record :=
  [⟨"A", [⟨"x", .primitive "int32"⟩]⟩, ⟨"B", [⟨"a", .record "A"⟩]⟩]

/-- A reference to a record may have the name of an enum: the struct of that name comes first. -/
theorem exists_record_named_as_enum :
    declarations structAndEnumText = .ok structAndEnumDeclarations ∧
      records structAndEnumText = .ok structAndEnumRecords ∧
        ¬∀ record ∈ structAndEnumRecords, ∀ field ∈ record.fields,
          ∀ path, structAndEnumDeclarations.paths.isEnum path →
            field.descriptor.recordName? ≠ some ("/".intercalate path) := by
  refine ⟨by decide +kernel, by decide +kernel, fun h => ?_⟩
  have henum : structAndEnumDeclarations.paths.isEnum ["A"] := by
    change structAndEnumDeclarations.enums.contains ["A"] = true
    decide
  have hrecord : ⟨"B", [⟨"a", .record "A"⟩]⟩ ∈ structAndEnumRecords := by decide
  exact h _ hrecord _ List.mem_cons_self ["A"] henum (by decide)

end Idl

end RosInterface
