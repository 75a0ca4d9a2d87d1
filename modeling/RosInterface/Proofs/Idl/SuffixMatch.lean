import RosInterface.Proofs.Idl.Names
import RosInterface.Proofs.Idl.Referent
import RosInterface.Proofs.Idl.SingleSection
import RosInterface.Proofs.Naming.Path

/-!
# Declarations that are found by the end of their paths

A path under which nothing is declared may still refer to a declaration whose own path is longer and
ends with the qualified path. It should do so if there is one such path, and be a reference to a
record if there is none or more than one.

The declarations are searched kind by kind, however, and a kind in which the path is ambiguous is
passed over like one in which nothing is found. So the first kind counts that has exactly one such
declaration, whatever the others have. This is as it should be exactly when two things are the same:
there is one such path among all kinds, and some kind has one such declaration. They differ where a
path is unique in one kind but not among all, and where it is unique but belongs to a struct that is
declared twice.

That the rule fails in these cases needs names that are identifiers: a reference to a record with
the qualified path must be no other reference, at whichever end of a chain of typedefs it stands.

## Main definitions

* `Idl.Declarations.Matches`: a declared path has the given end.
* `Idl.Declarations.UniqueInKind`: one declaration of some kind has the given end.
* `Idl.Declarations.ResolvesUnique`: the path refers to the one that has its end, if there is one.
* `Idl.Declarations.IsParsed`: the declarations of a file, or of several files.

## Main results

* `Idl.Declarations.descriptor_ne_record`: a path that is found stands in no other descriptor.
* `Idl.Declarations.resolvesUnique_iff`: when a path refers to the one that has its end.
-/

namespace RosInterface.Idl

namespace Declarations

variable (declarations : Declarations)

/-! ### Declared paths with a given end -/

/-- The declared paths of each kind, as often as they are listed. -/
def pathsByKind : List (List Path) :=
  [declarations.typedefs.keys, declarations.structs.map Prod.fst, declarations.enums.keys]

/-- The path is declared, as whatever, and ends with the suffix. -/
def Matches (suffix path : Path) : Prop :=
  (∃ paths ∈ declarations.pathsByKind, path ∈ paths) ∧ suffix <:+ path

/-- Exactly one declaration of some kind has a path that ends with the suffix. A struct that is
declared twice counts twice. -/
def UniqueInKind (suffix : Path) : Prop :=
  ∃ paths ∈ declarations.pathsByKind, ∃ path, paths.filter (suffix.isSuffixOf ·) = [path]

/-- A path in a module refers to the declared path that ends with the qualified path, if there is
one such path, whatever it is declared as. Otherwise it is a reference to a record. -/
structure ResolvesUnique (steps : Nat) (module path : Path) : Prop where
  /-- There is one such path. It has the descriptor of the declaration, found by its full path. -/
  unique : ∀ found, declarations.Matches (qualify module path) found →
    (∀ other, declarations.Matches (qualify module path) other → other = found) →
      declarations.descriptor steps module path = declarations.descriptor steps [] found
  /-- There is none, or more than one. -/
  ambiguous : (¬∃! found, declarations.Matches (qualify module path) found) →
    declarations.descriptor steps module path = .record ("/".intercalate (qualify module path))

/-- The declarations are those of an accepted file, or those of several such files put together. -/
inductive IsParsed : Declarations → Prop
  /-- The declarations of a file. -/
  | file {text : List Char} {found : Declarations} : Idl.declarations text = .ok found →
    IsParsed found
  /-- The declarations of several files. -/
  | merged {files : List Declarations} :
    (∀ file ∈ files, ∃ text, Idl.declarations text = .ok file) → IsParsed (mergeAll files)

variable {declarations} {module path found suffix : Path} {steps : Nat}

/-- The names in parsed declarations are identifiers. -/
theorem IsParsed.isNamed (h : declarations.IsParsed) : declarations.IsNamed := by
  cases h with
  | file h => exact isNamed_of_declarations h
  | merged h =>
    refine isNamed_mergeAll fun file hfile => ?_
    obtain ⟨text, htext⟩ := h file hfile
    exact isNamed_of_declarations htext

/-- No typedef is listed twice in parsed declarations. -/
theorem IsParsed.nodup_typedefs (h : declarations.IsParsed) : declarations.typedefs.keys.Nodup := by
  cases h with
  | file h => exact (nodup_keys_of_declarations h).2
  | merged h =>
    rw [typedefs_mergeAll]
    exact Table.nodup_keys_ofList _

/-- What one of the kinds has, typedefs, structs or enums have. -/
theorem exists_mem_pathsByKind_iff {p : List Path → Prop} :
    (∃ paths ∈ declarations.pathsByKind, p paths) ↔
      p declarations.typedefs.keys ∨ p (declarations.structs.map Prod.fst) ∨
        p declarations.enums.keys := by
  simp only [pathsByKind, List.exists_mem_cons_iff, List.not_mem_nil, false_and, exists_false,
    or_false]

/-- A path is declared if it is listed as that of some kind. -/
theorem isSome_declared?_iff :
    (declarations.declared? path).isSome ↔ ∃ paths ∈ declarations.pathsByKind, path ∈ paths := by
  rw [exists_mem_pathsByKind_iff, ← hasStruct_iff, ← Table.contains_eq_true_iff,
    ← Table.contains_eq_true_iff, declared?, Table.contains.eq_def declarations.typedefs]
  cases declarations.typedefs.get? path <;> cases declarations.hasStruct path <;>
    cases declarations.enums.contains path <;> simp

theorem matches_iff : declarations.Matches suffix path ↔
    path ∈ declarations.pathsByKind.flatten.filter (suffix.isSuffixOf ·) := by
  rw [Matches, List.mem_filter, List.mem_flatten, List.isSuffixOf_iff_suffix]

instance (declarations : Declarations) (suffix path : Path) :
    Decidable (declarations.Matches suffix path) :=
  decidable_of_iff' _ matches_iff

instance (declarations : Declarations) (suffix : Path) :
    Decidable (∃! found, declarations.Matches suffix found) :=
  let paths := declarations.pathsByKind.flatten.filter (suffix.isSuffixOf ·)
  decidable_of_iff (∃ found ∈ paths, ∀ other ∈ paths, other = found)
    (by simp only [ExistsUnique, matches_iff, paths])

/-- The names of a declared path are identifiers. -/
theorem IsNamed.isPath_of_isSome (h : declarations.IsNamed)
    (hpath : (declarations.declared? path).isSome) : IsPath path := by
  rcases exists_mem_pathsByKind_iff.mp (isSome_declared?_iff.mp hpath) with hmem | hmem | hmem
  all_goals obtain ⟨entry, hentry, rfl⟩ := List.mem_map.mp hmem
  · exact (h.typedefs entry hentry).1
  · exact (h.structs entry hentry).1
  · exact h.enums entry hentry

/-! ### The search kind by kind -/

/-- Something is found if one declaration of some kind has the end. -/
theorem isSome_suffixed?_iff : (declarations.suffixed? suffix).isSome ↔
    declarations.UniqueInKind suffix := by
  rw [UniqueInKind, exists_mem_pathsByKind_iff, suffixed?]
  simp only [← uniqueSuffix?_eq_some_iff, Option.isSome_or, Bool.or_eq_true,
    Option.isSome_iff_exists]

instance (declarations : Declarations) (suffix : Path) :
    Decidable (declarations.UniqueInKind suffix) :=
  decidable_of_iff _ isSome_suffixed?_iff

/-- What is found is declared and has the end. -/
theorem matches_of_suffixed? (h : declarations.suffixed? suffix = some found) :
    declarations.Matches suffix found := by
  refine ⟨exists_mem_pathsByKind_iff.mpr ?_, suffix_of_suffixed? h⟩
  rw [suffixed?, Option.or_eq_some_iff, Option.or_eq_some_iff] at h
  obtain h | ⟨-, h | ⟨-, h⟩⟩ := h
  · exact .inl (mem_and_suffix_of_uniqueSuffix? h).1
  · exact .inr (.inl (mem_and_suffix_of_uniqueSuffix? h).1)
  · exact .inr (.inr (mem_and_suffix_of_uniqueSuffix? h).1)

/-- What is found is declared as something. -/
theorem exists_declared?_of_suffixed? (h : declarations.suffixed? suffix = some found) :
    ∃ referent, declarations.declared? found = some referent :=
  Option.isSome_iff_exists.mp (isSome_declared?_iff.mpr (matches_of_suffixed? h).1)

/-- A declared path refers to its declaration, in no module. -/
theorem referent_nil_of_declared? {target : Referent}
    (h : declarations.declared? path = some target) : declarations.referent [] path = target := by
  have hqualify : qualify [] path = path := by
    rw [qualify, List.nil_append, ite_self]
  simp only [referent, hqualify, h, Option.some_or, Option.getD_some]

/-- Paths that refer to the same have the same descriptor. -/
theorem descriptor_eq_of_referent_eq {module' path' : Path}
    (h : declarations.referent module path = declarations.referent module' path') :
    declarations.descriptor steps module path = declarations.descriptor steps module' path' := by
  rw [descriptor.eq_def, descriptor.eq_def]
  simp only [h]

section

variable (hqualified : declarations.declared? (qualify module path) = none)
  (hliteral : declarations.declared? path = none)

include hqualified hliteral

/-- What is found by the end of its path is what a path refers to, if nothing is declared under the
path. -/
theorem descriptor_of_suffixed? (h : declarations.suffixed? (qualify module path) = some found) :
    declarations.descriptor steps module path = declarations.descriptor steps [] found := by
  obtain ⟨referent, hreferent⟩ := exists_declared?_of_suffixed? h
  refine descriptor_eq_of_referent_eq ?_
  rw [referent_nil_of_declared? hreferent]
  simp only [Declarations.referent, hqualified, hliteral, h, hreferent, Option.none_or,
    Option.bind_some, Option.getD_some]

/-- Where nothing is found, a path is a reference to a record. -/
theorem descriptor_of_suffixed?_eq_none
    (h : declarations.suffixed? (qualify module path) = none) :
    declarations.descriptor steps module path
      = .record ("/".intercalate (qualify module path)) := by
  refine descriptor_of_foreign ?_
  simp only [referent, hqualified, hliteral, h, Option.none_or, Option.bind_none, Option.getD_none]

/-- The rule holds where one declaration of some kind has the end just if one path among all kinds
has it. -/
theorem resolvesUnique_of_iff
    (h : (∃! found, declarations.Matches (qualify module path) found) ↔
      declarations.UniqueInKind (qualify module path)) :
    declarations.ResolvesUnique steps module path where
  unique found hmatches honly := by
    obtain ⟨other, hother⟩ := Option.isSome_iff_exists.mp
      (isSome_suffixed?_iff.mpr (h.mp ⟨found, hmatches, honly⟩))
    obtain rfl := honly other (matches_of_suffixed? hother)
    exact descriptor_of_suffixed? hqualified hliteral hother
  ambiguous hnone := by
    refine descriptor_of_suffixed?_eq_none hqualified hliteral ?_
    rw [← Option.not_isSome_iff_eq_none, isSome_suffixed?_iff]
    exact fun hkind => hnone (h.mpr hkind)

end

/-! ### References that are found -/

/-- The descriptor of a member is a reference to a record only if that of its path is. -/
theorem exists_of_descriptorWith_eq_record {ofPath : Path → Descriptor} {member : Member}
    {name : String} (h : member.descriptorWith ofPath = .record name) :
    ∃ path, member.type = .named path ∧ ofPath path = .record name := by
  obtain ⟨_, type, length⟩ := member
  cases length with
  | some length => cases h
  | none =>
    cases type with
    | named path => exact ⟨path, rfl, h⟩
    | basic type => cases h
    | sequence element limit => cases limit <;> cases h
    | string limit => cases h
    | wideString limit => cases limit <;> cases h

/-- What refers to nothing that is declared is not found by its end either. -/
theorem suffixed?_eq_none_of_foreign (h : declarations.referent module path = .foreign found) :
    declarations.suffixed? (qualify module path) = none := by
  have hforeign : ∀ {path' target}, declarations.declared? path' = some target →
      target ≠ .foreign found := fun hdeclared => (declares_of_declared? hdeclared).2.2 found
  rw [Option.eq_none_iff_forall_ne_some]
  intro other hother
  obtain ⟨target, htarget⟩ := exists_declared?_of_suffixed? hother
  simp only [referent, hother, Option.bind_some, htarget] at h
  cases hqualified : declarations.declared? (qualify module path) with
  | some target' =>
    rw [hqualified] at h
    exact hforeign hqualified h
  | none =>
    cases hliteral : declarations.declared? path with
    | some target' =>
      rw [hqualified, hliteral] at h
      exact hforeign hliteral h
    | none =>
      rw [hqualified, hliteral] at h
      exact hforeign htarget h

section

variable (h : declarations.IsNamed) (hsuffix : IsPath suffix)
  (hdeclared : declarations.declared? suffix = none)
  (hfound : declarations.suffixed? suffix = some found)

include h hsuffix hdeclared hfound

/-- What refers to no typedef is no reference to a record with a path that is not declared, but
found by its end. -/
theorem descriptor_ne_record_of_referent {module path : Path} (hmodule : AreIdentifiers module)
    (hpath : IsPath path)
    (hreferent : ∀ path' target, declarations.referent module path ≠ .typedef path' target) :
    declarations.descriptor steps module path ≠ .record ("/".intercalate suffix) := by
  obtain ⟨hdeclares, -, hforeign⟩ := declarations.refersTo_referent module path
  cases hother : declarations.referent module path with
  | typedef path' target => exact absurd hother (hreferent path' target)
  | struct other =>
    rw [hother] at hdeclares
    have hsome : declarations.declared? other = some (.struct other) := by
      rw [declared?, hdeclares.1]
      exact if_pos hdeclares.2
    rw [descriptor_of_struct hother]
    intro heq
    have hother' : IsPath other := h.isPath_of_isSome (Option.isSome_of_eq_some hsome)
    rw [hother'.intercalate_injective hsuffix (Descriptor.record.inj heq), hdeclared] at hsome
    cases hsome
  | enum other =>
    rw [descriptor_of_enum hother]
    exact Descriptor.noConfusion
  | foreign other =>
    rw [descriptor_of_foreign hother, hforeign other hother]
    intro heq
    have hnone := suffixed?_eq_none_of_foreign hother
    rw [(hpath.qualify hmodule).intercalate_injective hsuffix (Descriptor.record.inj heq),
      hfound] at hnone
    cases hnone

/-- **A path that is not declared, but found by its end, stands in no reference to a record**, at
whichever end of a chain of typedefs. -/
theorem descriptor_ne_record (steps : Nat) {module path : Path} (hmodule : AreIdentifiers module)
    (hpath : IsPath path) :
    declarations.descriptor steps module path ≠ .record ("/".intercalate suffix) := by
  induction steps generalizing module path with
  | zero =>
    cases hother : declarations.referent module path with
    | typedef other target =>
      rw [descriptor_zero_of_typedef hother]
      exact Descriptor.noConfusion
    | _ =>
      exact descriptor_ne_record_of_referent h hsuffix hdeclared hfound hmodule hpath
        (by simp [hother])
  | succ steps ih =>
    cases hother : declarations.referent module path with
    | typedef other target =>
      obtain ⟨hnames, htarget⟩ :=
        h.typedefs _ (Table.mem_entries_of_get? (get?_of_referent hother))
      rw [descriptor_succ_of_typedef hother]
      intro heq
      obtain ⟨path', htype, hrecord⟩ := exists_of_descriptorWith_eq_record heq
      have hpath' : IsPath path' := by
        have := htarget.type
        rwa [htype] at this
      exact ih hnames.2.dropLast hpath' hrecord
    | _ =>
      exact descriptor_ne_record_of_referent h hsuffix hdeclared hfound hmodule hpath
        (by simp [hother])

end

/-! ### When the rule holds -/

/-- A typedef is the only one that is found if it is listed once and no other has the end. -/
theorem uniqueInKind_of_typedef (hnodup : declarations.typedefs.keys.Nodup)
    (hmem : found ∈ declarations.typedefs.keys) (hmatches : declarations.Matches suffix found)
    (honly : ∀ other, declarations.Matches suffix other → other = found) :
    declarations.UniqueInKind suffix := by
  refine exists_mem_pathsByKind_iff.mpr (.inl ⟨found, List.perm_singleton.mp ?_⟩)
  refine (List.perm_ext_iff_of_nodup (hnodup.filter _) (by simp)).mpr ?_
  intro other
  rw [List.mem_filter, List.isSuffixOf_iff_suffix, List.mem_singleton]
  constructor
  · rintro ⟨hother, hend⟩
    exact honly other ⟨exists_mem_pathsByKind_iff.mpr (.inl hother), hend⟩
  · rintro rfl
    exact ⟨hmem, hmatches.2⟩

/-- If a path refers to the only declared path that has its end, some kind has one such declaration.
Otherwise it would be a reference to a record with the qualified path, and such a reference is
neither that of another struct nor an enum. -/
theorem uniqueInKind_of_resolvesUnique (h : declarations.IsParsed)
    (hmodule : AreIdentifiers module) (hpath : IsPath path)
    (hqualified : declarations.declared? (qualify module path) = none)
    (hliteral : declarations.declared? path = none)
    (hrule : declarations.ResolvesUnique steps module path)
    (hunique : ∃! found, declarations.Matches (qualify module path) found) :
    declarations.UniqueInKind (qualify module path) := by
  obtain ⟨found, hmatches, honly⟩ := hunique
  have hsome := isSome_declared?_iff.mpr hmatches.1
  obtain ⟨target, htarget⟩ := Option.isSome_iff_exists.mp hsome
  obtain ⟨hdeclares, hfound, hforeign⟩ := declares_of_declared? htarget
  have hreferent := referent_nil_of_declared? htarget
  by_cases hkind : declarations.UniqueInKind (qualify module path)
  · exact hkind
  have hnone : declarations.suffixed? (qualify module path) = none := by
    rwa [← Option.not_isSome_iff_eq_none, isSome_suffixed?_iff]
  have hrecord := (hrule.unique found hmatches honly).symm.trans
    (descriptor_of_suffixed?_eq_none hqualified hliteral hnone)
  cases target with
  | typedef other member =>
    obtain rfl : other = found := hfound
    exact uniqueInKind_of_typedef h.nodup_typedefs (Table.mem_keys_of_get? hdeclares) hmatches honly
  | struct other =>
    obtain rfl : other = found := hfound
    rw [descriptor_of_struct hreferent] at hrecord
    have hfoundPath : IsPath other := h.isNamed.isPath_of_isSome hsome
    rw [hfoundPath.intercalate_injective (.qualify hmodule hpath) (Descriptor.record.inj hrecord),
      hqualified] at htarget
    cases htarget
  | enum other =>
    rw [descriptor_of_enum hreferent] at hrecord
    cases hrecord
  | foreign other => exact absurd rfl (hforeign other)

/-- **When a path refers to the declared path that has its end.** -/
theorem resolvesUnique_iff (h : declarations.IsParsed) (hmodule : AreIdentifiers module)
    (hpath : IsPath path) (hqualified : declarations.declared? (qualify module path) = none)
    (hliteral : declarations.declared? path = none) (steps : Nat) :
    declarations.ResolvesUnique steps module path ↔
      ((∃! found, declarations.Matches (qualify module path) found) ↔
        declarations.UniqueInKind (qualify module path)) := by
  refine ⟨fun hrule => ⟨?alone, ?inKind⟩, resolvesUnique_of_iff hqualified hliteral⟩
  case alone =>
    exact uniqueInKind_of_resolvesUnique h hmodule hpath hqualified hliteral hrule
  case inKind =>
    intro hkind
    obtain ⟨found, hfound⟩ := Option.isSome_iff_exists.mp (isSome_suffixed?_iff.mpr hkind)
    refine Classical.byContradiction fun hnone => ?_
    exact descriptor_ne_record h.isNamed (.qualify hmodule hpath) hqualified hfound steps hmodule
      hpath (hrule.ambiguous hnone)

end Declarations

/-- Modules with a typedef of their own and with two structs of the same name. -/
def twoModulesText : List Char :=
  "module a \x7b
typedef int32 Id;
struct T \x7b
\x7d;
\x7d;
module b \x7b
struct T \x7b
\x7d;
\x7d;
struct S \x7b
Id id;
T t;
\x7d;".toList

/-- What the modules declare. -/
def twoModulesDeclarations : Declarations where
  structs := [(["a", "T"], []), (["b", "T"], []),
    (["S"], [⟨"id", .named ["Id"], none⟩, ⟨"t", .named ["T"], none⟩])]
  enums := .empty
  typedefs := ⟨[(["a", "Id"], ⟨"Id", .basic .int32, none⟩)]⟩

/-- The typedef is found by its end, and neither of the structs is. -/
theorem resolvesUnique_twoModulesText : declarations twoModulesText = .ok twoModulesDeclarations ∧
    twoModulesDeclarations.descriptor typedefLimit [] ["Id"] = .primitive "int32" ∧
    twoModulesDeclarations.descriptor typedefLimit [] ["T"] = .record "T" := by
  have htext : declarations twoModulesText = .ok twoModulesDeclarations := by decide +kernel
  have hmodule : AreIdentifiers [] := fun _ hname => nomatch hname
  have hidPath : IsPath ["Id"] :=
    ⟨List.cons_ne_nil _ _, List.forall_mem_singleton.mpr (by decide)⟩
  have htPath : IsPath ["T"] := ⟨List.cons_ne_nil _ _, List.forall_mem_singleton.mpr (by decide)⟩
  have hid := (Declarations.resolvesUnique_iff (.file htext) hmodule hidPath (by decide) (by decide)
    typedefLimit).mpr (by decide)
  have ht := (Declarations.resolvesUnique_iff (.file htext) hmodule htPath (by decide) (by decide)
    typedefLimit).mpr (by decide)
  have honly : ∀ other ∈ twoModulesDeclarations.pathsByKind.flatten.filter (["Id"].isSuffixOf ·),
      other = ["a", "Id"] := by decide
  refine ⟨htext, ?_, ht.ambiguous (by decide)⟩
  rw [hid.unique ["a", "Id"] (by decide) fun other hother =>
    honly other (Declarations.matches_iff.mp hother)]
  decide

/-- A typedef and a struct of the same name in two modules. -/
def ambiguousText : List Char :=
  "module a \x7b
typedef int32 T;
\x7d;
module b \x7b
struct T \x7b
  int8 y;
\x7d;
\x7d;
struct S \x7b
  T t;
\x7d;
".toList

/-- What these modules declare. -/
def ambiguousDeclarations : Declarations where
  structs := [(["b", "T"], [⟨"y", .basic .int8, none⟩]), (["S"], [⟨"t", .named ["T"], none⟩])]
  enums := .empty
  typedefs := ⟨[(["a", "T"], ⟨"T", .basic .int32, none⟩)]⟩

/-- The typedef is found although the struct has the same end, and nothing is declared as `T`. -/
theorem not_resolvesUnique_ambiguousText :
    declarations ambiguousText = .ok ambiguousDeclarations ∧
      records ambiguousText = .ok [⟨"b/T", [⟨"y", .primitive "int8"⟩]⟩,
        ⟨"S", [⟨"t", .primitive "int32"⟩]⟩] ∧
      ambiguousDeclarations.declared? ["T"] = none ∧
      ¬ambiguousDeclarations.ResolvesUnique typedefLimit [] ["T"] := by
  have htext : declarations ambiguousText = .ok ambiguousDeclarations := by decide +kernel
  refine ⟨htext, records_eq_ok_iff.mpr ⟨_, htext, by decide⟩, by decide, fun hrule => ?_⟩
  exact absurd (hrule.ambiguous (by decide)) (by decide)

end RosInterface.Idl
