import RosInterface.Proofs.Idl.Merging

/-!
# What a path refers to

Whichever way a path is looked up, it refers to something that is declared: a typedef, a struct that
is no typedef, or an enum that is neither. Its declared path ends with the qualified path, or is the
path as it is written. A path that refers to nothing of this kind is taken as it is qualified, and
nothing is declared under it.

## Main definitions

* `Idl.Referent.path`: the path of what is referred to.
* `Idl.Declarations.Declares`: something is declared, as what it is referred to.
* `Idl.Declarations.RefersTo`: what a path may refer to in a module.

## Main results

* `Idl.Declarations.refersTo_referent`: what a path refers to.
* `Idl.Declarations.descriptor_eq_record`: paths that are references to records.
-/

namespace RosInterface.Idl

/-- The path of what is referred to. -/
def Referent.path : Referent → Path
  | typedef path _ => path
  | struct path => path
  | enum path => path
  | foreign path => path

/-- A path is found in a list if no other entry has the end. -/
theorem uniqueSuffix?_eq_some_iff {paths : List Path} {suffix path : Path} :
    uniqueSuffix? paths suffix = some path ↔ paths.filter (suffix.isSuffixOf ·) = [path] := by
  rw [uniqueSuffix?]
  split
  · rename_i hfilter
    rw [hfilter, Option.some.injEq, List.singleton_inj]
  · rename_i hfilter
    exact iff_of_false (Option.some_ne_none path).symm (hfilter path)

/-- A path that is found is in the list and has the end. -/
theorem mem_and_suffix_of_uniqueSuffix? {paths : List Path} {suffix path : Path}
    (h : uniqueSuffix? paths suffix = some path) : path ∈ paths ∧ suffix <:+ path := by
  have hmem : path ∈ paths.filter (suffix.isSuffixOf ·) :=
    uniqueSuffix?_eq_some_iff.mp h ▸ List.mem_singleton_self path
  rwa [List.mem_filter, List.isSuffixOf_iff_suffix] at hmem

namespace Declarations

variable (declarations : Declarations)

/-- What is referred to is declared, and is no declaration of a kind that is tried before. What is
foreign is not declared. -/
def Declares : Referent → Prop
  | .typedef path target => declarations.typedefs.get? path = some target
  | .struct path => declarations.typedefs.get? path = none ∧ declarations.hasStruct path = true
  | .enum path => declarations.typedefs.get? path = none ∧ declarations.hasStruct path = false ∧
      declarations.enums.contains path = true
  | .foreign path => declarations.typedefs.get? path = none ∧
      declarations.hasStruct path = false ∧ declarations.enums.contains path = false

/-- What a path may refer to in a module. -/
structure RefersTo (module path : Path) (referent : Referent) : Prop where
  /-- What is referred to is declared, unless it is foreign. -/
  declares : declarations.Declares referent
  /-- It is found under the qualified path, under the path, or by the end of its path. -/
  path_eq : qualify module path <:+ referent.path ∨ referent.path = path
  /-- What is foreign has the qualified path. -/
  eq_qualify : ∀ path', referent = .foreign path' → path' = qualify module path

variable {declarations} {path : Path}

/-- What is declared under a path. -/
theorem declares_of_declared? {referent : Referent}
    (h : declarations.declared? path = some referent) :
    declarations.Declares referent ∧ referent.path = path ∧ ∀ path', referent ≠ .foreign path' := by
  rw [declared?] at h
  split at h
  · rename_i target htarget
    obtain rfl := Option.some.inj h
    exact ⟨htarget, rfl, fun path' => Referent.noConfusion⟩
  · rename_i htypedef
    split at h
    · rename_i hstruct
      obtain rfl := Option.some.inj h
      exact ⟨⟨htypedef, hstruct⟩, rfl, fun path' => Referent.noConfusion⟩
    · rename_i hstruct
      split at h
      · rename_i henum
        obtain rfl := Option.some.inj h
        exact ⟨⟨htypedef, by simpa using hstruct, henum⟩, rfl, fun path' => Referent.noConfusion⟩
      · cases h

/-- Where nothing is declared under a path, it is foreign. -/
theorem declares_foreign_of_declared? (h : declarations.declared? path = none) :
    declarations.Declares (.foreign path) := by
  rw [declared?] at h
  split at h
  · cases h
  · rename_i htypedef
    split at h
    · cases h
    · rename_i hstruct
      split at h
      · cases h
      · rename_i henum
        exact ⟨htypedef, by simpa using hstruct, by simpa using henum⟩

/-- What is found by the end of its path has this end. -/
theorem suffix_of_suffixed? {suffix : Path} (h : declarations.suffixed? suffix = some path) :
    suffix <:+ path := by
  rw [suffixed?, Option.or_eq_some_iff, Option.or_eq_some_iff] at h
  obtain h | ⟨-, h | ⟨-, h⟩⟩ := h
  all_goals exact (mem_and_suffix_of_uniqueSuffix? h).2

/-- **What a path refers to** is declared as that, or is foreign and has the qualified path. -/
theorem refersTo_referent (declarations : Declarations) (module path : Path) :
    declarations.RefersTo module path (declarations.referent module path) := by
  rw [referent]
  cases hqualified : declarations.declared? (qualify module path) with
  | some found =>
    obtain ⟨hdeclares, hpath, hforeign⟩ := declares_of_declared? hqualified
    exact ⟨hdeclares, .inl (hpath ▸ List.suffix_refl _), fun path' hp => absurd hp (hforeign path')⟩
  | none =>
    cases hliteral : declarations.declared? path with
    | some found =>
      obtain ⟨hdeclares, hpath, hforeign⟩ := declares_of_declared? hliteral
      exact ⟨hdeclares, .inr hpath, fun path' hp => absurd hp (hforeign path')⟩
    | none =>
      cases hsuffixed :
          (declarations.suffixed? (qualify module path)).bind declarations.declared? with
      | some found =>
        obtain ⟨longer, hlonger, hfound⟩ := Option.bind_eq_some_iff.mp hsuffixed
        obtain ⟨hdeclares, hpath, hforeign⟩ := declares_of_declared? hfound
        exact ⟨hdeclares, .inl (hpath ▸ suffix_of_suffixed? hlonger),
          fun path' hp => absurd hp (hforeign path')⟩
      | none =>
        exact ⟨declares_foreign_of_declared? hqualified, .inl (List.suffix_refl _),
          fun path' hp => (Referent.foreign.inj hp).symm⟩

/-- A typedef that is referred to is declared. -/
theorem get?_of_referent {module found : Path} {target : Member}
    (h : declarations.referent module path = .typedef found target) :
    declarations.typedefs.get? found = some target := by
  have hdeclares := (declarations.refersTo_referent module path).declares
  rwa [h] at hdeclares

/-- A path whose qualified path is that of a typedef refers to this typedef. -/
theorem referent_eq_typedef {module : Path} {target : Member}
    (h : declarations.typedefs.get? (qualify module path) = some target) :
    declarations.referent module path = .typedef (qualify module path) target := by
  have hdeclared : declarations.declared? (qualify module path)
      = some (.typedef (qualify module path) target) := by
    rw [declared?, h]
  simp only [referent, hdeclared, Option.some_or, Option.getD_some]

/-! ### The descriptor of what is referred to -/

section

variable {module found : Path} {target : Member} {steps : Nat}

theorem descriptor_of_struct (h : declarations.referent module path = .struct found) :
    declarations.descriptor steps module path = .record ("/".intercalate found) := by
  rw [descriptor.eq_def]
  simp only [h]

theorem descriptor_of_enum (h : declarations.referent module path = .enum found) :
    declarations.descriptor steps module path = .primitive ("/".intercalate found) := by
  rw [descriptor.eq_def]
  simp only [h]

theorem descriptor_of_foreign (h : declarations.referent module path = .foreign found) :
    declarations.descriptor steps module path = .record ("/".intercalate found) := by
  rw [descriptor.eq_def]
  simp only [h]

/-- A typedef that may not be followed is unknown. -/
theorem descriptor_zero_of_typedef
    (h : declarations.referent module path = .typedef found target) :
    declarations.descriptor 0 module path = .unknown ("::".intercalate found) := by
  rw [descriptor, h]

/-- A typedef that may be followed is replaced by what it stands for. -/
theorem descriptor_succ_of_typedef
    (h : declarations.referent module path = .typedef found target) :
    declarations.descriptor (steps + 1) module path
      = target.descriptorWith (declarations.descriptor steps found.dropLast) := by
  rw [descriptor, h]

end

/-- A path of several names that is not the end of another declared path, and not that of an enum
or a typedef, is a reference to a record, whether it is declared or not. -/
theorem descriptor_eq_record {module : Path} (hlength : path.length ≠ 1)
    (htypedefs : ∀ other ∈ declarations.typedefs.keys, ¬path <:+ other)
    (hstructs : ∀ other, declarations.hasStruct other = true → path <:+ other → other = path)
    (henums : ∀ other ∈ declarations.enums.keys, ¬path <:+ other) (steps : Nat) :
    declarations.descriptor steps module path = .record ("/".intercalate path) := by
  have hrefers := declarations.refersTo_referent module path
  have hqualify : qualify module path = path := if_neg hlength
  have hsuffix : path <:+ (declarations.referent module path).path := by
    rcases hrefers.path_eq with hend | heq
    · rwa [hqualify] at hend
    · exact ⟨[], heq.symm⟩
  have hdeclares := hrefers.declares
  cases hfound : declarations.referent module path with
  | typedef other target =>
    rw [hfound] at hsuffix hdeclares
    exact absurd hsuffix (htypedefs other (Table.mem_keys_of_get? hdeclares))
  | struct other =>
    rw [hfound] at hsuffix hdeclares
    rw [descriptor_of_struct hfound, hstructs other hdeclares.2 hsuffix]
  | enum other =>
    rw [hfound] at hsuffix hdeclares
    exact absurd hsuffix (henums other (Table.contains_eq_true_iff.mp hdeclares.2.2))
  | foreign other =>
    rw [descriptor_of_foreign hfound, hrefers.eq_qualify other hfound, hqualify]

end Declarations

end RosInterface.Idl
