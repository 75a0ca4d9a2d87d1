import Mathlib.Data.List.Basic
import RosInterface.Install.Location
import RosInterface.Proofs.Naming.Path
import RosInterface.Proofs.Resolution.Definition

/-!
# Where the records of an interface are installed

A service or an action is installed as a whole: each of its records is named after it with a
suffix, and is looked for in its file. So the suffix that was put on has to come off again. It does,
since no suffix of a kind ends in another one.

## Main definitions

* `Install.IsWholeName`: the name of an interface that is not that of a record of another one.

## Main results

* `Install.withoutSuffix_append`: a suffix that was put on comes off.
* `Install.Location.parse?_eq_some_iff`: which names have a location.
* `Install.IsWholeName.exists_parse?_recordName`: the records of an interface are installed where
  the interface is.
-/

namespace RosInterface.Install

/-! ### Suffixes -/

section

variable {suffixes : List String} {base suffix name : String}

/-- No text of a list ends in another one. -/
def IsSuffixFree (suffixes : List String) : Prop :=
  ∀ s ∈ suffixes, ∀ t ∈ suffixes, s.toList <:+ t.toList → s = t

theorem isSuffixFree_partSuffixes (kind : Kind) : IsSuffixFree (partSuffixes kind) := by
  unfold IsSuffixFree
  cases kind <;> decide

/-- The suffixes of records can stand in a name. -/
theorem isSegment_of_mem_partSuffixes {kind : Kind} (h : suffix ∈ partSuffixes kind) :
    IsSegment suffix := by
  have hall : ∀ s ∈ partSuffixes kind,
      s ≠ "" ∧ '/' ∉ s.toList ∧ Text.trim s.toList = s.toList := by
    cases kind <;> decide
  obtain ⟨hempty, hslash, htrim⟩ := hall suffix h
  exact ⟨hempty, hslash, htrim⟩

/-- The record of a message has the name of the message, and those of other interfaces are named
after them with a suffix. -/
theorem mem_recordNames_iff {kind : Kind} {part : String} :
    part ∈ kind.recordNames name ↔
      (kind = .message ∧ part = name) ∨ ∃ suffix ∈ partSuffixes kind, part = name ++ suffix := by
  have hnames (hkind : kind ≠ .message) :
      kind.recordNames name = (partSuffixes kind).map (name ++ ·) := by
    cases kind
    · exact absurd rfl hkind
    · rfl
    · rfl
  by_cases hkind : kind = .message
  · subst hkind
    simp [Kind.recordNames, partSuffixes]
  · rw [hnames hkind, List.mem_map]
    simp [hkind, eq_comm]

/-- A suffix that was put on comes off. -/
theorem withoutSuffix_append (hfree : IsSuffixFree suffixes) (hs : suffix ∈ suffixes)
    (hbase : base ≠ "") : withoutSuffix suffixes (base ++ suffix) = base := by
  have hmatch : (suffix.toList.isSuffixOf? (base ++ suffix).toList).isSome = true := by
    rw [String.toList_append, List.isSuffixOf?_eq_some_iff_append_eq.mpr rfl]
    rfl
  have hsome : (suffixes.findSome? fun s =>
      s.toList.isSuffixOf? (base ++ suffix).toList).isSome = true :=
    List.findSome?_isSome_iff.mpr ⟨suffix, hs, hmatch⟩
  obtain ⟨rest, hrest⟩ := Option.isSome_iff_exists.mp hsome
  obtain ⟨other, hother, hfound⟩ := List.exists_of_findSome?_eq_some hrest
  rw [List.isSuffixOf?_eq_some_iff_append_eq, String.toList_append] at hfound
  -- the suffix that is found and the one that was put on end the same text
  have hsame : other = suffix := by
    rcases List.suffix_or_suffix_of_suffix ⟨rest, hfound⟩ (List.suffix_append _ suffix.toList) with
      h | h
    · exact hfree other hother suffix hs h
    · exact (hfree suffix hs other hother h).symm
  subst hsame
  obtain rfl := List.append_cancel_right hfound
  rw [withoutSuffix, hrest]
  split
  · rename_i c rest heq
    rw [← Option.some.inj heq, String.ofList_toList]
  · rename_i hne
    obtain ⟨c, rest, hcons⟩ := List.exists_cons_of_ne_nil (l := base.toList) (by simpa using hbase)
    exact absurd (congrArg some hcons) (hne c rest)

/-- A name without any of the suffixes is left as it is. -/
theorem withoutSuffix_eq_self (h : ∀ suffix ∈ suffixes, ¬suffix.toList <:+ name.toList) :
    withoutSuffix suffixes name = name := by
  have hnone : suffixes.findSome? (fun suffix => suffix.toList.isSuffixOf? name.toList) = none := by
    refine List.findSome?_eq_none_iff.mpr fun suffix hs => ?_
    refine Option.eq_none_iff_forall_ne_some.mpr fun rest hrest => h suffix hs ⟨rest, ?_⟩
    exact List.isSuffixOf?_eq_some_iff_append_eq.mp hrest
  rw [withoutSuffix, hnone]

/-- A name that is not left as it is has one of the suffixes, and more than that. -/
theorem exists_suffix_of_withoutSuffix_ne (h : withoutSuffix suffixes name ≠ name) :
    ∃ suffix ∈ suffixes, withoutSuffix suffixes name ≠ "" ∧
      withoutSuffix suffixes name ++ suffix = name := by
  rw [withoutSuffix] at h ⊢
  split at h
  · rename_i c rest hfound
    obtain ⟨suffix, hs, hrest⟩ := List.exists_of_findSome?_eq_some hfound
    rw [List.isSuffixOf?_eq_some_iff_append_eq] at hrest
    refine ⟨suffix, hs, by simp, String.toList_inj.mp ?_⟩
    rw [String.toList_append, String.toList_ofList, hrest]
  · exact absurd rfl h

end

/-! ### Locations -/

namespace Location

/-- A name has a location if it has a package, the segment of a kind and a name of its own. -/
theorem parse?_eq_some_iff {name : String} {location : Location} :
    parse? name = some location ↔ ∃ q package kind, QualifiedName.parse? name = some q ∧
      q.namespaces = [package, kind.segment] ∧
        location = ⟨package, kind, q.name, withoutSuffix (partSuffixes kind) q.name⟩ := by
  rw [parse?]
  constructor
  · intro h
    obtain ⟨q, hq, hsegments⟩ := Option.bind_eq_some_iff.mp h
    split at hsegments
    · rename_i package segment hnamespaces
      obtain ⟨kind, hkind, hlocation⟩ := Option.bind_eq_some_iff.mp hsegments
      rw [← Kind.segment_of_ofSegment? hkind] at hnamespaces
      exact ⟨q, package, kind, hq, hnamespaces, (Option.some.inj hlocation).symm⟩
    · cases hsegments
  · rintro ⟨q, package, kind, hq, hnamespaces, rfl⟩
    rw [hq]
    simp only [Option.bind_eq_bind, Option.bind_some, hnamespaces, Kind.ofSegment?_segment]
    rfl

/-- A name stands for a record unless it is that of a service or an action. -/
theorem isWhole_eq_false_iff {location : Location} :
    location.isWhole = false ↔ location.kind = .message ∨ location.base ≠ location.name := by
  rw [isWhole, Bool.and_eq_false_iff, bne_eq_false_iff_eq, beq_eq_false_iff_ne]

end Location

/-! ### Interfaces as wholes -/

/-- The text is the plain spelling of the name of an interface of a kind, and not of one of the
records that a service or an action is made of. -/
structure IsWholeName (q : QualifiedName) (package : String) (kind : Kind) (name : String) :
    Prop where
  /-- The text is the plain spelling of the name. -/
  spells : q.Spells name
  /-- The name has a package and the segment of the kind. -/
  namespaces_eq : q.namespaces = [package, kind.segment]
  /-- The name has none of the suffixes of records. -/
  not_suffix : ∀ suffix ∈ partSuffixes kind, ¬suffix.toList <:+ q.name.toList

namespace IsWholeName

variable {q : QualifiedName} {package name : String} {kind : Kind}

/-- The interface is looked for under its own name. -/
theorem parse?_eq (h : IsWholeName q package kind name) :
    Location.parse? name = some ⟨package, kind, q.name, q.name⟩ := by
  refine Location.parse?_eq_some_iff.mpr
    ⟨q, package, kind, h.spells.parse?_eq, h.namespaces_eq, ?_⟩
  rw [withoutSuffix_eq_self h.not_suffix]

/-- The interface is read under its own name. -/
theorem interfaceName_eq (h : IsWholeName q package kind name) :
    Location.interfaceName ⟨package, kind, q.name, q.name⟩ = name := by
  rw [← h.spells.text_eq, QualifiedName.text, QualifiedName.segments, h.namespaces_eq]
  simp [Location.interfaceName, String.append_assoc]

/-- The interface is classified by its kind. -/
theorem classify?_eq (h : IsWholeName q package kind name) : Kind.classify? name = some kind := by
  rw [← h.spells.text_eq]
  exact Kind.classify?_text_of_namespaces
    (fun segment hs => (h.spells.isSegment hs).slash_notMem) h.namespaces_eq

/-- **The records of an interface are looked for where the interface is,** and are not taken for the
interface as a whole. -/
theorem exists_parse?_recordName (h : IsWholeName q package kind name) {part : String}
    (hpart : part ∈ kind.recordNames name) :
    ∃ own, Location.parse? part = some ⟨package, kind, own, q.name⟩ ∧
      Location.isWhole ⟨package, kind, own, q.name⟩ = false := by
  rcases mem_recordNames_iff.mp hpart with ⟨rfl, rfl⟩ | ⟨suffix, hsuffix, rfl⟩
  · exact ⟨q.name, h.parse?_eq, rfl⟩
  · have hspells := h.spells.append (isSegment_of_mem_partSuffixes hsuffix)
    have hempty : q.name ≠ "" := (h.spells.isSegment (by simp [QualifiedName.segments])).ne_empty
    refine ⟨q.name ++ suffix, ?_, Location.isWhole_eq_false_iff.mpr (.inr fun heq => ?_)⟩
    · refine Location.parse?_eq_some_iff.mpr
        ⟨_, package, kind, hspells.parse?_eq, h.namespaces_eq, ?_⟩
      change _ = Location.mk package kind (q.name ++ suffix)
        (withoutSuffix (partSuffixes kind) (q.name ++ suffix))
      rw [withoutSuffix_append (isSuffixFree_partSuffixes kind) hsuffix hempty]
    · have hlist := congrArg String.toList heq
      rw [String.toList_append, List.self_eq_append_right, String.toList_eq_nil_iff] at hlist
      exact (isSegment_of_mem_partSuffixes hsuffix).ne_empty hlist

end IsWholeName

end RosInterface.Install
