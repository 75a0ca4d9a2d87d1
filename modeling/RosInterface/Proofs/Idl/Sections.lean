import Mathlib.Data.List.Forall2
import RosInterface.Outcome
import RosInterface.Idl.Bundle
import RosInterface.Proofs.Naming.Scope

/-!
# The sections of a bundle

The lines of a bundle that are not blank fall into groups between separators. Put together, the
groups are all lines that separate nothing, in their order. A section is a group with lines: its
first line is the header, with the path of the section, and the others are the body.

## Main definitions

* `Idl.IsContent`: a line that stands in a bundle as it is written.
* `Idl.IsBundleLine`: such a line that separates nothing.
* `Idl.Section.IsReadFrom`: the lines of a section.

## Main results

* `Idl.flatten_groups`: no line is lost, and none is moved.
* `Idl.groups_append`: the groups of a text that goes on.
* `Idl.Section.isReadFrom_iff`, `Idl.isReadFrom_header`: a section is read from its header and its
  body.
* `Idl.sectionsOfGroups_eq_ok_iff`, `Idl.sections_eq_ok_iff`: the sections of a bundle are read from
  its groups with lines.
-/

namespace RosInterface.Idl

open Text

/-- What stands in the second one of two related lists is related to something in the first. -/
theorem exists_of_mem_of_forall₂ {α β : Type} {R : α → β → Prop} {first : List α} {second : List β}
    (h : List.Forall₂ R first second) {b : β} (hb : b ∈ second) : ∃ a ∈ first, R a b := by
  induction h with
  | nil => cases hb
  | cons hab _ ih =>
    rcases List.mem_cons.mp hb with rfl | hb
    · exact ⟨_, List.mem_cons_self, hab⟩
    · obtain ⟨a, ha, hab⟩ := ih hb
      exact ⟨a, List.mem_cons_of_mem _ ha, hab⟩

/-! ### Lines -/

/-- The line stands in a bundle as it is written. -/
structure IsContent (line : List Char) : Prop where
  /-- There are no blanks at the ends of the line. -/
  trim_eq : trim line = line
  /-- The line is not empty. -/
  ne_nil : line ≠ []
  /-- The line is one line. -/
  lineFeed_notMem : '\n' ∉ line

/-- The line stands in a bundle as it is written and separates no sections. -/
structure IsBundleLine (line : List Char) : Prop where
  /-- There are no blanks at the ends of the line. -/
  trim_eq : trim line = line
  /-- The line is not empty. -/
  ne_nil : line ≠ []
  /-- The line is one line. -/
  lineFeed_notMem : '\n' ∉ line
  /-- The line is no separator. -/
  isSeparator_eq : isSeparator line = false

instance (line : List Char) : Decidable (IsBundleLine line) :=
  decidable_of_iff (trim line = line ∧ line ≠ [] ∧ '\n' ∉ line ∧ isSeparator line = false)
    ⟨fun ⟨htrim, hne, hline, hseparator⟩ => ⟨htrim, hne, hline, hseparator⟩,
      fun ⟨htrim, hne, hline, hseparator⟩ => ⟨htrim, hne, hline, hseparator⟩⟩

variable {line : List Char}

theorem IsBundleLine.isContent (h : IsBundleLine line) : IsContent line :=
  ⟨h.trim_eq, h.ne_nil, h.lineFeed_notMem⟩

/-- A separator stands in a bundle as it is written. -/
theorem isContent_of_isSeparator (h : isSeparator line = true) : IsContent line := by
  rw [isSeparator, Bool.and_eq_true, Bool.not_eq_true', List.isEmpty_eq_false_iff,
    List.all_eq_true] at h
  obtain ⟨hne, hall⟩ := h
  have hequals {c : Char} (hc : c ∈ line) : c = '=' := eq_of_beq (hall c hc)
  have hblank : ∀ c ∈ line, isBlank c = false := fun c hc => hequals hc ▸ rfl
  exact {
    trim_eq := trim_eq_self (fun c hc => hblank c (List.mem_of_mem_head? hc))
      fun c hc => hblank c (List.mem_of_mem_getLast? hc)
    ne_nil := hne
    lineFeed_notMem := fun hmem => absurd (hequals hmem) (by decide) }

/-- The lines of a bundle are not blank, and have no blanks at their ends. -/
theorem isContent_of_mem {text : List Char} (h : line ∈ bundleLines text) : IsContent line := by
  obtain ⟨htrimmed, hne⟩ := List.mem_filter.mp h
  obtain ⟨raw, hraw, rfl⟩ := List.mem_map.mp htrimmed
  exact {
    trim_eq := trim_trim raw
    ne_nil := by simpa using hne
    lineFeed_notMem := fun hmem => lineFeed_notMem_of_mem_lines hraw (mem_of_mem_trim hmem) }

/-- The lines of a bundle, by its pieces between line feeds. -/
theorem bundleLines_eq (text : List Char) :
    bundleLines text = ((text.splitOn '\n').map trim).filter fun line => !line.isEmpty :=
  filter_map_lines (fun raw _ h => trim_append_blanks h raw) rfl text

/-- A text without line feeds is one line of a bundle, or none. -/
theorem bundleLines_of_notMem {raw : List Char} (h : '\n' ∉ raw) :
    bundleLines raw = [trim raw].filter fun line => !line.isEmpty := by
  rw [bundleLines_eq, List.splitOn_eq_singleton h, List.map_singleton]

/-- The lines of a bundle behind its first line. -/
theorem bundleLines_append {raw : List Char} (h : '\n' ∉ raw) (text : List Char) :
    bundleLines (raw ++ '\n' :: text) = bundleLines raw ++ bundleLines text := by
  rw [bundleLines_of_notMem h, bundleLines_eq, List.splitOn_append_cons_self_of_not_mem h,
    List.map_cons, ← List.singleton_append, List.filter_append, bundleLines_eq]

theorem bundleLines_of_isContent (h : IsContent line) : bundleLines line = [line] := by
  rw [bundleLines_of_notMem h.lineFeed_notMem, h.trim_eq]
  exact List.filter_eq_self.mpr (by simpa using h.ne_nil)

/-- Lines that are written, each with a line feed behind it, are read as they are. -/
theorem bundleLines_flatMap {written : List (List Char)} (h : ∀ line ∈ written, IsContent line) :
    bundleLines (written.flatMap (· ++ ['\n'])) = written := by
  induction written with
  | nil => rfl
  | cons line written ih =>
    obtain ⟨hline, hwritten⟩ := List.forall_mem_cons.mp h
    rw [List.flatMap_cons, List.append_assoc, List.singleton_append,
      bundleLines_append hline.lineFeed_notMem, bundleLines_of_isContent hline, ih hwritten,
      List.singleton_append]

/-! ### Groups -/

variable {group lines rest : List (List Char)}

theorem groups_ne_nil (lines : List (List Char)) : groups lines ≠ [] := by
  fun_cases groups lines <;> simp_all

/-- A separator begins a new group. -/
theorem groups_cons_of_isSeparator (h : isSeparator line = true) (rest : List (List Char)) :
    groups (line :: rest) = [] :: groups rest := by
  rw [groups, if_pos h]

/-- A line that separates nothing belongs to the first group. -/
theorem groups_cons (h : isSeparator line = false) (rest : List (List Char)) :
    groups (line :: rest) = (groups rest).modifyHead (line :: ·) := by
  obtain ⟨first, more, hrest⟩ := List.exists_cons_of_ne_nil (groups_ne_nil rest)
  rw [groups, if_neg (by simpa using h), hrest]
  rfl

/-- **No line is lost, and none is moved.** The groups put together are the lines that separate
nothing. -/
theorem flatten_groups (lines : List (List Char)) :
    (groups lines).flatten = lines.filter fun line => !isSeparator line := by
  induction lines with
  | nil => rfl
  | cons line rest ih =>
    cases h : isSeparator line with
    | true => rw [groups_cons_of_isSeparator h, List.filter_cons_of_neg (by simp [h]), ← ih]; rfl
    | false =>
      obtain ⟨first, more, hrest⟩ := List.exists_cons_of_ne_nil (groups_ne_nil rest)
      rw [groups_cons h, List.filter_cons_of_pos (by simp [h]), ← ih, hrest]
      rfl

/-- The lines of a group are lines of the bundle that separate nothing. -/
theorem mem_of_mem_groups (hgroup : group ∈ groups lines) (hline : line ∈ group) :
    line ∈ lines ∧ isSeparator line = false := by
  have hmem : line ∈ (groups lines).flatten := List.mem_flatten_of_mem hgroup hline
  rw [flatten_groups] at hmem
  simpa using hmem

/-- Lines that separate nothing belong to the first group of what follows. -/
theorem groups_append (h : ∀ line ∈ group, isSeparator line = false) (rest : List (List Char)) :
    groups (group ++ rest) = (groups rest).modifyHead (group ++ ·) := by
  induction group with
  | nil => exact (congrFun List.modifyHead_id _).symm
  | cons line group ih =>
    obtain ⟨hline, hgroup⟩ := List.forall_mem_cons.mp h
    rw [List.cons_append, groups_cons hline, ih hgroup, List.modifyHead_modifyHead]
    rfl

/-! ### Sections -/

/-- The lines of a section: a header and what stands below it. -/
def Section.IsReadFrom (s : Section) (group : List (List Char)) : Prop :=
  ∃ header body, group = header :: body ∧ sectionOfLines header body = .ok s

/-- The header of a section holds its path, and what stands below is the body. -/
theorem Section.isReadFrom_iff {s : Section} :
    s.IsReadFrom group ↔
      ∃ path, pathSegments path = s.path ∧ s.path ≠ [] ∧
        group = ("IDL:".toList ++ path) :: s.body := by
  constructor
  · rintro ⟨header, body, rfl, hsection⟩
    rw [sectionOfLines] at hsection
    split at hsection
    · cases hsection
    · rename_i path hpath
      split at hsection
      · cases hsection
      · rename_i hne
        obtain rfl := Except.ok.inj hsection
        refine ⟨path, rfl, by simpa using hne, ?_⟩
        rw [List.isPrefixOf?_eq_some_iff_append_eq.mp hpath]
  · rintro ⟨path, hpath, hne, rfl⟩
    have hheader : "IDL:".toList.isPrefixOf? ("IDL:".toList ++ path) = some path :=
      List.isPrefixOf?_eq_some_iff_append_eq.mpr rfl
    refine ⟨_, _, rfl, ?_⟩
    rw [sectionOfLines, hheader]
    simp [hpath, hne]

/-- The header of a section, without the blanks at its ends. -/
theorem trim_header (path : List Char) :
    trim ("IDL: ".toList ++ path) = "IDL:".toList ++ trimEnd (' ' :: path) := by
  have hstart : ∀ c ∈ ("IDL:".toList ++ ' ' :: path).head?, isBlank c = false := by
    intro c hc
    obtain rfl : 'I' = c := Option.some.inj hc
    rfl
  have hend : ∀ c ∈ "IDL:".toList.getLast?, isBlank c = false := by
    intro c hc
    obtain rfl : ':' = c := Option.some.inj hc
    rfl
  change trim ("IDL:".toList ++ ' ' :: path) = _
  rw [trim_eq_trimEnd hstart, trimEnd_append_of_getLast? hend]

/-- Blanks around the path of a header do not count. -/
theorem pathSegments_trimEnd (path : List Char) :
    pathSegments (trimEnd (' ' :: path)) = pathSegments path := by
  have hspace : IsBlanks [' '] := by decide
  obtain ⟨blanks, hblanks, hpath⟩ := exists_eq_trimEnd_append (' ' :: path)
  calc
    pathSegments (trimEnd (' ' :: path)) = pathSegments ([' '] ++ path) := by
      rw [← pathSegments_append_blanks hblanks, ← hpath, List.singleton_append]
    _ = pathSegments path := pathSegments_blanks_append hspace path

/-- A section is read from a header with its path. -/
theorem isReadFrom_header {path : List Char} (h : pathSegments path ≠ [])
    (body : List (List Char)) :
    Section.IsReadFrom ⟨pathSegments path, body⟩ (trim ("IDL: ".toList ++ path) :: body) :=
  Section.isReadFrom_iff.mpr
    ⟨trimEnd (' ' :: path), pathSegments_trimEnd path, h, by rw [trim_header]⟩

/-- **The sections are read from the groups with lines**, one from each of them. -/
theorem sectionsOfGroups_eq_ok_iff {written : List (List (List Char))} {parts : List Section} :
    sectionsOfGroups written = .ok parts ↔
      List.Forall₂ Section.IsReadFrom parts (written.filter fun group => !group.isEmpty) := by
  fun_induction sectionsOfGroups written generalizing parts with
  | case1 => rw [Except.ok.injEq, List.filter_nil, List.forall₂_nil_right_iff, eq_comm]
  | case2 rest ih => rw [ih, List.filter_cons_of_neg (by simp)]
  | case3 header body rest ih =>
    rw [List.filter_cons_of_pos rfl]
    simp only [bind_eq_ok_iff, pure_eq_ok_iff, ih, List.forall₂_cons_right_iff]
    constructor
    · rintro ⟨first, hfirst, others, hothers, rfl⟩
      exact ⟨first, others, ⟨header, body, rfl, hfirst⟩, hothers, rfl⟩
    · rintro ⟨first, others, ⟨_, _, hgroup, hfirst⟩, hothers, rfl⟩
      obtain ⟨rfl, rfl⟩ := List.cons.inj hgroup
      exact ⟨first, hfirst, others, hothers, rfl⟩

/-- The sections of a bundle are read from its groups with lines, and there is one. -/
theorem sections_eq_ok_iff {text : List Char} {parts : List Section} :
    sections text = .ok parts ↔
      List.Forall₂ Section.IsReadFrom parts
        ((groups (bundleLines text)).filter fun group => !group.isEmpty) ∧ parts ≠ [] := by
  simp only [sections, bind_eq_ok_iff, ← sectionsOfGroups_eq_ok_iff]
  constructor
  · rintro ⟨read, hread, h⟩
    split at h
    · cases h
    · rename_i hne
      obtain rfl : read = parts := Except.ok.inj h
      exact ⟨hread, by simpa using hne⟩
  · rintro ⟨hread, hne⟩
    exact ⟨parts, hread, if_neg (by simpa using hne)⟩

end RosInterface.Idl
