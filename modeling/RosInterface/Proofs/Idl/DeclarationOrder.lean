import RosInterface.Proofs.Idl.Merging

/-!
# The order of declarations

What a path refers to depends on what is declared and not on the order of the declarations. A suffix
is looked for among all paths of a kind, and it must be the only one that fits, so the order in
which the paths are gone through does not show. The sections of a bundle may therefore stand in any
order if no two of them declare the same: the records come in another order and are the same
otherwise.

A bundle with the sections of another one, in any order, can be written down: its lines are those of
the sections, with a separator after each section.

## Main definitions

* `Idl.Declarations.IsReordering`: the same declarations in another order.
* `Idl.Declarations.Apart`, `Idl.Section.Apart`: nothing is declared twice as the same kind of
  thing.

## Main results

* `Idl.Declarations.IsReordering.records_perm`: reordered declarations give reordered records.
* `Idl.Declarations.isReordering_mergeAll`: files may be put together in any order.
* `Idl.exists_sections_eq_ok`: sections of a bundle can be written down in any order.
* `Idl.bundleRecords_perm_and_records_eq`: the order of sections and of tables does not matter.
-/

namespace RosInterface.Idl

open Text

/-! ### Reordered declarations -/

/-- A suffix is looked for among paths in any order. -/
theorem uniqueSuffix?_eq_of_perm {paths paths' : List Path} (h : paths'.Perm paths)
    (suffix : Path) : uniqueSuffix? paths' suffix = uniqueSuffix? paths suffix := by
  have hfilter := h.filter (suffix.isSuffixOf ·)
  have hcongr {found found' : List Path} (hfound : found'.Perm found) {path : Path}
      (hpath : found = [path]) : found' = [path] :=
    List.perm_singleton.mp (hpath ▸ hfound)
  rw [uniqueSuffix?, uniqueSuffix?]
  split
  · rename_i path hpath
    rw [hcongr hfilter.symm hpath]
  · rename_i hnone
    split
    · rename_i path hpath
      exact absurd (hcongr hfilter hpath) (hnone path)
    · rfl

namespace Declarations

variable {declarations declarations' : Declarations}

/-- The same is declared, in another order. A typedef is listed once. -/
structure IsReordering (declarations' declarations : Declarations) : Prop where
  /-- The structs are the same. -/
  structs : declarations'.structs.Perm declarations.structs
  /-- The enums are the same. -/
  enums : declarations'.enums.entries.Perm declarations.enums.entries
  /-- The typedefs are the same. -/
  typedefs : declarations'.typedefs.entries.Perm declarations.typedefs.entries
  /-- No typedef is listed twice. -/
  nodup_typedefs : declarations.typedefs.keys.Nodup

namespace IsReordering

variable (h : IsReordering declarations' declarations)

include h

theorem keys_enums : declarations'.enums.keys.Perm declarations.enums.keys :=
  h.enums.map Prod.fst

theorem keys_typedefs : declarations'.typedefs.keys.Perm declarations.typedefs.keys :=
  h.typedefs.map Prod.fst

/-- A path is declared as the same. -/
theorem declared?_eq (path : Path) :
    declarations'.declared? path = declarations.declared? path := by
  have htypedef := Table.get?_eq_of_perm h.typedefs h.nodup_typedefs path
  have hstruct : declarations'.hasStruct path = declarations.hasStruct path := by
    rw [Bool.eq_iff_iff, hasStruct_iff, hasStruct_iff]
    exact (h.structs.map Prod.fst).mem_iff
  have henum : declarations'.enums.contains path = declarations.enums.contains path := by
    rw [Bool.eq_iff_iff, Table.contains_eq_true_iff, Table.contains_eq_true_iff]
    exact h.keys_enums.mem_iff
  rw [declared?, declared?, htypedef, hstruct, henum]

/-- The same suffixes are found. -/
theorem suffixed?_eq (path : Path) :
    declarations'.suffixed? path = declarations.suffixed? path := by
  rw [suffixed?, suffixed?, uniqueSuffix?_eq_of_perm h.keys_typedefs,
    uniqueSuffix?_eq_of_perm (h.structs.map Prod.fst), uniqueSuffix?_eq_of_perm h.keys_enums]

/-- Members become the same fields. -/
theorem field_eq : declarations'.field = declarations.field :=
  field_congr (referent_congr h.declared?_eq h.suffixed?_eq)

/-- **Reordered declarations give the same records in another order.** -/
theorem records_perm : declarations'.records.Perm declarations.records := by
  rw [records, records, h.field_eq]
  exact h.structs.map _

end IsReordering

/-! ### Files that are put together -/

/-- Nothing is declared in both of two files as the same kind of thing. -/
structure Apart (file other : Declarations) : Prop where
  /-- No path is a struct in both. -/
  structs : ∀ path ∈ file.structs.map Prod.fst, path ∉ other.structs.map Prod.fst
  /-- No path is an enum in both. -/
  enums : ∀ path ∈ file.enums.keys, path ∉ other.enums.keys
  /-- No path is a typedef in both. -/
  typedefs : ∀ path ∈ file.typedefs.keys, path ∉ other.typedefs.keys

/-- **Files that declare nothing twice may be put together in any order.** -/
theorem isReordering_mergeAll {files files' : List Declarations} (hp : files'.Perm files)
    (h : files.Pairwise Apart) : IsReordering (mergeAll files') (mergeAll files) where
  structs := by
    rw [structs_mergeAll, structs_mergeAll]
    exact Table.entries_ofList_flatMap_perm hp (h.imp Apart.structs)
  enums := by
    rw [enums_mergeAll, enums_mergeAll]
    exact Table.entries_ofList_flatMap_perm hp (h.imp Apart.enums)
  typedefs := by
    rw [typedefs_mergeAll, typedefs_mergeAll]
    exact Table.entries_ofList_flatMap_perm hp (h.imp Apart.typedefs)
  nodup_typedefs := by
    rw [typedefs_mergeAll]
    exact Table.nodup_keys_ofList _

end Declarations

/-- Nothing is declared in both of two sections as the same kind of thing. -/
def Section.Apart (s s' : Section) : Prop :=
  ∀ file file', s.Declares file → s'.Declares file' → file.Apart file'

/-- Sections that declare nothing twice are files that declare nothing twice. -/
theorem pairwise_apart_of_sections {parts : List Section} {files : List Declarations}
    (hfiles : List.Forall₂ Section.Declares parts files) (h : parts.Pairwise Section.Apart) :
    files.Pairwise Declarations.Apart := by
  induction hfiles with
  | nil => exact .nil
  | @cons s file parts files hs hfiles ih =>
    obtain ⟨hfirst, hrest⟩ := List.pairwise_cons.mp h
    refine List.pairwise_cons.mpr ⟨fun other hother => ?_, ih hrest⟩
    obtain ⟨s', hs', hdeclares⟩ := exists_of_mem_of_forall₂ hfiles hother
    exact hfirst s' hs' file other hs hdeclares

/-! ### Sections that are written -/

/-- Every section of a bundle is read from lines of the bundle. -/
theorem exists_isReadFrom {text : List Char} {parts : List Section}
    (h : sections text = .ok parts) {s : Section} (hs : s ∈ parts) :
    ∃ group, s.IsReadFrom group ∧ ∀ line ∈ group, IsBundleLine line := by
  obtain ⟨hread, -⟩ := sections_eq_ok_iff.mp h
  obtain ⟨group, hgroup, hsection⟩ := exists_of_mem_of_forall₂ hread.flip hs
  refine ⟨group, hsection, fun line hline => ?_⟩
  obtain ⟨hmem, hseparator⟩ := mem_of_mem_groups (List.mem_of_mem_filter hgroup) hline
  obtain ⟨htrim, hne, hone⟩ := isContent_of_mem hmem
  exact ⟨htrim, hne, hone, hseparator⟩

/-- The text of a bundle with given groups of lines, each with a separator behind it. -/
def bundleText (written : List (List (List Char))) : List Char :=
  (written.flatMap (· ++ [['=']])).flatMap (· ++ ['\n'])

/-- The groups of a text that is written are the given ones, and one without lines. -/
theorem groups_flatMap {written : List (List (List Char))}
    (h : ∀ group ∈ written, ∀ line ∈ group, isSeparator line = false) :
    groups (written.flatMap (· ++ [['=']])) = written ++ [[]] := by
  induction written with
  | nil => rfl
  | cons group written ih =>
    obtain ⟨hgroup, hwritten⟩ := List.forall_mem_cons.mp h
    rw [List.flatMap_cons, List.append_assoc, List.singleton_append, groups_append hgroup,
      groups_cons_of_isSeparator rfl, ih hwritten, List.modifyHead_cons, List.append_nil,
      List.cons_append]

/-- The lines of a text that is written are read as they are. -/
theorem bundleLines_bundleText {written : List (List (List Char))}
    (h : ∀ group ∈ written, ∀ line ∈ group, IsBundleLine line) :
    bundleLines (bundleText written) = written.flatMap (· ++ [['=']]) := by
  refine bundleLines_flatMap fun line hline => ?_
  obtain ⟨group, hgroup, hline⟩ := List.mem_flatMap.mp hline
  rcases List.mem_append.mp hline with hline | hline
  · exact (h group hgroup line hline).isContent
  · exact isContent_of_isSeparator (List.mem_singleton.mp hline ▸ rfl)

/-- The sections that are written are read. -/
theorem sections_bundleText {parts : List Section} {written : List (List (List Char))}
    (h : List.Forall₂ Section.IsReadFrom parts written)
    (hlines : ∀ group ∈ written, ∀ line ∈ group, IsBundleLine line) (hne : parts ≠ []) :
    sections (bundleText written) = .ok parts := by
  have hgroups := groups_flatMap fun group hgroup line hline =>
    (hlines group hgroup line hline).isSeparator_eq
  have hwritten : ∀ group ∈ written, (!group.isEmpty) = true := by
    intro group hgroup
    obtain ⟨s, -, header, body, rfl, -⟩ := exists_of_mem_of_forall₂ h hgroup
    rfl
  rw [sections_eq_ok_iff, bundleLines_bundleText hlines, hgroups, List.filter_append,
    List.filter_eq_self.mpr hwritten, List.filter_singleton]
  exact ⟨by simpa using h, hne⟩

/-- **Sections of a bundle are a bundle, in any order.** -/
theorem exists_sections_eq_ok {text : List Char} {parts parts' : List Section}
    (h : sections text = .ok parts) (hne : parts' ≠ []) (hsub : ∀ s ∈ parts', s ∈ parts) :
    ∃ text', sections text' = .ok parts' := by
  have hread : ∀ s : Section, s ∈ parts →
      ∃ group, s.IsReadFrom group ∧ ∀ line ∈ group, IsBundleLine line :=
    fun s hs => exists_isReadFrom h hs
  choose! group hgroup using hread
  refine ⟨bundleText (parts'.map group), sections_bundleText ?_ ?_ hne⟩
  · rw [List.forall₂_map_right_iff, List.forall₂_same]
    exact fun s hs => (hgroup s (hsub s hs)).1
  · exact List.forall_mem_map.mpr fun s hs => (hgroup s (hsub s hs)).2

/-! ### Bundles in another order -/

/-- Sections that declare nothing twice may stand in any order. -/
theorem exists_bundleRecords_perm {text text' : List Char} {parts parts' : List Section}
    {found : List Record} (hparts : sections text = .ok parts)
    (hfound : bundleRecords text = .ok found) (hapart : parts.Pairwise Section.Apart)
    (hperm : parts'.Perm parts) (hparts' : sections text' = .ok parts') :
    ∃ found', bundleRecords text' = .ok found' ∧ found'.Perm found := by
  obtain ⟨read, files, hread, hfiles, rfl⟩ := bundleRecords_eq_ok_iff.mp hfound
  obtain rfl : read = parts := Except.ok.inj (hread.symm.trans hparts)
  obtain ⟨files', hfiles', hpermFiles⟩ := List.perm_comp_forall₂ hperm hfiles
  refine ⟨_, bundleRecords_eq_ok_iff.mpr ⟨parts', files', hparts', hfiles', rfl⟩, ?_⟩
  have happartFiles := pairwise_apart_of_sections hfiles hapart
  exact (Declarations.isReordering_mergeAll hpermFiles happartFiles).records_perm

/-- **The order of sections and of tables does not matter.** Sections of which no two declare the
same can be put in any order: the bundle is accepted and gives the same records in some order, each
with the same fields. The order of the enums and of the typedefs does not show at all. -/
theorem bundleRecords_perm_and_records_eq :
    (∀ (text : List Char) (parts : List Section) (found : List Record),
      sections text = .ok parts → bundleRecords text = .ok found →
        parts.Pairwise Section.Apart → ∀ parts' : List Section, parts'.Perm parts →
          (∃ text', sections text' = .ok parts') ∧
          ∀ text', sections text' = .ok parts' →
            ∃ found', bundleRecords text' = .ok found' ∧ found'.Perm found) ∧
    ∀ declarations declarations' : Declarations,
      declarations'.structs = declarations.structs →
        declarations'.enums.entries.Perm declarations.enums.entries →
          declarations'.typedefs.entries.Perm declarations.typedefs.entries →
            declarations.typedefs.keys.Nodup →
              declarations'.records = declarations.records := by
  constructor
  · intro text parts found hparts hfound hapart parts' hperm
    have hne : parts' ≠ [] := fun hnil =>
      (sections_eq_ok_iff.mp hparts).2 (hnil ▸ hperm).nil_eq.symm
    exact ⟨exists_sections_eq_ok hparts hne fun s hs => hperm.mem_iff.mp hs,
      fun text' => exists_bundleRecords_perm hparts hfound hapart hperm⟩
  · intro declarations declarations' hstructs henums htypedefs hnodup
    have hreorder : declarations'.IsReordering declarations :=
      ⟨.of_eq hstructs, henums, htypedefs, hnodup⟩
    rw [Declarations.records, Declarations.records, hreorder.field_eq, hstructs]

/-- A struct with an enum and a typedef of another section. -/
def twoSectionText : List Char :=
  ("IDL: p/A\nstruct A \x7b\n  E e;\n  T t;\n\x7d;\n===\n" ++
    "IDL: p/E\nenum E \x7b\n  V\n\x7d;\ntypedef int32 T;\ntypedef int8 U;\n").toList

/-- The same sections in the other order. -/
def swappedSectionText : List Char :=
  ("IDL: p/E\nenum E \x7b\n  V\n\x7d;\ntypedef int32 T;\ntypedef int8 U;\n===\n" ++
    "IDL: p/A\nstruct A \x7b\n  E e;\n  T t;\n\x7d;\n").toList

/-- The section with the struct. -/
def structSection : Section :=
  ⟨["p", "A"], ["struct A \x7b".toList, "E e;".toList, "T t;".toList, "\x7d;".toList]⟩

/-- The section with the enum and the typedefs. -/
def enumSection : Section :=
  ⟨["p", "E"], ["enum E \x7b".toList, "V".toList, "\x7d;".toList, "typedef int32 T;".toList,
    "typedef int8 U;".toList]⟩

/-- What the two sections declare together, with the typedefs in a given order. -/
def twoSectionDeclarations (typedefs : List (Path × Member)) : Declarations :=
  ⟨[(["A"], [⟨"e", .named ["E"], none⟩, ⟨"t", .named ["T"], none⟩])],
    ⟨[(["E"], ["V"])]⟩, ⟨typedefs⟩⟩

theorem pairwise_apart_twoSections : [structSection, enumSection].Pairwise Section.Apart := by
  have hstruct : structSection.Declares ⟨(twoSectionDeclarations []).structs, .empty, .empty⟩ := by
    decide +kernel
  have henum : enumSection.Declares ⟨[], (twoSectionDeclarations []).enums,
      ⟨[(["T"], ⟨"T", .basic .int32, none⟩), (["U"], ⟨"U", .basic .int8, none⟩)]⟩⟩ := by
    decide +kernel
  have hapart : structSection.Apart enumSection := by
    intro file file' hfile hfile'
    obtain rfl := Except.ok.inj (hstruct.symm.trans hfile)
    obtain rfl := Except.ok.inj (henum.symm.trans hfile')
    constructor <;> decide
  simpa using hapart

theorem bundleRecords_swappedSectionText :
    (∃ found, bundleRecords swappedSectionText = .ok found ∧
      found.Perm [⟨"A", [⟨"e", .primitive "E"⟩, ⟨"t", .primitive "int32"⟩]⟩]) ∧
    (twoSectionDeclarations
        [(["U"], ⟨"U", .basic .int8, none⟩), (["T"], ⟨"T", .basic .int32, none⟩)]).records =
      (twoSectionDeclarations
        [(["T"], ⟨"T", .basic .int32, none⟩), (["U"], ⟨"U", .basic .int8, none⟩)]).records := by
  have hswapped := bundleRecords_perm_and_records_eq.1 twoSectionText [structSection, enumSection]
    [⟨"A", [⟨"e", .primitive "E"⟩, ⟨"t", .primitive "int32"⟩]⟩] (by decide +kernel)
    (by decide +kernel) pairwise_apart_twoSections [enumSection, structSection] (.swap _ _ _)
  exact ⟨hswapped.2 swappedSectionText (by decide +kernel),
    bundleRecords_perm_and_records_eq.2 _ _ rfl (.refl _) (.swap _ _ _) (by decide)⟩

end RosInterface.Idl
