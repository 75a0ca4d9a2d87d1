import Mathlib.Data.List.Perm.Basic
import RosInterface.Proofs.Idl.Sections

/-!
# Declarations in several sections

The declarations of a bundle are those of its sections put together. Of the declarations of one kind
with one path the last one counts, and it stands where the first one stood. Which paths are declared
does not depend on how the declarations are put together.

## Main definitions

* `Idl.Declarations.mergeAll`: the declarations of several files together.
* `Idl.Section.Declares`: what a section declares.

## Main results

* `Idl.Declarations.structs_mergeAll`, `Idl.Declarations.enums_mergeAll`,
  `Idl.Declarations.typedefs_mergeAll`: what several files declare, as tables.
* `Idl.Declarations.hasStruct_mergeAll_iff`: the structs that several files declare.
* `Idl.bundleRecords_eq_ok_iff`: when a bundle is accepted, and with which records.
-/

namespace RosInterface.Idl

namespace Declarations

/-- The declarations of several files together, the later ones in the place of the earlier ones. -/
def mergeAll (files : List Declarations) : Declarations :=
  files.foldl merge .empty

theorem foldl_merge (files : List Declarations) (before : Declarations) :
    files.foldl merge before =
      ⟨((⟨before.structs⟩ : Table Path (List Member)).insertAll (files.flatMap structs)).entries,
        before.enums.insertAll (files.flatMap fun file => file.enums.entries),
        before.typedefs.insertAll (files.flatMap fun file => file.typedefs.entries)⟩ := by
  induction files generalizing before with
  | nil => rfl
  | cons file files ih =>
    rw [List.foldl_cons, ih]
    simp only [merge, List.flatMap_cons, Table.insertAll_append]

theorem structs_mergeAll (files : List Declarations) :
    (mergeAll files).structs = (Table.ofList (files.flatMap structs)).entries := by
  rw [mergeAll, foldl_merge]
  rfl

theorem enums_mergeAll (files : List Declarations) :
    (mergeAll files).enums = Table.ofList (files.flatMap fun file => file.enums.entries) := by
  rw [mergeAll, foldl_merge]
  rfl

theorem typedefs_mergeAll (files : List Declarations) :
    (mergeAll files).typedefs = Table.ofList (files.flatMap fun file => file.typedefs.entries) := by
  rw [mergeAll, foldl_merge]
  rfl

/-- A single file that declares nothing twice is left as it is. -/
theorem mergeAll_singleton {file : Declarations} (hstructs : (file.structs.map Prod.fst).Nodup)
    (henums : file.enums.keys.Nodup) (htypedefs : file.typedefs.keys.Nodup) :
    mergeAll [file] = file :=
  calc
    mergeAll [file] = ⟨(Table.ofList file.structs).entries, Table.ofList file.enums.entries,
        Table.ofList file.typedefs.entries⟩ := rfl
    _ = file := by
      rw [Table.ofList_eq_of_nodup hstructs, Table.ofList_eq_of_nodup henums,
        Table.ofList_eq_of_nodup htypedefs]

/-! ### Declared paths -/

theorem hasStruct_iff {declarations : Declarations} {path : Path} :
    declarations.hasStruct path = true ↔ path ∈ declarations.structs.map Prod.fst := by
  rw [hasStruct, List.any_eq_true, List.mem_map]
  simp only [decide_eq_true_iff]

/-- The structs of several files are those that one of them declares. -/
theorem hasStruct_mergeAll_iff {files : List Declarations} {path : Path} :
    (mergeAll files).hasStruct path = true ↔ ∃ file ∈ files, file.hasStruct path = true := by
  simp only [hasStruct_iff, structs_mergeAll]
  exact Table.mem_keys_ofList_flatMap

/-- The enums of several files are those that one of them declares. -/
theorem contains_enums_mergeAll_iff {files : List Declarations} {path : Path} :
    (mergeAll files).enums.contains path = true ↔
      ∃ file ∈ files, file.enums.contains path = true := by
  simp only [Table.contains_eq_true_iff, enums_mergeAll]
  exact Table.mem_keys_ofList_flatMap

/-- The typedefs of several files are those that one of them declares. -/
theorem contains_typedefs_mergeAll_iff {files : List Declarations} {path : Path} :
    (mergeAll files).typedefs.contains path = true ↔
      ∃ file ∈ files, file.typedefs.contains path = true := by
  simp only [Table.contains_eq_true_iff, typedefs_mergeAll]
  exact Table.mem_keys_ofList_flatMap

end Declarations

/-! ### Bundles -/

/-- The section is an IDL file that declares the given. -/
def Section.Declares (s : Section) (found : Declarations) : Prop :=
  declarations s.text = .ok found

instance (s : Section) (found : Declarations) : Decidable (s.Declares found) :=
  inferInstanceAs (Decidable (declarations s.text = .ok found))

/-- Sections are put together if each of them is an IDL file. -/
theorem mergeSections_eq_ok_iff {before found : Declarations} {sections : List Section} :
    mergeSections before sections = .ok found ↔
      ∃ files, List.Forall₂ Section.Declares sections files ∧
        files.foldl Declarations.merge before = found := by
  induction sections generalizing before with
  | nil =>
    constructor
    · exact fun h => ⟨[], .nil, Except.ok.inj h⟩
    · rintro ⟨files, hfiles, rfl⟩
      cases hfiles
      rfl
  | cons s sections ih =>
    rw [mergeSections]
    cases hs : declarations s.text with
    | error e =>
      constructor
      · exact fun h => nomatch h
      · rintro ⟨files, hfiles, -⟩
        obtain ⟨file, more, hfile, -, -⟩ := List.forall₂_cons_left_iff.mp hfiles
        cases hs.symm.trans hfile
    | ok file =>
      simp only [ih, List.forall₂_cons_left_iff]
      constructor
      · rintro ⟨files, hfiles, rfl⟩
        exact ⟨file :: files, ⟨file, files, hs, hfiles, rfl⟩, rfl⟩
      · rintro ⟨_, ⟨file', files, hfile', hfiles, rfl⟩, rfl⟩
        obtain rfl := Except.ok.inj (hs.symm.trans hfile')
        exact ⟨files, hfiles, rfl⟩

/-- **A bundle is accepted exactly when it has sections, each of which is an IDL file.** Its records
are those of all that the sections declare. -/
theorem bundleRecords_eq_ok_iff {text : List Char} {found : List Record} :
    bundleRecords text = .ok found ↔
      ∃ parts files, sections text = .ok parts ∧ List.Forall₂ Section.Declares parts files ∧
        (Declarations.mergeAll files).records = found := by
  simp only [bundleRecords, bind_eq_ok_iff, pure_eq_ok_iff, mergeSections_eq_ok_iff]
  constructor
  · rintro ⟨parts, hparts, _, ⟨files, hfiles, rfl⟩, hfound⟩
    exact ⟨parts, files, hparts, hfiles, hfound⟩
  · rintro ⟨parts, files, hparts, hfiles, hfound⟩
    exact ⟨parts, hparts, _, ⟨files, hfiles, rfl⟩, hfound⟩

end RosInterface.Idl
