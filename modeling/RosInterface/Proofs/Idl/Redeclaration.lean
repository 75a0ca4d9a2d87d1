import Mathlib.Data.List.Nodup
import RosInterface.Proofs.Expansion.FieldTable
import RosInterface.Proofs.Idl.Insertion
import RosInterface.Proofs.Idl.Names

/-!
# Structs that are declared more than once

A struct may be declared several times in a bundle, in different sections or in one of them. A
section that is read keeps all its declarations of a struct, and enums and typedefs with their last
values only. When sections are put together, a later declaration of a struct takes the place of the
earlier one. All that together comes to the same as one table for each kind into which the
declarations of all sections are put, one after the other: a path stands where it came first and has
what came last.

So a bundle has one record for each struct. Its members are those that were declared last, and what
their types refer to is looked up in these tables, when all sections have been read.

## Main definitions

* `Idl.Section.Lists`: the declarations of a section, one after the other.
* `Idl.Declarations.Collects`: a scope with the last declaration of each path.

## Main results

* `Idl.Section.declares_iff_exists_lists`: what a section declares.
* `Idl.Declarations.collects_mergeAll`: what sections declare together.
* `Idl.records_of_bundle_keep_last`: the records of a bundle.
-/

namespace RosInterface.Idl

open Text

/-! ### The declarations of a section -/

/-- The declarations of a section, one after the other, as its statements make them. -/
def Section.Lists (s : Section) (contents : List (Path × Content)) : Prop :=
  ∃ actions, Progress.start.actions? (statements .start (lines s.text)) = some actions ∧
    (Progress.start.applyAll actions).place = ([], none) ∧
    Progress.start.contents actions = contents

/-- A section declares what it lists. -/
theorem Section.declares_iff_exists_lists {s : Section} {file : Declarations} :
    s.Declares file ↔ ∃ contents, s.Lists contents ∧ file = Declarations.empty.addAll contents := by
  rw [Section.Declares, declarations_eq_ok_iff]
  constructor
  · rintro ⟨actions, hactions, hplace, rfl⟩
    exact ⟨_, ⟨actions, hactions, hplace, rfl⟩, Progress.declarations_applyAll .start actions⟩
  · rintro ⟨_, ⟨actions, hactions, hplace, rfl⟩, rfl⟩
    exact ⟨actions, hactions, hplace, Progress.declarations_applyAll .start actions⟩

/-- Sections declare what they list. -/
theorem exists_forall₂_lists {parts : List Section} {files : List Declarations}
    (h : List.Forall₂ Section.Declares parts files) :
    ∃ written, List.Forall₂ Section.Lists parts written ∧
      files = written.map Declarations.empty.addAll := by
  induction h with
  | nil => exact ⟨[], .nil, rfl⟩
  | cons hfile _ ih =>
    obtain ⟨contents, hcontents, rfl⟩ := Section.declares_iff_exists_lists.mp hfile
    obtain ⟨written, hwritten, rfl⟩ := ih
    exact ⟨contents :: written, .cons hcontents hwritten, rfl⟩

/-! ### Declarations put together -/

namespace Declarations

/-- The scope has, of the declarations of one kind with one path, the last one in the place of the
first one. -/
structure Collects (scope : Declarations) (contents : List (Path × Content)) : Prop where
  /-- Structs are collected. -/
  structs : (⟨scope.structs⟩ : Table Path (List Member)).Collects (structsOf contents)
  /-- Enums are collected. -/
  enums : scope.enums.Collects (enumsOf contents)
  /-- Typedefs are collected. -/
  typedefs : scope.typedefs.Collects (typedefsOf contents)

/-- What a single list of declarations comes to: all its structs, and the last enum and the last
typedef with a path. -/
theorem addAll_empty (contents : List (Path × Content)) :
    empty.addAll contents = ⟨structsOf contents, Table.ofList (enumsOf contents),
      Table.ofList (typedefsOf contents)⟩ :=
  addAll_eq contents empty

/-- **Sections put together collect what all of them list.** -/
theorem collects_mergeAll (written : List (List (Path × Content))) :
    (mergeAll (written.map empty.addAll)).Collects written.flatten where
  structs := by
    have hlisted : structsOf written.flatten = written.flatMap structsOf := List.filterMap_flatten
    rw [structs_mergeAll, List.flatMap_map, hlisted]
    simp only [addAll_empty]
    exact Table.collects_ofList _
  enums := by
    have hlisted : enumsOf written.flatten = written.flatMap enumsOf := List.filterMap_flatten
    rw [enums_mergeAll, List.flatMap_map, hlisted]
    simp only [addAll_empty]
    exact Table.collects_ofList_flatMap written enumsOf
  typedefs := by
    have hlisted : typedefsOf written.flatten = written.flatMap typedefsOf := List.filterMap_flatten
    rw [typedefs_mergeAll, List.flatMap_map, hlisted]
    simp only [addAll_empty]
    exact Table.collects_ofList_flatMap written typedefsOf

end Declarations

/-! ### Records -/

/-- The keys are those of a list, each of them once, in the order in which they come first. -/
structure IsFirstOrder {κ : Type} [DecidableEq κ] (keys listed : List κ) : Prop where
  /-- The keys are those of the list. -/
  mem_iff : ∀ key, key ∈ keys ↔ key ∈ listed
  /-- They stand in the order in which they come first. -/
  pairwise : keys.Pairwise fun key key' => listed.idxOf key < listed.idxOf key'

theorem isNamed_of_declares {parts : List Section} {files : List Declarations}
    (h : List.Forall₂ Section.Declares parts files) : ∀ file ∈ files, file.IsNamed := by
  intro file hfile
  obtain ⟨s, -, hdeclares⟩ := exists_of_mem_of_forall₂ h hfile
  exact isNamed_of_declarations hdeclares

/-- Records are named after the paths of structs. -/
theorem Declarations.names_records (scope : Declarations) :
    scope.records.map Record.name
      = (scope.structs.map Prod.fst).map fun path => "/".intercalate path := by
  rw [records, List.map_map, List.map_map]
  rfl

/-- **The records of structs that are listed once have different names.** -/
theorem Declarations.IsNamed.nodup_names {scope : Declarations} (h : scope.IsNamed)
    (hstructs : (scope.structs.map Prod.fst).Nodup) : (scope.records.map Record.name).Nodup := by
  rw [names_records]
  refine hstructs.map_on fun path hpath path' hpath' heq => ?_
  obtain ⟨entry, hentry, rfl⟩ := List.mem_map.mp hpath
  obtain ⟨entry', hentry', rfl⟩ := List.mem_map.mp hpath'
  exact (h.structs entry hentry).1.intercalate_injective (h.structs entry' hentry').1 heq

/-- The record of a struct with the members that were declared last, read in a scope. -/
def IsRecordOf (scope : Declarations) (contents : List (Path × Content)) (path : Path)
    (record : Record) : Prop :=
  record.name = "/".intercalate path ∧ ∃ before members after,
    structsOf contents = before ++ (path, members) :: after ∧ path ∉ after.map Prod.fst ∧
    record.fields = members.map (scope.field path.dropLast)

/-- **Each record of a scope has the members that were declared last.** -/
theorem Declarations.Collects.forall₂_isRecordOf {scope : Declarations}
    {contents : List (Path × Content)} (h : scope.Collects contents) :
    List.Forall₂ (IsRecordOf scope contents) (scope.structs.map Prod.fst) scope.records := by
  rw [records, List.forall₂_map_left_iff, List.forall₂_map_right_iff, List.forall₂_same]
  intro entry hentry
  have hlast : (⟨scope.structs⟩ : Table Path (List Member)).get? entry.1 = some entry.2 :=
    (Table.get?_eq_some_iff h.structs.nodup_keys).mpr hentry
  obtain ⟨before, after, hsplit, hafter⟩ := (h.structs.get?_eq_some_iff _ _).mp hlast
  exact ⟨rfl, before, entry.2, after, hsplit, hafter, rfl⟩

/-- **A bundle has one record for each struct.** Each section of an accepted bundle lists its
declarations, and there is a scope that collects those of all sections. The names of the records are
pairwise different: they are the paths of the structs that are listed, in the order in which these
come first. Each record has the members of the last struct with its path, read in the scope, in which
the last enum and the last typedef with a path count. -/
theorem records_of_bundle_keep_last {text : List Char} {found : List Record}
    (h : bundleRecords text = .ok found) :
    ∃ parts written scope paths, sections text = .ok parts ∧
      List.Forall₂ Section.Lists parts written ∧
      scope.Collects written.flatten ∧
      (found.map Record.name).Nodup ∧
      found.map Record.name = paths.map (fun path => "/".intercalate path) ∧
      IsFirstOrder paths ((structsOf written.flatten).map Prod.fst) ∧
      List.Forall₂ (IsRecordOf scope written.flatten) paths found := by
  obtain ⟨parts, files, hparts, hfiles, rfl⟩ := bundleRecords_eq_ok_iff.mp h
  have hnamed := Declarations.isNamed_mergeAll (isNamed_of_declares hfiles)
  obtain ⟨written, hwritten, rfl⟩ := exists_forall₂_lists hfiles
  have hscope := Declarations.collects_mergeAll written
  exact ⟨parts, written, _, _, hparts, hwritten, hscope, hnamed.nodup_names hscope.structs.nodup_keys,
    Declarations.names_records _, ⟨hscope.structs.mem_keys_iff, hscope.structs.pairwise_keys⟩,
    hscope.forall₂_isRecordOf⟩

/-- Two sections. A struct is declared twice in the first one and again in the second one, which also
changes the typedef to which its members refer. -/
def redeclaredText : List Char :=
  ("IDL: p/msg/A\nmodule p \x7b\nstruct A \x7b\n  int8 a;\n\x7d;\ntypedef int8 T;\n" ++
    "struct A \x7b\n  T b;\n\x7d;\nstruct B \x7b\n  A x;\n\x7d;\n\x7d;\n===\n" ++
    "IDL: p/msg/B\nmodule p \x7b\ntypedef double T;\nstruct A \x7b\n  T c;\n\x7d;\n\x7d;\n").toList

/-- Its records. -/
def redeclaredRecords : List Record :=
  [⟨"p/A", [⟨"c", .primitive "double"⟩]⟩, ⟨"p/B", [⟨"x", .record "p/A"⟩]⟩]

theorem records_of_redeclaredText :
    bundleRecords redeclaredText = .ok redeclaredRecords ∧
    (redeclaredRecords.map Record.name).Nodup ∧
    ∃ parts written scope paths, sections redeclaredText = .ok parts ∧
      List.Forall₂ Section.Lists parts written ∧
      scope.Collects written.flatten ∧
      redeclaredRecords.map Record.name = paths.map (fun path => "/".intercalate path) ∧
      IsFirstOrder paths ((structsOf written.flatten).map Prod.fst) ∧
      List.Forall₂ (IsRecordOf scope written.flatten) paths redeclaredRecords := by
  have hrecords : bundleRecords redeclaredText = .ok redeclaredRecords := by decide +kernel
  obtain ⟨parts, written, scope, paths, hparts, hwritten, hscope, hnodup, hnames, hpaths, hall⟩ :=
    records_of_bundle_keep_last hrecords
  exact ⟨hrecords, hnodup, parts, written, scope, paths, hparts, hwritten, hscope, hnames, hpaths,
    hall⟩

end RosInterface.Idl
