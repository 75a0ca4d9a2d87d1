import RosInterface.Proofs.Idl.Insertion
import RosInterface.Proofs.Idl.OpenArguments

/-!
# One file behind another

An accepted text closes whatever it opens: modules, structs and enums. If it also closes the
arguments of its annotations, the reader stands behind it as at the beginning of a text and has only
the declarations to remember. So a text behind it is read as if it stood alone, and what it declares
is added to what was declared before.

The lines of the two texts are told apart by the line feed between them, whatever stands at the end
of the first text.

## Main definitions

* `Idl.Declarations.IsFollowedBy`: the declarations of two files, one behind the other.

## Main results

* `Idl.statements_append_lineFeed`: the statements of two texts are those of the one and then those
  of the other.
* `Idl.Progress.applyAll_of_place`: behind what closes all that it opens, statements do what they do
  at the beginning.
* `Idl.declarations_append_lineFeed`: what two texts declare, one behind the other.
-/

namespace RosInterface.Idl

open Text

/-! ### Statements of two texts -/

/-- **The statements of two texts** are those of the first one and then those of the second one, if
the first one ends outside arguments. -/
theorem statements_append_lineFeed {s : List Char} (hclosed : ¬EndsInArguments s) (t : List Char) :
    statements .start (lines (s ++ '\n' :: t))
      = statements .start (lines s) ++ statements .start (lines t) := by
  have hstart : annotationsAfter .start (s.splitOn '\n') = .start := by
    rw [← annotationsAfter_lines]
    exact annotationsAfter_eq_start (Nat.eq_zero_of_not_pos hclosed)
  rw [statements_lines, List.splitOn_append_cons_self, statements_append, hstart,
    ← statements_lines, ← statements_lines]

/-! ### Declarations of two texts -/

/-- These are the declarations of two files, one behind the other. Structs are listed one after the
other. An enum or typedef of the second file takes the place of one with the same path. -/
structure Declarations.IsFollowedBy (all first second : Declarations) : Prop where
  /-- The structs of the second file come behind those of the first one. -/
  structs : all.structs = first.structs ++ second.structs
  /-- An enum is that of the second file, or else that of the first one. -/
  enums : ∀ path, all.enums.get? path = (second.enums.get? path).or (first.enums.get? path)
  /-- A typedef is that of the second file, or else that of the first one. -/
  typedefs : ∀ path,
    all.typedefs.get? path = (second.typedefs.get? path).or (first.typedefs.get? path)

/-- What is added to declarations stands behind them. -/
theorem Declarations.isFollowedBy_addAll (first : Declarations) (contents : List (Path × Content)) :
    (first.addAll contents).IsFollowedBy first (empty.addAll contents) where
  structs := by
    rw [structs_addAll, structs_addAll]
    rfl
  enums path := by
    have hsecond : (empty.addAll contents).enums = Table.ofList (enumsOf contents) :=
      enums_addAll contents empty
    rw [enums_addAll, Table.get?_insertAll, hsecond, Table.get?_ofList]
  typedefs path := by
    have hsecond : (empty.addAll contents).typedefs = Table.ofList (typedefsOf contents) :=
      typedefs_addAll contents empty
    rw [typedefs_addAll, Table.get?_insertAll, hsecond, Table.get?_ofList]

namespace Progress

/-- **Behind what closes all that it opens,** statements do what they do at the beginning, and leave
as much open. What they declare is added to what was declared before. -/
theorem applyAll_of_place {p : Progress} (h : p.place = ([], none)) {actions : List Action} :
    (p.applyAll actions).place = (start.applyAll actions).place ∧
      (p.applyAll actions).declarations.IsFollowedBy p.declarations
        (start.applyAll actions).declarations := by
  obtain ⟨hmodules, hbody⟩ := Prod.mk.inj h
  have hcontents : p.contents actions = start.contents actions :=
    contents_congr hmodules (Option.map_eq_none_iff.mp hbody) actions
  refine ⟨place_applyAll_congr h actions, ?_⟩
  rw [declarations_applyAll, declarations_applyAll start, hcontents]
  exact p.declarations.isFollowedBy_addAll _

end Progress

/-- **A text behind another one is read as if it stood alone.** Behind an accepted text that ends
outside the arguments of annotations, another text is accepted exactly when it is accepted by
itself. What it declares then stands behind what the first text declares. -/
theorem declarations_append_lineFeed {s : List Char} {first : Declarations}
    (h : declarations s = .ok first) (hclosed : ¬EndsInArguments s) (t : List Char) :
    ((∃ all, declarations (s ++ '\n' :: t) = .ok all) ↔
        ∃ second, declarations t = .ok second) ∧
      ∀ all second, declarations (s ++ '\n' :: t) = .ok all → declarations t = .ok second →
        all.IsFollowedBy first second := by
  obtain ⟨before, hbefore, hplace, rfl⟩ := declarations_eq_ok_iff.mp h
  have hstart : Progress.start.place = ([], none) := rfl
  -- behind the first text the statements of the second one are read as at the beginning
  have hall {all : Declarations} : declarations (s ++ '\n' :: t) = .ok all ↔
      ∃ actions, Progress.start.actions? (statements .start (lines t)) = some actions ∧
        ((Progress.start.applyAll before).applyAll actions).place = ([], none) ∧
        ((Progress.start.applyAll before).applyAll actions).declarations = all := by
    rw [declarations_eq_ok_iff, statements_append_lineFeed hclosed,
      Progress.exists_actions?_append_iff (P := fun p => p.place = _ ∧ p.declarations = all),
      hbefore]
    constructor
    · rintro ⟨_, actions, ⟨⟩, hactions, hend⟩
      rw [Progress.actions?_congr (hplace.trans hstart.symm)] at hactions
      exact ⟨actions, hactions, hend⟩
    · rintro ⟨actions, hactions, hend⟩
      rw [← Progress.actions?_congr (hplace.trans hstart.symm)] at hactions
      exact ⟨before, actions, rfl, hactions, hend⟩
  have hbehind (actions : List Action) := @Progress.applyAll_of_place _ hplace actions
  simp only [hall, declarations_eq_ok_iff, (hbehind _).1]
  constructor
  · exact ⟨fun ⟨_, actions, hactions, hend, _⟩ => ⟨_, actions, hactions, hend, rfl⟩,
      fun ⟨_, actions, hactions, hend, _⟩ => ⟨_, actions, hactions, hend, rfl⟩⟩
  · rintro _ _ ⟨actions, hactions, -, rfl⟩ ⟨actions', hactions', -, rfl⟩
    obtain rfl := Option.some.inj (hactions.symm.trans hactions')
    exact (hbehind actions).2

/-- An enum behind an annotation, a typedef and a struct, without a line feed at the end. -/
def baseText : List Char :=
  ("@verbatim (\n\")\") enum E \x7b\n  V\n\x7d;\ntypedef int32 T;\n" ++
    "struct A \x7b\n  E e;\n\x7d; // \"").toList

/-- What is declared there. -/
def baseDeclarations : Declarations :=
  ⟨[(["A"], [⟨"e", .named ["E"], none⟩])], ⟨[(["E"], ["V"])]⟩,
    ⟨[(["T"], ⟨"T", .basic .int32, none⟩)]⟩⟩

/-- Another typedef of the same name, and a struct. -/
def behindText : List Char :=
  "typedef int8 T;\nstruct B \x7b\n  T t;\n\x7d;".toList

/-- What is declared there. -/
def behindDeclarations : Declarations :=
  ⟨[(["B"], [⟨"t", .named ["T"], none⟩])], .empty, ⟨[(["T"], ⟨"T", .basic .int8, none⟩)]⟩⟩

theorem exists_declarations_behindText :
    declarations baseText = .ok baseDeclarations ∧ ¬EndsInArguments baseText ∧
      ∃ all, declarations (baseText ++ '\n' :: behindText) = .ok all ∧
        all.IsFollowedBy baseDeclarations behindDeclarations := by
  have hbase : declarations baseText = .ok baseDeclarations := by decide +kernel
  have hclosed : ¬EndsInArguments baseText := by decide +kernel
  have hbehind : declarations behindText = .ok behindDeclarations := by decide +kernel
  obtain ⟨haccepted, hdeclared⟩ := declarations_append_lineFeed hbase hclosed behindText
  obtain ⟨all, hall⟩ := haccepted.mpr ⟨_, hbehind⟩
  exact ⟨hbase, hclosed, all, hall, hdeclared all _ hall hbehind⟩

end RosInterface.Idl
