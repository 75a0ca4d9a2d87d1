import Mathlib.Data.List.Infix
import RosInterface.Idl.Bundle
import RosInterface.Proofs.Idl.Action

/-!
# Texts that end inside arguments

While the arguments of an annotation are open, nothing of a line is left. If a text ends there, all
of it from the line that opens these arguments on is lost. The end of a text is not the place where
this is found out: open modules, structs and enums make a text fail there, but open arguments do
not. So such a text declares what its lines before these arguments declare, and it is rejected only
if they are.

## Main definitions

* `Idl.EndsInArguments`: a text that ends inside the arguments of an annotation.

## Main results

* `Idl.Progress.run_of_openArguments`: lines inside arguments declare nothing.
* `Idl.declarations_of_endsInArguments`: what a text that ends inside arguments declares.
-/

namespace RosInterface.Idl

open Text

/-- The text ends inside the arguments of an annotation. -/
def EndsInArguments (text : List Char) : Prop :=
  0 < (annotationsAfter .start (lines text)).depth

instance (text : List Char) : Decidable (EndsInArguments text) :=
  inferInstanceAs (Decidable (0 < _))

/-! ### Lines inside arguments -/

/-- **Lines inside arguments declare nothing.** They are read without an error, whatever they
hold. -/
theorem Progress.run_of_openArguments (n : Nat) {raws : List (List Char)} {progress : Progress}
    (hsettled : progress.annotations.IsSettled)
    (h : ∀ more, more ≠ [] → more <+: raws →
      0 < (annotationsAfter progress.annotations more).depth) :
    progress.run n raws
      = .ok { progress with annotations := annotationsAfter progress.annotations raws } := by
  induction raws generalizing n progress with
  | nil => rfl
  | cons raw raws ih =>
    have hraw : 0 < (prepareLine progress.annotations raw).1.depth :=
      h [raw] (List.cons_ne_nil _ _) (List.prefix_append [raw] raws)
    have hstep : progress.step n raw
        = .ok { progress with annotations := (prepareLine progress.annotations raw).1 } := by
      rw [step, prepare_eq, prepareLine_snd_eq_nil hsettled hraw]
      exact execute_nil n _
    rw [run, hstep]
    refine ih (n + 1) (isSettled_prepareLine hsettled raw) fun more _ hmore => ?_
    exact h (raw :: more) (List.cons_ne_nil _ _) (List.cons_prefix_cons.mpr ⟨rfl, hmore⟩)

/-! ### The text before the arguments -/

/-- Of the beginnings of a list that have a property there is a longest one. -/
theorem exists_longest_prefix {α : Type} {p : List α → Prop} (h : p []) (s : List α) :
    ∃ before after, s = before ++ after ∧ p before ∧
      ∀ more, more ≠ [] → more <+: after → ¬p (before ++ more) := by
  induction s using List.reverseRecOn with
  | nil => exact ⟨[], [], rfl, h, fun more hne hmore => absurd (List.prefix_nil.mp hmore) hne⟩
  | append_singleton s c ih =>
    by_cases hs : p (s ++ [c])
    · exact ⟨s ++ [c], [], (List.append_nil _).symm, hs,
        fun more hne hmore => absurd (List.prefix_nil.mp hmore) hne⟩
    · obtain ⟨before, after, rfl, hbefore, hlongest⟩ := ih
      refine ⟨before, after ++ [c], List.append_assoc _ _ _, hbefore, fun more hne hmore => ?_⟩
      rcases List.prefix_concat_iff.mp hmore with rfl | hmore
      · rwa [← List.append_assoc]
      · exact hlongest more hne hmore

/-- Behind whole lines that end outside arguments, a text ends inside arguments if it does so
alone. -/
theorem endsInArguments_append_iff {before : List Char} (hwhole : IsWhole before)
    (hbefore : ¬EndsInArguments before) (after : List Char) :
    EndsInArguments (before ++ after) ↔ EndsInArguments after := by
  rw [EndsInArguments, EndsInArguments, lines_append hwhole, annotationsAfter_append,
    annotationsAfter_eq_start (Nat.eq_zero_of_not_pos hbefore)]

/-- Whole lines that end outside arguments may be followed by lines inside arguments. -/
theorem declarations_append {before after : List Char} (hwhole : IsWhole before)
    (hbefore : ¬EndsInArguments before)
    (h : ∀ more, more ≠ [] → more <+: lines after → 0 < (annotationsAfter .start more).depth) :
    declarations (before ++ after) = declarations before := by
  rw [declarations, declarations, lines_append hwhole, Progress.run_append]
  cases hrun : Progress.start.run 1 (lines before) with
  | error e => rfl
  | ok progress =>
    obtain ⟨actions, -, rfl⟩ := Progress.run_eq_ok_iff.mp hrun
    have hstart := annotationsAfter_eq_start (Nat.eq_zero_of_not_pos hbefore)
    simp only [Progress.start, hstart] at h ⊢
    rw [Progress.run_of_openArguments _ AnnotationState.isSettled_start h]
    rfl

/-- **A text that ends inside the arguments of an annotation declares what its part before them
declares,** and it is rejected only if that part is. The part consists of whole lines and ends
outside arguments, and from there on every line ends inside arguments. -/
theorem declarations_of_endsInArguments {text : List Char} (h : EndsInArguments text) :
    ∃ before after, text = before ++ after ∧ IsWhole before ∧ ¬EndsInArguments before ∧
      (∀ more, more ≠ [] → more <+: after → IsWhole (before ++ more) →
        EndsInArguments (before ++ more)) ∧
      declarations text = declarations before := by
  have hnil : IsWhole [] ∧ ¬EndsInArguments [] := ⟨isWhole_nil, Nat.lt_irrefl 0⟩
  obtain ⟨before, after, rfl, ⟨hwhole, hbefore⟩, hlongest⟩ :=
    exists_longest_prefix (p := fun s => IsWhole s ∧ ¬EndsInArguments s) hnil text
  have hopen : ∀ more, more ≠ [] → more <+: after → IsWhole (before ++ more) →
      EndsInArguments (before ++ more) := fun more hne hmore hwhole =>
    of_not_not fun hends => hlongest more hne hmore ⟨hwhole, hends⟩
  refine ⟨before, after, rfl, hwhole, hbefore, hopen, ?_⟩
  refine declarations_append hwhole hbefore fun more hne hmore => ?_
  -- the lines are those of a beginning of the text, which ends with a line or is all of it
  obtain ⟨others, hothers⟩ := hmore
  obtain ⟨t, u, rfl, rfl, -, ht⟩ := exists_of_lines_eq_append hothers.symm
  have hends : EndsInArguments (before ++ t) := by
    rcases ht with ht | rfl
    · refine hopen t ?_ (List.prefix_append t u) (hwhole.append ht)
      rintro rfl
      exact hne rfl
    · rwa [List.append_nil] at h
  exact (endsInArguments_append_iff hwhole hbefore t).mp hends

/-- A struct, and another one behind an annotation whose arguments are not closed. -/
def lostStructText : List Char :=
  "struct A \x7b\n  int32 x;\n\x7d;\n@verbatim (\nstruct B \x7b\n  int32 y;\n\x7d;\n".toList

theorem declarations_lostStructText : EndsInArguments lostStructText ∧
    ∃ before after, lostStructText = before ++ after ∧ IsWhole before ∧
      ¬EndsInArguments before ∧
      (∀ more, more ≠ [] → more <+: after → IsWhole (before ++ more) →
        EndsInArguments (before ++ more)) ∧
      declarations lostStructText = declarations before :=
  have h : EndsInArguments lostStructText := by decide +kernel
  ⟨h, declarations_of_endsInArguments h⟩

/-- This text is accepted although it ends inside arguments, and its second struct is lost. -/
theorem records_lostStructText : EndsInArguments lostStructText ∧
    records lostStructText = .ok [⟨"A", [⟨"x", .primitive "int32"⟩]⟩] := by
  decide +kernel

end RosInterface.Idl
