import RosInterface.Idl.Literal

/-!
# Comments

A comment begins at the first two slashes outside string literals and runs to the end of the line.

## Main definitions

* `Idl.withoutComment`: a line without its comment.

## Main results

* `Idl.withoutComment_prefix`: cutting a comment only shortens the line.
-/

namespace RosInterface.Idl

/-- The characters of a line up to its comment, if a scanner has reached a given state before
them. -/
def cutComment : LiteralState → List Char → List Char
  | _, [] => []
  | .outside, '/' :: '/' :: _ => []
  | state, c :: rest => c :: cutComment (state.next c) rest

/-- The line without its comment. -/
def withoutComment (line : List Char) : List Char :=
  cutComment .outside line

theorem cutComment_prefix (state : LiteralState) (line : List Char) :
    cutComment state line <+: line := by
  fun_induction cutComment state line with
  | case1 => exact List.nil_prefix
  | case2 => exact List.nil_prefix
  | case3 state c rest _ ih => exact List.cons_prefix_cons.mpr ⟨rfl, ih⟩

/-- Cutting the comment leaves a beginning of the line. -/
theorem withoutComment_prefix (line : List Char) : withoutComment line <+: line :=
  cutComment_prefix .outside line

end RosInterface.Idl
