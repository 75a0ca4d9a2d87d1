import RosInterface.Text.Blank
import RosInterface.Text.Alphanumeric
import RosInterface.Idl.Literal

/-!
# Annotations

An annotation is a name after `@`, with or without a list of arguments in parentheses. It stands
in front of what it annotates, on the same line or on lines of its own, and its arguments may run
over several lines. Annotations say nothing about the shape of a record, so they are skipped. The
parentheses of the arguments are matched outside string literals.

## Main definitions

* `Idl.AnnotationState`: how deep in an annotation's arguments a scanner is.
* `Idl.closeArguments`: the text after the arguments.
* `Idl.skipAnnotations`: the text after the annotations of a line.

## Main results

* `Idl.length_lt_of_closeArguments`: closing the arguments shortens the line.
-/

namespace RosInterface.Idl

/-- How deep in an annotation's arguments a scanner is. -/
structure AnnotationState where
  /-- The number of open parentheses. -/
  depth : Nat
  /-- Where the scanner stands with respect to string literals in the arguments. -/
  literal : LiteralState
deriving DecidableEq

/-- The state outside the arguments of annotations. -/
def AnnotationState.start : AnnotationState :=
  ⟨0, .outside⟩

/-- Reads on in the arguments of an annotation, and gives the text after the parenthesis that
closes them, or nothing if the line ends first. -/
def closeArguments : AnnotationState → List Char → AnnotationState × Option (List Char)
  | state, [] => (state, none)
  | ⟨depth, .outside⟩, '(' :: rest => closeArguments ⟨depth + 1, .outside⟩ rest
  | ⟨depth, .outside⟩, ')' :: rest =>
    if depth - 1 = 0 then (⟨0, .outside⟩, some rest)
    else closeArguments ⟨depth - 1, .outside⟩ rest
  | ⟨depth, literal⟩, c :: rest => closeArguments ⟨depth, literal.next c⟩ rest

/-- Closing the arguments shortens the line. -/
theorem length_lt_of_closeArguments {state state' : AnnotationState} {line rest : List Char}
    (h : closeArguments state line = (state', some rest)) : rest.length < line.length := by
  fun_induction closeArguments state line with
  | case1 => simp at h
  | case2 depth rest' ih =>
    have := ih h
    simp only [List.length_cons]
    omega
  | case3 depth rest' hd =>
    simp only [Prod.mk.injEq, Option.some.injEq] at h
    simp [h.2]
  | case4 depth rest' hd ih =>
    have := ih h
    simp only [List.length_cons]
    omega
  | case5 depth literal c rest' _ _ ih =>
    have := ih h
    simp only [List.length_cons]
    omega

/-- A character of an annotation's name. -/
def isAnnotationName (c : Char) : Bool :=
  Text.isAlphanumeric c || c == '_' || c == ':'

/-- The text after the name of an annotation, without the blanks in front of it. -/
def afterAnnotationName (s : List Char) : List Char :=
  Text.trimStart (s.dropWhile isAnnotationName)

theorem length_dropWhile_le {α : Type} (p : α → Bool) (s : List α) :
    (s.dropWhile p).length ≤ s.length :=
  (List.dropWhile_sublist p).length_le

theorem length_trimStart_le (s : List Char) : (Text.trimStart s).length ≤ s.length :=
  length_dropWhile_le _ _

theorem length_afterAnnotationName_le (s : List Char) :
    (afterAnnotationName s).length ≤ s.length :=
  Nat.le_trans (length_trimStart_le _) (length_dropWhile_le _ _)

/-- What is left of a line once its annotations are skipped: nothing as long as the arguments of
an annotation are open. -/
def skipAnnotations (state : AnnotationState) (line : List Char) :
    AnnotationState × List Char :=
  if state.depth > 0 then
    match _h : closeArguments state line with
    | (state, none) => (state, [])
    | (state, some rest) => skipAnnotations state (Text.trimStart rest)
  else
    match line with
    | '@' :: afterAt =>
      match _h : afterAnnotationName afterAt with
      | '(' :: arguments => skipAnnotations ⟨1, state.literal⟩ arguments
      | rest => skipAnnotations state rest
    | _ => (state, line)
termination_by line.length
decreasing_by
  · have := length_lt_of_closeArguments _h
    have := length_trimStart_le rest
    omega
  · have hl := length_afterAnnotationName_le afterAt
    rw [_h] at hl
    simp only [List.length_cons] at hl ⊢
    omega
  · have hl := length_afterAnnotationName_le afterAt
    rw [_h] at hl
    simp only [List.length_cons]
    omega

end RosInterface.Idl
