import RosInterface.Idl.Document
import RosInterface.Proofs.Idl.Scanning

/-!
# Prepared lines

Of a raw line the comment is cut, then the blanks at its ends. What is left is the *bare* line, of
which the annotations are skipped. What is left then is a *statement*, unless nothing is left. How
a line is prepared depends on the lines before it only through the state of the annotations, so the
statements of a text are those of its first lines and then those of the others, read on from the
state in which the first ones end. Lines of which nothing is bare play no part at all, and neither
does the carriage return that may stand before a line feed.

## Main definitions

* `Idl.bare`: a line without its comment and the blanks at its ends.
* `Idl.bareLines`: the bare lines of lines, without empty ones.
* `Idl.prepareLine`: what is left of a raw line.
* `Idl.annotationsAfter`: the state of the annotations behind lines.
* `Idl.statements`: what is left of lines, without the lines of which nothing is left.

## Main results

* `Idl.statements_append`: the statements of lines in two groups.
* `Idl.isSettled_annotationsAfter`: behind lines that end outside arguments nothing is remembered.
* `Idl.prepareLine_snd_eq_nil`: nothing is left of a line that ends inside arguments.
* `Idl.statements_bareLines`: the statements of lines are those of their bare lines.
* `Idl.bareLines_lines`, `Idl.statements_lines`: the bare lines and the statements of a text are
  those of its pieces between line feeds.
-/

namespace RosInterface.Idl

open Text

/-- The line without its comment and the blanks at its ends. -/
def bare (raw : List Char) : List Char :=
  trim (withoutComment raw)

/-- The bare lines of lines. Lines of which nothing is left are not among them. -/
def bareLines (raws : List (List Char)) : List (List Char) :=
  (raws.map bare).filter fun line => !line.isEmpty

/-- What is left of a raw line, with the state of the annotations behind it. -/
def prepareLine (state : AnnotationState) (raw : List Char) : AnnotationState × List Char :=
  skipAnnotations state (bare raw)

/-- The state of the annotations behind lines. -/
def annotationsAfter (state : AnnotationState) : List (List Char) → AnnotationState
  | [] => state
  | raw :: rest => annotationsAfter (prepareLine state raw).1 rest

/-- What is left of lines, without the lines of which nothing is left. -/
def statements (state : AnnotationState) : List (List Char) → List (List Char)
  | [] => []
  | raw :: rest =>
    if (prepareLine state raw).2 = [] then statements (prepareLine state raw).1 rest
    else (prepareLine state raw).2 :: statements (prepareLine state raw).1 rest

variable {state : AnnotationState} {raw : List Char} {rest : List (List Char)}

theorem Progress.prepare_eq (progress : Progress) (raw : List Char) :
    progress.prepare raw =
      ({ progress with annotations := (prepareLine progress.annotations raw).1 },
        (prepareLine progress.annotations raw).2) :=
  rfl

theorem annotationsAfter_append (state : AnnotationState) (raws more : List (List Char)) :
    annotationsAfter state (raws ++ more)
      = annotationsAfter (annotationsAfter state raws) more := by
  induction raws generalizing state with
  | nil => rfl
  | cons raw raws ih => exact ih _

theorem statements_cons_of_eq_nil (h : (prepareLine state raw).2 = []) :
    statements state (raw :: rest) = statements (prepareLine state raw).1 rest := by
  rw [statements, if_pos h]

theorem statements_cons_of_ne_nil (h : (prepareLine state raw).2 ≠ []) :
    statements state (raw :: rest)
      = (prepareLine state raw).2 :: statements (prepareLine state raw).1 rest := by
  rw [statements, if_neg h]

/-- Two lines that are prepared in the same way may stand for each other. -/
theorem statements_cons_congr {state' : AnnotationState} {raw' : List Char}
    (h : prepareLine state raw = prepareLine state' raw') (rest : List (List Char)) :
    statements state (raw :: rest) = statements state' (raw' :: rest) := by
  rw [statements, statements, h]

/-- **The statements of lines in two groups** are those of the first group, and then those of the
second one behind the first. -/
theorem statements_append (state : AnnotationState) (raws more : List (List Char)) :
    statements state (raws ++ more)
      = statements state raws ++ statements (annotationsAfter state raws) more := by
  induction raws generalizing state with
  | nil => rfl
  | cons raw raws ih =>
    by_cases h : (prepareLine state raw).2 = []
    · rw [List.cons_append, statements_cons_of_eq_nil h, statements_cons_of_eq_nil h, ih,
        annotationsAfter]
    · rw [List.cons_append, statements_cons_of_ne_nil h, statements_cons_of_ne_nil h, ih,
        annotationsAfter, List.cons_append]

/-! ### The state of the annotations -/

theorem isSettled_prepareLine (h : state.IsSettled) (raw : List Char) :
    (prepareLine state raw).1.IsSettled :=
  (isSettled_skipAnnotations _ h).1

/-- A line of which something is left ends outside arguments. -/
theorem prepareLine_fst (h : state.IsSettled) (hraw : (prepareLine state raw).2 ≠ []) :
    (prepareLine state raw).1 = .start :=
  (isSettled_skipAnnotations _ h).2 hraw

/-- The state behind lines is settled. -/
theorem isSettled_annotationsAfter (h : state.IsSettled) (raws : List (List Char)) :
    (annotationsAfter state raws).IsSettled := by
  induction raws generalizing state with
  | nil => exact h
  | cons raw raws ih => exact ih (isSettled_prepareLine h raw)

theorem isSettled_annotationsAfter_start (raws : List (List Char)) :
    (annotationsAfter .start raws).IsSettled :=
  isSettled_annotationsAfter AnnotationState.isSettled_start raws

/-- Behind lines that end outside arguments the state is the one at the beginning of a text. -/
theorem annotationsAfter_eq_start {raws : List (List Char)}
    (h : (annotationsAfter .start raws).depth = 0) : annotationsAfter .start raws = .start :=
  isSettled_annotationsAfter_start raws h

/-- Nothing is left of a line that ends inside arguments. -/
theorem prepareLine_snd_eq_nil (h : state.IsSettled) (hraw : 0 < (prepareLine state raw).1.depth) :
    (prepareLine state raw).2 = [] := by
  by_contra hne
  rw [prepareLine_fst h hne] at hraw
  exact Nat.lt_irrefl 0 hraw

/-! ### Bare lines -/

variable {blanks : List Char} {raws : List (List Char)}

/-- Blanks hold neither comments nor literals. -/
theorem withoutComment_blanks_append (h : IsBlanks blanks) (raw : List Char) :
    withoutComment (blanks ++ raw) = blanks ++ withoutComment raw := by
  have hslash : '/' ∉ blanks := h.notMem rfl
  rw [withoutComment, cutComment_append (cutComment_eq_self hslash _),
    literalAfter_eq_outside (h.notMem rfl), withoutComment]
  exact fun hlast => absurd (List.mem_of_getLast? hlast) hslash

/-- Blanks at the start of a line do not count. -/
theorem bare_blanks_append (h : IsBlanks blanks) (raw : List Char) :
    bare (blanks ++ raw) = bare raw := by
  rw [bare, withoutComment_blanks_append h, trim_blanks_append h, bare]

/-- Blanks at the end of a line do not count. -/
theorem bare_append_blanks (h : IsBlanks blanks) (raw : List Char) :
    bare (raw ++ blanks) = bare raw := by
  have hslash : '/' ∉ blanks := h.notMem rfl
  rw [bare, bare, withoutComment]
  by_cases hraw : cutComment .outside raw = raw
  · rw [cutComment_append hraw, cutComment_eq_self hslash, trim_append_blanks h, withoutComment,
      hraw]
    exact fun _ hhead => hslash (List.mem_of_mem_head? hhead)
  · rw [cutComment_append_of_ne blanks hraw, withoutComment]

/-- The bare line, from behind the blanks at the start of what the comment leaves. -/
theorem bare_eq_trimEnd {s : List Char} (hblanks : IsBlanks blanks)
    (hcut : withoutComment raw = blanks ++ s) (hs : ∀ c ∈ s.head?, isBlank c = false) :
    bare raw = trimEnd s := by
  rw [bare, hcut, trim_blanks_append hblanks, trim_eq_trimEnd hs]

/-- Blanks at the ends of a line do not count. -/
theorem bare_trim (raw : List Char) : bare (trim raw) = bare raw := by
  obtain ⟨before, after, hbefore, hafter, hraw⟩ := exists_eq_append_trim raw
  calc
    bare (trim raw) = bare (before ++ (trim raw ++ after)) := by
      rw [bare_blanks_append hbefore, bare_append_blanks hafter]
    _ = bare raw := by rw [← hraw]

/-- Nothing more is taken away from a bare line. -/
theorem bare_bare (raw : List Char) : bare (bare raw) = bare raw :=
  calc
    bare (bare raw) = bare (withoutComment raw) := bare_trim _
    _ = bare raw := by rw [bare, withoutComment, withoutComment, cutComment_cutComment, bare,
      withoutComment]

theorem skipAnnotations_nil (state : AnnotationState) : skipAnnotations state [] = (state, []) := by
  by_cases h : 0 < state.depth
  · exact skipAnnotations_of_open h rfl
  · exact skipAnnotations_of_head?_ne (Nat.eq_zero_of_not_pos h) (by simp)

/-- A line of which nothing is bare plays no part. -/
theorem prepareLine_of_bare_eq_nil (state : AnnotationState) (h : bare raw = []) :
    prepareLine state raw = (state, []) := by
  rw [prepareLine, h, skipAnnotations_nil]

theorem prepareLine_bare (state : AnnotationState) (raw : List Char) :
    prepareLine state (bare raw) = prepareLine state raw := by
  rw [prepareLine, bare_bare, prepareLine]

theorem bareLines_append (raws more : List (List Char)) :
    bareLines (raws ++ more) = bareLines raws ++ bareLines more := by
  rw [bareLines, List.map_append, List.filter_append, bareLines, bareLines]

theorem bareLines_cons (raw : List Char) (raws : List (List Char)) :
    bareLines (raw :: raws) = bareLines [raw] ++ bareLines raws :=
  bareLines_append [raw] raws

theorem bareLines_cons_of_eq_nil (h : bare raw = []) (raws : List (List Char)) :
    bareLines (raw :: raws) = bareLines raws := by
  rw [bareLines, List.map_cons, h, bareLines]
  rfl

theorem bareLines_cons_of_ne_nil (h : bare raw ≠ []) (raws : List (List Char)) :
    bareLines (raw :: raws) = bare raw :: bareLines raws := by
  rw [bareLines, List.map_cons, List.filter_cons_of_pos, bareLines]
  simpa using h

/-- Lines of which the same is bare may stand for each other. -/
theorem bareLines_congr {raws' : List (List Char)} (h : raws.map bare = raws'.map bare) :
    bareLines raws = bareLines raws' := by
  rw [bareLines, h, bareLines]

/-- The state behind lines is the one behind their bare lines. -/
theorem annotationsAfter_bareLines (state : AnnotationState) (raws : List (List Char)) :
    annotationsAfter state (bareLines raws) = annotationsAfter state raws := by
  induction raws generalizing state with
  | nil => rfl
  | cons raw raws ih =>
    by_cases h : bare raw = []
    · rw [bareLines_cons_of_eq_nil h, ih, annotationsAfter, prepareLine_of_bare_eq_nil state h]
    · rw [bareLines_cons_of_ne_nil h, annotationsAfter, annotationsAfter, prepareLine_bare, ih]

/-- **The statements of lines are those of their bare lines.** -/
theorem statements_bareLines (state : AnnotationState) (raws : List (List Char)) :
    statements state (bareLines raws) = statements state raws := by
  induction raws generalizing state with
  | nil => rfl
  | cons raw raws ih =>
    by_cases h : bare raw = []
    · rw [bareLines_cons_of_eq_nil h, ih, statements, prepareLine_of_bare_eq_nil state h,
        if_pos rfl]
    · rw [bareLines_cons_of_ne_nil h, statements, statements, prepareLine_bare, ih]

/-! ### Bare lines of texts -/

/-- **The bare lines of a text** are those of its pieces between line feeds. -/
theorem bareLines_lines (s : List Char) : bareLines (lines s) = bareLines (s.splitOn '\n') :=
  filter_map_lines (fun raw _ h => bare_append_blanks h raw) rfl s

/-- Lines with line feeds between them are read as they are. -/
theorem bareLines_intercalate (h : ∀ raw ∈ raws, '\n' ∉ raw) :
    bareLines (lines (List.intercalate ['\n'] raws)) = bareLines raws := by
  by_cases hraws : raws = []
  · subst hraws
    rfl
  · rw [bareLines_lines, List.splitOn_intercalate '\n' h hraws]

/-- The statements of a text, by its pieces between line feeds. -/
theorem statements_lines (state : AnnotationState) (s : List Char) :
    statements state (lines s) = statements state (s.splitOn '\n') := by
  rw [← statements_bareLines, bareLines_lines, statements_bareLines]

/-- The state behind a text, by its pieces between line feeds. -/
theorem annotationsAfter_lines (state : AnnotationState) (s : List Char) :
    annotationsAfter state (lines s) = annotationsAfter state (s.splitOn '\n') := by
  rw [← annotationsAfter_bareLines, bareLines_lines, annotationsAfter_bareLines]

/-- The statements of whole lines and a text behind them. -/
theorem statements_lines_append {before : List Char} (h : IsWhole before) (s : List Char) :
    statements .start (lines (before ++ s)) = statements .start (lines before) ++
      statements (annotationsAfter .start (lines before)) (s.splitOn '\n') := by
  rw [lines_append h, statements_append, statements_lines _ s]

end RosInterface.Idl
