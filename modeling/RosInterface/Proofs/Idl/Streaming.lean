import Mathlib.Data.List.Forall2
import RosInterface.Proofs.Idl.Scanning

/-!
# Annotations as a stream

An annotation may run over several lines, so a scanner that is handed a file line by line carries
over how far it is: the number of open parentheses, and two flags that tell where it stands with
respect to literals. Nothing in these three variables rules out that a parenthesis is closed while
none is open, or that a flag is left set where no arguments are open. What comes up while lines are
read shows that neither happens, and it does not matter where a line is cut.

## Main definitions

* `Idl.FlaggedState`: a state in three variables.
* `Idl.FlaggedState.read?`, `Idl.FlaggedState.close?`, `Idl.FlaggedState.skip?`: reading a
  character, the rest of the arguments and a line, with a subtraction that may fail.
* `Idl.FlaggedState.Arises`: the states that come up.
* `Idl.FlaggedState.IsSound`: what holds of them.

## Main results

* `Idl.FlaggedState.Arises.isSound`: the states that come up are sound.
* `Idl.FlaggedState.skip?_flagged`: no subtraction fails on any line.
* `Idl.skipAnnotations_append`: a line may be cut wherever arguments are open.
* `Idl.skipLines_streams`: all of it for the lines of a file.
-/

namespace RosInterface.Idl

/-! ### A state in three variables -/

/-- Outside literals no character is escaped, if that was so before. -/
theorem LiteralFlags.escaped_next_eq {flags : LiteralFlags}
    (h : flags.inLiteral = false → flags.escaped = false) (c : Char) :
    (flags.next c).inLiteral = false → (flags.next c).escaped = false := by
  rw [next]
  grind

/-- How deep in an annotation's arguments a scanner is, in a number and two flags. -/
structure FlaggedState where
  /-- The number of open parentheses. -/
  depth : Nat
  /-- Where the scanner stands with respect to string literals in the arguments. -/
  flags : LiteralFlags
deriving DecidableEq

/-- A state in a number and two flags. -/
def AnnotationState.flagged (state : AnnotationState) : FlaggedState :=
  ⟨state.depth, state.literal.flags⟩

namespace FlaggedState

/-- The state outside the arguments of annotations. -/
def start : FlaggedState :=
  ⟨0, .outside⟩

/-- The state after a character of the arguments. There is none if a parenthesis is closed while
none is open. -/
def read? (state : FlaggedState) (c : Char) : Option FlaggedState :=
  if state.flags.inLiteral then some { state with flags := state.flags.next c }
  else if c = '(' then some { state with depth := state.depth + 1 }
  else if c = ')' then
    if state.depth = 0 then none else some { state with depth := state.depth - 1 }
  else some { state with flags := state.flags.next c }

/-- Reads on in the arguments, and gives the text after the parenthesis that closes them, or nothing
if the line ends first. -/
def close? : FlaggedState → List Char → Option (FlaggedState × Option (List Char))
  | state, [] => some (state, none)
  | state, c :: rest =>
    match state.read? c with
    | none => none
    | some state' =>
      if 0 < state.depth ∧ state'.depth = 0 then some (state', some rest)
      else close? state' rest

/-- Closing the arguments shortens the line. -/
theorem length_lt_of_close? {state state' : FlaggedState} {line rest : List Char}
    (h : state.close? line = some (state', some rest)) : rest.length < line.length := by
  fun_induction close? state line with
  | case1 => cases h
  | case2 => cases h
  | case3 =>
    cases h
    exact Nat.lt_succ_self _
  | case4 _ _ _ _ _ _ ih => exact Nat.lt_succ_of_lt (ih h)

/-- What is left of a line once its annotations are skipped. -/
def skip? (state : FlaggedState) (line : List Char) : Option (FlaggedState × List Char) :=
  if 0 < state.depth then
    match _h : state.close? line with
    | none => none
    | some (state', none) => some (state', [])
    | some (state', some rest) => skip? state' (Text.trimStart rest)
  else
    match line with
    | '@' :: afterAt =>
      match _h : afterAnnotationName afterAt with
      | '(' :: arguments => skip? { state with depth := 1 } arguments
      | rest => skip? state rest
    | _ => some (state, line)
termination_by line.length
decreasing_by
  · exact Nat.lt_of_le_of_lt (length_trimStart_le rest) (length_lt_of_close? _h)
  · have hlength := length_afterAnnotationName_le afterAt
    rw [_h, List.length_cons] at hlength
    exact Nat.lt_succ_of_lt hlength
  · have hlength := length_afterAnnotationName_le afterAt
    rw [_h] at hlength
    exact Nat.lt_succ_of_le hlength

/-- What is left of each of several lines, which are read in order. -/
def skipLines? : FlaggedState → List (List Char) → Option (FlaggedState × List (List Char))
  | state, [] => some (state, [])
  | state, line :: lines => do
    let (state, left) ← state.skip? line
    let (state, lefts) ← skipLines? state lines
    return (state, left :: lefts)

end FlaggedState

/-- What is left of each of several lines, which are read in order. -/
def skipLines : AnnotationState → List (List Char) → AnnotationState × List (List Char)
  | state, [] => (state, [])
  | state, line :: lines =>
    let (state, left) := skipAnnotations state line
    let (state, lefts) := skipLines state lines
    (state, left :: lefts)

namespace FlaggedState

/-! ### The states that come up -/

/-- The states that come up while lines are read: outside the arguments of annotations, where these
are opened, and after each character in them. Which text is read plays no part, so there may be more
of them than on any lines. -/
inductive Arises : FlaggedState → Prop
  | start : Arises start
  | opening {state : FlaggedState} : Arises state → state.depth = 0 →
      Arises { state with depth := 1 }
  | reading {state state' : FlaggedState} {c : Char} : Arises state → 0 < state.depth →
      state.read? c = some state' → Arises state'

/-- What holds of the three variables. -/
structure IsSound (state : FlaggedState) : Prop where
  /-- Outside arguments no flag is set. -/
  outside_of_depth_eq : state.depth = 0 →
    state.flags.inLiteral = false ∧ state.flags.escaped = false
  /-- Outside literals no character is escaped. -/
  escaped_eq : state.flags.inLiteral = false → state.flags.escaped = false

variable {state state' : FlaggedState} {line : List Char}

/-- Where arguments are open, a parenthesis may be closed. -/
theorem read?_ne_none (h : 0 < state.depth) (c : Char) : state.read? c ≠ none := by
  rw [read?]
  split
  · simp
  · split
    · simp
    · rw [if_neg (Nat.pos_iff_ne_zero.mp h)]
      split <;> simp

/-- A character moves the flags and no parenthesis is opened or closed, or the scanner is outside
literals and stays there. -/
theorem eq_or_eq_of_read? {c : Char} (h : state.read? c = some state') :
    (state'.depth = state.depth ∧ state'.flags = state.flags.next c) ∨
      (state.flags.inLiteral = false ∧ state'.flags = state.flags) := by
  rw [read?] at h
  split at h
  · cases h
    exact .inl ⟨rfl, rfl⟩
  · rename_i houtside
    have houtside : state.flags.inLiteral = false := eq_false_of_ne_true houtside
    split at h
    · cases h
      exact .inr ⟨houtside, rfl⟩
    · split at h
      · split at h
        · cases h
        · cases h
          exact .inr ⟨houtside, rfl⟩
      · cases h
        exact .inl ⟨rfl, rfl⟩

/-- **A character leaves a sound state behind.** -/
theorem IsSound.of_read? (hstate : state.IsSound) (hpos : 0 < state.depth) {c : Char}
    (h : state.read? c = some state') : state'.IsSound := by
  rcases eq_or_eq_of_read? h with ⟨hdepth, hflags⟩ | ⟨houtside, hflags⟩
  · exact {
      outside_of_depth_eq := fun hzero => absurd (hdepth ▸ hzero) (Nat.pos_iff_ne_zero.mp hpos)
      escaped_eq := hflags ▸ LiteralFlags.escaped_next_eq hstate.escaped_eq c }
  · have hescaped := hstate.escaped_eq houtside
    rw [← hflags] at houtside hescaped
    exact ⟨fun _ => ⟨houtside, hescaped⟩, fun _ => hescaped⟩

/-- **The states that come up are sound.** -/
theorem Arises.isSound (h : state.Arises) : state.IsSound := by
  induction h with
  | start => exact ⟨fun _ => ⟨rfl, rfl⟩, fun _ => rfl⟩
  | opening _ _ ih => exact ⟨fun hone => absurd hone Nat.one_ne_zero, ih.escaped_eq⟩
  | reading _ hpos hread ih => exact ih.of_read? hpos hread

theorem Arises.of_close? {left : Option (List Char)} (hstate : state.Arises)
    (hpos : 0 < state.depth) (h : state.close? line = some (state', left)) : state'.Arises := by
  fun_induction close? state line with
  | case1 =>
    cases h
    exact hstate
  | case2 => cases h
  | case3 state c rest after hread hclosed =>
    cases h
    exact hstate.reading hpos hread
  | case4 state c rest after hread hopen ih =>
    have hafter : 0 < after.depth := Nat.pos_of_ne_zero fun hzero => hopen ⟨hpos, hzero⟩
    exact ih (hstate.reading hpos hread) hafter h

/-- All that comes up is outside arguments, where they are opened, or in them. -/
theorem Arises.of_skip? {left : List Char} (hstate : state.Arises)
    (h : state.skip? line = some (state', left)) : state'.Arises := by
  fun_induction skip? state line with
  | case1 => cases h
  | case2 state line hpos after hclose =>
    cases h
    exact hstate.of_close? hpos hclose
  | case3 state line hpos after rest hclose ih => exact ih (hstate.of_close? hpos hclose) h
  | case4 state hzero afterAt arguments hname ih =>
    exact ih (hstate.opening (Nat.eq_zero_of_not_pos hzero)) h
  | case5 state hzero afterAt hname ih => exact ih hstate h
  | case6 =>
    cases h
    exact hstate

/-! ### No subtraction fails -/

/-- **Arguments are read in pieces.** -/
theorem close?_append {first second : List Char} (h : state.close? first = some (state', none)) :
    state.close? (first ++ second) = state'.close? second := by
  fun_induction close? state first with
  | case1 =>
    cases h
    rfl
  | case2 => cases h
  | case3 => cases h
  | case4 state c rest after hread hopen ih =>
    rw [List.cons_append, close?, hread]
    exact (if_neg hopen).trans (ih h)

/-- A character that is no parenthesis outside literals only moves the flags. -/
theorem read?_flagged {depth : Nat} {literal : LiteralState} {c : Char}
    (h : literal = .outside → c ≠ '(' ∧ c ≠ ')') :
    (AnnotationState.flagged ⟨depth, literal⟩).read? c
      = some (AnnotationState.flagged ⟨depth, literal.next c⟩) := by
  have hnext : AnnotationState.flagged ⟨depth, literal.next c⟩ = ⟨depth, literal.flags.next c⟩ :=
    congrArg (FlaggedState.mk depth) (literal.flags_next c)
  rw [hnext, read?]
  by_cases hin : literal = .outside
  · subst hin
    rw [if_neg (h rfl).1, if_neg (h rfl).2]
    exact ite_self _
  · exact if_pos (LiteralState.inLiteral_flags_iff.mpr hin)

/-- Where arguments are open, one less is open behind a closing parenthesis. -/
theorem read?_flagged_of_pos {depth : Nat} (h : 0 < depth) :
    (AnnotationState.flagged ⟨depth, .outside⟩).read? ')'
      = some (AnnotationState.flagged ⟨depth - 1, .outside⟩) :=
  if_neg (Nat.pos_iff_ne_zero.mp h)

/-- **No subtraction fails in open arguments.** -/
theorem close?_flagged {state : AnnotationState} (hpos : 0 < state.depth) (line : List Char) :
    state.flagged.close? line
      = some ((closeArguments state line).1.flagged, (closeArguments state line).2) := by
  fun_induction closeArguments state line with
  | case1 => rfl
  | case2 depth rest ih =>
    exact (if_neg fun h => Nat.succ_ne_zero depth h.2).trans (ih (Nat.succ_pos depth))
  | case3 depth rest hd =>
    rw [close?, read?_flagged_of_pos hpos]
    have hclosed : AnnotationState.flagged ⟨depth - 1, .outside⟩ = .start :=
      congrArg (FlaggedState.mk · .outside) hd
    rw [hclosed]
    exact if_pos ⟨hpos, rfl⟩
  | case4 depth rest hd ih =>
    rw [close?, read?_flagged_of_pos hpos]
    exact (if_neg fun h => hd h.2).trans (ih (Nat.pos_of_ne_zero hd))
  | case5 depth literal c rest hc hc' ih =>
    rw [close?, read?_flagged fun hin => ⟨hc hin, hc' hin⟩]
    exact (if_neg (fun h => Nat.pos_iff_ne_zero.mp hpos h.2)).trans (ih hpos)

theorem skip?_of_open (hpos : 0 < state.depth) (h : state.close? line = some (state', none)) :
    state.skip? line = some (state', []) := by
  rw [skip?.eq_def, if_pos hpos]
  split <;> simp_all

theorem skip?_of_closed {rest : List Char} (hpos : 0 < state.depth)
    (h : state.close? line = some (state', some rest)) :
    state.skip? line = state'.skip? (Text.trimStart rest) := by
  rw [skip?.eq_def, if_pos hpos]
  split <;> simp_all

theorem skip?_at_of_open {s arguments : List Char} (hzero : ¬0 < state.depth)
    (h : afterAnnotationName s = '(' :: arguments) :
    state.skip? ('@' :: s) = skip? { state with depth := 1 } arguments := by
  rw [skip?, if_neg hzero]
  split
  · rename_i heq
    rw [h] at heq
    cases heq
    rfl
  · rename_i hne
    exact absurd h (hne arguments)

theorem skip?_at {s : List Char} (hzero : ¬0 < state.depth)
    (h : ∀ arguments, afterAnnotationName s ≠ '(' :: arguments) :
    state.skip? ('@' :: s) = state.skip? (afterAnnotationName s) := by
  rw [skip?, if_neg hzero]
  split
  · rename_i heq
    exact absurd heq (h _)
  · rfl

theorem skip?_of_ne (hzero : ¬0 < state.depth) (h : ∀ s, line ≠ '@' :: s) :
    state.skip? line = some (state, line) := by
  rw [skip?, if_neg hzero]
  exact h

/-- **No subtraction fails on any line.** -/
theorem skip?_flagged (state : AnnotationState) (line : List Char) :
    state.flagged.skip? line
      = some ((skipAnnotations state line).1.flagged, (skipAnnotations state line).2) := by
  fun_induction skipAnnotations state line with
  | case1 state line hpos after h =>
    have hclose := close?_flagged hpos line
    rw [h] at hclose
    exact skip?_of_open hpos hclose
  | case2 state line hpos after rest h ih =>
    have hclose := close?_flagged hpos line
    rw [h] at hclose
    exact (skip?_of_closed hpos hclose).trans ih
  | case3 state hzero afterAt arguments h ih => exact (skip?_at_of_open hzero h).trans ih
  | case4 state hzero afterAt h ih => exact (skip?_at hzero h).trans ih
  | case5 state line hzero hline => exact skip?_of_ne hzero hline

theorem skipLines?_flagged (state : AnnotationState) (lines : List (List Char)) :
    state.flagged.skipLines? lines
      = some ((skipLines state lines).1.flagged, (skipLines state lines).2) := by
  induction lines generalizing state with
  | nil => rfl
  | cons line lines ih =>
    rw [skipLines?, skip?_flagged]
    simp only [Option.bind_eq_bind, Option.bind_some, ih]
    rfl

theorem Arises.of_skipLines? {lines lefts : List (List Char)} (hstate : state.Arises)
    (h : state.skipLines? lines = some (state', lefts)) : state'.Arises := by
  induction lines generalizing state lefts with
  | nil =>
    cases h
    exact hstate
  | cons line lines ih =>
    simp only [skipLines?, Option.bind_eq_bind, Option.bind_eq_some_iff] at h
    obtain ⟨⟨after, left⟩, hskip, ⟨last, lefts'⟩, hlines, h⟩ := h
    cases h
    exact ih (hstate.of_skip? hskip) hlines

end FlaggedState

/-! ### Cutting a line -/

theorem dropWhile_append_of_ne_nil {α : Type} {p : α → Bool} {s : List α} (h : s.dropWhile p ≠ [])
    (t : List α) : (s ++ t).dropWhile p = s.dropWhile p ++ t := by
  rw [List.dropWhile_append, if_neg (mt List.isEmpty_iff.mp h)]

theorem afterAnnotationName_append_of_ne_nil {s : List Char} (h : afterAnnotationName s ≠ [])
    (t : List Char) : afterAnnotationName (s ++ t) = afterAnnotationName s ++ t := by
  have hname : s.dropWhile isAnnotationName ≠ [] := by
    intro hnil
    rw [afterAnnotationName, hnil] at h
    exact h rfl
  rw [afterAnnotationName, dropWhile_append_of_ne_nil hname]
  exact dropWhile_append_of_ne_nil h t

/-- Behind an empty rest of a line arguments are open only if they were open before. -/
theorem ne_nil_of_depth_pos {state : AnnotationState} {line : List Char} (hzero : state.depth = 0)
    (h : 0 < (skipAnnotations state line).1.depth) : line ≠ [] := by
  rintro rfl
  rw [skipAnnotations_of_head?_ne hzero (by simp)] at h
  exact Nat.pos_iff_ne_zero.mp h hzero

theorem skipAnnotations_of_closeArguments {state after : AnnotationState} {first : List Char}
    (hpos : 0 < state.depth) (h : closeArguments state first = (after, none)) (second : List Char) :
    skipAnnotations state (first ++ second) = skipAnnotations after second := by
  have hafter := depth_pos_of_closeArguments hpos h
  have happend : closeArguments state (first ++ second) = closeArguments after second := by
    rw [closeArguments_append, h]
  cases hsecond : closeArguments after second with
  | mk last left =>
    rw [hsecond] at happend
    cases left with
    | none => rw [skipAnnotations_of_open hpos happend, skipAnnotations_of_open hafter hsecond]
    | some rest =>
      rw [skipAnnotations_of_closed hpos happend, skipAnnotations_of_closed hafter hsecond]

/-- **A line may be cut wherever arguments are open.** -/
theorem skipAnnotations_append {state : AnnotationState} {first : List Char}
    (h : 0 < (skipAnnotations state first).1.depth) (second : List Char) :
    skipAnnotations state (first ++ second)
      = skipAnnotations (skipAnnotations state first).1 second := by
  fun_induction skipAnnotations state first with
  | case1 state first hpos after hclose =>
    exact skipAnnotations_of_closeArguments hpos hclose second
  | case2 state first hpos after rest hclose ih =>
    have hrest : Text.trimStart rest ≠ [] :=
      ne_nil_of_depth_pos (eq_start_of_closeArguments hclose ▸ rfl) h
    have happend := closeArguments_append state first second
    rw [hclose] at happend
    rw [skipAnnotations_of_closed hpos happend, Text.trimStart, dropWhile_append_of_ne_nil hrest]
    exact ih h
  | case3 state hzero afterAt arguments hname ih =>
    have happend : afterAnnotationName (afterAt ++ second) = '(' :: (arguments ++ second) := by
      rw [afterAnnotationName_append_of_ne_nil (by simp [hname]), hname, List.cons_append]
    rw [List.cons_append, skipAnnotations_at_of_open (Nat.eq_zero_of_not_pos hzero) happend]
    exact ih h
  | case4 state hzero afterAt hname ih =>
    have hdepth := Nat.eq_zero_of_not_pos hzero
    have hrest := ne_nil_of_depth_pos hdepth h
    have happend := afterAnnotationName_append_of_ne_nil hrest second
    rw [List.cons_append, skipAnnotations_at hdepth, happend]
    · exact ih h
    · intro arguments hopen
      obtain ⟨c, rest, hcons⟩ := List.exists_cons_of_ne_nil hrest
      rw [happend, hcons, List.cons_append] at hopen
      exact hname rest (by rw [hcons, (List.cons.inj hopen).1])
  | case5 state first hzero => exact absurd h hzero

/-! ### What is left -/

/-- What is left of a line is an end of it. -/
theorem skipAnnotations_suffix (state : AnnotationState) (line : List Char) :
    (skipAnnotations state line).2 <:+ line := by
  obtain ⟨s, hs, -⟩ := exists_skipAnnotations_append state line
  exact ⟨s, hs.symm⟩

/-- What is left of a line does not begin with an annotation. -/
theorem head?_skipAnnotations_ne (state : AnnotationState) (line : List Char) :
    (skipAnnotations state line).2.head? ≠ some '@' := by
  fun_induction skipAnnotations state line with
  | case1 => exact (Option.some_ne_none '@').symm
  | case2 _ _ _ _ _ _ ih => exact ih
  | case3 _ _ _ _ _ ih => exact ih
  | case4 _ _ _ _ ih => exact ih
  | case5 state line _ hline =>
    intro hat
    obtain ⟨tail, htail⟩ := List.head?_eq_some_iff.mp hat
    exact hline tail htail

theorem forall₂_skipLines (state : AnnotationState) (lines : List (List Char)) :
    List.Forall₂ (fun line left => left <:+ line ∧ left.head? ≠ some '@') lines
      (skipLines state lines).2 := by
  induction lines generalizing state with
  | nil => exact .nil
  | cons line lines ih =>
    exact .cons ⟨skipAnnotations_suffix state line, head?_skipAnnotations_ne state line⟩ (ih _)

/-- **Annotations are read as a stream.** On no lines a parenthesis is closed while none is open. In
every state that comes up, no flag is set outside arguments, and no character is escaped outside
literals. What is left of a line is an end of it and does not begin with `@`. Arguments may be cut
into two pieces anywhere before they are closed: from the state behind the first piece, the second
one is read as it is in the whole. So a line may be cut there as well. -/
theorem skipLines_streams (lines : List (List Char)) :
    FlaggedState.start.skipLines? lines
      = some ((skipLines .start lines).1.flagged, (skipLines .start lines).2) ∧
    (skipLines .start lines).1.flagged.Arises ∧
    (∀ state : FlaggedState, state.Arises →
      (0 < state.depth → ∀ c, state.read? c ≠ none) ∧
      (state.depth = 0 → state.flags.inLiteral = false ∧ state.flags.escaped = false) ∧
      (state.flags.inLiteral = false → state.flags.escaped = false) ∧
      ∀ first after, state.close? first = some (after, none) →
        ∀ second, state.close? (first ++ second) = after.close? second) ∧
    List.Forall₂ (fun line left => left <:+ line ∧ left.head? ≠ some '@') lines
      (skipLines .start lines).2 ∧
    (∀ state : AnnotationState, 0 < state.depth → ∀ first : List Char,
      state.flagged.close? first
        = some ((closeArguments state first).1.flagged, (closeArguments state first).2) ∧
      ∀ after, closeArguments state first = (after, none) → 0 < after.depth ∧
        ∀ second, closeArguments state (first ++ second) = closeArguments after second) ∧
    (∀ first, 0 < (skipAnnotations (skipLines .start lines).1 first).1.depth →
      ∀ second, skipAnnotations (skipLines .start lines).1 (first ++ second)
        = skipAnnotations (skipAnnotations (skipLines .start lines).1 first).1 second) := by
  have hrun := FlaggedState.skipLines?_flagged .start lines
  refine ⟨hrun, FlaggedState.Arises.start.of_skipLines? hrun, fun state hstate => ?_,
    forall₂_skipLines .start lines, fun state hpos first => ?_,
    fun first hopen second => skipAnnotations_append hopen second⟩
  · exact ⟨FlaggedState.read?_ne_none, hstate.isSound.outside_of_depth_eq,
      hstate.isSound.escaped_eq, fun _ _ h _ => FlaggedState.close?_append h⟩
  · refine ⟨FlaggedState.close?_flagged hpos first, fun after h => ?_⟩
    exact ⟨depth_pos_of_closeArguments hpos h, fun second => by rw [closeArguments_append, h]⟩

/-- The first line of an annotation that runs over three lines. -/
def verbatimLine : List Char :=
  "@verbatim (language=\"comment\", text=".toList

theorem skipLines_verbatimLine :
    (skipLines .start [verbatimLine]).1 = ⟨1, .outside⟩ ∧
    (∀ c, (AnnotationState.flagged ⟨1, .outside⟩).read? c ≠ none) ∧
    closeArguments ⟨1, .outside⟩ "\"(a".toList = (⟨1, .inside⟩, none) ∧
    closeArguments ⟨1, .outside⟩ ("\"(a".toList ++ ")\") double x;".toList)
      = closeArguments ⟨1, .inside⟩ ")\") double x;".toList ∧
    skipAnnotations ⟨1, .outside⟩ ("\"(a".toList ++ ")\") double x;".toList)
      = skipAnnotations ⟨1, .inside⟩ ")\") double x;".toList := by
  obtain ⟨-, harises, hsound, -, hclose, hskip⟩ := skipLines_streams [verbatimLine]
  have hline : (skipLines .start [verbatimLine]).1 = ⟨1, .outside⟩ := by decide +kernel
  have hfirst : closeArguments ⟨1, .outside⟩ "\"(a".toList = (⟨1, .inside⟩, none) := by decide
  have hopen : (skipAnnotations ⟨1, .outside⟩ "\"(a".toList).1 = ⟨1, .inside⟩ := by decide +kernel
  rw [hline] at harises hskip
  refine ⟨hline, (hsound _ harises).1 Nat.one_pos, hfirst, ?_, ?_⟩
  · exact ((hclose ⟨1, .outside⟩ Nat.one_pos _).2 _ hfirst).2 _
  · have hcut := hskip "\"(a".toList (by rw [hopen]; exact Nat.one_pos) ")\") double x;".toList
    rwa [hopen] at hcut

end RosInterface.Idl
