import Mathlib.Data.List.TakeWhile
import RosInterface.Idl.Comment
import RosInterface.Idl.Annotation

/-!
# How comments and annotations are found

A comment is cut and the arguments of an annotation are closed by reading on from left to right
with a small state. So a text may be read in pieces: reading the second piece goes on from the
state in which the first one ends. What is left of a line behind its annotations is an end of that
line, and it is not looked at beyond its first character.

Where a scanner stands with respect to literals may also be told by two flags, one of which is never
set without the other.

## Main definitions

* `Idl.literalAfter`: where a scanner stands behind a text.
* `Idl.LiteralFlags`, `Idl.LiteralState.flags`: the same in two flags.

## Main results

* `Idl.LiteralState.flags_next`: the flags are those of the state.
* `Idl.cutComment_append`, `Idl.cutComment_append_of_ne`: comments in a text of two pieces.
* `Idl.closeArguments_append`: arguments in a text of two pieces.
* `Idl.exists_skipAnnotations_append`: what is left behind annotations is not looked at.
* `Idl.isSettled_skipAnnotations`: outside arguments a scanner has nothing to remember.
-/

namespace RosInterface.Idl

open Text

/-! ### Dropping a beginning -/

/-- What is left behind a dropped beginning may be replaced by what begins in the same way. -/
theorem dropWhile_takeWhile_append {α : Type} (p : α → Bool) (s : List α) {t : List α}
    (h : t.head? = (s.dropWhile p).head?) : (s.takeWhile p ++ t).dropWhile p = t := by
  rw [List.dropWhile_append_of_pos fun _ hc => List.mem_takeWhile_imp hc]
  refine dropWhile_eq_self fun c hc => ?_
  rw [h, ← List.find?_not_eq_head?_dropWhile] at hc
  simpa using List.find?_some hc

/-- Blanks in front of a text may stand in front of another one that begins in the same way. -/
theorem exists_trimStart_append (s : List Char) :
    ∃ blanks, s = blanks ++ trimStart s ∧
      ∀ t, t.head? = (trimStart s).head? → trimStart (blanks ++ t) = t :=
  ⟨s.takeWhile isBlank, List.takeWhile_append_dropWhile.symm,
    fun _ ht => dropWhile_takeWhile_append isBlank s ht⟩

theorem exists_afterAnnotationName_append (s : List Char) :
    ∃ name, s = name ++ afterAnnotationName s ∧
      ∀ t, t.head? = (afterAnnotationName s).head? → afterAnnotationName (name ++ t) = t := by
  obtain ⟨blanks, hs, hblanks⟩ := exists_trimStart_append (s.dropWhile isAnnotationName)
  refine ⟨s.takeWhile isAnnotationName ++ blanks, ?_, fun t ht => ?_⟩
  · rw [List.append_assoc, afterAnnotationName, ← hs, List.takeWhile_append_dropWhile]
  · have hhead : (blanks ++ t).head? = (s.dropWhile isAnnotationName).head? := by
      rw [hs, List.head?_append, List.head?_append, ht, afterAnnotationName]
    rw [afterAnnotationName, List.append_assoc, dropWhile_takeWhile_append isAnnotationName s hhead,
      hblanks t ht]

/-! ### Comments -/

/-- Where a scanner stands behind a text. -/
def literalAfter (state : LiteralState) (s : List Char) : LiteralState :=
  s.foldl LiteralState.next state

theorem literalAfter_cons (state : LiteralState) (c : Char) (s : List Char) :
    literalAfter state (c :: s) = literalAfter (state.next c) s :=
  rfl

/-- No comment begins in a literal. -/
theorem cutComment_cons_of_ne {state : LiteralState} (h : state ≠ .outside) (c : Char)
    (rest : List Char) : cutComment state (c :: rest) = c :: cutComment (state.next c) rest := by
  rw [cutComment]
  exact fun _ hstate => absurd hstate h

/-- Behind a text without a comment the scanner goes on, if no slash stands on either side of the
place between them. -/
theorem cutComment_append {state : LiteralState} {s t : List Char} (h : cutComment state s = s)
    (ht : s.getLast? = some '/' → t.head? ≠ some '/') :
    cutComment state (s ++ t) = s ++ cutComment (literalAfter state s) t := by
  fun_induction cutComment state s with
  | case1 => rfl
  | case2 => cases h
  | case3 state c rest hc ih =>
    have hrest : cutComment (state.next c) rest = rest := (List.cons.inj h).2
    rw [List.cons_append, cutComment, ih hrest, literalAfter_cons, List.cons_append]
    · intro hlast
      refine ht ?_
      rw [List.getLast?_cons, hlast, Option.getD_some]
    · intro tail hstate hslash hmark
      cases rest with
      | nil => exact ht (by rw [hslash]; rfl) (by rw [List.nil_append] at hmark; rw [hmark]; rfl)
      | cons d rest => exact hc _ hstate hslash (by rw [(List.cons.inj hmark).1])

/-- The comment of a text ends all that follows as well. -/
theorem cutComment_append_of_ne {state : LiteralState} {s : List Char} (t : List Char)
    (h : cutComment state s ≠ s) : cutComment state (s ++ t) = cutComment state s := by
  fun_induction cutComment state s with
  | case1 => exact absurd rfl h
  | case2 => rw [List.cons_append, List.cons_append, cutComment]
  | case3 state c rest hc ih =>
    have hrest : cutComment (state.next c) rest ≠ rest := fun heq => h (by rw [heq])
    rw [List.cons_append, cutComment, ih hrest]
    intro tail hstate hslash hmark
    cases rest with
    | nil => exact hrest rfl
    | cons d rest => exact hc _ hstate hslash (by rw [(List.cons.inj hmark).1])

/-- A beginning of a text without a comment has no comment. -/
theorem cutComment_of_append {state : LiteralState} {s t : List Char}
    (h : cutComment state (s ++ t) = s ++ t) : cutComment state s = s := by
  by_contra hs
  rw [cutComment_append_of_ne t hs] at h
  have hcut : cutComment state s <+: s := cutComment_prefix state s
  refine hs (hcut.eq_of_length (Nat.le_antisymm hcut.length_le ?_))
  rw [h, List.length_append]
  exact Nat.le_add_right _ _

/-- There is no comment left where a comment is cut. -/
theorem cutComment_cutComment (state : LiteralState) (s : List Char) :
    cutComment state (cutComment state s) = cutComment state s := by
  by_cases h : cutComment state s = s
  · rw [h, h]
  · obtain ⟨t, ht⟩ := cutComment_prefix state s
    by_contra hne
    refine hne ?_
    have hcut := cutComment_append_of_ne t hne
    rw [ht] at hcut
    exact hcut.symm

/-- A text without slashes has no comment. -/
theorem cutComment_eq_self {s : List Char} (h : '/' ∉ s) (state : LiteralState) :
    cutComment state s = s := by
  induction s generalizing state with
  | nil => rfl
  | cons c rest ih =>
    rw [List.mem_cons, not_or] at h
    rw [cutComment, ih h.2]
    exact fun _ _ hslash _ => h.1 hslash.symm

/-- Outside literals a text without quotes leaves the scanner there. -/
theorem literalAfter_eq_outside {s : List Char} (h : '"' ∉ s) :
    literalAfter .outside s = .outside := by
  induction s with
  | nil => rfl
  | cons c rest ih =>
    rw [List.mem_cons, not_or] at h
    have hnext : LiteralState.outside.next c = .outside := if_neg (Ne.symm h.1)
    rw [literalAfter_cons, hnext, ih h.2]

/-! ### Literals in two flags -/

/-- Where a scanner stands with respect to string literals, in two flags. -/
structure LiteralFlags where
  /-- The scanner stands in a literal. -/
  inLiteral : Bool
  /-- The scanner stands directly after a backslash that escapes the next character. -/
  escaped : Bool
deriving DecidableEq

/-- The flags outside literals. -/
def LiteralFlags.outside : LiteralFlags :=
  ⟨false, false⟩

/-- The flags after a character. -/
def LiteralFlags.next (flags : LiteralFlags) (c : Char) : LiteralFlags :=
  if flags.inLiteral then
    if flags.escaped then { flags with escaped := false }
    else if c = '\\' then { flags with escaped := true }
    else if c = '"' then { flags with inLiteral := false }
    else flags
  else if c = '"' then { flags with inLiteral := true }
  else flags

/-- The flags of a state. A backslash outside literals is the flags of no state. -/
def LiteralState.flags : LiteralState → LiteralFlags
  | outside => .outside
  | inside => ⟨true, false⟩
  | escaped => ⟨true, true⟩

/-- **The flags after a character are those of the state after it.** -/
theorem LiteralState.flags_next (state : LiteralState) (c : Char) :
    (state.next c).flags = state.flags.next c := by
  cases state with
  | outside =>
    rw [next]
    split <;> simp_all [flags, LiteralFlags.next, LiteralFlags.outside]
  | inside =>
    rw [next]
    split
    · simp_all [flags, LiteralFlags.next]
    · split <;> simp_all [flags, LiteralFlags.next, LiteralFlags.outside]
  | escaped => rfl

theorem LiteralState.inLiteral_flags_iff {state : LiteralState} :
    state.flags.inLiteral = true ↔ state ≠ .outside := by
  cases state <;> decide

/-! ### Arguments of annotations -/

/-- In the arguments a character that is no parenthesis outside literals only moves the scanner for
literals. -/
theorem closeArguments_cons {depth : Nat} {literal : LiteralState} {c : Char} (rest : List Char)
    (h : literal = .outside → c ≠ '(' ∧ c ≠ ')') :
    closeArguments ⟨depth, literal⟩ (c :: rest) = closeArguments ⟨depth, literal.next c⟩ rest := by
  rw [closeArguments]
  · exact fun hstate hc => (h hstate).1 hc
  · exact fun hstate hc => (h hstate).2 hc

/-- In a literal every character only moves the scanner for literals. -/
theorem closeArguments_cons_of_ne {literal : LiteralState} (h : literal ≠ .outside) (depth : Nat)
    (c : Char) (rest : List Char) :
    closeArguments ⟨depth, literal⟩ (c :: rest) = closeArguments ⟨depth, literal.next c⟩ rest :=
  closeArguments_cons rest fun hstate => absurd hstate h

/-- **Arguments are read in pieces.** If the first piece does not close them, the second one is
read from the state behind the first. -/
theorem closeArguments_append (state : AnnotationState) (s t : List Char) :
    closeArguments state (s ++ t) =
      match closeArguments state s with
      | (state', none) => closeArguments state' t
      | (state', some rest) => (state', some (rest ++ t)) := by
  fun_induction closeArguments state s with
  | case1 => rfl
  | case2 depth rest ih => rw [List.cons_append, closeArguments, ih]
  | case3 depth rest hd => rw [List.cons_append, closeArguments, if_pos hd]
  | case4 depth rest hd ih => rw [List.cons_append, closeArguments, if_neg hd, ih]
  | case5 depth literal c rest h h' ih =>
    rw [List.cons_append, closeArguments_cons _ fun hstate => ⟨h hstate, h' hstate⟩, ih]

/-- The arguments are closed by a beginning of the line, whatever stands behind it. -/
theorem exists_closeArguments_append {state state' : AnnotationState} {line rest : List Char}
    (h : closeArguments state line = (state', some rest)) :
    ∃ s, line = s ++ rest ∧ ∀ t, closeArguments state (s ++ t) = (state', some t) := by
  fun_induction closeArguments state line with
  | case1 => cases h
  | case2 depth line ih =>
    obtain ⟨s, rfl, hs⟩ := ih h
    exact ⟨'(' :: s, rfl, fun t => by rw [List.cons_append, closeArguments, hs]⟩
  | case3 depth line hd =>
    cases h
    exact ⟨[')'], rfl, fun t => by rw [List.singleton_append, closeArguments, if_pos hd]⟩
  | case4 depth line hd ih =>
    obtain ⟨s, rfl, hs⟩ := ih h
    exact ⟨')' :: s, rfl, fun t => by rw [List.cons_append, closeArguments, if_neg hd, hs]⟩
  | case5 depth literal c line hc hc' ih =>
    obtain ⟨s, rfl, hs⟩ := ih h
    exact ⟨c :: s, rfl, fun t => by
      rw [List.cons_append, closeArguments_cons _ fun hstate => ⟨hc hstate, hc' hstate⟩, hs]⟩

/-- Where the arguments are closed there is nothing to remember. -/
theorem eq_start_of_closeArguments {state state' : AnnotationState} {line rest : List Char}
    (h : closeArguments state line = (state', some rest)) : state' = .start := by
  fun_induction closeArguments state line with
  | case1 => cases h
  | case2 depth line ih => exact ih h
  | case3 depth line hd =>
    cases h
    rfl
  | case4 depth line hd ih => exact ih h
  | case5 depth literal c line hc hc' ih => exact ih h

/-- Arguments that are not closed are open behind the line. -/
theorem depth_pos_of_closeArguments {state state' : AnnotationState} {line : List Char}
    (hstate : 0 < state.depth) (h : closeArguments state line = (state', none)) :
    0 < state'.depth := by
  fun_induction closeArguments state line with
  | case1 =>
    cases h
    exact hstate
  | case2 depth line ih => exact ih (Nat.succ_pos depth) h
  | case3 depth line hd => cases h
  | case4 depth line hd ih => exact ih (Nat.pos_of_ne_zero hd) h
  | case5 depth literal c line hc hc' ih => exact ih hstate h

/-- Blanks do not close arguments. -/
theorem closeArguments_blanks {blanks : List Char} (hblanks : IsBlanks blanks)
    (state : AnnotationState) :
    closeArguments state blanks = (⟨state.depth, literalAfter state.literal blanks⟩, none) := by
  induction blanks generalizing state with
  | nil => rfl
  | cons c blanks ih =>
    have hne : ∀ d, isBlank d = false → c ≠ d := by
      rintro d hd rfl
      rw [hblanks _ List.mem_cons_self] at hd
      cases hd
    rw [closeArguments_cons _ fun _ => ⟨hne _ rfl, hne _ rfl⟩,
      ih fun d hd => hblanks d (List.mem_cons_of_mem c hd)]
    rfl

/-- Blanks in the arguments, outside literals, are passed over. -/
theorem closeArguments_blanks_append {depth : Nat} {blanks : List Char} (hblanks : IsBlanks blanks)
    (s : List Char) :
    closeArguments ⟨depth, .outside⟩ (blanks ++ s) = closeArguments ⟨depth, .outside⟩ s := by
  rw [closeArguments_append, closeArguments_blanks hblanks,
    literalAfter_eq_outside (hblanks.notMem rfl)]

/-! ### Skipping annotations -/

theorem skipAnnotations_of_open {state state' : AnnotationState} {line : List Char}
    (hstate : 0 < state.depth) (h : closeArguments state line = (state', none)) :
    skipAnnotations state line = (state', []) := by
  rw [skipAnnotations.eq_def, if_pos hstate]
  split
  · rename_i heq
    rw [heq] at h
    cases h
    rfl
  · rename_i heq
    rw [heq] at h
    cases h

theorem skipAnnotations_of_closed {state state' : AnnotationState} {line rest : List Char}
    (hstate : 0 < state.depth) (h : closeArguments state line = (state', some rest)) :
    skipAnnotations state line = skipAnnotations state' (trimStart rest) := by
  rw [skipAnnotations.eq_def, if_pos hstate]
  split
  · rename_i heq
    rw [heq] at h
    cases h
  · rename_i heq
    rw [heq] at h
    cases h
    rfl

theorem skipAnnotations_at_of_open {state : AnnotationState} {s arguments : List Char}
    (hstate : state.depth = 0) (h : afterAnnotationName s = '(' :: arguments) :
    skipAnnotations state ('@' :: s) = skipAnnotations ⟨1, state.literal⟩ arguments := by
  rw [skipAnnotations, if_neg (by omega)]
  split
  · rename_i heq
    rw [h] at heq
    cases heq
    rfl
  · rename_i hne
    exact absurd h (hne arguments)

theorem skipAnnotations_at {state : AnnotationState} {s : List Char} (hstate : state.depth = 0)
    (h : ∀ arguments, afterAnnotationName s ≠ '(' :: arguments) :
    skipAnnotations state ('@' :: s) = skipAnnotations state (afterAnnotationName s) := by
  rw [skipAnnotations, if_neg (by omega)]
  split
  · rename_i heq
    exact absurd heq (h _)
  · rfl

theorem skipAnnotations_of_head?_ne {state : AnnotationState} {line : List Char}
    (hstate : state.depth = 0) (h : line.head? ≠ some '@') :
    skipAnnotations state line = (state, line) := by
  rw [skipAnnotations, if_neg (by omega)]
  rintro afterAt rfl
  exact h rfl

/-- **What is left behind annotations is not looked at** beyond its first character. -/
theorem exists_skipAnnotations_append (state : AnnotationState) (line : List Char) :
    ∃ s, line = s ++ (skipAnnotations state line).2 ∧
      ∀ t, t.head? = (skipAnnotations state line).2.head? →
        skipAnnotations state (s ++ t) = ((skipAnnotations state line).1, t) := by
  fun_induction skipAnnotations state line with
  | case1 state line hstate state' h =>
    refine ⟨line, (List.append_nil line).symm, fun t ht => ?_⟩
    obtain rfl : t = [] := List.head?_eq_none_iff.mp ht
    rw [List.append_nil]
    exact skipAnnotations_of_open hstate h
  | case2 state line hstate state' rest h ih =>
    obtain ⟨s, hrest, hs⟩ := ih
    obtain ⟨blanks, hblanks, htrim⟩ := exists_trimStart_append rest
    obtain ⟨closed, hline, hclosed⟩ := exists_closeArguments_append h
    refine ⟨closed ++ (blanks ++ s), ?_, fun t ht => ?_⟩
    · rw [List.append_assoc, List.append_assoc, ← hrest, ← hblanks, ← hline]
    · have hhead : (s ++ t).head? = (trimStart rest).head? := by
        rw [hrest, List.head?_append, List.head?_append, ht]
      rw [List.append_assoc, List.append_assoc, skipAnnotations_of_closed hstate (hclosed _),
        htrim _ hhead, hs t ht]
  | case3 state hstate afterAt arguments h ih =>
    obtain ⟨s, harguments, hs⟩ := ih
    obtain ⟨name, hname, hafter⟩ := exists_afterAnnotationName_append afterAt
    refine ⟨'@' :: (name ++ '(' :: s), ?_, fun t ht => ?_⟩
    · rw [List.cons_append, List.append_assoc, List.cons_append, ← harguments, ← h, ← hname]
    · have hopen : afterAnnotationName (name ++ '(' :: (s ++ t)) = '(' :: (s ++ t) :=
        hafter _ (by rw [h]; rfl)
      rw [List.cons_append, List.append_assoc, List.cons_append,
        skipAnnotations_at_of_open (Nat.eq_zero_of_not_pos hstate) hopen, hs t ht]
  | case4 state hstate afterAt h ih =>
    obtain ⟨s, hrest, hs⟩ := ih
    obtain ⟨name, hname, hafter⟩ := exists_afterAnnotationName_append afterAt
    refine ⟨'@' :: (name ++ s), ?_, fun t ht => ?_⟩
    · rw [List.cons_append, List.append_assoc, ← hrest, ← hname]
    · have hhead : (s ++ t).head? = (afterAnnotationName afterAt).head? := by
        rw [hrest, List.head?_append, List.head?_append, ht]
      have hname' := hafter _ hhead
      rw [List.cons_append, List.append_assoc,
        skipAnnotations_at (Nat.eq_zero_of_not_pos hstate) (s := name ++ (s ++ t)) ?_, hname',
        hs t ht]
      rw [hname']
      intro arguments hopen
      rw [hopen, List.head?_cons] at hhead
      obtain ⟨tail, htail⟩ := List.head?_eq_some_iff.mp hhead.symm
      exact h tail htail
  | case5 state line hstate hline =>
    refine ⟨[], rfl, fun t ht => ?_⟩
    refine skipAnnotations_of_head?_ne (Nat.eq_zero_of_not_pos hstate) fun hat => ?_
    rw [List.nil_append, ht] at hat
    obtain ⟨tail, htail⟩ := List.head?_eq_some_iff.mp hat
    exact hline tail htail

/-- Outside arguments there is nothing to remember. -/
def AnnotationState.IsSettled (state : AnnotationState) : Prop :=
  state.depth = 0 → state = .start

theorem AnnotationState.isSettled_start : AnnotationState.start.IsSettled :=
  fun _ => rfl

/-- **A scanner remains settled,** and where something is left of the line, it is outside
arguments. -/
theorem isSettled_skipAnnotations {state : AnnotationState} (line : List Char)
    (hstate : state.IsSettled) : (skipAnnotations state line).1.IsSettled ∧
      ((skipAnnotations state line).2 ≠ [] → (skipAnnotations state line).1 = .start) := by
  fun_induction skipAnnotations state line with
  | case1 state line hpos state' h =>
    have hdepth := depth_pos_of_closeArguments hpos h
    exact ⟨fun hzero => absurd hzero (Nat.pos_iff_ne_zero.mp hdepth), fun hne => absurd rfl hne⟩
  | case2 state line hpos state' rest h ih =>
    exact ih (eq_start_of_closeArguments h ▸ AnnotationState.isSettled_start)
  | case3 state hzero afterAt arguments h ih => exact ih fun hone => absurd hone Nat.one_ne_zero
  | case4 state hzero afterAt h ih => exact ih hstate
  | case5 state line hzero hline =>
    exact ⟨hstate, fun _ => hstate (Nat.eq_zero_of_not_pos hzero)⟩

end RosInterface.Idl
