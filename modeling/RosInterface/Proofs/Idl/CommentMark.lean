import RosInterface.Text.Bytes
import RosInterface.Proofs.Idl.Preparation

/-!
# Where a comment begins

The mark of a comment is two slashes outside string literals. A comment begins at the first mark of
a line, so what is kept of the line stands before it: no mark begins in that part, all literals in
it are closed, and of more than two slashes in a row none is kept.

A line that is held as bytes is cut at a byte. A scanner finds it that counts the bytes of the
characters, remembers in two flags where it stands with respect to literals and in a third one that
a slash stands directly before. It stops at the second slash of the first mark. The slash before it
is a single byte, so the cut falls between two characters.

## Main definitions

* `Idl.IsMarkBehind`: a mark behind a beginning of a line.
* `Idl.IsUncommented`: what stands before the first mark of a line.
* `Idl.secondSlash?`: the byte at which the second slash of the first mark stands.

## Main results

* `Idl.withoutComment_eq_iff`: what is kept of a line stands before its first mark.
* `Idl.secondSlash?_flags`: the second slash stands one byte behind what is kept.
* `Idl.withoutComment_ends_at_first_mark`: all that is true of what is kept.
-/

namespace RosInterface.Idl

open Text

/-! ### Marks -/

/-- Behind a text that begins a line stands the mark of a comment, two slashes outside literals. -/
def IsMarkBehind (state : LiteralState) (before line : List Char) : Prop :=
  (∃ comment, line = before ++ '/' :: '/' :: comment) ∧ literalAfter state before = .outside

/-- What is kept of a line stands before its first mark, or is all of it if there is no mark. -/
structure IsUncommented (line kept : List Char) : Prop where
  /-- There is a mark behind what is kept, unless all is kept. -/
  eq_or_isMarkBehind : kept = line ∨ IsMarkBehind .outside kept line
  /-- No mark begins in it. -/
  prefix_of_mark : ∀ before, IsMarkBehind .outside before line → kept <+: before

variable {state : LiteralState} {line before : List Char}

/-- The comment that is cut begins with a mark. -/
theorem cutComment_eq_or_isMarkBehind (state : LiteralState) (line : List Char) :
    cutComment state line = line ∨ IsMarkBehind state (cutComment state line) line := by
  fun_induction cutComment state line with
  | case1 => exact .inl rfl
  | case2 rest => exact .inr ⟨⟨rest, rfl⟩, rfl⟩
  | case3 state c rest _ ih =>
    rcases ih with hrest | ⟨⟨comment, hcomment⟩, houtside⟩
    · exact .inl (congrArg (c :: ·) hrest)
    · exact .inr ⟨⟨comment, congrArg (c :: ·) hcomment⟩, houtside⟩

/-- No mark stands before the comment that is cut. -/
theorem cutComment_prefix_of_isMarkBehind (h : IsMarkBehind state before line) :
    cutComment state line <+: before := by
  obtain ⟨⟨comment, rfl⟩, houtside⟩ := h
  induction before generalizing state with
  | nil =>
    obtain rfl : state = .outside := houtside
    exact List.nil_prefix
  | cons c before ih =>
    by_cases hc : cutComment state (c :: before ++ '/' :: '/' :: comment) = []
    · rw [hc]
      exact List.nil_prefix
    · rw [List.cons_append, cutComment]
      · exact List.cons_prefix_cons.mpr ⟨rfl, ih houtside⟩
      · rintro rest rfl rfl hrest
        rw [List.cons_append, hrest] at hc
        exact hc rfl

/-- **A comment begins at the first mark**, and nowhere else. -/
theorem withoutComment_eq_iff {kept : List Char} :
    withoutComment line = kept ↔ IsUncommented line kept := by
  have hcut : IsUncommented line (withoutComment line) :=
    ⟨cutComment_eq_or_isMarkBehind .outside line, fun _ => cutComment_prefix_of_isMarkBehind⟩
  constructor
  · rintro rfl
    exact hcut
  · intro h
    -- each of the two is the whole line or stands before a mark, so neither goes beyond the other
    have hle {kept kept' : List Char} (h : IsUncommented line kept)
        (h' : IsUncommented line kept') (hbegins : kept <+: line) : kept <+: kept' := by
      rcases h'.eq_or_isMarkBehind with rfl | hmark
      · exact hbegins
      · exact h.prefix_of_mark _ hmark
    have hbegins : kept <+: line := by
      rcases h.eq_or_isMarkBehind with rfl | ⟨⟨comment, rfl⟩, -⟩
      · exact List.prefix_refl _
      · exact List.prefix_append _ _
    have hcutLe : withoutComment line <+: kept := hle hcut h <| withoutComment_prefix line
    exact hcutLe.eq_of_length_le (hle h hcut hbegins).length_le

/-- There is no mark in what is kept. -/
theorem not_isMarkBehind_withoutComment (line before : List Char) :
    ¬IsMarkBehind .outside before (withoutComment line) := by
  rintro ⟨⟨comment, hkept⟩, houtside⟩
  obtain ⟨rest, hline⟩ := withoutComment_prefix line
  have hmark : IsMarkBehind .outside before line :=
    ⟨⟨comment ++ rest, by rw [← hline, hkept]; simp⟩, houtside⟩
  have hlength := (cutComment_prefix_of_isMarkBehind hmark).length_le
  rw [← withoutComment, hkept, List.length_append, List.length_cons, List.length_cons] at hlength
  omega

/-! ### The byte of a mark -/

/-- The byte at which the second slash of the first mark stands. The bytes are counted from a given
number on, and `slash` tells that a slash outside literals stands directly before. -/
def secondSlash? (flags : LiteralFlags) (slash : Bool) (offset : Nat) : List Char → Option Nat
  | [] => none
  | c :: rest =>
    if flags.inLiteral then secondSlash? (flags.next c) slash (offset + c.utf8Size) rest
    else if c = '/' then
      if slash then some offset else secondSlash? flags true (offset + c.utf8Size) rest
    else secondSlash? (flags.next c) false (offset + c.utf8Size) rest

/-- A slash that no other one follows begins no mark. -/
theorem secondSlash?_of_head?_ne {rest : List Char} (h : rest.head? ≠ some '/') (offset : Nat) :
    secondSlash? .outside true offset rest = secondSlash? .outside false offset rest := by
  cases rest with
  | nil => rfl
  | cons c rest =>
    have hc : c ≠ '/' := fun hc => h (congrArg some hc)
    rw [secondSlash?, secondSlash?, if_neg (by decide), if_neg hc, if_neg (by decide), if_neg hc]

/-- **The second slash stands one byte behind what is kept.** -/
theorem secondSlash?_flags (state : LiteralState) (offset : Nat) (line : List Char) :
    secondSlash? state.flags false offset line =
      if cutComment state line = line then none
      else some (offset + byteSize (cutComment state line) + 1) := by
  fun_induction cutComment state line generalizing offset with
  | case1 => rfl
  | case2 rest => rfl
  | case3 state c rest hmark ih =>
    have hstep : secondSlash? state.flags false offset (c :: rest)
        = secondSlash? (state.next c).flags false (offset + c.utf8Size) rest := by
      by_cases hstate : state = .outside
      · subst hstate
        by_cases hc : c = '/'
        · subst hc
          have hhead : rest.head? ≠ some '/' := by
            rintro h
            obtain ⟨tail, rfl⟩ := List.head?_eq_some_iff.mp h
            exact hmark tail rfl rfl rfl
          exact secondSlash?_of_head?_ne hhead _
        · rw [LiteralState.flags_next, secondSlash?, if_neg (by decide), if_neg hc]
      · rw [LiteralState.flags_next, secondSlash?,
          if_pos (LiteralState.inLiteral_flags_iff.mpr hstate)]
    rw [hstep, ih]
    simp only [List.cons.injEq, true_and, byteSize]
    split
    · rfl
    · exact congrArg some (by omega)

/-- What is kept stands before the byte of the first slash. -/
theorem standsAt_of_secondSlash? {line : List Char} {i : Nat}
    (h : secondSlash? .outside false 0 line = some i) :
    1 ≤ i ∧ StandsAt line (withoutComment line) (0, i - 1) := by
  have hi := (secondSlash?_flags .outside 0 line).symm.trans h
  split at hi
  · cases hi
  · obtain rfl := Option.some.inj hi
    obtain ⟨rest, hline⟩ := withoutComment_prefix line
    refine ⟨Nat.le_add_left 1 _, [], rest, hline.symm, ?_⟩
    rw [Nat.zero_add, Nat.add_sub_cancel]
    rfl

theorem secondSlash?_eq_none_iff (line : List Char) :
    secondSlash? .outside false 0 line = none ↔ withoutComment line = line := by
  have hflags := secondSlash?_flags .outside 0 line
  rw [LiteralState.flags] at hflags
  rw [hflags, withoutComment]
  split <;> simp_all

/-- **A comment is cut at the first two slashes outside literals, and nowhere else.** What is kept of
a line is the beginning before its first mark, or the whole line if there is no mark. So there is no
mark in what is kept, and if something is cut, a mark stands there and the literals before it are
closed. Counted in bytes, the cut is one byte before the second slash, and it is a place between two
characters. Nothing more is cut from what is kept. It makes no difference to the trimmed result
whether a line is trimmed before its comment is cut. -/
theorem withoutComment_ends_at_first_mark (line : List Char) :
    (∀ kept, withoutComment line = kept ↔ IsUncommented line kept) ∧
    withoutComment line <+: line ∧
    (∀ before, ¬IsMarkBehind .outside before (withoutComment line)) ∧
    (withoutComment line = line ∨ IsMarkBehind .outside (withoutComment line) line) ∧
    (secondSlash? .outside false 0 line = none ↔ withoutComment line = line) ∧
    (∀ i, secondSlash? .outside false 0 line = some i →
      1 ≤ i ∧ (⟨i - 1⟩ : String.Pos.Raw).IsValid (String.ofList line) ∧
      line.utf8Encode.extract 0 (i - 1) = (withoutComment line).utf8Encode) ∧
    withoutComment (withoutComment line) = withoutComment line ∧
    trim (withoutComment (trim line)) = trim (withoutComment line) :=
  ⟨fun _ => withoutComment_eq_iff, withoutComment_prefix line,
    not_isMarkBehind_withoutComment line, cutComment_eq_or_isMarkBehind .outside line,
    secondSlash?_eq_none_iff line,
    fun _ h => (standsAt_of_secondSlash? h).imp_right fun h => h.isValid_and_extract_eq.2,
    cutComment_cutComment .outside line, bare_trim line⟩

/-- A line with slashes in a literal, behind an escaped quote, and a comment of three slashes. -/
def slashedLine : List Char :=
  "/ \"é\\\"//\" ///".toList

theorem withoutComment_slashedLine :
    secondSlash? .outside false 0 slashedLine = some 12 ∧
    (⟨11⟩ : String.Pos.Raw).IsValid (String.ofList slashedLine) ∧
    slashedLine.utf8Encode.extract 0 11 = "/ \"é\\\"//\" ".toList.utf8Encode ∧
    IsMarkBehind .outside "/ \"é\\\"//\" ".toList slashedLine := by
  obtain ⟨-, -, -, hmark, -, hcut, -⟩ := withoutComment_ends_at_first_mark slashedLine
  have hkept : withoutComment slashedLine = "/ \"é\\\"//\" ".toList := by decide
  have hslash : secondSlash? .outside false 0 slashedLine = some 12 := by decide
  rw [hkept] at hmark hcut
  obtain ⟨-, hvalid, hextract⟩ := hcut 12 hslash
  exact ⟨hslash, hvalid, hextract, hmark.resolve_left (by decide)⟩

end RosInterface.Idl
