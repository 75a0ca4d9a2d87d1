/-!
# Blanks and trimming

Text is read as a list of characters. A *blank* is a character with the property White_Space of
the Unicode character database; format characters such as U+200B and U+FEFF are not blank. The
module cuts blanks off the ends of a text.

## Main definitions

* `Text.isBlank`: the blanks.
* `Text.trimStart`, `Text.trimEnd`, `Text.trim`: a text without the blanks at its ends.

## Main results

* `Text.trim_eq_self`: a text without blanks at its ends is left as it is.
* `Text.trim_eq_nil_iff`: a text trims to nothing exactly when all of it is blank.
* `Text.exists_eq_append_trim`: a trimmed text with blanks at its ends is the text.
* `Text.trim_blanks_append`, `Text.trim_append_blanks`: blanks at the ends do not count.
-/

namespace RosInterface.Text

/-- A blank is a character of the Unicode class White_Space. -/
def isBlank (c : Char) : Bool :=
  let n := c.toNat
  (0x9 ≤ n && n ≤ 0xd) || n == 0x20 || n == 0x85 || n == 0xa0 || n == 0x1680
    || (0x2000 ≤ n && n ≤ 0x200a) || n == 0x2028 || n == 0x2029 || n == 0x202f || n == 0x205f
    || n == 0x3000

/-- The text from its first character that is not blank. -/
def trimStart (s : List Char) : List Char :=
  s.dropWhile isBlank

/-- The text up to its last character that is not blank. -/
def trimEnd (s : List Char) : List Char :=
  (s.reverse.dropWhile isBlank).reverse

/-- The text without the blanks at either end. -/
def trim (s : List Char) : List Char :=
  trimEnd (trimStart s)

/-! ### Texts without blanks at their ends -/

theorem dropWhile_eq_self {α : Type} {p : α → Bool} {s : List α}
    (h : ∀ c ∈ s.head?, p c = false) : s.dropWhile p = s := by
  cases s with
  | nil => rfl
  | cons c s => exact List.dropWhile_cons_of_neg (by rw [h c rfl]; exact Bool.false_ne_true)

/-- A text that neither begins nor ends with a blank is left as it is. -/
theorem trim_eq_self {s : List Char} (h : ∀ c ∈ s.head?, isBlank c = false)
    (h' : ∀ c ∈ s.getLast?, isBlank c = false) : trim s = s := by
  have hstart : trimStart s = s := dropWhile_eq_self h
  have hend : s.reverse.dropWhile isBlank = s.reverse :=
    dropWhile_eq_self (by rwa [List.head?_reverse])
  rw [trim, hstart, trimEnd, hend, List.reverse_reverse]

/-! ### Texts that are blank throughout -/

theorem dropWhile_eq_nil_iff {α : Type} (p : α → Bool) (s : List α) :
    s.dropWhile p = [] ↔ ∀ c ∈ s, p c = true := by
  induction s with
  | nil => simp
  | cons c s ih => by_cases h : p c <;> simp [h, ih]

theorem trimEnd_eq_nil_iff (s : List Char) : trimEnd s = [] ↔ ∀ c ∈ s, isBlank c = true := by
  rw [trimEnd, List.reverse_eq_nil_iff, dropWhile_eq_nil_iff]
  simp only [List.mem_reverse]

/-- A text trims to nothing exactly when all of it is blank. -/
theorem trim_eq_nil_iff (s : List Char) : trim s = [] ↔ ∀ c ∈ s, isBlank c = true := by
  rw [trim, trimEnd_eq_nil_iff, trimStart]
  constructor
  · intro h
    induction s with
    | nil => simp
    | cons c s ih =>
      by_cases hc : isBlank c
      · rw [List.dropWhile_cons_of_pos hc] at h
        exact List.forall_mem_cons.mpr ⟨hc, ih h⟩
      · rw [List.dropWhile_cons_of_neg (by simpa using hc)] at h
        exact h
  · exact fun h c hc => h c ((List.dropWhile_sublist _).subset hc)

/-! ### Blanks at the ends -/

/-- Every character of the text is blank. -/
def IsBlanks (s : List Char) : Prop :=
  ∀ c ∈ s, isBlank c = true

instance (s : List Char) : Decidable (IsBlanks s) :=
  List.decidableBAll (fun c => isBlank c = true) s

variable {blanks s t : List Char}

/-- A character that is not blank is not among blanks. -/
theorem IsBlanks.notMem {c : Char} (h : IsBlanks blanks) (hc : isBlank c = false) :
    c ∉ blanks := by
  intro hmem
  have hblank := h c hmem
  rw [hc] at hblank
  cases hblank

theorem IsBlanks.append (hs : IsBlanks s) (ht : IsBlanks t) : IsBlanks (s ++ t) :=
  List.forall_mem_append.mpr ⟨hs, ht⟩

theorem IsBlanks.reverse (h : IsBlanks blanks) : IsBlanks blanks.reverse :=
  fun c hc => h c (List.mem_reverse.mp hc)

theorem trimStart_blanks_append (h : IsBlanks blanks) (s : List Char) :
    trimStart (blanks ++ s) = trimStart s :=
  List.dropWhile_append_of_pos h

theorem trimEnd_append_blanks (h : IsBlanks blanks) (s : List Char) :
    trimEnd (s ++ blanks) = trimEnd s := by
  rw [trimEnd, List.reverse_append, trimEnd]
  exact congrArg List.reverse (trimStart_blanks_append h.reverse s.reverse)

theorem exists_eq_append_trimStart (s : List Char) :
    ∃ blanks, IsBlanks blanks ∧ s = blanks ++ trimStart s := by
  refine ⟨s.takeWhile isBlank, fun c hc => ?_, List.takeWhile_append_dropWhile.symm⟩
  exact List.all_eq_true.mp List.all_takeWhile c hc

theorem exists_eq_trimEnd_append (s : List Char) :
    ∃ blanks, IsBlanks blanks ∧ s = trimEnd s ++ blanks := by
  obtain ⟨blanks, hblanks, hs⟩ := exists_eq_append_trimStart s.reverse
  refine ⟨blanks.reverse, hblanks.reverse, ?_⟩
  have hreverse := congrArg List.reverse hs
  rwa [List.reverse_reverse, List.reverse_append] at hreverse

/-- A trimmed text with blanks at its ends is the text. -/
theorem exists_eq_append_trim (s : List Char) :
    ∃ before after, IsBlanks before ∧ IsBlanks after ∧ s = before ++ (trim s ++ after) := by
  obtain ⟨before, hbefore, hs⟩ := exists_eq_append_trimStart s
  obtain ⟨after, hafter, ht⟩ := exists_eq_trimEnd_append (trimStart s)
  exact ⟨before, after, hbefore, hafter, by rw [trim, ← ht, ← hs]⟩

/-- Blanks at the start of a text do not count. -/
theorem trim_blanks_append (h : IsBlanks blanks) (s : List Char) : trim (blanks ++ s) = trim s := by
  rw [trim, trimStart_blanks_append h, trim]

/-- The text from its first character that is not blank does not begin with a blank. -/
theorem isBlank_of_mem_head?_trimStart : ∀ c ∈ (trimStart s).head?, isBlank c = false := by
  intro c hc
  rw [trimStart] at hc
  have hnot := List.head?_dropWhile_not isBlank s
  rw [Option.mem_def.mp hc] at hnot
  exact hnot

/-- A text that begins with a character that is not blank is trimmed at its end only. -/
theorem trim_eq_trimEnd (h : ∀ c ∈ s.head?, isBlank c = false) : trim s = trimEnd s := by
  rw [trim, trimStart, dropWhile_eq_self h]

/-- Only the last part of a text is trimmed at the end, unless that part is blank. -/
theorem trimEnd_append (s : List Char) (h : trimEnd t ≠ []) :
    trimEnd (s ++ t) = s ++ trimEnd t := by
  have ht : (t.reverse.dropWhile isBlank).isEmpty = false := by
    rw [trimEnd, Ne, List.reverse_eq_nil_iff] at h
    exact List.isEmpty_eq_false_iff.mpr h
  rw [trimEnd, trimEnd, List.reverse_append, List.dropWhile_append, ht, if_neg Bool.false_ne_true,
    List.reverse_append, List.reverse_reverse]

/-- What stands before the end of a text is not trimmed there if it does not end with a blank. -/
theorem trimEnd_append_of_getLast? (hs : ∀ c ∈ s.getLast?, isBlank c = false) (t : List Char) :
    trimEnd (s ++ t) = s ++ trimEnd t := by
  by_cases ht : trimEnd t = []
  · have hself : trimEnd s = s := by
      rw [trimEnd, dropWhile_eq_self (by rwa [List.head?_reverse]), List.reverse_reverse]
    rw [trimEnd_append_blanks ((trimEnd_eq_nil_iff t).mp ht), hself, ht, List.append_nil]
  · exact trimEnd_append s ht

/-- A first character that is not blank is not trimmed. -/
theorem trimEnd_cons {c : Char} (hc : isBlank c = false) (s : List Char) :
    trimEnd (c :: s) = c :: trimEnd s :=
  trimEnd_append_of_getLast? (s := [c]) (by simpa using hc) s

theorem trim_cons {c : Char} (hc : isBlank c = false) (s : List Char) :
    trim (c :: s) = c :: trimEnd s := by
  rw [trim_eq_trimEnd (by simpa using hc), trimEnd_cons hc]

/-- It makes no difference which end of a text is trimmed first. -/
theorem trimStart_trimEnd (s : List Char) : trimStart (trimEnd s) = trim s := by
  obtain ⟨blanks, hblanks, hs⟩ := exists_eq_append_trimStart s
  rw [trim]
  by_cases hnil : trimEnd (trimStart s) = []
  · have hall : trimEnd s = [] := by
      rw [trimEnd_eq_nil_iff] at hnil ⊢
      rw [hs]
      exact hblanks.append hnil
    rw [hall, hnil]
    rfl
  · have hsplit : trimEnd s = blanks ++ trimEnd (trimStart s) := by
      rw [← trimEnd_append blanks hnil, ← hs]
    rw [hsplit, trimStart_blanks_append hblanks, trimStart]
    -- what is left at the start is the first character of the text that is not blank
    refine dropWhile_eq_self fun c hc => isBlank_of_mem_head?_trimStart (s := s) c ?_
    obtain ⟨after, -, hafter⟩ := exists_eq_trimEnd_append (trimStart s)
    rw [hafter, List.head?_append, Option.mem_def.mp hc]
    rfl

/-- A trimmed text does not begin with a blank. -/
theorem isBlank_of_mem_head?_trim : ∀ c ∈ (trim s).head?, isBlank c = false := by
  rw [← trimStart_trimEnd]
  exact isBlank_of_mem_head?_trimStart

/-- Blanks at the end of a text do not count. -/
theorem trim_append_blanks (h : IsBlanks blanks) (s : List Char) : trim (s ++ blanks) = trim s := by
  rw [← trimStart_trimEnd, trimEnd_append_blanks h, trimStart_trimEnd]

/-- A trimmed text is left as it is. -/
theorem trim_trim (s : List Char) : trim (trim s) = trim s := by
  obtain ⟨before, after, hbefore, hafter, hs⟩ := exists_eq_append_trim s
  calc
    trim (trim s) = trim (before ++ (trim s ++ after)) := by
      rw [trim_blanks_append hbefore, trim_append_blanks hafter]
    _ = trim s := by rw [← hs]

theorem mem_of_mem_trim {c : Char} (h : c ∈ trim s) : c ∈ s := by
  obtain ⟨before, after, -, -, hs⟩ := exists_eq_append_trim s
  rw [hs]
  exact List.mem_append_right _ (List.mem_append_left _ h)

/-- A trimmed text does not end with a blank. -/
theorem isBlank_of_mem_getLast?_trim : ∀ c ∈ (trim s).getLast?, isBlank c = false := by
  rw [trim, trimEnd, List.getLast?_reverse]
  exact isBlank_of_mem_head?_trimStart

end RosInterface.Text
