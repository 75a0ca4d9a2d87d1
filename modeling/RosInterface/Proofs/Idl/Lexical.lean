import Mathlib.Data.List.Basic
import RosInterface.Idl.Grammar

/-!
# How IDL text is cut into words

Readers of IDL text look only at how the text goes on from where they stand. This module says what
they find where an identifier, a number or a mark was written and something else follows it. A
word that a reader looks for is found at the beginning of an identifier exactly when it is the
beginning of that identifier: it cannot run on into the text after it.

## Main definitions

* `Idl.isIdentifier`: the names that can be written in IDL text.
* `Idl.IsWord`: the texts that cannot run past the end of an identifier.

## Main results

* `Idl.exists_of_isPrefixOf?_append`: a word that is found before a boundary ends before it.
* `Idl.identifier?_append`: a written identifier reads back.
* `Idl.enclosedNumber?_append`: a number between marks reads back.
-/

namespace RosInterface.Idl

open Text

/-- The name is an identifier. -/
def isIdentifier (name : String) : Bool :=
  match name.toList with
  | [] => false
  | c :: more => isIdentifierStart c && more.all isIdentifierRest

/-- The text consists of characters that an identifier may go on with. -/
def IsWord (s : List Char) : Prop :=
  ∀ c ∈ s, isIdentifierRest c = true

instance (s : List Char) : Decidable (IsWord s) :=
  List.decidableBAll (fun c => isIdentifierRest c = true) s

variable {name : String} {c : Char} {s rest : List Char}

/-! ### Characters of identifiers -/

theorem isIdentifierRest_of_isIdentifierStart (h : isIdentifierStart c = true) :
    isIdentifierRest c = true := by
  rw [isIdentifierStart, Bool.or_eq_true] at h
  rw [isIdentifierRest, Char.isAlphanum, Bool.or_eq_true, Bool.or_eq_true]
  rcases h with h | h
  · exact .inl (.inl h)
  · exact .inr h

theorem isIdentifierRest_of_isDigit (h : c.isDigit = true) : isIdentifierRest c = true := by
  rw [isIdentifierRest, Char.isAlphanum, h, Bool.or_true, Bool.true_or]

/-- An identifier goes on with ASCII letters, digits and underscores. -/
theorem toNat_of_isIdentifierRest (h : isIdentifierRest c = true) :
    (65 ≤ c.toNat ∧ c.toNat ≤ 90) ∨ (97 ≤ c.toNat ∧ c.toNat ≤ 122) ∨
      (48 ≤ c.toNat ∧ c.toNat ≤ 57) ∨ c.toNat = 95 := by
  change (decide ('A'.val ≤ c.val ∧ c.val ≤ 'Z'.val) || ('a'.val ≤ c.val && c.val ≤ 'z'.val) ||
    ('0'.val ≤ c.val && c.val ≤ '9'.val) || c == '_') = true at h
  simp only [Bool.or_eq_true, Bool.and_eq_true, decide_eq_true_eq, beq_iff_eq,
    UInt32.le_iff_toNat_le] at h
  rcases h with ((h | h) | h) | rfl
  · exact .inl h
  · exact .inr (.inl h)
  · exact .inr (.inr (.inl h))
  · exact .inr (.inr (.inr rfl))

/-- No character of an identifier is blank. -/
theorem isBlank_of_isIdentifierRest (h : isIdentifierRest c = true) : isBlank c = false := by
  have hc := toNat_of_isIdentifierRest h
  rw [← Bool.not_eq_true]
  intro hb
  simp only [isBlank, Bool.or_eq_true, Bool.and_eq_true, decide_eq_true_eq, beq_iff_eq] at hb
  omega

/-- A character of an identifier is none that cannot stand in one. -/
theorem ne_of_isIdentifierRest {mark : Char} (hm : isIdentifierRest mark = false)
    (h : isIdentifierRest c = true) : c ≠ mark := by
  rintro rfl
  rw [hm] at h
  cases h

/-! ### Identifiers -/

/-- An identifier has a first character. -/
theorem exists_toList_eq_cons (h : isIdentifier name = true) :
    ∃ c more, name.toList = c :: more ∧ isIdentifierStart c = true ∧ IsWord more := by
  rw [isIdentifier] at h
  split at h
  · cases h
  · rename_i c more hname
    rw [Bool.and_eq_true, List.all_eq_true] at h
    exact ⟨c, more, hname, h.1, h.2⟩

/-- An identifier is a word. -/
theorem isWord_of_isIdentifier (h : isIdentifier name = true) : IsWord name.toList := by
  obtain ⟨c, more, hname, hc, hmore⟩ := exists_toList_eq_cons h
  rw [hname]
  exact List.forall_mem_cons.mpr ⟨isIdentifierRest_of_isIdentifierStart hc, hmore⟩

/-- A text that begins with an identifier has a first character. -/
theorem exists_append_eq_cons (h : isIdentifier name = true) (rest : List Char) :
    ∃ c more, name.toList ++ rest = c :: more ∧ isIdentifierStart c = true := by
  obtain ⟨c, more, hname, hc, -⟩ := exists_toList_eq_cons h
  exact ⟨c, more ++ rest, by rw [hname, List.cons_append], hc⟩

theorem takeWhile_append_of_atBoundary (hs : IsWord s) (hr : atBoundary rest = true) :
    (s ++ rest).takeWhile isIdentifierRest = s := by
  rw [List.takeWhile_append_of_pos hs]
  cases rest with
  | nil => simp
  | cons d rest =>
    have hd : ¬isIdentifierRest d = true := by simpa [atBoundary] using hr
    rw [List.takeWhile_cons_of_neg hd, List.append_nil]

theorem dropWhile_append_of_atBoundary (hs : IsWord s) (hr : atBoundary rest = true) :
    (s ++ rest).dropWhile isIdentifierRest = rest := by
  rw [List.dropWhile_append_of_pos hs]
  cases rest with
  | nil => rfl
  | cons d rest =>
    have hd : ¬isIdentifierRest d = true := by simpa [atBoundary] using hr
    rw [List.dropWhile_cons_of_neg hd]

/-- A written identifier reads back, up to the boundary after it. -/
theorem identifier?_append (h : isIdentifier name = true) (hr : atBoundary rest = true) :
    identifier? (name.toList ++ rest) = some (name, rest) := by
  obtain ⟨c, more, hname, hc, hmore⟩ := exists_toList_eq_cons h
  rw [hname, List.cons_append, identifier?, if_pos hc, takeWhile_append_of_atBoundary hmore hr,
    dropWhile_append_of_atBoundary hmore hr, ← hname, String.ofList_toList]

/-! ### Words -/

/-- A word that is found at the beginning of a text that ends at a boundary is found in that
text. -/
theorem exists_of_isPrefixOf?_append {word tail : List Char} (hw : IsWord word)
    (hr : atBoundary rest = true) (h : word.isPrefixOf? (s ++ rest) = some tail) :
    ∃ more, s = word ++ more ∧ tail = more ++ rest := by
  rw [List.isPrefixOf?_eq_some_iff_append_eq] at h
  rcases List.append_eq_append_iff.mp h with ⟨more, hs, ht⟩ | ⟨extra, hword, hrest⟩
  · exact ⟨more, hs, ht⟩
  · cases extra with
    | nil =>
      rw [List.append_nil] at hword
      exact ⟨[], by rw [hword, List.append_nil], hrest.symm⟩
    | cons d extra =>
      -- The word would go on behind the boundary.
      have hd : isIdentifierRest d = true := hw d (by rw [hword]; simp)
      rw [hrest, List.cons_append, atBoundary, hd] at hr
      cases hr

/-- A word that begins a text that ends at a boundary begins that text. -/
theorem prefix_of_prefix_append {word : List Char} (hw : IsWord word)
    (hr : atBoundary rest = true) (h : word <+: s ++ rest) : word <+: s := by
  obtain ⟨tail, ht⟩ := h
  obtain ⟨more, hs, -⟩ :=
    exists_of_isPrefixOf?_append hw hr (List.isPrefixOf?_eq_some_iff_append_eq.mpr ht)
  exact ⟨more, hs.symm⟩

/-- A word that does not begin a text is not found before the boundary after that text. -/
theorem isPrefixOf?_append_eq_none {word : List Char} (hw : IsWord word)
    (hr : atBoundary rest = true) (h : ¬word <+: s) : word.isPrefixOf? (s ++ rest) = none := by
  rw [← Option.not_isSome_iff_eq_none, Option.isSome_iff_exists]
  rintro ⟨tail, ht⟩
  obtain ⟨more, hs, -⟩ := exists_of_isPrefixOf?_append hw hr ht
  exact h ⟨more, hs.symm⟩

theorem isPrefixOf?_append (s rest : List Char) : s.isPrefixOf? (s ++ rest) = some rest :=
  List.isPrefixOf?_eq_some_iff_append_eq.mpr rfl

/-- What is found at the beginning of an identifier is that identifier, if it ends at a boundary:
an identifier goes on where a shorter word ends. -/
theorem eq_of_isPrefixOf?_append {word : String} {after tail : List Char}
    (hw : isIdentifier word = true) (hn : isIdentifier name = true)
    (ha : atBoundary after = true) (h : word.toList.isPrefixOf? (name.toList ++ after) = some tail)
    (hb : atBoundary tail = true) : word = name ∧ tail = after := by
  obtain ⟨more, hname, rfl⟩ := exists_of_isPrefixOf?_append (isWord_of_isIdentifier hw) ha h
  cases more with
  | nil =>
    rw [List.append_nil] at hname
    exact ⟨String.toList_injective hname.symm, rfl⟩
  | cons c more =>
    have hc : isIdentifierRest c = true := isWord_of_isIdentifier hn c (by rw [hname]; simp)
    rw [List.cons_append, atBoundary, hc] at hb
    cases hb

/-! ### Blanks and marks -/

/-- A single blank before a text is read. -/
theorem blanks?_cons (h : isBlank c = false) : blanks? (' ' :: c :: rest) = some (c :: rest) := by
  rw [blanks?, if_pos (by decide), trimStart, List.dropWhile_cons_of_neg (by rw [h]; simp)]

/-- There are no blanks to read where a text begins with another character. -/
theorem blanks?_eq_none (h : isBlank c = false) : blanks? (c :: rest) = none := by
  rw [blanks?, h, if_neg Bool.false_ne_true]

/-- Only the blank before an identifier is read as such. -/
theorem blanks?_append (h : isIdentifier name = true) (rest : List Char) :
    blanks? (' ' :: (name.toList ++ rest)) = some (name.toList ++ rest) := by
  obtain ⟨c, more, hs, hc⟩ := exists_append_eq_cons h rest
  rw [hs]
  exact blanks?_cons (isBlank_of_isIdentifierRest (isIdentifierRest_of_isIdentifierStart hc))

/-- Blanks stand at a boundary. -/
theorem atBoundary_of_blanks? (h : blanks? s = some rest) : atBoundary s = true := by
  cases s with
  | nil => rfl
  | cons c s =>
    cases hc : isIdentifierRest c with
    | false => rw [atBoundary, hc, Bool.not_false]
    | true =>
      rw [blanks?_eq_none (isBlank_of_isIdentifierRest hc)] at h
      cases h

/-- There are no spaces to skip where a text begins with a character that is not blank. -/
theorem skipSpaces_cons (h : isBlank c = false) : skipSpaces (c :: rest) = c :: rest := by
  refine List.dropWhile_cons_of_neg fun hc => ?_
  rw [Bool.or_eq_true, beq_iff_eq, beq_iff_eq] at hc
  rcases hc with rfl | rfl
  · cases h
  · cases h

/-- A single space before such a text is skipped. -/
theorem skipSpaces_space_cons (h : isBlank c = false) :
    skipSpaces (' ' :: c :: rest) = c :: rest :=
  skipSpaces_cons h

/-- A mark that stands at the beginning of a text is read. -/
theorem mark?_cons_self {mark : Char} (h : isBlank mark = false) :
    mark? mark (mark :: rest) = some rest := by
  rw [mark?, skipSpaces_cons h]
  exact isPrefixOf?_append [mark] rest

/-- A mark is not found where another character stands. -/
theorem mark?_eq_none_of_skipSpaces {mark : Char} (hs : skipSpaces s = c :: rest)
    (h : c ≠ mark) : mark? mark s = none := by
  rw [mark?, hs]
  exact if_neg (by simpa using h.symm)

/-- A mark is not found where a word stands. -/
theorem mark?_eq_none_of_isIdentifierRest {mark : Char} (hm : isIdentifierRest mark = false)
    (h : isIdentifierRest c = true) : mark? mark (c :: rest) = none :=
  mark?_eq_none_of_skipSpaces (skipSpaces_cons (isBlank_of_isIdentifierRest h))
    (ne_of_isIdentifierRest hm h)

/-! ### Numbers -/

theorem isDigit_of_decimal (n : Nat) : ∀ d ∈ decimal n, d.isDigit = true :=
  List.all_eq_true.mp (all_isDigit_decimal n)

/-- A written number reads back. -/
theorem number?_append {n : Nat} (hn : n < UInt64.size) (hc : c.isDigit = false) :
    number? (decimal n ++ c :: rest) = some (n, c :: rest) := by
  have hneg : ¬c.isDigit = true := by rw [hc]; exact Bool.false_ne_true
  rw [number?, List.takeWhile_append_of_pos (isDigit_of_decimal n),
    List.dropWhile_append_of_pos (isDigit_of_decimal n), List.takeWhile_cons_of_neg hneg,
    List.dropWhile_cons_of_neg hneg, List.append_nil, word?_decimal hn]
  rfl

theorem skipSpaces_decimal_append (n : Nat) :
    skipSpaces (decimal n ++ rest) = decimal n ++ rest := by
  cases hd : decimal n with
  | nil => exact absurd hd (decimal_ne_nil n)
  | cons d more =>
    have hdigit : d.isDigit = true := isDigit_of_decimal n d (by rw [hd]; exact List.mem_cons_self)
    exact skipSpaces_cons (isBlank_of_isIdentifierRest (isIdentifierRest_of_isDigit hdigit))

/-- A number that is written between two marks reads back. -/
theorem enclosedNumber?_append {opening closing : Char} {n : Nat} (hn : n < UInt64.size)
    (ho : isBlank opening = false) (hc : isBlank closing = false)
    (hd : closing.isDigit = false) :
    enclosedNumber? opening closing (opening :: (decimal n ++ closing :: rest))
      = some (n, rest) := by
  simp only [enclosedNumber?, mark?_cons_self ho, skipSpaces_decimal_append,
    number?_append hn hd, mark?_cons_self hc, Option.bind_eq_bind, Option.bind_some,
    Option.pure_def]

/-- There is no number between marks where the first mark does not stand. -/
theorem enclosedNumber?_eq_none {opening closing : Char} (h : mark? opening s = none) :
    enclosedNumber? opening closing s = none := by
  rw [enclosedNumber?, h]
  rfl

end RosInterface.Idl
