/-!
# Decimal numbers

Numbers are written with ASCII decimal digits. Sizes and bounds are 64-bit words, so a reader
refuses a numeral whose value does not fit; leading zeros do not matter.

## Main definitions

* `Text.decimal`, `Text.numeral`: the numeral of a number.
* `Text.word?`: the value of a numeral that fits in a word.
* `Text.unsigned?`, `Text.isSigned`: numerals that may carry a sign.

## Main results

* `Text.word?_decimal`: a written number reads back.
* `Text.exists_of_word?`: a numeral that is read is a written number with zeros in front.
-/

namespace RosInterface.Text

/-- The numeral of a number, without leading zeros. -/
def decimal (n : Nat) : List Char :=
  Nat.toDigits 10 n

/-- The numeral of a number as a string. -/
def numeral (n : Nat) : String :=
  String.ofList (decimal n)

/-- The value of a text of one or more decimal digits. -/
def natural? (s : List Char) : Option Nat :=
  if s ≠ [] ∧ s.all Char.isDigit then some (Nat.ofDigitChars 10 s 0) else none

/-- The value of a text of one or more decimal digits, if it is below `2 ^ 64`. -/
def word? (s : List Char) : Option Nat :=
  (natural? s).filter (· < UInt64.size)

/-- The value of a word that may have one plus sign in front. -/
def unsigned? : List Char → Option Nat
  | '+' :: digits => word? digits
  | digits => word? digits

/-- The text is the numeral of a signed 64-bit number, with at most one sign in front. -/
def isSigned : List Char → Bool
  | '+' :: digits => (natural? digits).any (· < UInt64.size / 2)
  | '-' :: digits => (natural? digits).any (· ≤ UInt64.size / 2)
  | digits => (natural? digits).any (· < UInt64.size / 2)

/-- A numeral is not empty. -/
theorem decimal_ne_nil (n : Nat) : decimal n ≠ [] := by
  simp [decimal, Nat.toDigits_ne_nil]

/-- A numeral has decimal digits only. -/
theorem all_isDigit_decimal (n : Nat) : (decimal n).all Char.isDigit = true :=
  List.all_eq_true.mpr fun _ h => Nat.isDigit_of_mem_toDigits (by decide) (by decide) h

theorem natural?_decimal (n : Nat) : natural? (decimal n) = some n := by
  rw [natural?, if_pos ⟨decimal_ne_nil n, all_isDigit_decimal n⟩, decimal,
    Nat.ofDigitChars_toDigits (by decide) (by decide)]

/-- A word that is written reads back. -/
theorem word?_decimal {n : Nat} (h : n < UInt64.size) : word? (decimal n) = some n := by
  rw [word?, natural?_decimal]
  exact if_pos (decide_eq_true h)

/-- Zeros in front of a numeral do not matter. -/
theorem natural?_replicate_append_decimal (zeros n : Nat) :
    natural? (List.replicate zeros '0' ++ decimal n) = some n := by
  have hall : (List.replicate zeros '0' ++ decimal n).all Char.isDigit = true := by
    rw [List.all_append, all_isDigit_decimal, Bool.and_true, List.all_eq_true]
    intro c hc
    rw [List.eq_of_mem_replicate hc]
    rfl
  rw [natural?, if_pos ⟨List.append_ne_nil_of_right_ne_nil _ (decimal_ne_nil n), hall⟩,
    Nat.ofDigitChars_append, Nat.ofDigitChars_replicate_zero, Nat.mul_zero, decimal,
    Nat.ofDigitChars_toDigits (by decide) (by decide)]

/-- A decimal digit is that of a number below ten. -/
theorem exists_eq_digitChar {c : Char} (h : c.isDigit = true) : ∃ d < 10, c = Nat.digitChar d := by
  obtain ⟨hlower, hupper⟩ := Char.isDigit_iff_toNat.mp h
  change 48 ≤ c.toNat at hlower
  change c.toNat ≤ 57 at hupper
  have hd : c.toNat - 48 < 10 := by omega
  refine ⟨c.toNat - 48, hd, Char.toNat_inj.mp ?_⟩
  rw [Nat.toNat_digitChar_of_lt_ten hd]
  omega

/-- Digits behind the numeral of a positive number make the numeral of a greater one. -/
theorem decimal_append {n : Nat} (hn : 0 < n) {s : List Char} (hs : s.all Char.isDigit = true) :
    decimal n ++ s = decimal (Nat.ofDigitChars 10 s n) := by
  induction s generalizing n with
  | nil => rw [List.append_nil, Nat.ofDigitChars_nil]
  | cons c s ih =>
    rw [List.all_cons, Bool.and_eq_true] at hs
    obtain ⟨d, hd, rfl⟩ := exists_eq_digitChar hs.1
    have hdigit : decimal n ++ [Nat.digitChar d] = decimal (10 * n + d) := by
      rw [decimal, decimal, ← Nat.toDigits_append_toDigits (by decide) hn hd,
        Nat.toDigits_of_lt_base hd]
    rw [List.append_cons, hdigit, ih (by omega) hs.2, Nat.ofDigitChars_cons_digitChar_of_lt_ten hd]

/-- Digits are the numeral of their value with zeros in front. -/
theorem exists_eq_replicate_append_decimal {s : List Char} (hne : s ≠ [])
    (hs : s.all Char.isDigit = true) :
    ∃ zeros, s = List.replicate zeros '0' ++ decimal (Nat.ofDigitChars 10 s 0) := by
  induction s with
  | nil => exact absurd rfl hne
  | cons c s ih =>
    rw [List.all_cons, Bool.and_eq_true] at hs
    obtain ⟨d, hd, rfl⟩ := exists_eq_digitChar hs.1
    rw [Nat.ofDigitChars_cons_digitChar_of_lt_ten hd, Nat.mul_zero, Nat.zero_add]
    rcases Nat.eq_zero_or_pos d with rfl | hpos
    · cases s with
      | nil => exact ⟨0, rfl⟩
      | cons c' s =>
        obtain ⟨zeros, hzeros⟩ := ih (List.cons_ne_nil c' s) hs.2
        exact ⟨zeros + 1, congrArg ('0' :: ·) hzeros⟩
    · refine ⟨0, ?_⟩
      rw [← decimal_append hpos hs.2, decimal, Nat.toDigits_of_lt_base hd]
      rfl

/-- **A numeral that is read is a written number with zeros in front**, and the number is a word. -/
theorem exists_of_word? {s : List Char} {n : Nat} (h : word? s = some n) :
    n < UInt64.size ∧ ∃ zeros, s = List.replicate zeros '0' ++ decimal n := by
  obtain ⟨hn, hlt⟩ := Option.filter_eq_some_iff.mp h
  rw [natural?] at hn
  obtain ⟨⟨hne, hs⟩, hvalue⟩ := Option.ite_none_right_eq_some.mp hn
  obtain rfl := Option.some.inj hvalue
  exact ⟨of_decide_eq_true hlt, exists_eq_replicate_append_decimal hne hs⟩

end RosInterface.Text
