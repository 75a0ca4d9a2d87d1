import Mathlib.Data.List.Basic
import Mathlib.Data.String.Basic

/-!
# The order of texts by their bytes

Texts are compared by their code points. Comparing the bytes that they are encoded with comes to the
same: a longer encoding begins with a larger byte, and encodings of one length are the digits of
their code points.

## Main definitions

* `trailingBytes`: the bytes behind the first one of an encoded character.

## Main results

* `exists_utf8EncodeChar_eq`: the encoding of a character.
* `utf8EncodeChar_append_lt`: an earlier character has smaller bytes.
* `toUTF8_lt_iff`: the bytes of texts are ordered as the texts.
-/

namespace RosInterface

/-- The bytes behind the first one of an encoded code point: its last digits to the base 64. -/
def trailingBytes (v : Nat) : Nat → List UInt8
  | 0 => []
  | k + 1 => UInt8.ofNat (v / 64 ^ k % 64 + 128) :: trailingBytes v k

/-- What the first byte of an encoded code point has beside digits: it tells how many bytes
follow. -/
def leadMark : Nat → Nat
  | 0 => 0
  | 1 => 192
  | 2 => 224
  | _ => 240

/-- The code points that are encoded with a number of bytes behind the first one. -/
def IsEncodedWith (v k : Nat) : Prop :=
  (k = 0 ∧ v < 128) ∨ (k = 1 ∧ 128 ≤ v ∧ v < 2048) ∨ (k = 2 ∧ 2048 ≤ v ∧ v < 65536) ∨
    (k = 3 ∧ 65536 ≤ v ∧ v < 1114112)

variable {v w k l : Nat} {s t : List UInt8}

theorem ofNat_lt_ofNat_iff (hv : v < 256) (hw : w < 256) :
    UInt8.ofNat v < UInt8.ofNat w ↔ v < w := by
  rw [UInt8.lt_iff_toNat_lt, UInt8.toNat_ofNat', UInt8.toNat_ofNat', Nat.mod_eq_of_lt hv,
    Nat.mod_eq_of_lt hw]

/-- The first digit decides, or else the others do. -/
theorem cons_append_lt {mark : Nat} (hv : v + mark < 256) (hw : w + mark < 256)
    {rest rest' : List UInt8} (h : v < w ∨ v = w ∧ rest ++ s < rest' ++ t) :
    UInt8.ofNat (v + mark) :: rest ++ s < UInt8.ofNat (w + mark) :: rest' ++ t := by
  rw [List.cons_append, List.cons_append, List.cons_lt_cons_iff, ofNat_lt_ofNat_iff hv hw]
  rcases h with hlt | ⟨rfl, hrest⟩
  · exact Or.inl (Nat.add_lt_add_right hlt mark)
  · exact Or.inr ⟨rfl, hrest⟩

/-- Numbers are ordered by their first digits, and else by what is behind them. -/
theorem div_lt_or_mod_lt (p : Nat) (h : v < w) : v / p < w / p ∨ v / p = w / p ∧ v % p < w % p := by
  rcases (Nat.div_le_div_right (c := p) h.le).lt_or_eq with hlt | heq
  · exact Or.inl hlt
  · have hv := Nat.div_add_mod v p
    have hw := Nat.div_add_mod w p
    rw [heq] at hv
    exact Or.inr ⟨heq, by omega⟩

/-- Smaller last digits are smaller bytes. -/
theorem trailingBytes_append_lt (h : v % 64 ^ k < w % 64 ^ k) :
    trailingBytes v k ++ s < trailingBytes w k ++ t := by
  induction k with
  | zero => simp [Nat.mod_one] at h
  | succ k ih =>
    have hdigit := div_lt_or_mod_lt (64 ^ k) h
    rw [Nat.pow_succ, Nat.mod_mul_right_div_self, Nat.mod_mul_right_div_self,
      Nat.mod_mul_right_mod, Nat.mod_mul_right_mod] at hdigit
    exact cons_append_lt (by omega) (by omega)
      (hdigit.imp_right fun ⟨heq, hlt⟩ => ⟨heq, ih hlt⟩)

/-- The first byte of a longer encoding is larger. -/
theorem IsEncodedWith.lead_lt (hv : IsEncodedWith v k) (hw : IsEncodedWith w l) (h : k < l) :
    v / 64 ^ k + leadMark k < w / 64 ^ l + leadMark l := by
  rcases hv with ⟨rfl, hv⟩ | ⟨rfl, hv⟩ | ⟨rfl, hv⟩ | ⟨rfl, hv⟩ <;>
    rcases hw with ⟨rfl, hw⟩ | ⟨rfl, hw⟩ | ⟨rfl, hw⟩ | ⟨rfl, hw⟩ <;>
      simp only [leadMark] <;> omega

/-- The first byte of an encoding is a byte. -/
theorem IsEncodedWith.lead_lt_size (hv : IsEncodedWith v k) : v / 64 ^ k + leadMark k < 256 := by
  rcases hv with ⟨rfl, hv⟩ | ⟨rfl, hv⟩ | ⟨rfl, hv⟩ | ⟨rfl, hv⟩ <;> simp only [leadMark] <;> omega

/-- A smaller code point has no longer encoding. -/
theorem IsEncodedWith.le (hv : IsEncodedWith v k) (hw : IsEncodedWith w l) (h : v < w) : k ≤ l := by
  unfold IsEncodedWith at hv hw
  omega

/-- **The encoding of a character**: the first byte tells how many follow. -/
theorem exists_utf8EncodeChar_eq (c : Char) : ∃ k, IsEncodedWith c.toNat k ∧
    String.utf8EncodeChar c =
      UInt8.ofNat (c.toNat / 64 ^ k + leadMark k) :: trailingBytes c.toNat k := by
  have hmax : c.toNat < 1114112 := by
    rcases c.valid with h | h
    · exact h.trans (by decide)
    · exact h.2
  simp only [String.utf8EncodeChar, Char.toNat_val, IsEncodedWith]
  split_ifs
  · exact ⟨0, by omega, by simp [trailingBytes, leadMark]⟩
  · have hdigit : c.toNat / 64 % 32 = c.toNat / 64 := Nat.mod_eq_of_lt (by omega)
    exact ⟨1, by omega, by simp [trailingBytes, leadMark, hdigit]⟩
  · have hdigit : c.toNat / 4096 % 16 = c.toNat / 4096 := Nat.mod_eq_of_lt (by omega)
    exact ⟨2, by omega, by simp [trailingBytes, leadMark, hdigit]⟩
  · have hdigit : c.toNat / 262144 % 8 = c.toNat / 262144 := Nat.mod_eq_of_lt (by omega)
    exact ⟨3, by omega, by simp [trailingBytes, leadMark, hdigit]⟩

/-- **An earlier character has smaller bytes**, whatever follows. -/
theorem utf8EncodeChar_append_lt {c d : Char} (h : c < d) :
    String.utf8EncodeChar c ++ s < String.utf8EncodeChar d ++ t := by
  obtain ⟨k, hk, hc⟩ := exists_utf8EncodeChar_eq c
  obtain ⟨l, hl, hd⟩ := exists_utf8EncodeChar_eq d
  have hlt : c.toNat < d.toNat := UInt32.lt_iff_toNat_lt.mp h
  rw [hc, hd]
  rcases (hk.le hl hlt).lt_or_eq with hshorter | rfl
  · rw [List.cons_append, List.cons_append, List.cons_lt_cons_iff,
      ofNat_lt_ofNat_iff hk.lead_lt_size hl.lead_lt_size]
    exact Or.inl (hk.lead_lt hl hshorter)
  · exact cons_append_lt hk.lead_lt_size hl.lead_lt_size
      ((div_lt_or_mod_lt (64 ^ k) hlt).imp_right fun ⟨heq, hrest⟩ =>
        ⟨heq, trailingBytes_append_lt hrest⟩)

/-- Characters in an earlier order have bytes in an earlier order. -/
theorem flatMap_utf8EncodeChar_lt {a b : List Char} (h : a < b) :
    a.flatMap String.utf8EncodeChar < b.flatMap String.utf8EncodeChar := by
  induction a generalizing b with
  | nil =>
    cases b with
    | nil => exact absurd h (List.not_lt_nil [])
    | cons d b =>
      obtain ⟨k, -, hd⟩ := exists_utf8EncodeChar_eq d
      rw [List.flatMap_nil, List.flatMap_cons, hd]
      exact List.nil_lt_cons _ _
  | cons c a ih =>
    cases b with
    | nil => exact absurd h (List.not_lt_nil _)
    | cons d b =>
      rw [List.flatMap_cons, List.flatMap_cons]
      rcases List.cons_lt_cons_iff.mp h with hchar | ⟨rfl, hrest⟩
      · exact utf8EncodeChar_append_lt hchar
      · exact List.append_left_lt (ih hrest)

/-- The bytes of a text are those of its characters. -/
theorem toList_toUTF8 (a : String) :
    a.toUTF8.data.toList = a.toList.flatMap String.utf8EncodeChar := by
  rw [String.toUTF8_eq_toByteArray, ← String.utf8Encode_toList, List.utf8Encode,
    List.toList_data_toByteArray]

/-- **The bytes of texts are ordered as the texts.** -/
theorem toUTF8_lt_iff {a b : String} : a.toUTF8.data.toList < b.toUTF8.data.toList ↔ a < b := by
  have hmono {a b : String} (h : a < b) : a.toUTF8.data.toList < b.toUTF8.data.toList := by
    rw [toList_toUTF8, toList_toUTF8]
    exact flatMap_utf8EncodeChar_lt (String.lt_iff_toList_lt.mp h)
  refine ⟨fun h => ?_, hmono⟩
  rcases lt_trichotomy a b with hlt | rfl | hgt
  · exact hlt
  · exact absurd h (List.lt_irrefl _)
  · exact absurd h (List.lt_asymm (hmono hgt))

end RosInterface
