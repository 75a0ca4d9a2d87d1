/-!
# Texts as bytes

A text that is held as bytes is cut at bytes. Where the bytes are those at which a part of the text
stands, the cut falls between two characters and gives that part.

## Main definitions

* `Text.byteSize`: the number of bytes of a text.
* `Text.StandsAt`: the bytes at which a part of a text stands.

## Main results

* `Text.StandsAt.isValid_and_extract_eq`: a part is cut out at its bytes.
-/

namespace RosInterface.Text

/-- The number of bytes of a text. -/
def byteSize : List Char → Nat
  | [] => 0
  | c :: rest => c.utf8Size + byteSize rest

theorem byteSize_append (s t : List Char) : byteSize (s ++ t) = byteSize s + byteSize t := by
  induction s with
  | nil => exact (Nat.zero_add _).symm
  | cons c s ih => rw [List.cons_append, byteSize, ih, byteSize, Nat.add_assoc]

/-- These are the bytes of the encoded text. -/
theorem size_utf8Encode (s : List Char) : s.utf8Encode.size = byteSize s := by
  induction s with
  | nil => rfl
  | cons c s ih =>
    have hcons : (c :: s).utf8Encode.size = c.utf8Size + s.utf8Encode.size := by
      simp [List.utf8Encode]
    rw [hcons, ih, byteSize]

/-- The bytes at which a part of a text begins and ends. -/
def StandsAt (text part : List Char) (bounds : Nat × Nat) : Prop :=
  ∃ before after, text = before ++ (part ++ after) ∧
    bounds = (byteSize before, byteSize (before ++ part))

/-- The end of a beginning of a text lies between two characters. -/
theorem isValid_byteSize (s t : List Char) :
    (⟨byteSize s⟩ : String.Pos.Raw).IsValid (String.ofList (s ++ t)) :=
  String.Pos.Raw.isValid_iff_exists_append.mpr ⟨String.ofList s, String.ofList t,
    String.ofList_append, congrArg String.Pos.Raw.mk (size_utf8Encode s).symm⟩

/-- **A part is cut out of a text at its bytes,** and these lie between two characters. -/
theorem StandsAt.isValid_and_extract_eq {text part : List Char} {bounds : Nat × Nat}
    (h : StandsAt text part bounds) :
    (⟨bounds.1⟩ : String.Pos.Raw).IsValid (String.ofList text) ∧
      (⟨bounds.2⟩ : String.Pos.Raw).IsValid (String.ofList text) ∧
      text.utf8Encode.extract bounds.1 bounds.2 = part.utf8Encode := by
  obtain ⟨before, after, rfl, rfl⟩ := h
  refine ⟨isValid_byteSize before _, ?_, ?_⟩
  · rw [← List.append_assoc]
    exact isValid_byteSize (before ++ part) after
  · rw [List.utf8Encode_append, List.utf8Encode_append, byteSize_append, ← size_utf8Encode,
      ← size_utf8Encode]
    exact (ByteArray.extract_append_size_add (i := 0)).trans (ByteArray.extract_append_eq_left rfl)

end RosInterface.Text
