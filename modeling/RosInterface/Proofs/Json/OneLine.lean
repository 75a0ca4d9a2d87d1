import RosInterface.Proofs.Json.Reading

/-!
# Documents on one line

The text of a document has no character below U+0020, whatever characters there are in its strings.
In particular it has no line feed, so a document with a line feed behind it is one line.

## Main definitions

* `Json.HasNoControls`: a text without characters below U+0020.

## Main results

* `Json.hasNoControls_escapedChar`: no character is written as one below U+0020.
* `Json.hasNoControls_chars`: there are none in the text of a document.
-/

namespace RosInterface.Json

open Text (decimal)

/-- No character of the text is below U+0020. -/
def HasNoControls (s : List Char) : Prop :=
  ∀ c ∈ s, 0x20 ≤ c.toNat

instance (s : List Char) : Decidable (HasNoControls s) :=
  List.decidableBAll (fun c : Char => 0x20 ≤ c.toNat) s

variable {s t : List Char}

theorem hasNoControls_nil : HasNoControls [] :=
  List.forall_mem_nil _

theorem HasNoControls.append (hs : HasNoControls s) (ht : HasNoControls t) :
    HasNoControls (s ++ t) :=
  List.forall_mem_append.mpr ⟨hs, ht⟩

theorem HasNoControls.cons {c : Char} (hc : 0x20 ≤ c.toNat) (hs : HasNoControls s) :
    HasNoControls (c :: s) :=
  List.forall_mem_cons.mpr ⟨hc, hs⟩

/-! ### Strings and numbers -/

/-- **No character is written as one below U+0020** inside a string. -/
theorem hasNoControls_escapedChar (c : Char) : HasNoControls (escapedChar c) := by
  by_cases hc : c ∈ escapedChars
  · have hall : escapedChars.all (fun c => decide (HasNoControls (escapedChar c))) = true := by
      decide
    exact of_decide_eq_true (List.all_eq_true.mp hall c hc)
  · rw [escapedChar_of_notMem hc]
    exact hasNoControls_nil.cons (Nat.le_of_not_lt (mt mem_escapedChars_of_lt hc))

theorem hasNoControls_stringChars (value : String) : HasNoControls (stringChars value) := by
  have hcontent : HasNoControls (value.toList.flatMap escapedChar) :=
    List.forall_mem_flatMap.mpr fun c _ => hasNoControls_escapedChar c
  exact (hcontent.append (by decide)).cons (by decide)

theorem hasNoControls_decimal (n : Nat) : HasNoControls (decimal n) := by
  intro c hc
  have hdigit : c.isDigit = true := List.all_eq_true.mp (Text.all_isDigit_decimal n) c hc
  have hlower : 48 ≤ c.val := by
    rw [Char.isDigit, Bool.and_eq_true] at hdigit
    simpa using hdigit.1
  have hnumber : 48 ≤ c.toNat := hlower
  omega

/-! ### Documents -/

mutual

/-- **No character of a document is below U+0020.** -/
theorem hasNoControls_chars : ∀ document : Json, HasNoControls document.chars
  | .number value => hasNoControls_decimal value
  | .string value => hasNoControls_stringChars value
  | .array items => ((hasNoControls_itemsChars items).append (by decide)).cons (by decide)
  | .object members => ((hasNoControls_membersChars members).append (by decide)).cons (by decide)

/-- There is none in the items of an array. -/
theorem hasNoControls_itemsChars : ∀ items : List Json, HasNoControls (itemsChars items)
  | [] => hasNoControls_nil
  | item :: rest => (hasNoControls_chars item).append (hasNoControls_moreItemsChars rest)

/-- There is none in the further items of an array. -/
theorem hasNoControls_moreItemsChars : ∀ items : List Json, HasNoControls (moreItemsChars items)
  | [] => hasNoControls_nil
  | item :: rest =>
    ((hasNoControls_chars item).append (hasNoControls_moreItemsChars rest)).cons (by decide)

/-- There is none in the members of an object. -/
theorem hasNoControls_membersChars :
    ∀ members : List (String × Json), HasNoControls (membersChars members)
  | [] => hasNoControls_nil
  | (key, value) :: rest =>
    have hrest := (hasNoControls_chars value).append (hasNoControls_moreMembersChars rest)
    (hasNoControls_stringChars key).append (hrest.cons (by decide))

/-- There is none in the further members of an object. -/
theorem hasNoControls_moreMembersChars :
    ∀ members : List (String × Json), HasNoControls (moreMembersChars members)
  | [] => hasNoControls_nil
  | (key, value) :: rest =>
    have hrest := (hasNoControls_chars value).append (hasNoControls_moreMembersChars rest)
    ((hasNoControls_stringChars key).append (hrest.cons (by decide))).cons (by decide)

end

end RosInterface.Json
