import RosInterface.Json

/-!
# Unique reading of compact JSON text

The text of a document says where it ends: whatever stands behind it, a document and the rest are
read in one way only. For a number this needs a rest that does not go on with a digit. Inside a
document the rest begins with a comma or a closing bracket, so the members of an object and the
items of an array are told apart without looking ahead.

Every proof compares two texts from the left. An escape begins with a backslash, which never stands
for itself, and no escape begins another one. A quote ends a string, as it never stands for itself
either.

## Main definitions

* `Json.escapedChars`: the characters that have an escape.
* `Json.EndsNumber`: a text that does not go on with a digit.

## Main results

* `Json.escapedChar_append_inj`, `Json.stringChars_append_inj`, `Json.decimal_append_inj`: unique
  reading of characters, strings and numbers.
* `Json.chars_append_inj`: unique reading of documents.
* `Json.text_inj`: different documents have different texts.
-/

namespace RosInterface.Json

open Text (decimal)

variable {s t : List Char}

/-! ### Strings -/

/-- The characters that do not stand for themselves inside a string. -/
def escapedChars : List Char :=
  '"' :: '\\' :: (List.range 0x20).map Char.ofNat

theorem mem_escapedChars_of_lt {c : Char} (h : c.toNat < 0x20) : c ∈ escapedChars := by
  refine List.mem_cons_of_mem _ (List.mem_cons_of_mem _ (List.mem_map.mpr ⟨c.toNat, ?_, ?_⟩))
  · exact List.mem_range.mpr h
  · exact Char.ofNat_toNat c

theorem escapedChar_of_notMem {c : Char} (h : c ∉ escapedChars) : escapedChar c = [c] := by
  have hne : ∀ d ∈ escapedChars, c ≠ d := fun d hd he => h (he ▸ hd)
  have hmark : ¬(c = '"' ∨ c = '\\') := by
    rintro (he | he)
    · exact hne '"' (by decide) he
    · exact hne '\\' (by decide) he
  have hlt : ¬c.toNat < 0x20 := fun hlt => h (mem_escapedChars_of_lt hlt)
  rw [escapedChar, if_neg hmark, if_neg (hne '\x08' (by decide)), if_neg (hne '\t' (by decide)),
    if_neg (hne '\n' (by decide)), if_neg (hne '\x0c' (by decide)), if_neg (hne '\r' (by decide)),
    if_neg hlt]

/-- An escape begins with a backslash. -/
theorem head?_escapedChar {c : Char} (h : c ∈ escapedChars) :
    (escapedChar c).head? = some '\\' := by
  -- The check runs over the list; a `∀ c ∈ escapedChars` may be decided over all characters.
  have hall : escapedChars.all (fun c => (escapedChar c).head? = some '\\') = true := by decide
  simpa using List.all_eq_true.mp hall c h

/-- No escape begins the escape of another character. -/
theorem eq_of_escapedChar_isPrefixOf {c d : Char} (hc : c ∈ escapedChars)
    (hd : d ∈ escapedChars) (h : (escapedChar c).isPrefixOf (escapedChar d) = true) : c = d := by
  have hall : escapedChars.all (fun c => escapedChars.all fun d =>
      !(escapedChar c).isPrefixOf (escapedChar d) || c == d) = true := by decide +kernel
  have hcd := List.all_eq_true.mp (List.all_eq_true.mp hall c hc) d hd
  simpa [h] using hcd

theorem exists_escapedChar_eq_cons (c : Char) : ∃ first rest, escapedChar c = first :: rest ∧
    (c ∈ escapedChars ∧ first = '\\' ∨ c ∉ escapedChars ∧ first = c ∧ rest = []) := by
  by_cases hc : c ∈ escapedChars
  · obtain ⟨rest, hrest⟩ := List.head?_eq_some_iff.mp (head?_escapedChar hc)
    exact ⟨'\\', rest, hrest, .inl ⟨hc, rfl⟩⟩
  · exact ⟨c, [], escapedChar_of_notMem hc, .inr ⟨hc, rfl, rfl⟩⟩

/-- **Unique reading of a character** inside a string. -/
theorem escapedChar_append_inj {c d : Char} (h : escapedChar c ++ s = escapedChar d ++ t) :
    c = d ∧ s = t := by
  obtain ⟨first, rest, hc, hfirst⟩ := exists_escapedChar_eq_cons c
  obtain ⟨first', rest', hd, hfirst'⟩ := exists_escapedChar_eq_cons d
  have hheads : first = first' := by
    rw [hc, hd] at h
    exact (List.cons.inj h).1
  -- Of two escapes that begin a text, one begins the other. An escape and a character that stands
  -- for itself begin differently.
  have hcd : c = d := by
    rcases hfirst with ⟨hmem, rfl⟩ | ⟨hmem, rfl, rfl⟩
    · rcases hfirst' with ⟨hmem', -⟩ | ⟨hmem', rfl, -⟩
      · rcases List.prefix_or_prefix_of_prefix (List.prefix_append _ s)
          (h ▸ List.prefix_append _ t) with hp | hp
        · exact eq_of_escapedChar_isPrefixOf hmem hmem' (List.isPrefixOf_iff_prefix.mpr hp)
        · exact (eq_of_escapedChar_isPrefixOf hmem' hmem
            (List.isPrefixOf_iff_prefix.mpr hp)).symm
      · exact absurd (hheads ▸ by decide : first' ∈ escapedChars) hmem'
    · rcases hfirst' with ⟨-, rfl⟩ | ⟨-, rfl, -⟩
      · exact absurd (hheads ▸ by decide : first ∈ escapedChars) hmem
      · exact hheads
  subst hcd
  exact ⟨rfl, List.append_cancel_left h⟩

/-- No character is written with a quote in front. -/
theorem escapedChar_append_ne_quote (c : Char) : escapedChar c ++ s ≠ '"' :: t := by
  obtain ⟨first, rest, hc, hfirst⟩ := exists_escapedChar_eq_cons c
  rw [hc]
  intro h
  have hquote : first = '"' := (List.cons.inj h).1
  rcases hfirst with ⟨-, rfl⟩ | ⟨hmem, rfl, -⟩
  · exact absurd hquote (by decide)
  · exact hmem (hquote ▸ by decide)

theorem flatMap_escapedChar_append_inj (cs : List Char) : ∀ {ds : List Char},
    cs.flatMap escapedChar ++ '"' :: s = ds.flatMap escapedChar ++ '"' :: t → cs = ds ∧ s = t := by
  induction cs with
  | nil =>
    intro ds h
    cases ds with
    | nil => exact ⟨rfl, (List.cons.inj h).2⟩
    | cons d ds =>
      rw [List.flatMap_cons, List.append_assoc] at h
      exact absurd h.symm (escapedChar_append_ne_quote d)
  | cons c cs ih =>
    intro ds h
    cases ds with
    | nil =>
      rw [List.flatMap_cons, List.append_assoc] at h
      exact absurd h (escapedChar_append_ne_quote c)
    | cons d ds =>
      rw [List.flatMap_cons, List.flatMap_cons, List.append_assoc, List.append_assoc] at h
      obtain ⟨rfl, hrest⟩ := escapedChar_append_inj h
      obtain ⟨rfl, hst⟩ := ih hrest
      exact ⟨rfl, hst⟩

/-- **Unique reading of a string.** -/
theorem stringChars_append_inj {a b : String} (h : stringChars a ++ s = stringChars b ++ t) :
    a = b ∧ s = t := by
  rw [stringChars, stringChars, List.cons_append, List.cons_append, List.append_assoc,
    List.append_assoc] at h
  obtain ⟨hab, hst⟩ := flatMap_escapedChar_append_inj a.toList (List.cons.inj h).2
  exact ⟨String.toList_injective hab, hst⟩

/-! ### Numbers -/

/-- The text does not go on with a digit. -/
def EndsNumber (s : List Char) : Prop :=
  ∀ c ∈ s.head?, c.isDigit = false

theorem endsNumber_nil : EndsNumber [] := by
  simp [EndsNumber]

theorem endsNumber_cons {c : Char} (h : c.isDigit = false) (s : List Char) :
    EndsNumber (c :: s) := by
  simpa [EndsNumber] using h

theorem takeWhile_isDigit_decimal_append (n : Nat) (hs : EndsNumber s) :
    (decimal n ++ s).takeWhile Char.isDigit = decimal n := by
  rw [List.takeWhile_append_of_pos (List.all_eq_true.mp (Text.all_isDigit_decimal n))]
  cases s with
  | nil => simp
  | cons c s =>
    have hc : c.isDigit = false := hs c rfl
    rw [List.takeWhile_cons_of_neg (by simp [hc]), List.append_nil]

/-- **Unique reading of a number.** -/
theorem decimal_append_inj {m n : Nat} (hs : EndsNumber s) (ht : EndsNumber t)
    (h : decimal m ++ s = decimal n ++ t) : m = n ∧ s = t := by
  have hdigits : decimal m = decimal n := by
    rw [← takeWhile_isDigit_decimal_append m hs, h, takeWhile_isDigit_decimal_append n ht]
  have hvalue := Text.natural?_decimal m
  rw [hdigits, Text.natural?_decimal] at hvalue
  rw [hdigits] at h
  exact ⟨(Option.some.inj hvalue).symm, List.append_cancel_left h⟩

/-- A number begins with a digit. -/
theorem decimal_append_ne_cons (n : Nat) {c : Char} (hc : c.isDigit = false) :
    decimal n ++ s ≠ c :: t := by
  intro h
  cases hd : decimal n with
  | nil => exact Text.decimal_ne_nil n hd
  | cons d ds =>
    have hdigit : d.isDigit = true :=
      List.all_eq_true.mp (Text.all_isDigit_decimal n) d (hd ▸ List.mem_cons_self)
    rw [hd] at h
    rw [(List.cons.inj h).1, hc] at hdigit
    cases hdigit

/-! ### Documents -/

theorem endsNumber_moreItemsChars (items : List Json) (s : List Char) :
    EndsNumber (moreItemsChars items ++ ']' :: s) := by
  cases items with
  | nil => exact endsNumber_cons (by decide) s
  | cons item rest => exact endsNumber_cons (by decide) _

theorem endsNumber_moreMembersChars (members : List (String × Json)) (s : List Char) :
    EndsNumber (moreMembersChars members ++ '\x7d' :: s) := by
  cases members with
  | nil => exact endsNumber_cons (by decide) s
  | cons member rest => exact endsNumber_cons (by decide) _

/-- No document begins with the bracket that ends an array. -/
theorem chars_append_ne_bracket (a : Json) : a.chars ++ s ≠ ']' :: t := by
  cases a with
  | number n => exact decimal_append_ne_cons n (by decide)
  | _ => simp [chars, stringChars]

mutual

/-- **Unique reading of a document.** -/
theorem chars_append_inj : ∀ (a b : Json) {s t : List Char}, EndsNumber s → EndsNumber t →
    a.chars ++ s = b.chars ++ t → a = b ∧ s = t
  | .number m, b, s, t, hs, ht, h => by
    cases b with
    | number n =>
      obtain ⟨rfl, hst⟩ := decimal_append_inj hs ht h
      exact ⟨rfl, hst⟩
    | _ => exact absurd h (decimal_append_ne_cons m (by decide))
  | .string v, b, s, t, _, _, h => by
    cases b with
    | string w =>
      obtain ⟨rfl, hst⟩ := stringChars_append_inj h
      exact ⟨rfl, hst⟩
    | number n => exact absurd h.symm (decimal_append_ne_cons n (by decide))
    | _ => simp [chars, stringChars] at h
  | .array items, b, s, t, _, _, h => by
    cases b with
    | array items' =>
      simp only [chars, List.cons_append, List.append_assoc, List.nil_append] at h
      obtain ⟨rfl, hst⟩ := itemsChars_append_inj items items' (List.cons.inj h).2
      exact ⟨rfl, hst⟩
    | number n => exact absurd h.symm (decimal_append_ne_cons n (by decide))
    | _ => simp [chars, stringChars] at h
  | .object members, b, s, t, _, _, h => by
    cases b with
    | object members' =>
      simp only [chars, List.cons_append, List.append_assoc, List.nil_append] at h
      obtain ⟨rfl, hst⟩ := membersChars_append_inj members members' (List.cons.inj h).2
      exact ⟨rfl, hst⟩
    | number n => exact absurd h.symm (decimal_append_ne_cons n (by decide))
    | _ => simp [chars, stringChars] at h

/-- Unique reading of the items of an array. -/
theorem itemsChars_append_inj : ∀ (items items' : List Json) {s t : List Char},
    itemsChars items ++ ']' :: s = itemsChars items' ++ ']' :: t → items = items' ∧ s = t
  | [], [], _, _, h => ⟨rfl, (List.cons.inj h).2⟩
  | [], item :: rest, s, t, h => by
    rw [itemsChars, itemsChars, List.append_assoc] at h
    exact absurd h.symm (chars_append_ne_bracket item)
  | item :: rest, [], s, t, h => by
    rw [itemsChars, itemsChars, List.append_assoc] at h
    exact absurd h (chars_append_ne_bracket item)
  | item :: rest, item' :: rest', s, t, h => by
    rw [itemsChars, itemsChars, List.append_assoc, List.append_assoc] at h
    obtain ⟨rfl, hrest⟩ := chars_append_inj item item' (endsNumber_moreItemsChars rest s)
      (endsNumber_moreItemsChars rest' t) h
    obtain ⟨rfl, hst⟩ := moreItemsChars_append_inj rest rest' hrest
    exact ⟨rfl, hst⟩

/-- Unique reading of the further items of an array. -/
theorem moreItemsChars_append_inj : ∀ (items items' : List Json) {s t : List Char},
    moreItemsChars items ++ ']' :: s = moreItemsChars items' ++ ']' :: t → items = items' ∧ s = t
  | [], [], _, _, h => ⟨rfl, (List.cons.inj h).2⟩
  | [], item :: rest, s, t, h => by simp [moreItemsChars] at h
  | item :: rest, [], s, t, h => by simp [moreItemsChars] at h
  | item :: rest, item' :: rest', s, t, h => by
    rw [moreItemsChars, moreItemsChars, List.cons_append, List.cons_append, List.append_assoc,
      List.append_assoc] at h
    obtain ⟨rfl, hrest⟩ := chars_append_inj item item' (endsNumber_moreItemsChars rest s)
      (endsNumber_moreItemsChars rest' t) (List.cons.inj h).2
    obtain ⟨rfl, hst⟩ := moreItemsChars_append_inj rest rest' hrest
    exact ⟨rfl, hst⟩

/-- Unique reading of the members of an object. -/
theorem membersChars_append_inj : ∀ (members members' : List (String × Json)) {s t : List Char},
    membersChars members ++ '\x7d' :: s = membersChars members' ++ '\x7d' :: t →
      members = members' ∧ s = t
  | [], [], _, _, h => ⟨rfl, (List.cons.inj h).2⟩
  | [], (key, value) :: rest, s, t, h => by simp [membersChars, stringChars] at h
  | (key, value) :: rest, [], s, t, h => by simp [membersChars, stringChars] at h
  | (key, value) :: rest, (key', value') :: rest', s, t, h => by
    rw [membersChars, membersChars, List.append_assoc, List.append_assoc, List.cons_append,
      List.cons_append, List.append_assoc, List.append_assoc] at h
    obtain ⟨rfl, hvalues⟩ := stringChars_append_inj h
    obtain ⟨rfl, hrest⟩ := chars_append_inj value value' (endsNumber_moreMembersChars rest s)
      (endsNumber_moreMembersChars rest' t) (List.cons.inj hvalues).2
    obtain ⟨rfl, hst⟩ := moreMembersChars_append_inj rest rest' hrest
    exact ⟨rfl, hst⟩

/-- Unique reading of the further members of an object. -/
theorem moreMembersChars_append_inj :
    ∀ (members members' : List (String × Json)) {s t : List Char},
      moreMembersChars members ++ '\x7d' :: s = moreMembersChars members' ++ '\x7d' :: t →
        members = members' ∧ s = t
  | [], [], _, _, h => ⟨rfl, (List.cons.inj h).2⟩
  | [], (key, value) :: rest, s, t, h => by simp [moreMembersChars] at h
  | (key, value) :: rest, [], s, t, h => by simp [moreMembersChars] at h
  | (key, value) :: rest, (key', value') :: rest', s, t, h => by
    rw [moreMembersChars, moreMembersChars, List.cons_append, List.cons_append, List.append_assoc,
      List.append_assoc, List.cons_append, List.cons_append, List.append_assoc,
      List.append_assoc] at h
    obtain ⟨rfl, hvalues⟩ := stringChars_append_inj (List.cons.inj h).2
    obtain ⟨rfl, hrest⟩ := chars_append_inj value value' (endsNumber_moreMembersChars rest s)
      (endsNumber_moreMembersChars rest' t) (List.cons.inj hvalues).2
    obtain ⟨rfl, hst⟩ := moreMembersChars_append_inj rest rest' hrest
    exact ⟨rfl, hst⟩

end

/-- **Different documents have different texts.** -/
theorem text_inj {a b : Json} (h : a.text = b.text) : a = b := by
  have hchars : a.chars = b.chars := String.ofList_injective h
  refine (chars_append_inj a b endsNumber_nil endsNumber_nil ?_).1
  rw [List.append_nil, List.append_nil, hchars]

end RosInterface.Json
