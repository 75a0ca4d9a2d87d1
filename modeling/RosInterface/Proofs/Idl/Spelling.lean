import RosInterface.Proofs.Idl.Lexical

/-!
# The spellings of the basic types

The spellings of the basic types are tried one after the other, and the first one whose words fit
is chosen. Longer spellings come before those that they go on from, so that no earlier spelling
fits a part of a later one. What an earlier spelling can fit is a later one *and* a word of the
text behind it: `long long` fits the text `long longitude`.

## Main definitions

* `Idl.spelled`: the words of a spelling with single blanks between them.
* `Idl.FitsPart`: a spelling fits a part of another one.
* `Idl.Overruns`: the text behind a spelling begins with the next word of a longer one.

## Main results

* `Idl.fitsPart_or_exists_of_words?`: what it means that a spelling fits a spelled text.
* `Idl.pairwise_not_fitsPart`: no spelling fits a part of a later one.
* `Idl.basicType?_spelled`: a spelling is read as its type unless the text behind it overruns it.
* `Idl.exists_of_basicType?_spelled`: a spelling that is overrun is lost to a longer one.
-/

namespace RosInterface.Idl

open Text

/-- The words of a spelling with single blanks between them. -/
def spelled : List String → List Char
  | [] => []
  | [word] => word.toList
  | word :: more => word.toList ++ ' ' :: spelled more

/-- The words fit a part of a spelling: the last one is a beginning of one of its words, and those
before are the words before that one. -/
def FitsPart : List String → List String → Prop
  | [word], other :: _ => word.toList <+: other.toList
  | word :: more, other :: others => word = other ∧ FitsPart more others
  | _, _ => False

instance FitsPart.decide : (words others : List String) → Decidable (FitsPart words others)
  | [], _ => isFalse id
  | [_], [] => isFalse id
  | _ :: _ :: _, [] => isFalse id
  | [word], other :: _ => inferInstanceAs (Decidable (word.toList <+: other.toList))
  | word :: next :: more, other :: others =>
    have := FitsPart.decide (next :: more) others
    inferInstanceAs (Decidable (word = other ∧ FitsPart (next :: more) others))

/-- The text behind a spelling begins with the next word of a longer spelling, after blanks. -/
def Overruns (words : List String) (rest : List Char) : Prop :=
  ∃ longer ∈ basicSpellings, ∃ word, longer.1 = words ++ [word] ∧
    ∃ tail, blanks? rest = some tail ∧ word.toList <+: tail

variable {words : List String} {type : BasicType} {rest tail : List Char}

/-! ### Spelled words -/

/-- A spelling begins with its first word, and a boundary comes behind it. -/
theorem exists_spelled_cons_append (word : String) (more : List String)
    (hr : atBoundary rest = true) :
    ∃ after, spelled (word :: more) ++ rest = word.toList ++ after ∧ atBoundary after = true := by
  cases more with
  | nil => exact ⟨rest, rfl, hr⟩
  | cons next more =>
    exact ⟨' ' :: (spelled (next :: more) ++ rest), by simp [spelled], rfl⟩

/-- Only one blank stands before the next word of a spelling. -/
theorem blanks?_spelled {word : String} (hw : isIdentifier word = true) (more : List String) :
    blanks? (' ' :: (spelled (word :: more) ++ rest)) = some (spelled (word :: more) ++ rest) := by
  cases more with
  | nil => exact blanks?_append hw rest
  | cons next more =>
    rw [spelled, List.append_assoc]
    · exact blanks?_append hw _
    · simp

/-- The words of a spelling are read, whatever comes behind them. -/
theorem words?_spelled (hi : ∀ word ∈ words, isIdentifier word = true) :
    words? words (spelled words ++ rest) = some rest := by
  induction words with
  | nil => rfl
  | cons word more ih =>
    cases more with
    | nil => exact isPrefixOf?_append word.toList rest
    | cons next more =>
      have hmore : ∀ word ∈ next :: more, isIdentifier word = true :=
        fun w hw => hi w (List.mem_cons_of_mem _ hw)
      rw [spelled, words?, List.append_assoc, isPrefixOf?_append, List.cons_append]
      simp only [Option.bind_eq_bind, Option.bind_some,
        blanks?_spelled (hmore next List.mem_cons_self)]
      exact ih hmore
      · simp
      · simp

/-- The words of a longer spelling are read on from behind a shorter one. -/
theorem words?_spelled_append {word : String} (hi : ∀ word ∈ words, isIdentifier word = true)
    (hne : words ≠ []) :
    words? (words ++ [word]) (spelled words ++ rest)
      = (blanks? rest).bind fun tail => word.toList.isPrefixOf? tail := by
  induction words with
  | nil => exact absurd rfl hne
  | cons first more ih =>
    cases more with
    | nil =>
      rw [List.singleton_append, words?, spelled, isPrefixOf?_append]
      · rfl
      · simp
    | cons next more =>
      have hmore : ∀ word ∈ next :: more, isIdentifier word = true :=
        fun w hw => hi w (List.mem_cons_of_mem _ hw)
      rw [List.cons_append, List.cons_append, words?, spelled, List.append_assoc,
        isPrefixOf?_append, List.cons_append]
      simp only [Option.bind_eq_bind, Option.bind_some,
        blanks?_spelled (hmore next List.mem_cons_self)]
      exact ih hmore (List.cons_ne_nil next more)
      · simp
      · simp

theorem exists_of_words?_cons_cons {first next : String} {more : List String} {s : List Char}
    (h : words? (first :: next :: more) s = some tail) :
    ∃ s₁ s₂, first.toList.isPrefixOf? s = some s₁ ∧ blanks? s₁ = some s₂ ∧
      words? (next :: more) s₂ = some tail := by
  rw [words?] at h
  · simpa only [Option.bind_eq_bind, Option.bind_eq_some_iff, exists_and_left] using h
  · simp

/-- **What it means that words fit a spelled text.** They fit a part of the spelling, or they are
the words of the spelling and perhaps more. -/
theorem fitsPart_or_prefix_of_words? {pattern : List String} (hne : pattern ≠ [])
    (hp : ∀ word ∈ pattern, isIdentifier word = true)
    (hi : ∀ word ∈ words, isIdentifier word = true) (hwords : words ≠ [])
    (hr : atBoundary rest = true) (h : words? pattern (spelled words ++ rest) = some tail) :
    FitsPart pattern words ∨ words <+: pattern := by
  induction pattern generalizing words with
  | nil => exact absurd rfl hne
  | cons first pattern ih =>
    cases words with
    | nil => exact absurd rfl hwords
    | cons other others =>
      have hfirst : isIdentifier first = true := hp first List.mem_cons_self
      have hother : isIdentifier other = true := hi other List.mem_cons_self
      cases pattern with
      | nil =>
        obtain ⟨after, hs, hafter⟩ := exists_spelled_cons_append other others hr
        rw [hs] at h
        obtain ⟨more, hmore, -⟩ :=
          exists_of_isPrefixOf?_append (isWord_of_isIdentifier hfirst) hafter h
        exact .inl ⟨more, hmore.symm⟩
      | cons next pattern =>
        obtain ⟨s₁, s₂, h₁, h₂, h₃⟩ := exists_of_words?_cons_cons h
        cases others with
        | nil =>
          obtain ⟨rfl, -⟩ := eq_of_isPrefixOf?_append hfirst hother hr h₁ (atBoundary_of_blanks? h₂)
          exact .inr (List.prefix_append [first] (next :: pattern))
        | cons other' others =>
          have hmore : ∀ word ∈ other' :: others, isIdentifier word = true :=
            fun w hw => hi w (List.mem_cons_of_mem _ hw)
          have hs : spelled (other :: other' :: others) ++ rest
              = other.toList ++ ' ' :: (spelled (other' :: others) ++ rest) := by
            simp [spelled]
          rw [hs] at h₁
          obtain ⟨rfl, rfl⟩ :=
            eq_of_isPrefixOf?_append hfirst hother rfl h₁ (atBoundary_of_blanks? h₂)
          rw [blanks?_spelled (hmore other' List.mem_cons_self), Option.some.injEq] at h₂
          rw [← h₂] at h₃
          rcases ih (List.cons_ne_nil next pattern) (fun w hw => hp w (List.mem_cons_of_mem _ hw))
            hmore (List.cons_ne_nil other' others) h₃ with hpart | hbegins
          · exact .inl ⟨rfl, hpart⟩
          · exact .inr (List.cons_prefix_cons.mpr ⟨rfl, hbegins⟩)

/-- The words of a spelling fit a part of any spelling that goes on from it. -/
theorem fitsPart_append (hne : words ≠ []) (more : List String) :
    FitsPart words (words ++ more) := by
  induction words with
  | nil => exact absurd rfl hne
  | cons word others ih =>
    cases others with
    | nil => exact List.prefix_refl word.toList
    | cons next others => exact ⟨rfl, ih (List.cons_ne_nil next others)⟩

/-! ### The order of the spellings -/

/-- There is no spelling without words. -/
theorem ne_nil_of_mem_basicSpellings : ∀ entry ∈ basicSpellings, entry.1 ≠ [] := by
  decide

/-- The words of the spellings are identifiers. -/
theorem isIdentifier_of_mem_basicSpellings :
    ∀ entry ∈ basicSpellings, ∀ word ∈ entry.1, isIdentifier word = true := by
  decide

/-- No spelling fits a part of a later one, so a longer spelling comes before one that it goes
on from. -/
theorem pairwise_not_fitsPart :
    basicSpellings.Pairwise fun earlier later => ¬FitsPart earlier.1 later.1 := by
  decide

/-- A spelling that goes on from another one has one word more and is the spelling of another
type. -/
theorem eq_or_ne_of_prefix :
    ∀ longer ∈ basicSpellings, ∀ entry ∈ basicSpellings, entry.1 <+: longer.1 →
      longer = entry ∨ (longer.2 ≠ entry.2 ∧ longer.1.length = entry.1.length + 1) := by
  decide

/-- No spelling fits a part of one that comes behind it in the list. -/
theorem not_fitsPart_of_split {before after : List (List String × BasicType)}
    {entry later : List String × BasicType} (h : basicSpellings = before ++ entry :: after)
    (hl : later ∈ after) : ¬FitsPart entry.1 later.1 := by
  have hp := pairwise_not_fitsPart
  rw [h, List.pairwise_append] at hp
  exact List.rel_of_pairwise_cons hp.2.1 hl

/-- The spelling that is chosen is the first one whose words fit, and it must end at a boundary. -/
theorem basicType?_eq_some_iff {s : List Char} :
    basicType? s = some (type, tail) ↔
      ∃ before words after, basicSpellings = before ++ (words, type) :: after ∧
        words? words s = some tail ∧ (∀ entry ∈ before, words? entry.1 s = none) ∧
        atBoundary tail = true := by
  rw [basicType?, Option.bind_eq_bind, Option.bind_eq_some_iff]
  constructor
  · rintro ⟨⟨found, tail'⟩, hfirst, hif⟩
    obtain ⟨before, ⟨words, type'⟩, after, hsplit, hfits, hbefore⟩ :=
      List.findSome?_eq_some_iff.mp hfirst
    obtain ⟨behind, hwords, heq⟩ := Option.map_eq_some_iff.mp hfits
    obtain ⟨rfl, rfl⟩ := Prod.mk.inj heq
    obtain ⟨hb, heq⟩ := (Option.ite_none_right_eq_some).mp hif
    obtain ⟨rfl, rfl⟩ := Prod.mk.inj (Option.some.inj heq)
    exact ⟨before, words, after, hsplit, hwords,
      fun entry he => Option.map_eq_none_iff.mp (hbefore entry he), hb⟩
  · rintro ⟨before, words, after, hsplit, hwords, hbefore, hb⟩
    refine ⟨(type, tail), List.findSome?_eq_some_iff.mpr
      ⟨before, (words, type), after, hsplit, Option.map_eq_some_iff.mpr ⟨tail, hwords, rfl⟩,
        fun entry he => Option.map_eq_none_iff.mpr (hbefore entry he)⟩, if_pos hb⟩

section Written

variable (h : (words, type) ∈ basicSpellings) (hr : atBoundary rest = true)
include h

/-- A spelling that goes on from the one that is written fits only by overrunning it. -/
theorem overruns_of_words? {entry : List String × BasicType} (he : entry ∈ basicSpellings)
    (hne : entry ≠ (words, type)) (hbegins : words <+: entry.1)
    (hfits : words? entry.1 (spelled words ++ rest) = some tail) : Overruns words rest := by
  have hwords : words ≠ [] := ne_nil_of_mem_basicSpellings _ h
  have hi : ∀ word ∈ words, isIdentifier word = true := isIdentifier_of_mem_basicSpellings _ h
  rcases eq_or_ne_of_prefix entry he (words, type) h hbegins with heq | ⟨-, hlength⟩
  · exact absurd heq hne
  · obtain ⟨more, hmore⟩ := hbegins
    have hone : more.length = 1 := by
      rw [← hmore, List.length_append] at hlength
      exact Nat.add_left_cancel hlength
    obtain ⟨word, rfl⟩ := List.length_eq_one_iff.mp hone
    rw [← hmore, words?_spelled_append hi hwords, Option.bind_eq_some_iff] at hfits
    obtain ⟨behind, hblanks, hword⟩ := hfits
    exact ⟨entry, he, word, hmore.symm, behind, hblanks, tail,
      List.isPrefixOf?_eq_some_iff_append_eq.mp hword⟩

include hr

/-- **A written spelling is read as its type**, unless the text behind it overruns it. -/
theorem basicType?_spelled (ho : ¬Overruns words rest) :
    basicType? (spelled words ++ rest) = some (type, rest) := by
  have hwords : words ≠ [] := ne_nil_of_mem_basicSpellings _ h
  have hi : ∀ word ∈ words, isIdentifier word = true := isIdentifier_of_mem_basicSpellings _ h
  obtain ⟨before, after, hsplit⟩ := List.append_of_mem h
  refine basicType?_eq_some_iff.mpr
    ⟨before, words, after, hsplit, words?_spelled hi, fun entry hentry => ?_, hr⟩
  rw [← Option.not_isSome_iff_eq_none, Option.isSome_iff_exists]
  rintro ⟨tail, hfits⟩
  have hmem : entry ∈ basicSpellings := by
    rw [hsplit]
    exact List.mem_append_left _ hentry
  have hpart : ¬FitsPart entry.1 words := by
    have hp := pairwise_not_fitsPart
    rw [hsplit, List.pairwise_append] at hp
    exact hp.2.2 entry hentry (words, type) List.mem_cons_self
  rcases fitsPart_or_prefix_of_words? (ne_nil_of_mem_basicSpellings _ hmem)
    (isIdentifier_of_mem_basicSpellings _ hmem) hi hwords hr hfits with hfp | hbegins
  · exact hpart hfp
  · refine ho (overruns_of_words? h hmem ?_ hbegins hfits)
    rintro rfl
    have hself := fitsPart_append hwords []
    rw [List.append_nil] at hself
    exact hpart hself

/-- The spelling that is chosen is the written one or goes on from it. -/
theorem prefix_of_chosen {before after : List (List String × BasicType)}
    {chosen : List String × BasicType} (hsplit : basicSpellings = before ++ chosen :: after)
    (hfits : words? chosen.1 (spelled words ++ rest) = some tail)
    (hbefore : ∀ entry ∈ before, words? entry.1 (spelled words ++ rest) = none) :
    words <+: chosen.1 := by
  have hwords : words ≠ [] := ne_nil_of_mem_basicSpellings _ h
  have hi : ∀ word ∈ words, isIdentifier word = true := isIdentifier_of_mem_basicSpellings _ h
  have hmem : chosen ∈ basicSpellings := by
    rw [hsplit]
    exact List.mem_append_right _ List.mem_cons_self
  have hplace : (words, type) ∈ before ∨ (words, type) ∈ chosen :: after := by
    rw [← List.mem_append, ← hsplit]
    exact h
  rcases hplace with hb | hplace
  · have hnone := hbefore _ hb
    rw [words?_spelled hi] at hnone
    cases hnone
  · rcases List.mem_cons.mp hplace with rfl | ha
    · exact List.prefix_refl words
    · rcases fitsPart_or_prefix_of_words? (ne_nil_of_mem_basicSpellings _ hmem)
        (isIdentifier_of_mem_basicSpellings _ hmem) hi hwords hr hfits with hfp | hbegins
      · exact absurd hfp (not_fitsPart_of_split hsplit ha)
      · exact hbegins

/-- **An overrun spelling is lost.** What is chosen in its place is a spelling of another type, one
word longer, and its last word begins the text behind the written one. -/
theorem exists_of_basicType?_spelled (ho : Overruns words rest) {found : BasicType}
    (hread : basicType? (spelled words ++ rest) = some (found, tail)) :
    found ≠ type ∧ ∃ word behind, (words ++ [word], found) ∈ basicSpellings ∧
      blanks? rest = some behind ∧ word.toList.isPrefixOf? behind = some tail ∧
      atBoundary tail = true := by
  have hwords : words ≠ [] := ne_nil_of_mem_basicSpellings _ h
  have hi : ∀ word ∈ words, isIdentifier word = true := isIdentifier_of_mem_basicSpellings _ h
  obtain ⟨before, chosen, after, hsplit, hfits, hbefore, hb⟩ := basicType?_eq_some_iff.mp hread
  have hmem : (chosen, found) ∈ basicSpellings := by
    rw [hsplit]
    exact List.mem_append_right _ List.mem_cons_self
  have hbegins : words <+: chosen := prefix_of_chosen h hr hsplit hfits hbefore
  obtain ⟨longer, hlonger, word, hlw, behind, hblanks, tail', hword⟩ := ho
  -- The longer spelling fits as well, so the written one cannot come before it.
  have hne : chosen ≠ words := by
    rintro rfl
    rw [hsplit] at hlonger
    rcases List.mem_append.mp hlonger with hl | hplace
    · have hnone := hbefore longer hl
      rw [hlw, words?_spelled_append hi hwords, hblanks, Option.bind_some,
        List.isPrefixOf?_eq_some_iff_append_eq.mpr hword] at hnone
      cases hnone
    · rcases List.mem_cons.mp hplace with rfl | ha
      · simp at hlw
      · refine not_fitsPart_of_split hsplit ha ?_
        rw [hlw]
        exact fitsPart_append hwords [word]
  rcases eq_or_ne_of_prefix _ hmem _ h hbegins with heq | ⟨htype, hlength⟩
  · exact absurd (congrArg Prod.fst heq) hne
  · obtain ⟨more, rfl⟩ := hbegins
    rw [List.length_append] at hlength
    obtain ⟨last, rfl⟩ := List.length_eq_one_iff.mp (Nat.add_left_cancel hlength)
    rw [words?_spelled_append hi hwords, hblanks, Option.bind_some] at hfits
    exact ⟨htype, last, behind, hmem, hblanks, hfits, hb⟩

end Written

end RosInterface.Idl
