import RosInterface.Proofs.Idl.Names

/-!
# Lines that spell a member

What a line says about a member is all there is in the line. The line is a spelling of the member
that is read from it: its type, blanks, its name, the number of elements if it is an array, and a
semicolon. Spellings of one member differ in blanks, in the words for basic types, in the separator
of a path and in zeros in front of numbers.

Many parts of a member are optional, and a reader that does not find one leaves the text as it is.
Nothing is lost in this way, because what is left stands before the next part of the spelling, where
it does not belong. So each reader is proved to read a spelling of what it gives, and the induction
is on the nesting of sequences.

## Main definitions

* `Idl.SpellsWord`, `Idl.SpellsWords`, `Idl.SpellsEnclosed`, `Idl.SpellsLimit`: spellings of the
  parts of a type.
* `Idl.TypeExpr.Spells`, `Idl.Member.Spells`: the spellings of types and members.

## Main results

* `Idl.spells_of_typeExpr?`: a type that is read is spelled by what is read.
* `Idl.spells_of_memberOfLine`: a member that is read is spelled by its line.
-/

namespace RosInterface.Idl

open Text

/-! ### Spellings -/

/-- Every character is a space or a tab. -/
def IsSpaces (s : List Char) : Prop :=
  ∀ c ∈ s, c = ' ' ∨ c = '\t'

/-- The text is a numeral of a number of 64 bits. There may be zeros in front. -/
def SpellsWord (n : Nat) (s : List Char) : Prop :=
  n < UInt64.size ∧ ∃ zeros, s = List.replicate zeros '0' ++ decimal n

/-- Words with one or more blanks between them. -/
inductive SpellsWords : List String → List Char → Prop
  /-- A single word. -/
  | single (word : String) : SpellsWords [word] word.toList
  /-- A word before others. -/
  | cons {word : String} {more : List String} {blanks s : List Char} (hne : blanks ≠ [])
    (hblanks : IsBlanks blanks) (h : SpellsWords more s) :
    SpellsWords (word :: more) (word.toList ++ (blanks ++ s))

/-- A number between two marks, if there is one. Spaces may stand before each of the three. -/
inductive SpellsEnclosed (opening closing : Char) : Option Nat → List Char → Prop
  /-- There is no number, and nothing is written. -/
  | none : SpellsEnclosed opening closing none []
  /-- There is a number. -/
  | some {n : Nat} {before inner after numeral : List Char} (hbefore : IsSpaces before)
    (hinner : IsSpaces inner) (hnumeral : SpellsWord n numeral) (hafter : IsSpaces after) :
    SpellsEnclosed opening closing (some n)
      (before ++ opening :: (inner ++ (numeral ++ (after ++ [closing]))))

/-- The limit of a sequence behind a comma, if there is one. -/
inductive SpellsLimit : Option Nat → List Char → Prop
  /-- There is no limit, and nothing is written. -/
  | none : SpellsLimit none []
  /-- There is a limit. -/
  | some {n : Nat} {before inner numeral : List Char} (hbefore : IsSpaces before)
    (hinner : IsSpaces inner) (hnumeral : SpellsWord n numeral) :
    SpellsLimit (some n) (before ++ ',' :: (inner ++ numeral))

/-- The text is a spelling of the type. -/
inductive TypeExpr.Spells : TypeExpr → List Char → Prop
  /-- A basic type, in one of its spellings. -/
  | basic {words : List String} {type : BasicType} {s : List Char}
    (hmem : (words, type) ∈ basicSpellings) (h : SpellsWords words s) :
    (TypeExpr.basic type).Spells s
  /-- A path, with two colons or with slashes between its names. -/
  | named {path : Path} {separator : List Char}
    (hseparator : separator = [':', ':'] ∨ separator = ['/']) (hpath : IsPath path) :
    (TypeExpr.named path).Spells (separator.intercalate (path.map String.toList))
  /-- A sequence. -/
  | sequence {element : TypeExpr} {limit : Option Nat} {before inner after s limitText : List Char}
    (hbefore : IsSpaces before) (hinner : IsSpaces inner) (helement : element.Spells s)
    (hlimit : SpellsLimit limit limitText) (hafter : IsSpaces after) :
    (TypeExpr.sequence element limit).Spells
      ("sequence".toList ++ (before ++ '<' :: (inner ++ (s ++ (limitText ++ (after ++ ['>']))))))
  /-- A string. -/
  | string {limit : Option Nat} {s : List Char} (h : SpellsEnclosed '<' '>' limit s) :
    (TypeExpr.string limit).Spells ("string".toList ++ s)
  /-- A string of wide characters. -/
  | wideString {limit : Option Nat} {s : List Char} (h : SpellsEnclosed '<' '>' limit s) :
    (TypeExpr.wideString limit).Spells ("wstring".toList ++ s)

/-- The line is a spelling of the member. -/
inductive Member.Spells (member : Member) : List Char → Prop
  /-- The type, the name, the number of elements and a semicolon. -/
  | intro {type blanks length after : List Char} (htype : member.type.Spells type)
    (hne : blanks ≠ []) (hblanks : IsBlanks blanks) (hname : isIdentifier member.name = true)
    (hlength : SpellsEnclosed '[' ']' member.length length) (hafter : IsBlanks after) :
    member.Spells (type ++ (blanks ++ (member.name.toList ++ (length ++ (after ++ [';'])))))

/-! ### What the readers read -/

variable {s rest : List Char}

theorem exists_eq_append_skipSpaces (s : List Char) :
    ∃ spaces, IsSpaces spaces ∧ s = spaces ++ skipSpaces s := by
  refine ⟨s.takeWhile fun c => c == ' ' || c == '\t', fun c hc => ?_,
    List.takeWhile_append_dropWhile.symm⟩
  simpa using List.all_eq_true.mp List.all_takeWhile c hc

/-- A number that is read is spelled by what is read. -/
theorem spells_of_number? {n : Nat} (h : number? s = some (n, rest)) :
    ∃ numeral, SpellsWord n numeral ∧ s = numeral ++ rest := by
  obtain ⟨n', hn, heq⟩ := Option.map_eq_some_iff.mp h
  obtain ⟨rfl, rfl⟩ := Prod.mk.inj heq
  exact ⟨s.takeWhile Char.isDigit, exists_of_word? hn, List.takeWhile_append_dropWhile.symm⟩

/-- A number between marks is spelled by what is read. -/
theorem spells_of_enclosedNumber? {opening closing : Char} {n : Nat}
    (h : enclosedNumber? opening closing s = some (n, rest)) :
    ∃ text, SpellsEnclosed opening closing (some n) text ∧ s = text ++ rest := by
  simp only [enclosedNumber?, Option.bind_eq_bind, Option.bind_eq_some_iff, Option.pure_def,
    Option.some.injEq, Prod.mk.injEq] at h
  obtain ⟨s₁, h₁, ⟨n', s₂⟩, h₂, s₃, h₃, rfl, rfl⟩ := h
  obtain ⟨before, hbefore, rfl⟩ := exists_of_mark? h₁
  obtain ⟨inner, hinner, hs₁⟩ := exists_eq_append_skipSpaces s₁
  obtain ⟨numeral, hnumeral, hs₂⟩ := spells_of_number? h₂
  obtain ⟨after, hafter, rfl⟩ := exists_of_mark? h₃
  refine ⟨_, .some hbefore hinner hnumeral hafter, ?_⟩
  rw [hs₁, hs₂]
  simp only [List.append_assoc, List.cons_append, List.nil_append]

/-- Words that are read are spelled by what is read. -/
theorem spells_of_words? {words : List String} (hne : words ≠ [])
    (h : words? words s = some rest) : ∃ text, SpellsWords words text ∧ s = text ++ rest := by
  induction words generalizing s with
  | nil => exact absurd rfl hne
  | cons word more ih =>
    cases more with
    | nil => exact ⟨word.toList, .single word, eq_append_of_isPrefixOf? h⟩
    | cons next more =>
      obtain ⟨s₁, s₂, h₁, h₂, h₃⟩ := exists_of_words?_cons_cons h
      obtain ⟨blanks, hblanks, hb, rfl⟩ := exists_of_blanks? h₂
      obtain ⟨text, htext, rfl⟩ := ih (List.cons_ne_nil next more) h₃
      refine ⟨_, .cons hblanks hb htext, ?_⟩
      rw [eq_append_of_isPrefixOf? h₁]
      simp only [List.append_assoc]

/-- A basic type that is read is spelled by what is read. -/
theorem spells_of_basicType? {type : BasicType} (h : basicType? s = some (type, rest)) :
    ∃ text, (TypeExpr.basic type).Spells text ∧ s = text ++ rest := by
  obtain ⟨before, words, after, hsplit, hwords, -, -⟩ := basicType?_eq_some_iff.mp h
  have hmem : (words, type) ∈ basicSpellings := by
    rw [hsplit]
    exact List.mem_append_right _ List.mem_cons_self
  obtain ⟨text, htext, hs⟩ := spells_of_words? (ne_nil_of_mem_basicSpellings _ hmem) hwords
  exact ⟨text, .basic hmem htext, hs⟩

/-- A keyword for strings and a greatest length are spelled by what is read. -/
theorem spells_of_keywordString? {keyword : String} {make : Option Nat → TypeExpr}
    {type : TypeExpr} (h : keywordString? keyword make s = some (type, rest)) :
    ∃ limit text, type = make limit ∧ SpellsEnclosed '<' '>' limit text ∧
      s = keyword.toList ++ text ++ rest := by
  simp only [keywordString?, Option.bind_eq_bind, Option.bind_eq_some_iff] at h
  obtain ⟨behind, hkeyword, h⟩ := h
  have hs := eq_append_of_isPrefixOf? hkeyword
  split at h
  · rename_i limit rest' hlimit
    obtain ⟨rfl, rfl⟩ := Prod.mk.inj (Option.some.inj h)
    obtain ⟨text, htext, rfl⟩ := spells_of_enclosedNumber? hlimit
    exact ⟨some limit, text, rfl, htext, by rw [hs, List.append_assoc]⟩
  · obtain ⟨-, h⟩ := Option.ite_none_right_eq_some.mp h
    obtain ⟨rfl, rfl⟩ := Prod.mk.inj (Option.some.inj h)
    exact ⟨none, [], rfl, .none, by rw [hs, List.append_nil]⟩

/-- A string type that is read is spelled by what is read. -/
theorem spells_of_stringType? {type : TypeExpr} (h : stringType? s = some (type, rest)) :
    ∃ text, type.Spells text ∧ s = text ++ rest := by
  rw [stringType?, Option.or_eq_some_iff] at h
  obtain h | ⟨-, h⟩ := h
  · obtain ⟨limit, text, rfl, htext, hs⟩ := spells_of_keywordString? h
    exact ⟨_, .wideString htext, hs⟩
  · obtain ⟨limit, text, rfl, htext, hs⟩ := spells_of_keywordString? h
    exact ⟨_, .string htext, hs⟩

/-- The names that are read of a path stand one after the other, with separators between them. -/
theorem eq_append_of_moreNames (separator : List Char) (name : String) (s : List Char) :
    name.toList ++ s
      = separator.intercalate ((name :: (moreNames separator s).1).map String.toList)
        ++ (moreNames separator s).2 := by
  fun_induction moreNames separator s generalizing name with
  | case1 s hs => rw [List.map_singleton, List.intercalate_singleton]
  | case2 s after hs hi => rw [List.map_singleton, List.intercalate_singleton]
  | case3 s after hs next rest hi names rest' hmore ih =>
    obtain ⟨-, rfl⟩ := exists_of_identifier? hi
    have hnext := ih next
    rw [hmore] at hnext
    rw [eq_append_of_isPrefixOf? hs, hnext, List.map_cons, List.map_cons, List.map_cons,
      List.intercalate_cons_cons]
    simp only [List.append_assoc]

/-- A path that is read is spelled by what is read. -/
theorem spells_of_scopedName? {path : Path} (h : scopedName? s = some (path, rest)) :
    ∃ text, (TypeExpr.named path).Spells text ∧ s = text ++ rest := by
  have hpath := isPath_of_scopedName? h
  simp only [scopedName?, Option.bind_eq_bind, Option.bind_eq_some_iff, Option.pure_def,
    Option.some.injEq, Prod.mk.injEq] at h
  obtain ⟨⟨name, s'⟩, hname, rfl, rfl⟩ := h
  obtain ⟨-, hs⟩ := exists_of_identifier? hname
  refine ⟨_, .named ?_ hpath, hs.trans (eq_append_of_moreNames _ name s')⟩
  split
  · exact .inl rfl
  · exact .inr rfl

/-- A type that is no sequence is spelled by what is read. -/
theorem spells_of_plainType? {type : TypeExpr} (h : plainType? s = some (type, rest)) :
    ∃ text, type.Spells text ∧ s = text ++ rest := by
  rw [plainType?, Option.or_eq_some_iff, Option.or_eq_some_iff] at h
  obtain h | ⟨-, h | ⟨-, h⟩⟩ := h
  · exact spells_of_stringType? h
  · obtain ⟨⟨basic, s'⟩, hbasic, heq⟩ := Option.map_eq_some_iff.mp h
    cases heq
    exact spells_of_basicType? hbasic
  · obtain ⟨⟨path, s'⟩, hpath, heq⟩ := Option.map_eq_some_iff.mp h
    cases heq
    exact spells_of_scopedName? hpath

theorem exists_of_sequenceStart? (h : sequenceStart? s = some rest) :
    ∃ before inner, IsSpaces before ∧ IsSpaces inner ∧
      s = "sequence".toList ++ (before ++ '<' :: (inner ++ rest)) := by
  simp only [sequenceStart?, Option.bind_eq_bind, Option.bind_eq_some_iff, Option.pure_def,
    Option.some.injEq] at h
  obtain ⟨s₁, h₁, s₂, h₂, rfl⟩ := h
  obtain ⟨before, hbefore, rfl⟩ := exists_of_mark? h₂
  obtain ⟨inner, hinner, hs₂⟩ := exists_eq_append_skipSpaces s₂
  exact ⟨before, inner, hbefore, hinner, by rw [eq_append_of_isPrefixOf? h₁, ← hs₂]⟩

/-- The end of a sequence is spelled by what is read. A comma that no number follows is left, and
then there is no closing bracket at this place. -/
theorem exists_of_sequenceEnd? {limit : Option Nat} (h : sequenceEnd? s = some (limit, rest)) :
    ∃ text after, SpellsLimit limit text ∧ IsSpaces after ∧
      s = text ++ (after ++ '>' :: rest) := by
  rw [sequenceEnd?] at h
  split at h
  · rename_i n behind hn
    obtain ⟨rest', hmark, heq⟩ := Option.map_eq_some_iff.mp h
    obtain ⟨rfl, rfl⟩ := Prod.mk.inj heq
    simp only [Option.bind_eq_bind, Option.bind_eq_some_iff] at hn
    obtain ⟨s₁, h₁, h₂⟩ := hn
    obtain ⟨before, hbefore, rfl⟩ := exists_of_mark? h₁
    obtain ⟨inner, hinner, hs₁⟩ := exists_eq_append_skipSpaces s₁
    obtain ⟨numeral, hnumeral, hs₂⟩ := spells_of_number? h₂
    obtain ⟨after, hafter, rfl⟩ := exists_of_mark? hmark
    refine ⟨_, after, .some hbefore hinner hnumeral, hafter, ?_⟩
    rw [hs₁, hs₂]
    simp only [List.append_assoc, List.cons_append]
  · obtain ⟨rest', hmark, heq⟩ := Option.map_eq_some_iff.mp h
    obtain ⟨rfl, rfl⟩ := Prod.mk.inj heq
    obtain ⟨after, hafter, rfl⟩ := exists_of_mark? hmark
    exact ⟨[], after, .none, hafter, rfl⟩

/-- **A type that is read is spelled by what is read**, at every depth. -/
theorem spells_of_typeExpr? {type : TypeExpr} (h : typeExpr? s = some (type, rest)) :
    ∃ text, type.Spells text ∧ s = text ++ rest := by
  fun_induction typeExpr? s generalizing type rest with
  | case1 s hs => exact spells_of_plainType? h
  | case2 s body hs helement ih => exact spells_of_plainType? h
  | case3 s body hs element behind helement hend ih => exact spells_of_plainType? h
  | case4 s body hs element behind helement limit rest' hend ih =>
    obtain ⟨rfl, rfl⟩ := Prod.mk.inj (Option.some.inj h)
    obtain ⟨before, inner, hbefore, hinner, rfl⟩ := exists_of_sequenceStart? hs
    obtain ⟨text, htext, rfl⟩ := ih helement
    obtain ⟨limitText, after, hlimit, hafter, rfl⟩ := exists_of_sequenceEnd? hend
    refine ⟨_, .sequence hbefore hinner htext hlimit hafter, ?_⟩
    simp only [List.append_assoc, List.cons_append, List.nil_append]

/-- A declarator is spelled by what is read. -/
theorem spells_of_declarator? {name : String} {length : Option Nat}
    (h : declarator? s = some ((name, length), rest)) :
    ∃ text, isIdentifier name = true ∧ SpellsEnclosed '[' ']' length text ∧
      s = name.toList ++ (text ++ rest) := by
  simp only [declarator?, Option.bind_eq_bind, Option.bind_eq_some_iff] at h
  obtain ⟨⟨name', behind⟩, hname, h⟩ := h
  obtain ⟨hidentifier, rfl⟩ := exists_of_identifier? hname
  split at h
  · rename_i n rest' hn
    cases h
    obtain ⟨text, htext, rfl⟩ := spells_of_enclosedNumber? hn
    exact ⟨text, hidentifier, htext, rfl⟩
  · cases h
    exact ⟨[], hidentifier, .none, rfl⟩

/-- **A member that is read is spelled by its line**, from the first character that is not blank. -/
theorem spells_of_memberOfLine {line : List Char} {member : Member}
    (h : memberOfLine line = .ok member) : member.Spells (trimStart line) := by
  rw [memberOfLine] at h
  split at h
  · cases h
  rename_i body hbody
  obtain ⟨s₁, s₂, rest, htypeRead, hblanksRead, hdeclarator, hafter⟩ := exists_of_wholeMember h
  obtain ⟨type, htype, hs⟩ := spells_of_typeExpr? htypeRead
  obtain ⟨blanks, hne, hblanks, rfl⟩ := exists_of_blanks? hblanksRead
  obtain ⟨length, hname, hlength, rfl⟩ := spells_of_declarator? hdeclarator
  obtain ⟨margin, margin', hmargin, hmargin', htrim⟩ := exists_eq_append_trim body
  have hspells := Member.Spells.intro htype hne hblanks hname hlength (hafter.append hmargin')
  -- the trimmed text is not empty, so that it decides where the line begins
  have hnil : trim body ≠ [] := by
    rw [hs]
    exact List.append_ne_nil_of_right_ne_nil _ (List.append_ne_nil_of_left_ne_nil hne _)
  have hstart : trimStart line = trim body ++ (margin' ++ [';']) := by
    have hline : line = margin ++ (trim body ++ (margin' ++ [';'])) := by
      rw [eq_append_of_isSuffixOf? hbody, ← List.append_assoc (trim body), ← List.append_assoc,
        ← htrim]
    rw [hline, trimStart_blanks_append hmargin]
    refine dropWhile_eq_self fun c hc => isBlank_of_mem_head?_trim (s := body) c ?_
    obtain ⟨d, more, hcons⟩ := List.exists_cons_of_ne_nil hnil
    rw [hcons] at hc ⊢
    exact hc
  rw [hstart, hs]
  simpa only [List.append_assoc] using hspells

end RosInterface.Idl
