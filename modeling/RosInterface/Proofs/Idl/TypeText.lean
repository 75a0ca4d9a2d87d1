import RosInterface.Proofs.Idl.Spelling

/-!
# Writing types

A type is written under the canonical name of its basic type, as a path, or as a sequence or a
string with its limit. What is written reads back as the same type, whatever text follows, as long
as that text could follow a type and does not overrun a basic type.

The readers are tried one after the other, so each way of writing a type has to be refused by the
readers before its own. A path is refused by all of them if its first name is no reserved word.

## Main definitions

* `Idl.reservedWords`: the names that no written path begins with.
* `Idl.TypeExpr.text`: a type as text.
* `Idl.TypeExpr.IsPrintable`: the types whose text reads back.
* `Idl.EndsType`: the texts that can follow a written type.

## Main results

* `Idl.scopedName?_pathText`: a written path reads back.
* `Idl.typeExpr?_text`: a written type reads back.
-/

namespace RosInterface.Idl

open Text

/-- The keywords that are recognised at the beginning of a line. -/
def lineKeywords : List String :=
  ["const", "union", "bitmask", "typedef", "module", "struct", "enum"]

/-- The words of the spellings of basic types, the names of the string types, and the keywords that
are recognised at the beginning of a line. -/
def reservedWords : List String :=
  basicSpellings.flatMap Prod.fst ++ ["string", "wstring"] ++ lineKeywords

/-- The limit, if there is one, fits a word of 64 bits. -/
def FitsWord (limit : Option Nat) : Prop :=
  ∀ n ∈ limit, n < UInt64.size

instance : (limit : Option Nat) → Decidable (FitsWord limit)
  | none => isTrue fun _ hn => nomatch hn
  | some n =>
    decidable_of_iff (n < UInt64.size) ⟨fun h _ hm => Option.some.inj hm ▸ h, fun h => h n rfl⟩

/-- A path as text. -/
def pathText : Path → List Char
  | [] => []
  | name :: more => name.toList ++ more.flatMap fun name => ':' :: ':' :: name.toList

/-- The limit of a string as text. -/
def boundText : Option Nat → List Char
  | none => []
  | some n => '<' :: (decimal n ++ ['>'])

/-- The limit of a sequence as text, behind the element type. -/
def limitText : Option Nat → List Char
  | none => []
  | some n => ',' :: ' ' :: decimal n

/-- A type as text. -/
def TypeExpr.text : TypeExpr → List Char
  | basic type => type.name.toList
  | named path => pathText path
  | sequence element limit => "sequence".toList ++ '<' :: (element.text ++ limitText limit ++ ['>'])
  | string limit => "string".toList ++ boundText limit
  | wideString limit => "wstring".toList ++ boundText limit

@[simp]
theorem TypeExpr.text_basic (type : BasicType) : (basic type).text = type.name.toList :=
  rfl

@[simp]
theorem TypeExpr.text_named (path : Path) : (named path).text = pathText path :=
  rfl

@[simp]
theorem TypeExpr.text_sequence (element : TypeExpr) (limit : Option Nat) :
    (sequence element limit).text
      = "sequence".toList ++ '<' :: (element.text ++ limitText limit ++ ['>']) :=
  rfl

@[simp]
theorem TypeExpr.text_string (limit : Option Nat) :
    (string limit).text = "string".toList ++ boundText limit :=
  rfl

@[simp]
theorem TypeExpr.text_wideString (limit : Option Nat) :
    (wideString limit).text = "wstring".toList ++ boundText limit :=
  rfl

/-- A path of identifiers that does not begin with a reserved word. -/
def IsScopedName (path : Path) : Prop :=
  path ≠ [] ∧ (∀ name ∈ path, isIdentifier name = true) ∧ ∀ name ∈ path.head?, name ∉ reservedWords

/-- The type can be written: its paths are scoped names, and its limits are words. -/
def TypeExpr.IsPrintable : TypeExpr → Prop
  | basic _ => True
  | named path => IsScopedName path
  | sequence element limit => element.IsPrintable ∧ FitsWord limit
  | string limit => FitsWord limit
  | wideString limit => FitsWord limit

instance (path : Path) : Decidable (IsScopedName path) :=
  inferInstanceAs (Decidable (_ ∧ _ ∧ ∀ name ∈ path.head?, name ∉ reservedWords))

instance TypeExpr.decideIsPrintable : (type : TypeExpr) → Decidable type.IsPrintable
  | basic _ => isTrue trivial
  | named path => inferInstanceAs (Decidable (IsScopedName path))
  | sequence element limit =>
    have := decideIsPrintable element
    inferInstanceAs (Decidable (element.IsPrintable ∧ FitsWord limit))
  | string limit => inferInstanceAs (Decidable (FitsWord limit))
  | wideString limit => inferInstanceAs (Decidable (FitsWord limit))

/-- The text can follow a written type. It does not go on with the type, and no separator of
scoped names occurs in it. -/
structure EndsType (rest : List Char) : Prop where
  /-- No word goes on in the text. -/
  boundary : atBoundary rest = true
  /-- The text does not begin with the limit of a string. -/
  bound : mark? '<' rest = none
  /-- The text does not begin with a slash. -/
  slash : ['/'].isPrefixOf? rest = none
  /-- There is no colon in the text. -/
  colon : ':' ∉ rest

/-- A spelling of the basic type is overrun by the text behind it. -/
def BasicType.IsOverrun (type : BasicType) (rest : List Char) : Prop :=
  ∃ words, (words, type) ∈ basicSpellings ∧ Overruns words rest

variable {type : TypeExpr} {limit : Option Nat} {path : Path} {head rest after : List Char}

/-! ### Texts behind a type -/

theorem EndsType.of_mark {mark : Char} {tail : List Char} (hm : mark = ',' ∨ mark = '>')
    (ht : ':' ∉ tail) : EndsType (mark :: tail) := by
  rcases hm with rfl | rfl
  · exact ⟨rfl, rfl, rfl, by simpa using ht⟩
  · exact ⟨rfl, rfl, rfl, by simpa using ht⟩

theorem EndsType.of_name {name : String} {tail : List Char} (hn : isIdentifier name = true)
    (ht : ':' ∉ tail) : EndsType (' ' :: (name.toList ++ tail)) := by
  have hcolon : ':' ∉ name.toList := fun h =>
    ne_of_isIdentifierRest rfl (isWord_of_isIdentifier hn _ h) rfl
  obtain ⟨c, more, hname, hc, -⟩ := exists_toList_eq_cons hn
  have hc' := isIdentifierRest_of_isIdentifierStart hc
  refine ⟨rfl, ?_, rfl, by simp [hcolon, ht]⟩
  rw [hname, List.cons_append]
  exact mark?_eq_none_of_skipSpaces
    (skipSpaces_space_cons (isBlank_of_isIdentifierRest hc')) (ne_of_isIdentifierRest rfl hc')

/-- There is no colon in a numeral. -/
theorem colon_notMem_decimal (n : Nat) : ':' ∉ decimal n :=
  fun h => absurd (isDigit_of_decimal n ':' h) (by decide)

/-- What comes behind the element type of a sequence begins with a mark. -/
theorem exists_limitText_append (limit : Option Nat) (hr : ':' ∉ rest) :
    ∃ mark tail, limitText limit ++ '>' :: rest = mark :: tail ∧ (mark = ',' ∨ mark = '>') ∧
      ':' ∉ tail := by
  cases limit with
  | none => exact ⟨'>', rest, rfl, .inr rfl, hr⟩
  | some n =>
    refine ⟨',', ' ' :: (decimal n ++ '>' :: rest), rfl, .inl rfl, ?_⟩
    simp [colon_notMem_decimal, hr]

theorem atBoundary_boundText (hr : atBoundary rest = true) :
    atBoundary (boundText limit ++ rest) = true := by
  cases limit with
  | none => exact hr
  | some n => rfl

/-- Nothing is overrun where no blanks follow. -/
theorem not_overruns_cons {words : List String} {c : Char} (hc : isBlank c = false) :
    ¬Overruns words (c :: rest) := by
  rintro ⟨longer, -, word, -, tail, hblanks, -⟩
  rw [blanks?_eq_none hc] at hblanks
  cases hblanks

/-! ### Paths -/

/-- A pattern does not occur where its first character does not. -/
theorem occursIn_eq_false {c : Char} {pattern s : List Char} (h : c ∉ s) :
    occursIn (c :: pattern) s = false := by
  induction s with
  | nil => rfl
  | cons d s ih =>
    rw [List.mem_cons, not_or] at h
    obtain ⟨hd, hs⟩ := h
    rw [occursIn, ih hs, List.isPrefixOf, beq_false_of_ne hd, Bool.false_and, Bool.false_or]

/-- A colon stands in no identifier, so a separator is only found behind one. -/
theorem occursIn_append {pattern : List Char} (hw : IsWord head)
    (h : ∀ c ∈ pattern.head?, isIdentifierRest c = false) (hne : pattern ≠ []) :
    occursIn pattern (head ++ rest) = occursIn pattern rest := by
  induction head with
  | nil => rfl
  | cons c head ih =>
    obtain ⟨d, pattern, rfl⟩ := List.exists_cons_of_ne_nil hne
    have hd : isIdentifierRest d = false := h d rfl
    have hcd : c ≠ d := ne_of_isIdentifierRest hd (hw c List.mem_cons_self)
    rw [List.cons_append, occursIn, ih fun e he => hw e (List.mem_cons_of_mem _ he),
      List.isPrefixOf, beq_false_of_ne hcd.symm, Bool.false_and, Bool.false_or]

theorem moreNames_of_isPrefixOf? {separator s s' : List Char} {name : String}
    (hs : separator.isPrefixOf? s = some s') (hi : identifier? s' = some (name, rest)) :
    moreNames separator s
      = (name :: (moreNames separator rest).1, (moreNames separator rest).2) := by
  rw [moreNames]
  split
  · rename_i hnone
    rw [hs] at hnone
    cases hnone
  · rename_i s'' hs''
    obtain rfl : s' = s'' := Option.some.inj (hs.symm.trans hs'')
    split
    · rename_i hnone
      rw [hi] at hnone
      cases hnone
    · rename_i hi'
      cases hi.symm.trans hi'
      rfl

theorem moreNames_eq_nil {separator s : List Char} (hs : separator.isPrefixOf? s = none) :
    moreNames separator s = ([], s) := by
  rw [moreNames]
  split
  · rfl
  · rename_i h
    rw [hs] at h
    cases h

/-- The names that follow in a path are read up to a text that no separator begins. -/
theorem moreNames_append {names : List String} (hn : ∀ name ∈ names, isIdentifier name = true)
    (hr : atBoundary rest = true) (hs : [':', ':'].isPrefixOf? rest = none) :
    moreNames [':', ':'] (names.flatMap (fun name => ':' :: ':' :: name.toList) ++ rest)
      = (names, rest) := by
  induction names with
  | nil =>
    exact moreNames_eq_nil hs
  | cons name names ih =>
    have ih := ih fun other ho => hn other (List.mem_cons_of_mem _ ho)
    have hread : identifier? (name.toList
        ++ (names.flatMap (fun name => ':' :: ':' :: name.toList) ++ rest))
          = some (name, names.flatMap (fun name => ':' :: ':' :: name.toList) ++ rest) := by
      refine identifier?_append (hn name List.mem_cons_self) ?_
      cases names with
      | nil => exact hr
      | cons other names => rfl
    have hsplit : (name :: names).flatMap (fun name => ':' :: ':' :: name.toList) ++ rest
        = [':', ':'] ++ (name.toList
          ++ (names.flatMap (fun name => ':' :: ':' :: name.toList) ++ rest)) := by
      simp
    rw [hsplit, moreNames_of_isPrefixOf? (isPrefixOf?_append _ _) hread, ih]

/-- A written path reads back. -/
theorem scopedName?_pathText (hne : path ≠ []) (hp : ∀ name ∈ path, isIdentifier name = true)
    (hr : EndsType rest) : scopedName? (pathText path ++ rest) = some (path, rest) := by
  obtain ⟨name, more, rfl⟩ := List.exists_cons_of_ne_nil hne
  have hname := hp name List.mem_cons_self
  have hmore : ∀ name ∈ more, isIdentifier name = true :=
    fun other ho => hp other (List.mem_cons_of_mem _ ho)
  have hw := isWord_of_isIdentifier hname
  have hpattern : ∀ c ∈ [':', ':'].head?, isIdentifierRest c = false := by
    rintro c hc
    cases hc
    decide
  have hcolons : [':', ':'].isPrefixOf? rest = none := by
    cases hs : [':', ':'].isPrefixOf? rest with
    | none => rfl
    | some s =>
      refine absurd ?_ hr.colon
      rw [eq_append_of_isPrefixOf? hs]
      exact List.mem_cons_self
  cases more with
  | nil =>
    have htext : pathText [name] ++ rest = name.toList ++ rest := by simp [pathText]
    have hno : occursIn [':', ':'] (name.toList ++ rest) = false := by
      rw [occursIn_append hw hpattern (by simp)]
      exact occursIn_eq_false hr.colon
    rw [scopedName?, htext, hno, identifier?_append hname hr.boundary]
    simp only [Bool.false_eq_true, if_false, Option.bind_eq_bind, Option.bind_some,
      moreNames_eq_nil hr.slash, Option.pure_def]
  | cons other more =>
    have htext : pathText (name :: other :: more) ++ rest = name.toList
        ++ ((other :: more).flatMap (fun name => ':' :: ':' :: name.toList) ++ rest) := by
      rw [pathText, List.append_assoc]
    have hyes : occursIn [':', ':'] (pathText (name :: other :: more) ++ rest) = true := by
      rw [htext, occursIn_append hw hpattern (by simp)]
      rfl
    rw [scopedName?, hyes, htext, identifier?_append hname rfl]
    simp only [if_true, Option.bind_eq_bind, Option.bind_some,
      moreNames_append hmore hr.boundary hcolons, Option.pure_def]

/-- A path begins with its first name, and what comes behind it is no limit of a string. -/
theorem exists_pathText_append (name : String) (names : List String) (hr : EndsType rest) :
    ∃ after, pathText (name :: names) ++ rest = name.toList ++ after ∧
      atBoundary after = true ∧ mark? '<' after = none := by
  refine ⟨_, by rw [pathText, List.append_assoc], ?_⟩
  cases names with
  | nil => exact ⟨hr.boundary, hr.bound⟩
  | cons other names => exact ⟨rfl, rfl⟩

/-! ### What the readers before the right one do -/

theorem sequenceStart?_eq_none (hw : IsWord head) (ha : atBoundary after = true)
    (hm : mark? '<' after = none) : sequenceStart? (head ++ after) = none := by
  rw [sequenceStart?]
  cases hs : "sequence".toList.isPrefixOf? (head ++ after) with
  | none => rfl
  | some s =>
    obtain ⟨more, hhead, rfl⟩ := exists_of_isPrefixOf?_append (by decide) ha hs
    have hmark : mark? '<' (more ++ after) = none := by
      cases more with
      | nil => exact hm
      | cons c more =>
        have hc : isIdentifierRest c = true := hw c (by rw [hhead]; simp)
        exact mark?_eq_none_of_isIdentifierRest rfl hc
    rw [Option.bind_eq_bind, Option.bind_some, hmark]
    rfl

theorem sequenceStart?_eq_none_of_not_begins (ha : atBoundary after = true)
    (h : ¬"sequence".toList <+: head) : sequenceStart? (head ++ after) = none := by
  rw [sequenceStart?, isPrefixOf?_append_eq_none (by decide) ha h]
  rfl

theorem keywordString?_eq_none {keyword : String} {make : Option Nat → TypeExpr}
    (hk : IsWord keyword.toList) (hw : IsWord head) (ha : atBoundary after = true)
    (hne : head ≠ keyword.toList) : keywordString? keyword make (head ++ after) = none := by
  rw [keywordString?]
  cases hs : keyword.toList.isPrefixOf? (head ++ after) with
  | none => rfl
  | some s =>
    obtain ⟨more, hhead, rfl⟩ := exists_of_isPrefixOf?_append hk ha hs
    cases more with
    | nil =>
      rw [List.append_nil] at hhead
      exact absurd hhead hne
    | cons c more =>
      have hc : isIdentifierRest c = true := hw c (by rw [hhead]; simp)
      have hnumber : enclosedNumber? '<' '>' (c :: more ++ after) = none :=
        enclosedNumber?_eq_none (mark?_eq_none_of_isIdentifierRest rfl hc)
      rw [Option.bind_eq_bind, Option.bind_some, hnumber]
      simp [atBoundary, hc]

theorem stringType?_eq_none (hw : IsWord head) (ha : atBoundary after = true)
    (h : head ≠ "string".toList) (h' : head ≠ "wstring".toList) :
    stringType? (head ++ after) = none := by
  rw [stringType?, keywordString?_eq_none (by decide) hw ha h',
    keywordString?_eq_none (by decide) hw ha h]
  rfl

/-- A name that is no word of a basic type is not read as one. -/
theorem basicType?_eq_none {name : String} (hn : isIdentifier name = true)
    (ha : atBoundary after = true) (h : ∀ entry ∈ basicSpellings, name ∉ entry.1) :
    basicType? (name.toList ++ after) = none := by
  rw [← Option.not_isSome_iff_eq_none, Option.isSome_iff_exists]
  rintro ⟨⟨type, tail⟩, hread⟩
  obtain ⟨before, words, more, hsplit, hfits, -, hb⟩ := basicType?_eq_some_iff.mp hread
  have hmem : (words, type) ∈ basicSpellings := by
    rw [hsplit]
    exact List.mem_append_right _ List.mem_cons_self
  have hi : ∀ word ∈ words, isIdentifier word = true := isIdentifier_of_mem_basicSpellings _ hmem
  have hname : name ∉ words := h _ hmem
  rcases fitsPart_or_prefix_of_words? (ne_nil_of_mem_basicSpellings _ hmem) hi
    (List.forall_mem_singleton.mpr hn) (List.cons_ne_nil name []) ha hfits with hpart | hbegins
  · cases words with
    | nil => exact hpart
    | cons word words =>
      cases words with
      | nil =>
        obtain ⟨rfl, -⟩ := eq_of_isPrefixOf?_append (hi word List.mem_cons_self) hn ha hfits hb
        exact hname List.mem_cons_self
      | cons next words =>
        obtain ⟨rfl, -⟩ := hpart
        exact hname List.mem_cons_self
  · exact hname (hbegins.subset List.mem_cons_self)

/-! ### What the right reader does -/

theorem keywordString?_text {keyword : String} {make : Option Nat → TypeExpr}
    (hl : FitsWord limit) (hr : EndsType rest) :
    keywordString? keyword make (keyword.toList ++ boundText limit ++ rest)
      = some (make limit, rest) := by
  rw [List.append_assoc, keywordString?, isPrefixOf?_append, Option.bind_eq_bind, Option.bind_some]
  cases limit with
  | none =>
    rw [boundText, List.nil_append, enclosedNumber?_eq_none hr.bound]
    exact if_pos hr.boundary
  | some n =>
    have hread : enclosedNumber? '<' '>' (boundText (some n) ++ rest) = some (n, rest) := by
      rw [boundText, List.cons_append, List.append_assoc, List.singleton_append]
      exact enclosedNumber?_append (hl n rfl) rfl rfl rfl
    rw [hread]

theorem typeExpr?_of_sequenceStart?_eq_none {s : List Char} (h : sequenceStart? s = none) :
    typeExpr? s = plainType? s := by
  rw [typeExpr?]
  split
  · rfl
  · rename_i hs
    rw [h] at hs
    cases hs

theorem typeExpr?_of_sequenceStart? {s body tail : List Char} {element : TypeExpr}
    (h : sequenceStart? s = some body) (he : typeExpr? body = some (element, tail))
    (ht : sequenceEnd? tail = some (limit, rest)) :
    typeExpr? s = some (.sequence element limit, rest) := by
  rw [typeExpr?]
  split
  · rename_i hs
    rw [h] at hs
    cases hs
  · rename_i hs
    obtain rfl := Option.some.inj (h.symm.trans hs)
    rw [he]
    simp only [ht]

theorem sequenceEnd?_text (hl : FitsWord limit) :
    sequenceEnd? (limitText limit ++ '>' :: rest) = some (limit, rest) := by
  have hclose : mark? '>' ('>' :: rest) = some rest := mark?_cons_self rfl
  cases limit with
  | none =>
    have hcomma : mark? ',' ('>' :: rest) = none :=
      mark?_eq_none_of_skipSpaces (skipSpaces_cons rfl) (by decide)
    rw [limitText, List.nil_append, sequenceEnd?, hcomma]
    simp [hclose]
  | some n =>
    have hcomma : mark? ',' (limitText (some n) ++ '>' :: rest)
        = some (' ' :: (decimal n ++ '>' :: rest)) :=
      mark?_cons_self rfl
    have hspace : skipSpaces (' ' :: (decimal n ++ '>' :: rest)) = decimal n ++ '>' :: rest :=
      skipSpaces_decimal_append n
    rw [sequenceEnd?, hcomma]
    simp [hspace, number?_append (hl n rfl) (show Char.isDigit '>' = false from rfl), hclose]

/-- The canonical name of a basic type is one of its spellings. -/
theorem exists_spelled_eq_name (type : BasicType) :
    ∃ words, (words, type) ∈ basicSpellings ∧ spelled words = type.name.toList := by
  have hentry : ∃ entry ∈ basicSpellings, entry.2 = type ∧ spelled entry.1 = type.name.toList := by
    cases type <;> decide
  obtain ⟨entry, hmem, htype, htext⟩ := hentry
  exact ⟨entry.1, htype ▸ hmem, htext⟩

/-- What a type is written as begins with a word that is no keyword of a line. -/
theorem exists_text_append (ht : type.IsPrintable) (hr : atBoundary rest = true) :
    ∃ head after, type.text ++ rest = head.toList ++ after ∧ isIdentifier head = true ∧
      atBoundary after = true ∧ head ∉ lineKeywords := by
  cases type with
  | basic type =>
    obtain ⟨words, hmem, htext⟩ := exists_spelled_eq_name type
    have hi := isIdentifier_of_mem_basicSpellings _ hmem
    have hkeywords : ∀ entry ∈ basicSpellings, ∀ word ∈ entry.1.head?, word ∉ lineKeywords := by
      decide
    obtain ⟨word, more, rfl⟩ := List.exists_cons_of_ne_nil (ne_nil_of_mem_basicSpellings _ hmem)
    obtain ⟨after, hs, ha⟩ := exists_spelled_cons_append word more hr
    refine ⟨word, after, ?_, hi word List.mem_cons_self, ha, hkeywords _ hmem word rfl⟩
    rw [TypeExpr.text_basic, ← htext, hs]
  | named path =>
    obtain ⟨hne, hp, hreserved⟩ := ht
    obtain ⟨name, names, rfl⟩ := List.exists_cons_of_ne_nil hne
    refine ⟨name, _, by rw [TypeExpr.text_named, pathText, List.append_assoc],
      hp name List.mem_cons_self, ?_, fun h => hreserved name rfl (List.mem_append_right _ h)⟩
    cases names with
    | nil => exact hr
    | cons other names => rfl
  | sequence element limit =>
    exact ⟨"sequence", _, by rw [TypeExpr.text_sequence, List.append_assoc], by decide, rfl,
      by decide⟩
  | string limit =>
    exact ⟨"string", _, by rw [TypeExpr.text_string, List.append_assoc], by decide,
      atBoundary_boundText hr, by decide⟩
  | wideString limit =>
    exact ⟨"wstring", _, by rw [TypeExpr.text_wideString, List.append_assoc], by decide,
      atBoundary_boundText hr, by decide⟩

/-- What a type is written as begins like an identifier. -/
theorem exists_text_eq_cons (ht : type.IsPrintable) :
    ∃ c more, type.text = c :: more ∧ isIdentifierStart c = true := by
  have hnil : atBoundary [] = true := rfl
  obtain ⟨head, after, hs, hn, -, -⟩ := exists_text_append ht hnil
  rw [List.append_nil] at hs
  rw [hs]
  exact exists_append_eq_cons hn after

theorem sequenceStart?_text {s : List Char} (ht : type.IsPrintable) :
    sequenceStart? ("sequence".toList ++ '<' :: (type.text ++ s)) = some (type.text ++ s) := by
  obtain ⟨c, more, htext, hc⟩ := exists_text_eq_cons ht
  have hc' := isIdentifierRest_of_isIdentifierStart hc
  rw [sequenceStart?, isPrefixOf?_append, Option.bind_eq_bind, Option.bind_some,
    mark?_cons_self rfl, htext, List.cons_append]
  exact congrArg some (skipSpaces_cons (isBlank_of_isIdentifierRest hc'))

/-! ### Types read back -/

/-- A basic type, in whichever of its spellings it is written, reads back unless the text behind
it overruns the spelling. -/
theorem typeExpr?_spelled {words : List String} {basic : BasicType}
    (h : (words, basic) ∈ basicSpellings) (hr : atBoundary rest = true) :
    typeExpr? (spelled words ++ rest)
      = ((basicType? (spelled words ++ rest)).map fun (type, tail) => (.basic type, tail)).or
          ((scopedName? (spelled words ++ rest)).map fun (path, tail) => (.named path, tail)) := by
  have hi := isIdentifier_of_mem_basicSpellings _ h
  obtain ⟨word, more, rfl⟩ := List.exists_cons_of_ne_nil (ne_nil_of_mem_basicSpellings _ h)
  have hkeywords : ∀ entry ∈ basicSpellings, ∀ word ∈ entry.1.head?,
      ¬"sequence".toList <+: word.toList ∧ word.toList ≠ "string".toList ∧
        word.toList ≠ "wstring".toList := by
    decide
  obtain ⟨hsequence, hstring, hwide⟩ := hkeywords _ h word rfl
  obtain ⟨after, hs, ha⟩ := exists_spelled_cons_append word more hr
  have hw := isWord_of_isIdentifier (hi word List.mem_cons_self)
  rw [hs, typeExpr?_of_sequenceStart?_eq_none (sequenceStart?_eq_none_of_not_begins ha hsequence),
    plainType?, stringType?_eq_none hw ha hstring hwide]
  rfl

/-- **A written type reads back**, whatever text follows that can follow a type. -/
theorem typeExpr?_text (ht : type.IsPrintable) (hr : EndsType rest)
    (ho : ∀ basic, type = .basic basic → ¬basic.IsOverrun rest) :
    typeExpr? (type.text ++ rest) = some (type, rest) := by
  induction type generalizing rest with
  | basic basic =>
    obtain ⟨words, hmem, htext⟩ := exists_spelled_eq_name basic
    rw [TypeExpr.text_basic, ← htext, typeExpr?_spelled hmem hr.boundary,
      basicType?_spelled hmem hr.boundary fun h => ho _ rfl ⟨words, hmem, h⟩]
    rfl
  | named path =>
    obtain ⟨hne, hp, hreserved⟩ := ht
    obtain ⟨name, names, rfl⟩ := List.exists_cons_of_ne_nil hne
    have hname : isIdentifier name = true := hp name List.mem_cons_self
    have hfree : name ∉ reservedWords := hreserved name rfl
    have hw := isWord_of_isIdentifier hname
    obtain ⟨after, hs, ha, hm⟩ := exists_pathText_append name names hr
    have hsequence := sequenceStart?_eq_none hw ha hm
    have hstring : stringType? (name.toList ++ after) = none := by
      refine stringType?_eq_none hw ha ?_ ?_
      · intro heq
        exact hfree (by rw [String.toList_injective heq]; decide)
      · intro heq
        exact hfree (by rw [String.toList_injective heq]; decide)
    have hbasic : basicType? (name.toList ++ after) = none := by
      refine basicType?_eq_none hname ha fun entry hentry hmem => hfree ?_
      exact List.mem_append_left _
        (List.mem_append_left _ (List.mem_flatMap.mpr ⟨entry, hentry, hmem⟩))
    have hread := scopedName?_pathText (List.cons_ne_nil name names) hp hr
    rw [hs] at hread
    rw [TypeExpr.text_named, hs, typeExpr?_of_sequenceStart?_eq_none hsequence, plainType?, hstring,
      hbasic, hread]
    rfl
  | sequence element limit ih =>
    obtain ⟨helement, hlimit⟩ := ht
    obtain ⟨mark, tail, hs, hmark, htail⟩ := exists_limitText_append limit hr.colon
    have hread : typeExpr? (element.text ++ (limitText limit ++ '>' :: rest))
        = some (element, limitText limit ++ '>' :: rest) := by
      rw [hs]
      refine ih helement (.of_mark hmark htail) ?_
      rintro basic - ⟨words, -, hover⟩
      refine not_overruns_cons ?_ hover
      rcases hmark with rfl | rfl
      · rfl
      · rfl
    have htext : (TypeExpr.sequence element limit).text ++ rest
        = "sequence".toList ++ '<' :: (element.text ++ (limitText limit ++ '>' :: rest)) := by
      simp
    rw [htext]
    exact typeExpr?_of_sequenceStart? (sequenceStart?_text helement) hread
      (sequenceEnd?_text hlimit)
  | string limit =>
    have hsequence : sequenceStart? ("string".toList ++ (boundText limit ++ rest)) = none :=
      sequenceStart?_eq_none_of_not_begins (atBoundary_boundText hr.boundary) (by decide)
    have hwide : keywordString? "wstring" .wideString
        ("string".toList ++ (boundText limit ++ rest)) = none :=
      keywordString?_eq_none (by decide) (by decide) (atBoundary_boundText hr.boundary) (by decide)
    rw [TypeExpr.text_string, List.append_assoc,
      typeExpr?_of_sequenceStart?_eq_none hsequence, plainType?, stringType?, hwide,
      ← List.append_assoc, keywordString?_text ht hr]
    rfl
  | wideString limit =>
    have hsequence : sequenceStart? ("wstring".toList ++ (boundText limit ++ rest)) = none :=
      sequenceStart?_eq_none_of_not_begins (atBoundary_boundText hr.boundary) (by decide)
    rw [TypeExpr.text_wideString, List.append_assoc,
      typeExpr?_of_sequenceStart?_eq_none hsequence, plainType?, stringType?,
      ← List.append_assoc, keywordString?_text ht hr]
    rfl

end RosInterface.Idl
