import RosInterface.Proofs.Idl.MemberSpelling

/-!
# Numbers and marks in a spelling

The numbers in a spelling of a member are those of the member, in their order, and so are the angle
brackets, commas and square brackets. So the spelling tells how deep sequences are nested, which of
them have a limit, and whether there is an array. A number that is no word of 64 bits is in no line
that is read.

A word of a text is as long as letters, digits and underscores follow each other, and a number is a
word of digits. A spelling is taken apart from the front. Each of its words ends at a boundary, and
what stands between two words is a gap without numbers.

## Main definitions

* `Idl.numbersIn`, `Idl.marksIn`: the numbers and the brackets and commas in a text.
* `Idl.Member.numbers`, `Idl.Member.marks`: those that a member has.

## Main results

* `Idl.Member.Spells.numbersIn_eq`, `Idl.Member.Spells.marksIn_eq`: what is in a spelling.
* `Idl.spells_of_memberOfLine_and_typedefOfLine`: what is in a line that is read.
-/

namespace RosInterface.Idl

open Text

variable {s rest : List Char}

/-! ### Numbers in a spelling -/

/-- The numbers in a text: the values of those of its words that are made of digits. A word is as
long as letters, digits and underscores follow each other. -/
def numbersIn (s : List Char) : List Nat :=
  (s.splitOnP fun c => !isIdentifierRest c).filterMap natural?

/-- The numbers in a type: greatest lengths and limits, the innermost first. -/
def TypeExpr.numbers : TypeExpr → List Nat
  | basic _ => []
  | named _ => []
  | sequence element limit => element.numbers ++ limit.toList
  | string limit => limit.toList
  | wideString limit => limit.toList

/-- The numbers in a member: those in its type, and the number of elements. -/
def Member.numbers (member : Member) : List Nat :=
  member.type.numbers ++ member.length.toList

/-- No character of the text belongs to a word. -/
def IsGap (s : List Char) : Prop :=
  ∀ c ∈ s, isIdentifierRest c = false

instance (s : List Char) : Decidable (IsGap s) :=
  List.decidableBAll (fun c => isIdentifierRest c = false) s

theorem numbersIn_append_cons {c : Char} (hc : isIdentifierRest c = false) (s t : List Char) :
    numbersIn (s ++ c :: t) = numbersIn s ++ numbersIn t := by
  rw [numbersIn, List.splitOnP_append_cons s t (by rw [hc]; rfl), List.filterMap_append]
  rfl

theorem numbersIn_nil : numbersIn [] = [] :=
  rfl

/-- A gap in front of a text has no numbers. -/
theorem IsGap.numbersIn_append {gap : List Char} (h : IsGap gap) (s : List Char) :
    numbersIn (gap ++ s) = numbersIn s := by
  induction gap with
  | nil => rfl
  | cons c gap ih =>
    obtain ⟨hc, hgap⟩ := List.forall_mem_cons.mp h
    exact (numbersIn_append_cons hc [] (gap ++ s)).trans (ih hgap)

/-- A text begins with its first word. -/
theorem numbersIn_word_append {word : List Char} (hword : IsWord word)
    (hr : atBoundary rest = true) :
    numbersIn (word ++ rest) = (natural? word).toList ++ numbersIn rest := by
  have hself : numbersIn word = (natural? word).toList := by
    rw [numbersIn, List.splitOnP_eq_singleton fun c hc => by rw [hword c hc]; rfl]
    cases h : natural? word <;> simp [h]
  cases rest with
  | nil => rw [List.append_nil, hself, numbersIn_nil, List.append_nil]
  | cons c rest =>
    have hc : isIdentifierRest c = false := by simpa [atBoundary] using hr
    have hrest : numbersIn (c :: rest) = numbersIn rest := numbersIn_append_cons hc [] rest
    rw [numbersIn_append_cons hc, hself, hrest]

theorem IsSpaces.isBlanks (h : IsSpaces s) : IsBlanks s := by
  intro c hc
  rcases h c hc with rfl | rfl <;> rfl

/-- No blank belongs to a word. -/
theorem isGap_of_isBlanks (h : IsBlanks s) : IsGap s := by
  intro c hc
  cases hword : isIdentifierRest c with
  | false => rfl
  | true =>
    have hblank := h c hc
    rw [isBlank_of_isIdentifierRest hword] at hblank
    cases hblank

theorem isBlanks_nil : IsBlanks [] :=
  fun _ hc => nomatch hc

section Around

variable {before after : List Char} (mark : Char) (hbefore : IsBlanks before)
  (hmark : isIdentifierRest mark = false)

include hbefore hmark

/-- Blanks around a mark are a gap. -/
theorem isGap_around (hafter : IsBlanks after) : IsGap (before ++ mark :: after) :=
  List.forall_mem_append.mpr
    ⟨isGap_of_isBlanks hbefore, List.forall_mem_cons.mpr ⟨hmark, isGap_of_isBlanks hafter⟩⟩

/-- Blanks before a mark are at a boundary. -/
theorem atBoundary_around (rest : List Char) : atBoundary (before ++ mark :: rest) = true := by
  cases before with
  | nil => rw [List.nil_append, atBoundary, hmark, Bool.not_false]
  | cons c before => exact atBoundary_of_isBlank (hbefore c List.mem_cons_self)

end Around

theorem IsGap.atBoundary_append {gap : List Char} (h : IsGap gap) (hne : gap ≠ [])
    (rest : List Char) : atBoundary (gap ++ rest) = true := by
  obtain ⟨c, gap, rfl⟩ := List.exists_cons_of_ne_nil hne
  rw [List.cons_append, atBoundary, h c List.mem_cons_self, Bool.not_false]

/-- An identifier does not begin with a digit. -/
theorem isIdentifierStart_of_isDigit {c : Char} (h : c.isDigit = true) :
    isIdentifierStart c = false := by
  obtain ⟨d, hd, rfl⟩ := exists_eq_digitChar h
  revert d
  decide

/-- What begins with an identifier is no numeral. -/
theorem natural?_identifier_append {name : String} (h : isIdentifier name = true) (s : List Char) :
    natural? (name.toList ++ s) = none := by
  obtain ⟨c, more, hname, hc⟩ := exists_append_eq_cons h s
  rw [hname, natural?, if_neg]
  rintro ⟨-, hdigits⟩
  rw [List.all_cons, Bool.and_eq_true] at hdigits
  rw [isIdentifierStart_of_isDigit hdigits.1] at hc
  cases hc

/-- There is no number in an identifier. -/
theorem numbersIn_identifier_append {name : String} (h : isIdentifier name = true)
    (hr : atBoundary rest = true) : numbersIn (name.toList ++ rest) = numbersIn rest := by
  have hnone := natural?_identifier_append h []
  rw [List.append_nil] at hnone
  rw [numbersIn_word_append (isWord_of_isIdentifier h) hr, hnone]
  rfl

/-- An identifier in front of a text adds no number, though it may take one away. -/
theorem mem_numbersIn_of_identifier_append {name : String} (h : isIdentifier name = true) {n : Nat}
    (hn : n ∈ numbersIn (name.toList ++ s)) : n ∈ numbersIn s := by
  have hsplit {word : List Char} (hword : IsWord word) :
      (word ++ s).splitOnP (fun c => !isIdentifierRest c)
        = (s.splitOnP fun c => !isIdentifierRest c).modifyHead (word ++ ·) := by
    induction word with
    | nil => exact (congrFun List.modifyHead_id _).symm
    | cons c word ih =>
      obtain ⟨hc, hword⟩ := List.forall_mem_cons.mp hword
      rw [List.cons_append, List.splitOnP_cons_eq_if_modifyHead, hc, ih hword,
        List.modifyHead_modifyHead]
      rfl
  rw [numbersIn, hsplit (isWord_of_isIdentifier h)] at hn
  rw [numbersIn]
  obtain ⟨piece, more, hpieces⟩ :=
    List.exists_cons_of_ne_nil (List.splitOnP_ne_nil (fun c => !isIdentifierRest c) s)
  rw [hpieces, List.modifyHead_cons,
    List.filterMap_cons_none (natural?_identifier_append h piece)] at hn
  rw [hpieces]
  exact (List.Sublist.filterMap natural? (List.sublist_cons_self piece more)).subset hn

/-- A numeral is a word. -/
theorem SpellsWord.isWord {n : Nat} (h : SpellsWord n s) : IsWord s := by
  obtain ⟨-, zeros, rfl⟩ := h
  refine List.forall_mem_append.mpr ⟨fun c hc => ?_, fun c hc => ?_⟩
  · rw [List.eq_of_mem_replicate hc]
    rfl
  · exact isIdentifierRest_of_isDigit (isDigit_of_decimal n c hc)

/-- The number in a numeral is its value. -/
theorem SpellsWord.numbersIn_append {n : Nat} (h : SpellsWord n s) (hr : atBoundary rest = true) :
    numbersIn (s ++ rest) = n :: numbersIn rest := by
  have hvalue : natural? s = some n := by
    obtain ⟨-, zeros, rfl⟩ := h
    exact natural?_replicate_append_decimal zeros n
  rw [numbersIn_word_append h.isWord hr, hvalue]
  rfl

/-- There are no numbers in words. -/
theorem SpellsWords.numbersIn_append {words : List String} (h : SpellsWords words s)
    (hi : ∀ word ∈ words, isIdentifier word = true) (hr : atBoundary rest = true) :
    numbersIn (s ++ rest) = numbersIn rest := by
  induction h with
  | single word => exact numbersIn_identifier_append (hi word List.mem_cons_self) hr
  | cons hne hblanks _ ih =>
    obtain ⟨hword, hmore⟩ := List.forall_mem_cons.mp hi
    have hgap := isGap_of_isBlanks hblanks
    rw [List.append_assoc, List.append_assoc,
      numbersIn_identifier_append hword (hgap.atBoundary_append hne _), hgap.numbersIn_append,
      ih hmore]

/-- There are no numbers in a path. -/
theorem numbersIn_path_append {separator : List Char} (hne : separator ≠ [])
    (hgap : IsGap separator) {path : Path} (hpath : AreIdentifiers path)
    (hr : atBoundary rest = true) :
    numbersIn (separator.intercalate (path.map String.toList) ++ rest) = numbersIn rest := by
  induction path with
  | nil => rfl
  | cons name more ih =>
    obtain ⟨hname, hmore⟩ := List.forall_mem_cons.mp hpath
    cases more with
    | nil =>
      rw [List.map_singleton, List.intercalate_singleton]
      exact numbersIn_identifier_append hname hr
    | cons next more =>
      have hbehind := ih hmore
      rw [List.map_cons] at hbehind
      rw [List.map_cons, List.map_cons, List.intercalate_cons_cons, List.append_assoc,
        List.append_assoc, numbersIn_identifier_append hname (hgap.atBoundary_append hne _),
        hgap.numbersIn_append, hbehind]

section Enclosed

variable {opening closing : Char} {limit : Option Nat}

theorem SpellsEnclosed.atBoundary_append (h : SpellsEnclosed opening closing limit s)
    (hopening : isIdentifierRest opening = false) (hr : atBoundary rest = true) :
    atBoundary (s ++ rest) = true := by
  cases h with
  | none => exact hr
  | some hbefore hinner hnumeral hafter =>
    rw [List.append_assoc]
    exact atBoundary_around opening hbefore.isBlanks hopening _

/-- The number between two marks is the only one in their text. -/
theorem SpellsEnclosed.numbersIn_append (h : SpellsEnclosed opening closing limit s)
    (hopening : isIdentifierRest opening = false) (hclosing : isIdentifierRest closing = false)
    (rest : List Char) : numbersIn (s ++ rest) = limit.toList ++ numbersIn rest := by
  cases h with
  | none => rfl
  | @some n before inner after numeral hbefore hinner hnumeral hafter =>
    have hstart := isGap_around opening hbefore.isBlanks hopening hinner.isBlanks
    have hend := isGap_around closing hafter.isBlanks hclosing isBlanks_nil
    have hboundary := atBoundary_around closing hafter.isBlanks hclosing rest
    calc
      numbersIn (before ++ opening :: (inner ++ (numeral ++ (after ++ [closing]))) ++ rest)
        = numbersIn ((before ++ opening :: inner) ++ (numeral ++ (after ++ closing :: rest))) := by
          simp only [List.append_assoc, List.cons_append, List.nil_append]
      _ = n :: numbersIn ((after ++ [closing]) ++ rest) := by
          rw [hstart.numbersIn_append, hnumeral.numbersIn_append hboundary, List.append_assoc,
            List.singleton_append]
      _ = n :: numbersIn rest := by rw [hend.numbersIn_append]

theorem SpellsLimit.atBoundary_append (h : SpellsLimit limit s) (hr : atBoundary rest = true) :
    atBoundary (s ++ rest) = true := by
  cases h with
  | none => exact hr
  | some hbefore hinner hnumeral =>
    rw [List.append_assoc]
    exact atBoundary_around ',' hbefore.isBlanks rfl _

/-- The limit of a sequence is the only number in its text. -/
theorem SpellsLimit.numbersIn_append (h : SpellsLimit limit s) (hr : atBoundary rest = true) :
    numbersIn (s ++ rest) = limit.toList ++ numbersIn rest := by
  cases h with
  | none => rfl
  | @some n before inner numeral hbefore hinner hnumeral =>
    have hstart := isGap_around ',' hbefore.isBlanks rfl hinner.isBlanks
    calc
      numbersIn (before ++ ',' :: (inner ++ numeral) ++ rest)
        = numbersIn ((before ++ ',' :: inner) ++ (numeral ++ rest)) := by
          simp only [List.append_assoc, List.cons_append]
      _ = n :: numbersIn rest := by
          rw [hstart.numbersIn_append, hnumeral.numbersIn_append hr]

end Enclosed

/-- The limit of a string is the only number in its spelling. -/
theorem numbersIn_string_append {keyword : String} (hkeyword : isIdentifier keyword = true)
    {limit : Option Nat} (h : SpellsEnclosed '<' '>' limit s) (hr : atBoundary rest = true) :
    numbersIn (keyword.toList ++ s ++ rest) = limit.toList ++ numbersIn rest := by
  rw [List.append_assoc,
    numbersIn_identifier_append hkeyword (h.atBoundary_append rfl hr), h.numbersIn_append rfl rfl]

/-- **The numbers in the spelling of a type** are those of the type. -/
theorem TypeExpr.Spells.numbersIn_append {type : TypeExpr} (h : type.Spells s)
    (hr : atBoundary rest = true) : numbersIn (s ++ rest) = type.numbers ++ numbersIn rest := by
  induction h generalizing rest with
  | basic hmem hwords =>
    exact hwords.numbersIn_append (isIdentifier_of_mem_basicSpellings _ hmem) hr
  | named hseparator hpath =>
    rcases hseparator with rfl | rfl
    · exact numbersIn_path_append (by decide) (by decide) hpath.2 hr
    · exact numbersIn_path_append (by decide) (by decide) hpath.2 hr
  | @sequence element limit before inner after text limitText hbefore hinner _ hlimit hafter ih =>
    have hstart := isGap_around '<' hbefore.isBlanks rfl hinner.isBlanks
    have hend := isGap_around '>' hafter.isBlanks rfl isBlanks_nil
    have hboundary := atBoundary_around '>' hafter.isBlanks rfl rest
    have hopening := atBoundary_around '<' hbefore.isBlanks rfl
      (inner ++ (text ++ (limitText ++ (after ++ '>' :: rest))))
    calc
      numbersIn ("sequence".toList
          ++ (before ++ '<' :: (inner ++ (text ++ (limitText ++ (after ++ ['>']))))) ++ rest)
        = numbersIn ("sequence".toList
            ++ (before ++ '<' :: (inner ++ (text ++ (limitText ++ (after ++ '>' :: rest)))))) := by
          simp only [List.append_assoc, List.cons_append, List.nil_append]
      _ = numbersIn ((before ++ '<' :: inner)
            ++ (text ++ (limitText ++ (after ++ '>' :: rest)))) := by
          rw [numbersIn_identifier_append (by decide) hopening, List.append_assoc, List.cons_append]
      _ = element.numbers ++ (limit.toList ++ numbersIn ((after ++ ['>']) ++ rest)) := by
          rw [hstart.numbersIn_append, ih (hlimit.atBoundary_append hboundary),
            hlimit.numbersIn_append hboundary, List.append_assoc, List.singleton_append]
      _ = (TypeExpr.sequence element limit).numbers ++ numbersIn rest := by
          rw [hend.numbersIn_append, TypeExpr.numbers, List.append_assoc]
  | string h => exact numbersIn_string_append (by decide) h hr
  | wideString h => exact numbersIn_string_append (by decide) h hr

/-- **The numbers in the spelling of a member** are those of the member. -/
theorem Member.Spells.numbersIn_eq {member : Member} (h : member.Spells s) :
    numbersIn s = member.numbers := by
  cases h with
  | @intro type blanks length after htype hne hblanks hname hlength hafter =>
    have hgap := isGap_of_isBlanks hblanks
    have hboundary := atBoundary_around ';' hafter rfl []
    have hnone : numbersIn (after ++ [';']) = [] := by
      have hend := (isGap_around ';' hafter rfl isBlanks_nil).numbersIn_append []
      rwa [List.append_nil] at hend
    rw [htype.numbersIn_append (hgap.atBoundary_append hne _), hgap.numbersIn_append,
      numbersIn_identifier_append hname (hlength.atBoundary_append rfl hboundary),
      hlength.numbersIn_append rfl rfl, hnone, List.append_nil, Member.numbers]

/-! ### Brackets and commas in a spelling -/

/-- A bracket or a comma. -/
def isMark (c : Char) : Bool :=
  ['<', '>', ',', '[', ']'].contains c

/-- The brackets and commas in a text. -/
def marksIn (s : List Char) : List Char :=
  s.filter isMark

/-- Two marks around a number, if there is one. -/
def enclosingMarks (opening closing : Char) : Option Nat → List Char
  | none => []
  | some _ => [opening, closing]

/-- The brackets and commas of a type. -/
def TypeExpr.marks : TypeExpr → List Char
  | basic _ => []
  | named _ => []
  | sequence element limit =>
    '<' :: (element.marks ++ ((limit.map fun _ => ',').toList ++ ['>']))
  | string limit => enclosingMarks '<' '>' limit
  | wideString limit => enclosingMarks '<' '>' limit

/-- The brackets and commas of a member. -/
def Member.marks (member : Member) : List Char :=
  member.type.marks ++ enclosingMarks '[' ']' member.length

theorem marksIn_append (s t : List Char) : marksIn (s ++ t) = marksIn s ++ marksIn t :=
  List.filter_append s t

theorem marksIn_cons {mark : Char} (h : isMark mark = true) (s : List Char) :
    marksIn (mark :: s) = mark :: marksIn s :=
  List.filter_cons_of_pos h

/-- There are no marks where all characters are of a kind that no mark is of. -/
theorem marksIn_eq_nil {p : Char → Bool}
    (hmarks : ['<', '>', ',', '[', ']'].all (fun mark => !p mark) = true)
    (h : ∀ c ∈ s, p c = true) : marksIn s = [] := by
  refine List.filter_eq_nil_iff.mpr fun c hc hmark => ?_
  have hnot := List.all_eq_true.mp hmarks c (List.contains_iff_mem.mp hmark)
  rw [h c hc] at hnot
  cases hnot

theorem marksIn_of_isWord (h : IsWord s) : marksIn s = [] :=
  marksIn_eq_nil rfl h

theorem marksIn_of_isBlanks (h : IsBlanks s) : marksIn s = [] :=
  marksIn_eq_nil rfl h

theorem marksIn_identifier {name : String} (h : isIdentifier name = true) :
    marksIn name.toList = [] :=
  marksIn_of_isWord (isWord_of_isIdentifier h)

/-- There are no marks in words. -/
theorem SpellsWords.marksIn_eq {words : List String} (h : SpellsWords words s)
    (hi : ∀ word ∈ words, isIdentifier word = true) : marksIn s = [] := by
  induction h with
  | single word => exact marksIn_identifier (hi word List.mem_cons_self)
  | cons _ hblanks _ ih =>
    obtain ⟨hword, hmore⟩ := List.forall_mem_cons.mp hi
    rw [marksIn_append, marksIn_append, marksIn_identifier hword, marksIn_of_isBlanks hblanks,
      ih hmore]
    rfl

/-- There are no marks in a path. -/
theorem marksIn_path {separator : List Char} (hseparator : marksIn separator = []) {path : Path}
    (hpath : AreIdentifiers path) :
    marksIn (separator.intercalate (path.map String.toList)) = [] := by
  induction path with
  | nil => rfl
  | cons name more ih =>
    obtain ⟨hname, hmore⟩ := List.forall_mem_cons.mp hpath
    cases more with
    | nil =>
      rw [List.map_singleton, List.intercalate_singleton]
      exact marksIn_identifier hname
    | cons next more =>
      have hbehind := ih hmore
      rw [List.map_cons] at hbehind
      rw [List.map_cons, List.map_cons, List.intercalate_cons_cons, marksIn_append, marksIn_append,
        marksIn_identifier hname, hseparator, hbehind]
      rfl

/-- The two marks around a number are the only ones in their text. -/
theorem SpellsEnclosed.marksIn_eq {opening closing : Char} {limit : Option Nat}
    (h : SpellsEnclosed opening closing limit s) (hopening : isMark opening = true)
    (hclosing : isMark closing = true) : marksIn s = enclosingMarks opening closing limit := by
  cases h with
  | none => rfl
  | some hbefore hinner hnumeral hafter =>
    rw [marksIn_append, marksIn_cons hopening, marksIn_append, marksIn_append, marksIn_append,
      marksIn_cons hclosing, marksIn_of_isBlanks hbefore.isBlanks,
      marksIn_of_isBlanks hinner.isBlanks, marksIn_of_isWord hnumeral.isWord,
      marksIn_of_isBlanks hafter.isBlanks]
    rfl

/-- The comma before a limit is the only mark in its text. -/
theorem SpellsLimit.marksIn_eq {limit : Option Nat} (h : SpellsLimit limit s) :
    marksIn s = (limit.map fun _ => ',').toList := by
  cases h with
  | none => rfl
  | some hbefore hinner hnumeral =>
    rw [marksIn_append, marksIn_cons rfl, marksIn_append, marksIn_of_isBlanks hbefore.isBlanks,
      marksIn_of_isBlanks hinner.isBlanks, marksIn_of_isWord hnumeral.isWord]
    rfl

/-- **The marks in the spelling of a type** are those of the type. -/
theorem TypeExpr.Spells.marksIn_eq {type : TypeExpr} (h : type.Spells s) :
    marksIn s = type.marks := by
  induction h with
  | basic hmem hwords => exact hwords.marksIn_eq (isIdentifier_of_mem_basicSpellings _ hmem)
  | named hseparator hpath =>
    rcases hseparator with rfl | rfl
    · exact marksIn_path rfl hpath.2
    · exact marksIn_path rfl hpath.2
  | sequence hbefore hinner _ hlimit hafter ih =>
    rw [marksIn_append, marksIn_append, marksIn_cons rfl, marksIn_append, marksIn_append,
      marksIn_append, marksIn_append, marksIn_identifier (by decide),
      marksIn_of_isBlanks hbefore.isBlanks, marksIn_of_isBlanks hinner.isBlanks,
      marksIn_of_isBlanks hafter.isBlanks, ih, hlimit.marksIn_eq]
    rfl
  | string h =>
    rw [marksIn_append, marksIn_identifier (by decide), h.marksIn_eq rfl rfl]
    rfl
  | wideString h =>
    rw [marksIn_append, marksIn_identifier (by decide), h.marksIn_eq rfl rfl]
    rfl

/-- **The marks in the spelling of a member** are those of the member. -/
theorem Member.Spells.marksIn_eq {member : Member} (h : member.Spells s) :
    marksIn s = member.marks := by
  cases h with
  | intro htype _ hblanks hname hlength hafter =>
    simp only [marksIn_append]
    rw [htype.marksIn_eq, marksIn_of_isBlanks hblanks, marksIn_identifier hname,
      hlength.marksIn_eq rfl rfl, marksIn_of_isBlanks hafter, Member.marks]
    exact congrArg (member.type.marks ++ ·) (List.append_nil _)

/-! ### Numbers that are too large -/

/-- A number between marks is a word. -/
theorem SpellsEnclosed.lt {opening closing : Char} {limit : Option Nat}
    (h : SpellsEnclosed opening closing limit s) : ∀ n ∈ limit.toList, n < UInt64.size := by
  cases h with
  | none => exact fun n hn => nomatch hn
  | some _ _ hnumeral _ => exact List.forall_mem_singleton.mpr hnumeral.1

/-- The numbers in a type that is spelled are words. -/
theorem TypeExpr.Spells.lt {type : TypeExpr} (h : type.Spells s) :
    ∀ n ∈ type.numbers, n < UInt64.size := by
  induction h with
  | basic => exact fun n hn => nomatch hn
  | named => exact fun n hn => nomatch hn
  | sequence _ _ _ hlimit _ ih =>
    refine List.forall_mem_append.mpr ⟨ih, ?_⟩
    cases hlimit with
    | none => exact fun n hn => nomatch hn
    | some _ _ hnumeral => exact List.forall_mem_singleton.mpr hnumeral.1
  | string h => exact h.lt
  | wideString h => exact h.lt

/-- **The numbers in a line that spells a member are words.** -/
theorem Member.Spells.lt_of_mem_numbersIn {member : Member} (h : member.Spells s) :
    ∀ n ∈ numbersIn s, n < UInt64.size := by
  rw [h.numbersIn_eq]
  cases h with
  | intro htype _ _ _ hlength _ => exact List.forall_mem_append.mpr ⟨htype.lt, hlength.lt⟩

/-! ### Lines -/

/-- Blanks in front of a line have no numbers. -/
theorem numbersIn_trimStart (line : List Char) : numbersIn (trimStart line) = numbersIn line := by
  obtain ⟨blanks, hblanks, hline⟩ := exists_eq_append_trimStart line
  rw [hline, (isGap_of_isBlanks hblanks).numbersIn_append, ← hline]

/-- Blanks in front of a line have no marks. -/
theorem marksIn_trimStart (line : List Char) : marksIn (trimStart line) = marksIn line := by
  obtain ⟨blanks, hblanks, hline⟩ := exists_eq_append_trimStart line
  rw [hline, marksIn_append, marksIn_of_isBlanks hblanks, List.nil_append, ← hline]

/-- The numbers in a line that is read are words. -/
theorem lt_of_memberOfLine {line : List Char} {member : Member}
    (h : memberOfLine line = .ok member) : ∀ n ∈ numbersIn line, n < UInt64.size := by
  rw [← numbersIn_trimStart]
  exact (spells_of_memberOfLine h).lt_of_mem_numbersIn

/-- A typedef is read from a keyword and a member. -/
theorem exists_of_typedefOfLine {line : List Char} {member : Member}
    (h : typedefOfLine line = .ok member) :
    ∃ rest, line = "typedef".toList ++ rest ∧ memberOfLine rest = .ok member := by
  rw [typedefOfLine] at h
  split at h
  · cases h
  · rename_i rest hrest
    exact ⟨rest, eq_append_of_isPrefixOf? hrest, h⟩

/-- **A line says exactly what is read from it.** Without blanks in front, as in a trimmed line, the
line of a member is a spelling of the member, and so is what stands behind the keyword of a typedef.
The numbers are those of the member, and so are the brackets and commas. A line with a number that
is no word of 64 bits is not read. -/
theorem spells_of_memberOfLine_and_typedefOfLine (line : List Char) :
    (∀ member, memberOfLine line = .ok member → member.Spells (trimStart line) ∧
      numbersIn line = member.numbers ∧ marksIn line = member.marks) ∧
    (∀ member, typedefOfLine line = .ok member → ∃ rest, line = "typedef".toList ++ rest ∧
      member.Spells (trimStart rest) ∧ numbersIn rest = member.numbers ∧
        marksIn rest = member.marks) ∧
    ((∃ n ∈ numbersIn line, UInt64.size ≤ n) →
      ∀ member, memberOfLine line ≠ .ok member ∧ typedefOfLine line ≠ .ok member) := by
  have hmember {line : List Char} {member : Member} (h : memberOfLine line = .ok member) :
      member.Spells (trimStart line) ∧ numbersIn line = member.numbers ∧
        marksIn line = member.marks := by
    have hspells := spells_of_memberOfLine h
    exact ⟨hspells, (numbersIn_trimStart line).symm.trans hspells.numbersIn_eq,
      (marksIn_trimStart line).symm.trans hspells.marksIn_eq⟩
  refine ⟨fun member => hmember, fun member h => ?typedef, ?large⟩
  case typedef =>
    obtain ⟨rest, hline, hrest⟩ := exists_of_typedefOfLine h
    exact ⟨rest, hline, hmember hrest⟩
  case large =>
    rintro ⟨n, hn, hlarge⟩ member
    constructor
    · intro h
      exact absurd (lt_of_memberOfLine h n hn) (Nat.not_lt.mpr hlarge)
    · intro h
      obtain ⟨rest, rfl, hrest⟩ := exists_of_typedefOfLine h
      have hn' := mem_numbersIn_of_identifier_append (by decide) hn
      exact absurd (lt_of_memberOfLine hrest n hn') (Nat.not_lt.mpr hlarge)

/-- A line with spaces, a slash in its path and zeros in front of a limit. -/
def nestedLine : List Char :=
  "sequence <sequence<a/B> , 007> xs [2] ;".toList

/-- The limit and the number of elements are read, at their depth. A greatest length that is too
large is not taken for none. -/
theorem spells_nestedLine :
    (⟨"xs", .sequence (.sequence (.named ["a", "B"]) none) (some 7), some 2⟩ : Member).Spells
        nestedLine ∧ numbersIn nestedLine = [7, 2] ∧
      marksIn nestedLine = ['<', '<', '>', ',', '>', '[', ']'] ∧
      ∀ member, memberOfLine "string<18446744073709551616> s;".toList ≠ .ok member := by
  have hread : memberOfLine nestedLine
      = .ok ⟨"xs", .sequence (.sequence (.named ["a", "B"]) none) (some 7), some 2⟩ := by
    decide +kernel
  obtain ⟨hspells, hnumbers, hmarks⟩ :=
    (spells_of_memberOfLine_and_typedefOfLine nestedLine).1 _ hread
  have hlarge : 18446744073709551616 ∈ numbersIn "string<18446744073709551616> s;".toList := by
    decide +kernel
  exact ⟨hspells, hnumbers, hmarks, fun member =>
    ((spells_of_memberOfLine_and_typedefOfLine _).2.2 ⟨_, hlarge, by decide⟩ member).1⟩

end RosInterface.Idl
