import RosInterface.Proofs.Idl.Definition

/-!
# Written lines

A written line has no comment, no annotation and no blanks at its ends, so it is prepared as it
is. What kind of statement it holds is told by its first word: the keywords of a line are tried in
a fixed order, and each of them is found only where it is the whole first word with a blank behind
it.

## Main definitions

* `Idl.IsWrittenLine`: a line that is prepared as it is.

## Main results

* `Idl.step_eq_execute`: a written line is executed as it is.
* `Idl.ofLine_eq_content`: a line whose first word is no keyword is content.
* `Idl.ofLine_openingModule`, `Idl.ofLine_openingStruct`, `Idl.ofLine_openingEnum`,
  `Idl.ofLine_typedefLine`: what the other written lines are.
-/

namespace RosInterface.Idl

open Text

/-- A character that begins neither a literal nor a comment and does not end a line. -/
def isPlain (c : Char) : Bool :=
  c != '"' && c != '/' && c != '\n'

/-- The text consists of such characters. -/
def IsPlain (s : List Char) : Prop :=
  ∀ c ∈ s, isPlain c = true

instance (s : List Char) : Decidable (IsPlain s) :=
  List.decidableBAll (fun c => isPlain c = true) s

/-- The line begins and ends like a statement, and nothing in it is special. -/
structure IsWrittenLine (line : List Char) : Prop where
  /-- There are no literals and no comments. -/
  plain : IsPlain line
  /-- The line begins neither with a blank nor with an annotation. -/
  first : ∃ c more, line = c :: more ∧ isBlank c = false ∧ c ≠ '@'
  /-- The line does not end with a blank. -/
  last : ∀ c ∈ line.getLast?, isBlank c = false

variable {line after : List Char} {head keyword name : String} {progress : Progress}

/-! ### Preparing written lines -/

theorem IsPlain.append {s s' : List Char} (h : IsPlain s) (h' : IsPlain s') : IsPlain (s ++ s') :=
  fun c hc => (List.mem_append.mp hc).elim (h c) (h' c)

theorem IsPlain.cons {c : Char} {s : List Char} (hc : isPlain c = true) (h : IsPlain s) :
    IsPlain (c :: s) :=
  List.forall_mem_cons.mpr ⟨hc, h⟩

/-- Words are plain. -/
theorem IsWord.isPlain {s : List Char} (h : IsWord s) : IsPlain s := by
  intro c hc
  have hquote : c ≠ '"' := ne_of_isIdentifierRest rfl (h c hc)
  have hslash : c ≠ '/' := ne_of_isIdentifierRest rfl (h c hc)
  have hfeed : c ≠ '\n' := ne_of_isIdentifierRest rfl (h c hc)
  simp [Idl.isPlain, hquote, hslash, hfeed]

/-- A plain line has no comment. -/
theorem withoutComment_eq_self (h : IsPlain line) : withoutComment line = line := by
  rw [withoutComment]
  induction line with
  | nil => rfl
  | cons c rest ih =>
    have hc : isPlain c = true := h c List.mem_cons_self
    have ih := ih fun d hd => h d (List.mem_cons_of_mem _ hd)
    have hquote : c ≠ '"' := by
      rintro rfl
      cases hc
    have hstate : LiteralState.outside.next c = .outside := if_neg hquote
    rw [cutComment, hstate, ih]
    rintro rest' - hslash -
    rw [hslash] at hc
    cases hc

theorem skipAnnotations_start {c : Char} {rest : List Char} (hc : c ≠ '@') :
    skipAnnotations .start (c :: rest) = (.start, c :: rest) := by
  rw [skipAnnotations, if_neg (by decide)]
  intro afterAt heq
  exact hc (List.cons.inj heq).1

theorem IsWrittenLine.head?_not_blank (h : IsWrittenLine line) :
    ∀ c ∈ line.head?, isBlank c = false := by
  obtain ⟨c, more, rfl, hc, -⟩ := h.first
  rintro d hd
  cases hd
  exact hc

/-- **A written line is executed as it is.** -/
theorem step_eq_execute (n : Nat) (hp : progress.annotations = .start) (h : IsWrittenLine line) :
    progress.step n line = progress.execute n line := by
  obtain ⟨c, more, hline, -, hat⟩ := h.first
  have hskip : skipAnnotations .start line = (.start, line) := by
    rw [hline]
    exact skipAnnotations_start hat
  have hprepare : progress.prepare line = (progress, line) := by
    rw [Progress.prepare, withoutComment_eq_self h.plain,
      trim_eq_self h.head?_not_blank h.last, hp, hskip, ← hp]
  rw [Progress.step, hprepare]

/-! ### The keywords of a line -/

/-- A keyword with a blank is not what a line begins with, unless it is the whole first word. -/
theorem isPrefixOf_keyword_eq_false (hk : isIdentifier keyword = true)
    (hn : isIdentifier head = true) (ha : atBoundary after = true)
    (h : head = keyword → blanks? after = none) :
    (keyword.toList ++ [' ']).isPrefixOf (head.toList ++ after) = false := by
  rw [← Bool.not_eq_true, List.isPrefixOf_iff_prefix]
  rintro ⟨tail, htail⟩
  rw [List.append_assoc, List.singleton_append] at htail
  have hfound : keyword.toList.isPrefixOf? (head.toList ++ after) = some (' ' :: tail) :=
    List.isPrefixOf?_eq_some_iff_append_eq.mpr htail
  obtain ⟨rfl, rfl⟩ := eq_of_isPrefixOf?_append hk hn ha hfound rfl
  cases h rfl

theorem isPrefixOf_include_eq_false (hn : isIdentifier head = true) :
    "#include".toList.isPrefixOf (head.toList ++ after) = false := by
  obtain ⟨c, more, hs, hc⟩ := exists_append_eq_cons hn after
  have hhash : c ≠ '#' :=
    ne_of_isIdentifierRest rfl (isIdentifierRest_of_isIdentifierStart hc)
  have hword : "#include".toList = '#' :: "include".toList := by decide
  rw [hs, hword, List.isPrefixOf, beq_false_of_ne hhash.symm, Bool.false_and]

/-- A text that begins with an identifier is not empty. -/
theorem isEmpty_append_eq_false (hn : isIdentifier head = true) :
    (head.toList ++ after).isEmpty = false := by
  obtain ⟨c, more, hs, -⟩ := exists_append_eq_cons hn after
  rw [hs]
  rfl

/-- A keyword and a name are not read where the keyword is not the whole first word. -/
theorem keywordName?_eq_none {mark : Char} (hk : isIdentifier keyword = true)
    (hn : isIdentifier head = true) (ha : atBoundary after = true)
    (h : head = keyword → blanks? after = none) :
    keywordName? keyword mark (head.toList ++ after) = none := by
  rw [keywordName?]
  cases hs : keyword.toList.isPrefixOf? (head.toList ++ after) with
  | none => rfl
  | some s =>
    rw [Option.bind_eq_bind, Option.bind_some]
    cases hb : blanks? s with
    | none => rfl
    | some behind =>
      obtain ⟨rfl, rfl⟩ := eq_of_isPrefixOf?_append hk hn ha hs (atBoundary_of_blanks? hb)
      rw [h rfl] at hb
      cases hb

/-- What opens a declaration is read up to the mark behind its name. -/
theorem keywordName?_openingLine (keyword : String) (mark : Char) (hn : isIdentifier name = true) :
    keywordName? keyword mark (openingLine keyword name)
      = (mark? mark [' ', '\x7b']).map (name, ·) := by
  have hname : identifier? (name.toList ++ [' ', '\x7b']) = some (name, [' ', '\x7b']) :=
    identifier?_append hn rfl
  rw [keywordName?, openingLine, isPrefixOf?_append, Option.bind_eq_bind, Option.bind_some,
    blanks?_append hn, Option.bind_eq_bind, Option.bind_some, hname, Option.map_eq_bind]
  rfl

/-- What opens a declaration is not read after another keyword. -/
theorem keywordName?_openingLine_of_ne {other : String} (mark : Char) (name : String)
    (hk : isIdentifier keyword = true) (ho : isIdentifier other = true) (hne : keyword ≠ other) :
    keywordName? other mark (openingLine keyword name) = none :=
  keywordName?_eq_none ho hk rfl fun heq => absurd heq hne

/-- A line whose first word is none of the keywords of skipped and unsupported lines. -/
theorem ofLine_append_eq_ite (hn : isIdentifier head = true) (ha : atBoundary after = true)
    (h : head ∈ ["const", "union", "bitmask"] → blanks? after = none) :
    Statement.ofLine (head.toList ++ after) =
      if "typedef ".toList.isPrefixOf (head.toList ++ after) then .typedef
      else Statement.ofOpening (head.toList ++ after) := by
  have hidentifier : ∀ keyword ∈ ["const", "union", "bitmask"], isIdentifier keyword = true := by
    decide
  have hkeyword : ∀ keyword ∈ ["const", "union", "bitmask"],
      (keyword.toList ++ [' ']).isPrefixOf (head.toList ++ after) = false := by
    intro keyword hmem
    refine isPrefixOf_keyword_eq_false (hidentifier keyword hmem) hn ha ?_
    rintro rfl
    exact h hmem
  have hconst : "const ".toList.isPrefixOf (head.toList ++ after) = false :=
    hkeyword "const" (by simp)
  have hunion : "union ".toList.isPrefixOf (head.toList ++ after) = false :=
    hkeyword "union" (by simp)
  have hbitmask : "bitmask ".toList.isPrefixOf (head.toList ++ after) = false :=
    hkeyword "bitmask" (by simp)
  simp only [Statement.ofLine, beginsWithAny, List.any_cons, List.any_nil,
    isEmpty_append_eq_false hn, isPrefixOf_include_eq_false hn, hconst, hunion, hbitmask,
    Bool.or_false, Bool.false_eq_true, if_false]

/-- A line whose first word is not the keyword of typedefs either. -/
theorem ofLine_append (hn : isIdentifier head = true) (ha : atBoundary after = true)
    (h : head ∈ ["const", "union", "bitmask", "typedef"] → blanks? after = none) :
    Statement.ofLine (head.toList ++ after) = Statement.ofOpening (head.toList ++ after) := by
  have hkeyword : isIdentifier "typedef" = true := by decide
  have htypedef : "typedef ".toList.isPrefixOf (head.toList ++ after) = false := by
    refine isPrefixOf_keyword_eq_false hkeyword hn ha ?_
    rintro rfl
    exact h (by simp)
  rw [ofLine_append_eq_ite hn ha fun hmem => h (List.mem_append_left ["typedef"] hmem), htypedef,
    if_neg Bool.false_ne_true]

/-- A line that begins with an identifier closes nothing. -/
theorem append_ne_closing (hn : isIdentifier head = true) :
    ¬(head.toList ++ after = ['\x7d', ';'] ∨ head.toList ++ after = ['\x7d']) := by
  obtain ⟨c, more, hs, hc⟩ := exists_append_eq_cons hn after
  have hbrace : c ≠ '\x7d' :=
    ne_of_isIdentifierRest rfl (isIdentifierRest_of_isIdentifierStart hc)
  rw [hs]
  rintro (heq | heq)
  · exact hbrace (List.cons.inj heq).1
  · exact hbrace (List.cons.inj heq).1

/-- **A line whose first word is no keyword of a line is content.** -/
theorem ofLine_eq_content (hn : isIdentifier head = true) (ha : atBoundary after = true)
    (h : head ∈ lineKeywords → blanks? after = none) :
    Statement.ofLine (head.toList ++ after) = .content := by
  have hskipped : head ∈ ["const", "union", "bitmask", "typedef"] → blanks? after = none :=
    fun hmem => h (List.mem_append_left ["module", "struct", "enum"] hmem)
  have hidentifier : ∀ keyword ∈ ["module", "struct", "enum"], isIdentifier keyword = true := by
    decide
  have hopening : ∀ keyword ∈ ["module", "struct", "enum"], ∀ mark,
      keywordName? keyword mark (head.toList ++ after) = none := by
    intro keyword hmem mark
    refine keywordName?_eq_none (hidentifier keyword hmem) hn ha ?_
    rintro rfl
    exact h (List.mem_append_right ["const", "union", "bitmask", "typedef"] hmem)
  have hmodule := hopening "module" (by simp)
  have hstruct := hopening "struct" (by simp)
  have henum := hopening "enum" (by simp)
  rw [ofLine_append hn ha hskipped, Statement.ofOpening, isAnnouncement]
  simp only [hmodule, hstruct, henum, Bool.false_eq_true, if_false, if_neg (append_ne_closing hn)]

theorem ofLine_openingModule (hn : isIdentifier name = true) :
    Statement.ofLine (openingLine "module" name) = .openModule name := by
  have hread := keywordName?_openingLine "module" '\x7b' hn
  rw [openingLine] at hread ⊢
  rw [ofLine_append (by decide) rfl (fun h => absurd h (by decide)), Statement.ofOpening, hread]
  rfl

theorem ofLine_openingStruct (hn : isIdentifier name = true) :
    Statement.ofLine (openingLine "struct" name) = .openStruct name := by
  have hmodule : keywordName? "module" '\x7b' (openingLine "struct" name) = none :=
    keywordName?_openingLine_of_ne _ name (by decide) (by decide) (by decide)
  have hannounced : isAnnouncement (openingLine "struct" name) = false := by
    rw [isAnnouncement, keywordName?_openingLine "struct" ';' hn]
    rfl
  have hread := keywordName?_openingLine "struct" '\x7b' hn
  rw [openingLine] at hmodule hannounced hread ⊢
  rw [ofLine_append (by decide) rfl (fun h => absurd h (by decide)), Statement.ofOpening, hmodule,
    hannounced, hread]
  rfl

theorem ofLine_openingEnum (hn : isIdentifier name = true) :
    Statement.ofLine (openingLine "enum" name) = .openEnum name := by
  have hmodule : keywordName? "module" '\x7b' (openingLine "enum" name) = none :=
    keywordName?_openingLine_of_ne _ name (by decide) (by decide) (by decide)
  have hstruct : ∀ mark, keywordName? "struct" mark (openingLine "enum" name) = none :=
    fun mark => keywordName?_openingLine_of_ne mark name (by decide) (by decide) (by decide)
  have hannounced : isAnnouncement (openingLine "enum" name) = false := by
    rw [isAnnouncement, hstruct]
  have hread := keywordName?_openingLine "enum" '\x7b' hn
  have hstruct := hstruct '\x7b'
  rw [openingLine] at hmodule hstruct hannounced hread ⊢
  rw [ofLine_append (by decide) rfl (fun h => absurd h (by decide)), Statement.ofOpening, hmodule,
    hannounced, hstruct, hread]
  rfl

theorem ofLine_closingLine : Statement.ofLine closingLine = .close := by
  decide

theorem ofLine_typedefLine (target : Member) :
    Statement.ofLine (typedefLine target) = .typedef := by
  have htypedef : "typedef ".toList.isPrefixOf ("typedef".toList ++ ' ' :: target.line) = true := by
    rw [List.isPrefixOf_iff_prefix]
    exact ⟨target.line, rfl⟩
  rw [typedefLine_eq, ofLine_append_eq_ite (by decide) rfl (fun h => absurd h (by decide)),
    if_pos htypedef]

/-! ### The lines of definitions are written lines -/

/-- A plain line is a written one if it begins with an identifier and ends with a mark. -/
theorem IsWrittenLine.of_append {before : List Char} {mark : Char} (hp : IsPlain line)
    (hn : isIdentifier head = true) (hs : line = head.toList ++ after)
    (hl : line = before ++ [mark]) (hm : isBlank mark = false) : IsWrittenLine line := by
  obtain ⟨c, more, hc, hstart⟩ := exists_append_eq_cons hn after
  have hrest := isIdentifierRest_of_isIdentifierStart hstart
  refine ⟨hp, ⟨c, more, hs.trans hc, isBlank_of_isIdentifierRest hrest,
    ne_of_isIdentifierRest rfl hrest⟩, ?_⟩
  rw [hl, List.getLast?_concat]
  rintro d hd
  cases hd
  exact hm

theorem isPlain_identifier (hn : isIdentifier name = true) : IsPlain name.toList :=
  (isWord_of_isIdentifier hn).isPlain

theorem isPlain_decimal (n : Nat) : IsPlain (decimal n) :=
  IsWord.isPlain fun c hc => isIdentifierRest_of_isDigit (isDigit_of_decimal n c hc)

theorem isPlain_lengthText (length : Option Nat) : IsPlain (lengthText length) := by
  cases length with
  | none => decide
  | some n => exact .cons rfl ((isPlain_decimal n).append (by decide))

theorem isPlain_boundText (limit : Option Nat) : IsPlain (boundText limit) := by
  cases limit with
  | none => decide
  | some n => exact .cons rfl ((isPlain_decimal n).append (by decide))

theorem isPlain_limitText (limit : Option Nat) : IsPlain (limitText limit) := by
  cases limit with
  | none => decide
  | some n => exact .cons rfl (.cons rfl (isPlain_decimal n))

theorem isPlain_pathText {path : Path} (hp : ∀ name ∈ path, isIdentifier name = true) :
    IsPlain (pathText path) := by
  cases path with
  | nil => decide
  | cons name names =>
    refine (isPlain_identifier (hp name List.mem_cons_self)).append fun c hc => ?_
    obtain ⟨other, ho, hc⟩ := List.mem_flatMap.mp hc
    have hother : IsPlain (':' :: ':' :: other.toList) :=
      .cons rfl (.cons rfl
        (isPlain_identifier (hp other (List.mem_cons_of_mem _ ho))))
    exact hother c hc

/-- The text of a type is plain. -/
theorem TypeExpr.isPlain_text {type : TypeExpr} (ht : type.IsPrintable) : IsPlain type.text := by
  induction type with
  | basic type =>
    have hspelled : ∀ entry ∈ basicSpellings, IsPlain (spelled entry.1) := by decide
    obtain ⟨words, hmem, htext⟩ := exists_spelled_eq_name type
    rw [text_basic, ← htext]
    exact hspelled _ hmem
  | named path => exact isPlain_pathText ht.2.1
  | sequence element limit ih =>
    rw [text_sequence]
    have hinner : IsPlain (element.text ++ limitText limit ++ ['>']) :=
      ((ih ht.1).append (isPlain_limitText limit)).append (by decide)
    exact IsPlain.append (by decide) (.cons rfl hinner)
  | string limit =>
    rw [text_string]
    exact IsPlain.append (by decide) (isPlain_boundText limit)
  | wideString limit =>
    rw [text_wideString]
    exact IsPlain.append (by decide) (isPlain_boundText limit)

theorem isWrittenLine_openingLine (hk : isIdentifier keyword = true)
    (hn : isIdentifier name = true) : IsWrittenLine (openingLine keyword name) := by
  have hplain : IsPlain (openingLine keyword name) :=
    (isPlain_identifier hk).append (.cons rfl ((isPlain_identifier hn).append (by decide)))
  have hlast : openingLine keyword name
      = keyword.toList ++ ' ' :: (name.toList ++ [' ']) ++ ['\x7b'] := by
    simp [openingLine]
  exact .of_append hplain hk rfl hlast rfl

theorem isWrittenLine_closingLine : IsWrittenLine closingLine := by
  refine ⟨by decide, ⟨_, _, rfl, rfl, by decide⟩, ?_⟩
  rintro c hc
  cases hc
  rfl

theorem isWrittenLine_valueLine {value : String} (hv : isIdentifier value = true) :
    IsWrittenLine (valueLine value) :=
  .of_append ((isPlain_identifier hv).append (by decide)) hv rfl rfl rfl

theorem Member.line_eq_append (member : Member) :
    member.line = member.type.text ++ ' ' :: declaratorText member.name member.length ++ [';'] := by
  rw [line, memberLine, List.append_assoc, List.cons_append]

theorem Member.IsPrintable.isPlain_line {member : Member} (h : member.IsPrintable) :
    IsPlain member.line := by
  have hdeclarator : IsPlain (declaratorText member.name member.length) :=
    (isPlain_identifier h.name).append (isPlain_lengthText member.length)
  exact (TypeExpr.isPlain_text h.type).append (.cons rfl (hdeclarator.append (by decide)))

theorem isWrittenLine_memberLine {member : Member} (h : member.IsPrintable) :
    IsWrittenLine member.line := by
  have hboundary : atBoundary (' ' :: (declaratorText member.name member.length ++ [';'])) = true :=
    rfl
  obtain ⟨head, after, hs, hn, -, -⟩ := exists_text_append h.type hboundary
  exact .of_append h.isPlain_line hn hs member.line_eq_append rfl

theorem isWrittenLine_typedefLine {target : Member} (h : target.IsPrintable) :
    IsWrittenLine (typedefLine target) := by
  have hplain : IsPlain (typedefLine target) :=
    IsPlain.append (by decide) (.cons rfl h.isPlain_line)
  have hlast : typedefLine target = "typedef".toList ++ ' ' :: (target.type.text
      ++ ' ' :: declaratorText target.name target.length) ++ [';'] := by
    simp [typedefLine_eq, Member.line_eq_append]
  exact .of_append hplain (by decide) (typedefLine_eq target) hlast rfl

/-! ### What the lines of definitions say -/

theorem ofLine_memberLine {member : Member} (h : member.IsPrintable) :
    Statement.ofLine member.line = .content := by
  have hboundary : atBoundary (' ' :: (declaratorText member.name member.length ++ [';'])) = true :=
    rfl
  obtain ⟨head, after, hs, hn, ha, hfree⟩ := exists_text_append h.type hboundary
  rw [Member.line, memberLine, hs]
  exact ofLine_eq_content hn ha fun hmem => absurd hmem hfree

theorem ofLine_valueLine {value : String} (hv : isIdentifier value = true) :
    Statement.ofLine (valueLine value) = .content :=
  ofLine_eq_content hv rfl fun _ => blanks?_eq_none rfl

/-- A comma behind a text that does not end in one is cut. -/
theorem trimCommas_append {s : List Char} (h : ∀ c ∈ s.getLast?, (c == ',') = false) :
    trimCommas (s ++ [',']) = s := by
  have hs : s.reverse.dropWhile (· == ',') = s.reverse :=
    dropWhile_eq_self (by rwa [List.head?_reverse])
  rw [trimCommas, List.reverse_append, List.reverse_singleton, List.singleton_append,
    List.dropWhile_cons_of_pos (by decide), hs, List.reverse_reverse]

/-- A written value is declared. -/
theorem enumValueOfLine_valueLine {value : String} (hv : isIdentifier value = true) :
    enumValueOfLine (valueLine value) = .ok (some value) := by
  have hword := isWord_of_isIdentifier hv
  have hline : trim (valueLine value) = valueLine value :=
    trim_eq_self (isWrittenLine_valueLine hv).head?_not_blank (isWrittenLine_valueLine hv).last
  have hcommas : trimCommas (valueLine value) = value.toList :=
    trimCommas_append fun c hc => beq_false_of_ne
      (ne_of_isIdentifierRest rfl (hword c (List.mem_of_getLast? hc)))
  have hvalue : trim value.toList = value.toList :=
    trim_eq_self (fun c hc => isBlank_of_isIdentifierRest (hword c (List.mem_of_head? hc)))
      (fun c hc => isBlank_of_isIdentifierRest (hword c (List.mem_of_getLast? hc)))
  have hempty : value.toList.isEmpty = false := by
    obtain ⟨c, more, hvalue, -⟩ := exists_toList_eq_cons hv
    rw [hvalue]
    rfl
  have hread : identifier? value.toList = some (value, []) := by
    have hread := identifier?_append hv (show atBoundary [] = true from rfl)
    rwa [List.append_nil] at hread
  simp only [enumValueOfLine, hline, hcommas, hvalue, hempty, hread, Bool.false_eq_true, if_false]

/-- The text behind the type of a written member does not overrun it. -/
theorem Member.IsPrintable.not_isOverrun {member : Member} (h : member.IsPrintable) :
    ∀ basic, member.type = .basic basic →
      ¬basic.IsOverrun (' ' :: declaratorText member.name member.length) := by
  rintro basic htype ⟨words, hmem, hover⟩
  have hwords : ∀ entry ∈ basicSpellings, (entry.1 = ["long"] → entry.2 = .long) ∧
      (entry.1 = ["unsigned", "long"] → entry.2 = .unsignedLong) := by
    decide
  obtain ⟨hlong, hunsigned⟩ := hwords _ hmem
  rcases (overruns_iff_runsInto hmem h.name (atBoundary_lengthText member.length)).mp hover with
    ⟨rfl, hbegins⟩ | ⟨rfl, hbegins⟩
  · obtain rfl : basic = .long := hlong rfl
    rcases hbegins with hbegins | hbegins
    · exact (h.long htype).1 hbegins
    · exact (h.long htype).2 hbegins
  · obtain rfl : basic = .unsignedLong := hunsigned rfl
    exact h.unsignedLong htype hbegins

/-- **A written member is declared.** -/
theorem memberOfLine_line {member : Member} (h : member.IsPrintable) :
    memberOfLine member.line = .ok member := by
  obtain ⟨c, more, htext, hc⟩ := exists_text_eq_cons h.type
  have hends : EndsType (' ' :: declaratorText member.name member.length) :=
    .of_name h.name (colon_notMem_lengthText member.length)
  exact memberOfLine_memberLine htext hc h.name h.length
    (typeExpr?_text h.type hends h.not_isOverrun)

/-- A written typedef is declared. -/
theorem typedefOfLine_typedefLine {target : Member} (h : target.IsPrintable) :
    typedefOfLine (typedefLine target) = .ok target := by
  have hmember := memberOfLine_line h
  rw [Member.line_eq_append] at hmember
  rw [typedefOfLine, typedefLine_eq, isPrefixOf?_append, Member.line_eq_append]
  exact (memberOfLine_space_cons _).trans hmember

end RosInterface.Idl
