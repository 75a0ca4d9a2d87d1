import RosInterface.Proofs.Idl.TypeText
import RosInterface.Idl.Statement

/-!
# Writing members

A member is written as its type, a blank, its name with the number of elements of an array, and a
semicolon. Whatever the type is written as, the line is read as a member of that type whenever the
text of the type is read as it up to the blank.

A basic type is read as written unless the name of the member overruns it: the name of a `long`
member must not begin with `long` or `double`, and that of an `unsigned long` member not with
`long`. A longer spelling is then chosen that ends inside the name, and since it does not end at a
boundary, no basic type is found at all.

## Main definitions

* `Idl.memberLine`: a member as text, with any text for its type.
* `Idl.RunsInto`: a name overruns the spelling before it.

## Main results

* `Idl.memberOfLine_memberLine`: a line is read as a member if the text of its type is read.
* `Idl.memberOfLine_basic_iff`: which members keep the basic type that they are written with.
* `Idl.memberOfLine_long_of_runsInto`: the type of a `long` member that does not keep it.
-/

namespace RosInterface.Idl

open Text

/-- The number of elements of an array as text. -/
def lengthText : Option Nat → List Char
  | none => []
  | some n => '[' :: (decimal n ++ [']'])

/-- The name of a member as text, with the number of elements of an array. -/
def declaratorText (name : String) (length : Option Nat) : List Char :=
  name.toList ++ lengthText length

/-- A member as text, with a text for its type. -/
def memberLine (type : List Char) (name : String) (length : Option Nat) : List Char :=
  type ++ ' ' :: (declaratorText name length ++ [';'])

/-- A name begins with a word that goes on with the spelling before it. -/
def RunsInto (words : List String) (name : String) : Prop :=
  (words = ["long"] ∧ ("long".toList <+: name.toList ∨ "double".toList <+: name.toList)) ∨
    (words = ["unsigned", "long"] ∧ "long".toList <+: name.toList)

instance (words : List String) (name : String) : Decidable (RunsInto words name) :=
  inferInstanceAs (Decidable ((_ ∧ (_ ∨ _)) ∨ (_ ∧ _)))

variable {text : List Char} {type : TypeExpr} {name : String} {length : Option Nat}

/-! ### Names with the number of elements -/

/-- A declared name reads back. -/
theorem declarator?_text (hn : isIdentifier name = true) (hl : FitsWord length) :
    declarator? (declaratorText name length) = some ((name, length), []) := by
  cases length with
  | none =>
    have hread : identifier? (name.toList ++ []) = some (name, []) := identifier?_append hn rfl
    rw [declaratorText, lengthText, declarator?, hread]
    rfl
  | some n =>
    have hread : identifier? (name.toList ++ '[' :: (decimal n ++ [']']))
        = some (name, '[' :: (decimal n ++ [']'])) := identifier?_append hn rfl
    have hnumber : enclosedNumber? '[' ']' ('[' :: (decimal n ++ [']'])) = some (n, []) :=
      enclosedNumber?_append (hl n rfl) rfl rfl rfl
    rw [declaratorText, lengthText, declarator?, hread, Option.bind_eq_bind, Option.bind_some]
    simp only [hnumber, Option.pure_def]

/-- A declared name begins like an identifier. -/
theorem exists_declaratorText_eq_cons (length : Option Nat) (hn : isIdentifier name = true) :
    ∃ c more, declaratorText name length = c :: more ∧ isIdentifierStart c = true :=
  exists_append_eq_cons hn (lengthText length)

/-- Only the blank before a declared name is read as such. -/
theorem blanks?_declaratorText (length : Option Nat) (hn : isIdentifier name = true) :
    blanks? (' ' :: declaratorText name length) = some (declaratorText name length) :=
  blanks?_append hn (lengthText length)

/-- A declared name does not end in a blank. -/
theorem getLast?_declaratorText (length : Option Nat) (hn : isIdentifier name = true) :
    ∀ c ∈ (declaratorText name length).getLast?, isBlank c = false := by
  intro c hc
  cases length with
  | none =>
    rw [declaratorText, lengthText, List.append_nil] at hc
    exact isBlank_of_isIdentifierRest (isWord_of_isIdentifier hn c (List.mem_of_getLast? hc))
  | some n =>
    have hlast : (declaratorText name (some n)).getLast? = some ']' := by
      rw [declaratorText, lengthText, ← List.cons_append, ← List.append_assoc,
        List.getLast?_concat]
    rw [hlast] at hc
    cases hc
    rfl

/-! ### Members -/

/-- The text of a member is what stands in its line before the semicolon. -/
theorem memberOfLine_eq_wholeMember {c : Char} {more : List Char} (htext : text = c :: more)
    (hc : isIdentifierStart c = true) (hn : isIdentifier name = true) :
    memberOfLine (memberLine text name length)
      = wholeMember (text ++ ' ' :: declaratorText name length) := by
  have hbody : [';'].isSuffixOf? (memberLine text name length)
      = some (text ++ ' ' :: declaratorText name length) := by
    rw [List.isSuffixOf?_eq_some_iff_append_eq, memberLine, List.append_assoc, List.cons_append]
  have htrim : trim (text ++ ' ' :: declaratorText name length)
      = text ++ ' ' :: declaratorText name length := by
    refine trim_eq_self ?_ ?_
    · rw [htext]
      rintro d hd
      cases hd
      exact isBlank_of_isIdentifierRest (isIdentifierRest_of_isIdentifierStart hc)
    · obtain ⟨d, rest, hdecl, -⟩ := exists_declaratorText_eq_cons length hn
      have hlast := getLast?_declaratorText length hn
      rw [hdecl] at hlast ⊢
      rw [List.getLast?_append, List.getLast?_cons_cons]
      simpa using hlast
  rw [memberOfLine, hbody]
  simp only [htrim]

/-- **A line is read as a member if the text of its type is read** up to the blank before the
name. -/
theorem memberOfLine_memberLine {c : Char} {more : List Char} (htext : text = c :: more)
    (hc : isIdentifierStart c = true) (hn : isIdentifier name = true) (hl : FitsWord length)
    (ht : typeExpr? (text ++ ' ' :: declaratorText name length)
      = some (type, ' ' :: declaratorText name length)) :
    memberOfLine (memberLine text name length) = .ok ⟨name, type, length⟩ := by
  rw [memberOfLine_eq_wholeMember htext hc hn, wholeMember, memberBody, ht]
  simp only [blanks?_declaratorText length hn, declarator?_text hn hl]
  rfl

/-- A blank before a member is not looked at. -/
theorem memberOfLine_space_cons (body : List Char) :
    memberOfLine (' ' :: (body ++ [';'])) = memberOfLine (body ++ [';']) := by
  have hspace : [';'].isSuffixOf? (' ' :: (body ++ [';'])) = some (' ' :: body) :=
    List.isSuffixOf?_eq_some_iff_append_eq.mpr rfl
  have hbody : [';'].isSuffixOf? (body ++ [';']) = some body :=
    List.isSuffixOf?_eq_some_iff_append_eq.mpr rfl
  have htrim : trim (' ' :: body) = trim body := by
    rw [trim, trimStart, List.dropWhile_cons_of_pos (by decide)]
    rfl
  rw [memberOfLine, hspace, memberOfLine, hbody]
  simp only [htrim]

/-- The parts of a member are read one after the other, and only blanks are left. -/
theorem exists_of_wholeMember {member : Member} {s : List Char} (h : wholeMember s = .ok member) :
    ∃ behind declarator rest, typeExpr? s = some (member.type, behind) ∧
      blanks? behind = some declarator ∧
      declarator? declarator = some ((member.name, member.length), rest) ∧ IsBlanks rest := by
  rw [wholeMember, memberBody] at h
  split at h
  · cases h
  rename_i found rest hread
  split at hread
  · cases hread
  rename_i type behind htype
  split at hread
  · cases hread
  rename_i declarator hblanks
  split at hread
  · cases hread
  rename_i name length rest' hdeclarator
  cases hread
  split at h
  · rename_i hrest
    obtain rfl := Except.ok.inj h
    have hempty : trim rest = [] := List.isEmpty_iff.mp hrest
    exact ⟨behind, declarator, rest, htype, hblanks, hdeclarator, (trim_eq_nil_iff rest).mp hempty⟩
  · cases h

/-! ### Basic types and the names behind them -/

/-- A spelling that goes on from another one is one of three. -/
theorem longer_of_prefix :
    ∀ longer ∈ basicSpellings, ∀ entry ∈ basicSpellings, entry.1 <+: longer.1 →
      longer.1 = entry.1 ∨
        (entry.1 = ["long"] ∧ (longer.1 = ["long", "long"] ∨ longer.1 = ["long", "double"])) ∨
          (entry.1 = ["unsigned", "long"] ∧ longer.1 = ["unsigned", "long", "long"]) := by
  decide

section Basic

variable {words : List String} {basic : BasicType} {rest : List Char}

/-- What overruns a spelling is a name that begins with its next word. -/
theorem overruns_iff_runsInto (h : (words, basic) ∈ basicSpellings)
    (hn : isIdentifier name = true) (hr : atBoundary rest = true) :
    Overruns words (' ' :: (name.toList ++ rest)) ↔ RunsInto words name := by
  have hblanks := blanks?_append hn rest
  constructor
  · rintro ⟨longer, hlonger, word, hlw, tail, htail, hword⟩
    obtain rfl : name.toList ++ rest = tail := Option.some.inj (hblanks.symm.trans htail)
    have hw : isIdentifier word = true :=
      isIdentifier_of_mem_basicSpellings _ hlonger word (by rw [hlw]; simp)
    have hbegins : word.toList <+: name.toList :=
      prefix_of_prefix_append (isWord_of_isIdentifier hw) hr hword
    rcases longer_of_prefix _ hlonger _ h ⟨[word], hlw.symm⟩ with heq | ⟨rfl, heq⟩ | ⟨rfl, heq⟩
    · rw [hlw] at heq
      simp at heq
    · rw [hlw] at heq
      rcases heq with heq | heq
      · obtain rfl : word = "long" := by simpa using heq
        exact .inl ⟨rfl, .inl hbegins⟩
      · obtain rfl : word = "double" := by simpa using heq
        exact .inl ⟨rfl, .inr hbegins⟩
    · rw [hlw] at heq
      obtain rfl : word = "long" := by simpa using heq
      exact .inr ⟨rfl, hbegins⟩
  · rintro (⟨rfl, hbegins | hbegins⟩ | ⟨rfl, hbegins⟩)
    · exact ⟨(["long", "long"], .longLong), by decide, "long", rfl, _, hblanks,
        hbegins.trans (List.prefix_append _ _)⟩
    · exact ⟨(["long", "double"], .longDouble), by decide, "double", rfl, _, hblanks,
        hbegins.trans (List.prefix_append _ _)⟩
    · exact ⟨(["unsigned", "long", "long"], .unsignedLongLong), by decide, "long", rfl, _, hblanks,
        hbegins.trans (List.prefix_append _ _)⟩

theorem colon_notMem_lengthText (length : Option Nat) : ':' ∉ lengthText length := by
  cases length with
  | none => simp [lengthText]
  | some n => simp [lengthText, colon_notMem_decimal]

theorem atBoundary_lengthText (length : Option Nat) : atBoundary (lengthText length) = true := by
  cases length <;> rfl

/-- A spelling begins like an identifier. -/
theorem exists_spelled_eq_cons (h : (words, basic) ∈ basicSpellings) :
    ∃ c more, spelled words = c :: more ∧ isIdentifierStart c = true := by
  have hi := isIdentifier_of_mem_basicSpellings _ h
  obtain ⟨word, more, rfl⟩ := List.exists_cons_of_ne_nil (ne_nil_of_mem_basicSpellings _ h)
  have hnil : atBoundary [] = true := rfl
  obtain ⟨after, hs, -⟩ := exists_spelled_cons_append word more hnil
  rw [List.append_nil] at hs
  rw [hs]
  exact exists_append_eq_cons (hi word List.mem_cons_self) after

/-- **Which members keep the basic type that they are written with.** All of them do, in every
spelling and under every name, except those whose name begins with a word that goes on with the
spelling. -/
theorem memberOfLine_basic_iff (h : (words, basic) ∈ basicSpellings)
    (hn : isIdentifier name = true) (hl : FitsWord length) :
    memberOfLine (memberLine (spelled words) name length) = .ok ⟨name, .basic basic, length⟩
      ↔ ¬RunsInto words name := by
  obtain ⟨c, more, htext, hc⟩ := exists_spelled_eq_cons h
  have hboundary : atBoundary (' ' :: declaratorText name length) = true := rfl
  have hread := typeExpr?_spelled h hboundary
  rw [← overruns_iff_runsInto h hn (atBoundary_lengthText length)]
  constructor
  · intro hmember hover
    rw [memberOfLine_eq_wholeMember htext hc hn] at hmember
    obtain ⟨tail, -, -, htype, -⟩ := exists_of_wholeMember hmember
    rw [hread] at htype
    cases hb : basicType? (spelled words ++ ' ' :: declaratorText name length) with
    | some found =>
      rw [hb] at htype
      cases htype
      exact (exists_of_basicType?_spelled h hboundary hover hb).1 rfl
    | none =>
      rw [hb, Option.map_none, Option.none_or, Option.map_eq_some_iff] at htype
      obtain ⟨path, -, heq⟩ := htype
      cases heq
  · intro hover
    refine memberOfLine_memberLine htext hc hn hl ?_
    rw [hread, basicType?_spelled h hboundary hover]
    rfl

/-- **A `long` member that is overrun refers to a declared type.** A name that is more than the
word with which it begins is lost to a longer spelling, and that one does not end at a boundary. So
the member is read as one of a type with the name `long`. -/
theorem memberOfLine_long_of_runsInto (hn : isIdentifier name = true) (hl : FitsWord length)
    (hr : RunsInto ["long"] name) (hlong : name ≠ "long") (hdouble : name ≠ "double") :
    memberOfLine (memberLine (spelled ["long"]) name length)
      = .ok ⟨name, .named ["long"], length⟩ := by
  have h : (["long"], BasicType.long) ∈ basicSpellings := by decide
  have hboundary : atBoundary (' ' :: declaratorText name length) = true := rfl
  have hends : EndsType (' ' :: declaratorText name length) :=
    .of_name hn (colon_notMem_lengthText length)
  have hover : Overruns ["long"] (' ' :: declaratorText name length) :=
    (overruns_iff_runsInto h hn (atBoundary_lengthText length)).mpr hr
  have hnone : basicType? (spelled ["long"] ++ ' ' :: declaratorText name length) = none := by
    rw [← Option.not_isSome_iff_eq_none, Option.isSome_iff_exists]
    rintro ⟨⟨found, tail⟩, hread⟩
    obtain ⟨-, word, behind, hlonger, hblanks, hword, hb⟩ :=
      exists_of_basicType?_spelled h hboundary hover hread
    obtain rfl : declaratorText name length = behind :=
      Option.some.inj ((blanks?_declaratorText length hn).symm.trans hblanks)
    have hw : isIdentifier word = true :=
      isIdentifier_of_mem_basicSpellings _ hlonger word (by simp)
    obtain ⟨rfl, -⟩ := eq_of_isPrefixOf?_append hw hn (atBoundary_lengthText length) hword hb
    rcases longer_of_prefix _ hlonger _ h (List.prefix_append _ _) with heq | ⟨-, heq | heq⟩ | heq
    · simp at heq
    · exact hlong (by simpa using heq)
    · exact hdouble (by simpa using heq)
    · simp at heq
  have hpath : scopedName? (spelled ["long"] ++ ' ' :: declaratorText name length)
      = some (["long"], ' ' :: declaratorText name length) := by
    have htext : spelled ["long"] = pathText ["long"] := by simp [spelled, pathText]
    rw [htext]
    exact scopedName?_pathText (by decide) (by decide) hends
  obtain ⟨c, more, htext, hc⟩ := exists_spelled_eq_cons h
  refine memberOfLine_memberLine htext hc hn hl ?_
  rw [typeExpr?_spelled h hboundary, hnone, hpath]
  rfl

end Basic

/-- A `long` member with a name that does not run into its type. -/
theorem memberOfLine_long_altitude :
    (["long"], BasicType.long) ∈ basicSpellings ∧ isIdentifier "altitude" = true ∧
      FitsWord (some 3) ∧ ¬RunsInto ["long"] "altitude" ∧
      memberOfLine (memberLine (spelled ["long"]) "altitude" (some 3))
        = .ok ⟨"altitude", .basic .long, some 3⟩ := by
  have h : (["long"], BasicType.long) ∈ basicSpellings := by decide
  have hn : isIdentifier "altitude" = true := by decide
  have hl : FitsWord (some 3) := by decide
  have hr : ¬RunsInto ["long"] "altitude" := by decide
  exact ⟨h, hn, hl, hr, (memberOfLine_basic_iff h hn hl).mpr hr⟩

/-- The type of `long longitude` is read as a declared type with the name `long`. -/
theorem memberOfLine_long_longitude :
    (["long"], BasicType.long) ∈ basicSpellings ∧ isIdentifier "longitude" = true ∧
      memberOfLine (memberLine (spelled ["long"]) "longitude" none)
        = .ok ⟨"longitude", .named ["long"], none⟩ ∧
      memberOfLine (memberLine (spelled ["long"]) "longitude" none)
        ≠ .ok ⟨"longitude", .basic .long, none⟩ := by
  have hn : isIdentifier "longitude" = true := by decide
  have hl : FitsWord none := by decide
  have hread : memberOfLine (memberLine (spelled ["long"]) "longitude" none)
      = .ok ⟨"longitude", .named ["long"], none⟩ :=
    memberOfLine_long_of_runsInto hn hl (by decide) (by decide) (by decide)
  refine ⟨by decide, hn, hread, ?_⟩
  rw [hread]
  decide

end RosInterface.Idl
