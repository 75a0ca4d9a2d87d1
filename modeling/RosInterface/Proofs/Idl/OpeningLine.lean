import RosInterface.Proofs.Idl.Preparation
import RosInterface.Proofs.Idl.WrittenLine

/-!
# Opening lines

A module, a struct or an enum is opened by a *header*, which is a keyword and a name, and by the
brace behind it. The line is not read beyond that brace, so anything may stand there: the line opens
the same.

A line may hold a comment and annotations around its statement. Still the brace of the header stands
at one place of the raw line, and what is cut from the line behind that place depends on the text
there only.

## Main definitions

* `Idl.Opening`: what a line may open.
* `Idl.IsHeader`: a keyword and a name.

## Main results

* `Idl.ofLine_eq_statement_iff`: a line opens something exactly if it begins with a header.
* `Idl.exists_prepareLine_header`: the header in a raw line.
-/

namespace RosInterface.Idl

open Text

/-- What a line may open. -/
inductive Opening where
  | module
  | struct
  | enum
deriving DecidableEq

namespace Opening

/-- The keyword of what is opened. -/
def keyword : Opening → String
  | module => "module"
  | struct => "struct"
  | enum => "enum"

/-- The statement that opens something of a name. -/
def statement (name : String) : Opening → Statement
  | module => .openModule name
  | struct => .openStruct name
  | enum => .openEnum name

theorem isIdentifier_keyword (opening : Opening) : isIdentifier opening.keyword = true := by
  cases opening <;> decide

end Opening

/-! ### Headers -/

/-- A keyword and a name with blanks between them, and spaces behind the name. -/
def IsHeader (keyword name : String) (header : List Char) : Prop :=
  ∃ blanks spaces, blanks ≠ [] ∧ IsBlanks blanks ∧ isIdentifier name = true ∧
    (∀ c ∈ spaces, c = ' ' ∨ c = '\t') ∧
      header = keyword.toList ++ (blanks ++ (name.toList ++ spaces))

section

variable {keyword name : String} {header rest : List Char}

/-- Blanks before a text that does not begin with one are read. -/
theorem blanks?_append_of_head? {blanks s : List Char} (hne : blanks ≠ []) (hb : IsBlanks blanks)
    (hs : ∀ c ∈ s.head?, isBlank c = false) : blanks? (blanks ++ s) = some s := by
  cases blanks with
  | nil => exact absurd rfl hne
  | cons c blanks =>
    have hrest : IsBlanks blanks := fun d hd => hb d (List.mem_cons_of_mem c hd)
    rw [List.cons_append, blanks?, if_pos (hb c List.mem_cons_self), trimStart_blanks_append hrest,
      trimStart, dropWhile_eq_self hs]

theorem exists_of_blanks? {s : List Char} (h : blanks? s = some rest) :
    ∃ blanks, blanks ≠ [] ∧ IsBlanks blanks ∧ s = blanks ++ rest := by
  cases s with
  | nil => cases h
  | cons c s =>
    rw [blanks?] at h
    split at h
    · rename_i hc
      obtain ⟨blanks, hblanks, hs⟩ := exists_eq_append_trimStart s
      refine ⟨c :: blanks, List.cons_ne_nil c blanks, List.forall_mem_cons.mpr ⟨hc, hblanks⟩, ?_⟩
      rw [← Option.some.inj h, List.cons_append, ← hs]
    · cases h

theorem exists_of_identifier? {s : List Char} (h : identifier? s = some (name, rest)) :
    isIdentifier name = true ∧ s = name.toList ++ rest := by
  cases s with
  | nil => cases h
  | cons c s =>
    rw [identifier?] at h
    split at h
    · rename_i hc
      obtain ⟨rfl, rfl⟩ := Prod.mk.inj (Option.some.inj h)
      rw [isIdentifier, String.toList_ofList]
      refine ⟨?_, by rw [List.cons_append, List.takeWhile_append_dropWhile]⟩
      exact Bool.and_eq_true_iff.mpr ⟨hc, List.all_takeWhile⟩
    · cases h

theorem exists_of_mark? {mark : Char} {s : List Char} (h : mark? mark s = some rest) :
    ∃ spaces, (∀ c ∈ spaces, c = ' ' ∨ c = '\t') ∧ s = spaces ++ mark :: rest := by
  refine ⟨s.takeWhile fun c => c == ' ' || c == '\t', fun c hc => ?_, ?_⟩
  · simpa using List.all_eq_true.mp List.all_takeWhile c hc
  · have hmark : skipSpaces s = [mark] ++ rest := eq_append_of_isPrefixOf? h
    rw [skipSpaces] at hmark
    rw [← List.singleton_append, ← hmark, List.takeWhile_append_dropWhile]

theorem mark?_spaces_append {mark : Char} {spaces : List Char}
    (hs : ∀ c ∈ spaces, c = ' ' ∨ c = '\t') (rest : List Char) :
    mark? mark (spaces ++ rest) = mark? mark rest := by
  rw [mark?, mark?, skipSpaces, List.dropWhile_append_of_pos, skipSpaces]
  intro c hc
  simpa using hs c hc

/-- A keyword, a name and a mark are read from a header before the mark only. -/
theorem exists_isHeader_of_keywordName? {mark : Char} {s : List Char}
    (h : keywordName? keyword mark s = some (name, rest)) :
    ∃ header, IsHeader keyword name header ∧ s = header ++ mark :: rest := by
  simp only [keywordName?, Option.bind_eq_bind, Option.bind_eq_some_iff, Option.pure_def,
    Option.some.injEq, Prod.mk.injEq] at h
  obtain ⟨s₁, h₁, s₂, h₂, ⟨found, s₃⟩, h₃, s₄, h₄, rfl, rfl⟩ := h
  obtain ⟨blanks, hne, hblanks, rfl⟩ := exists_of_blanks? h₂
  obtain ⟨hname, rfl⟩ := exists_of_identifier? h₃
  obtain ⟨spaces, hspaces, rfl⟩ := exists_of_mark? h₄
  refine ⟨_, ⟨blanks, spaces, hne, hblanks, hname, hspaces, rfl⟩, ?_⟩
  rw [eq_append_of_isPrefixOf? h₁]
  simp only [List.append_assoc]

/-- From a header and a mark behind it, the name is read if the mark is the one wanted. -/
theorem IsHeader.keywordName?_append (h : IsHeader keyword name header) {c : Char}
    (hword : isIdentifierRest c = false) (hblank : isBlank c = false) (mark : Char) :
    keywordName? keyword mark (header ++ c :: rest)
      = if c = mark then some (name, rest) else none := by
  obtain ⟨blanks, spaces, hne, hblanks, hname, hspaces, rfl⟩ := h
  have hboundary : atBoundary (spaces ++ c :: rest) = true := by
    cases spaces with
    | nil => rw [List.nil_append, atBoundary, hword, Bool.not_false]
    | cons d spaces =>
      rcases hspaces d List.mem_cons_self with rfl | rfl <;> rfl
  have hfirst : ∀ d ∈ (name.toList ++ (spaces ++ c :: rest)).head?, isBlank d = false := by
    obtain ⟨d, more, hs, hd⟩ := exists_append_eq_cons hname (spaces ++ c :: rest)
    rw [hs]
    rintro _ ⟨⟩
    exact isBlank_of_isIdentifierRest (isIdentifierRest_of_isIdentifierStart hd)
  have hmark : mark? mark (c :: rest) = if c = mark then some rest else none := by
    rw [mark?, skipSpaces_cons hblank]
    split
    · rename_i heq
      subst heq
      exact isPrefixOf?_append [c] rest
    · rename_i hne
      exact if_neg (by simpa using Ne.symm hne)
  simp only [List.append_assoc, keywordName?, isPrefixOf?_append, Option.bind_eq_bind,
    Option.bind_some, blanks?_append_of_head? hne hblanks hfirst,
    identifier?_append hname hboundary, mark?_spaces_append hspaces, hmark]
  split <;> rfl

/-- A blank stands at a boundary. -/
theorem atBoundary_of_isBlank {c : Char} (h : isBlank c = true) :
    atBoundary (c :: rest) = true := by
  cases hc : isIdentifierRest c with
  | false => rw [atBoundary, hc, Bool.not_false]
  | true =>
    rw [isBlank_of_isIdentifierRest hc] at h
    cases h

/-- A header is not read after another keyword. -/
theorem IsHeader.keywordName?_eq_none (h : IsHeader keyword name header)
    (hk : isIdentifier keyword = true) {other : String} (ho : isIdentifier other = true)
    (hne : keyword ≠ other) (mark : Char) (rest : List Char) :
    keywordName? other mark (header ++ rest) = none := by
  obtain ⟨blanks, spaces, hblank, hblanks, -, -, rfl⟩ := h
  rw [List.append_assoc]
  refine Idl.keywordName?_eq_none ho hk ?_ fun heq => absurd heq hne
  cases blanks with
  | nil => exact absurd rfl hblank
  | cons c blanks =>
    exact atBoundary_of_isBlank (hblanks c List.mem_cons_self)

/-- Behind a header and its brace a line opens what the header says. -/
theorem IsHeader.ofLine_append {opening : Opening} (h : IsHeader opening.keyword name header)
    (rest : List Char) : Statement.ofLine (header ++ '\x7b' :: rest) = opening.statement name := by
  have hread (mark : Char) : keywordName? opening.keyword mark (header ++ '\x7b' :: rest) = _ :=
    h.keywordName?_append rfl rfl mark
  have hother {other : String} (ho : isIdentifier other = true) (hne : opening.keyword ≠ other)
      (mark : Char) : keywordName? other mark (header ++ '\x7b' :: rest) = none :=
    h.keywordName?_eq_none opening.isIdentifier_keyword ho hne mark _
  have hopening : Statement.ofLine (header ++ '\x7b' :: rest)
      = Statement.ofOpening (header ++ '\x7b' :: rest) := by
    obtain ⟨blanks, spaces, hne, hblanks, -, -, rfl⟩ := h
    rw [List.append_assoc]
    refine Idl.ofLine_append opening.isIdentifier_keyword ?_ fun hmem => ?_
    · obtain ⟨c, blanks, rfl⟩ := List.exists_cons_of_ne_nil hne
      exact atBoundary_of_isBlank (hblanks c List.mem_cons_self)
    · cases opening <;> exact absurd hmem (by decide)
  rw [hopening, Statement.ofOpening, isAnnouncement]
  cases opening with
  | module =>
    have hmodule : keywordName? "module" '\x7b' (header ++ '\x7b' :: rest) = some (name, rest) :=
      hread '\x7b'
    rw [hmodule]
    rfl
  | struct =>
    have hstruct : keywordName? "struct" '\x7b' (header ++ '\x7b' :: rest) = some (name, rest) :=
      hread '\x7b'
    have hannounced : keywordName? "struct" ';' (header ++ '\x7b' :: rest) = none := hread ';'
    have hmodule : keywordName? "module" '\x7b' (header ++ '\x7b' :: rest) = none :=
      hother (by decide) (by decide) _
    rw [hmodule, hannounced, hstruct]
    rfl
  | enum =>
    have henum : keywordName? "enum" '\x7b' (header ++ '\x7b' :: rest) = some (name, rest) :=
      hread '\x7b'
    have hmodule : keywordName? "module" '\x7b' (header ++ '\x7b' :: rest) = none :=
      hother (by decide) (by decide) _
    have hstruct (mark : Char) : keywordName? "struct" mark (header ++ '\x7b' :: rest) = none :=
      hother (by decide) (by decide) mark
    rw [hmodule, hstruct, hstruct, henum]
    rfl

end

/-- **A line opens something exactly if it begins with a header** and a brace. -/
theorem ofLine_eq_statement_iff {opening : Opening} {name : String} {line : List Char} :
    Statement.ofLine line = opening.statement name ↔
      ∃ header rest, IsHeader opening.keyword name header ∧ line = header ++ '\x7b' :: rest := by
  constructor
  · intro h
    have hread : ∃ rest, keywordName? opening.keyword '\x7b' line = some (name, rest) := by
      have hopening : Statement.ofOpening line = opening.statement name := by
        rw [Statement.ofLine] at h
        split at h
        · cases opening <;> cases h
        split at h
        · cases opening <;> cases h
        split at h
        · cases opening <;> cases h
        exact h
      rw [Statement.ofOpening] at hopening
      split at hopening
      · rename_i found rest hmodule
        cases opening <;> cases hopening
        exact ⟨rest, hmodule⟩
      split at hopening
      · cases opening <;> cases hopening
      split at hopening
      · rename_i found rest hstruct
        cases opening <;> cases hopening
        exact ⟨rest, hstruct⟩
      split at hopening
      · rename_i found rest henum
        cases opening <;> cases hopening
        exact ⟨rest, henum⟩
      · split at hopening <;> cases opening <;> cases hopening
    obtain ⟨rest, hread⟩ := hread
    obtain ⟨header, hheader, hline⟩ := exists_isHeader_of_keywordName? hread
    exact ⟨header, rest, hheader, hline⟩
  · rintro ⟨header, rest, hheader, rfl⟩
    exact hheader.ofLine_append rest

/-! ### Headers in raw lines -/

theorem IsHeader.exists_cons {keyword name : String} {header : List Char}
    (h : IsHeader keyword name header) (hk : isIdentifier keyword = true) :
    ∃ c more, header = c :: more ∧ isIdentifierStart c = true := by
  obtain ⟨blanks, spaces, -, -, -, -, rfl⟩ := h
  exact exists_append_eq_cons hk _

/-- There is no brace in a header. -/
theorem IsHeader.brace_notMem {keyword name : String} {header : List Char}
    (h : IsHeader keyword name header) (hk : isIdentifier keyword = true) : '\x7b' ∉ header := by
  obtain ⟨blanks, spaces, -, hblanks, hname, hspaces, rfl⟩ := h
  have hword {word : String} (hw : isIdentifier word = true) : '\x7b' ∉ word.toList :=
    fun hmem => absurd (isWord_of_isIdentifier hw _ hmem) (by decide)
  have hspace : '\x7b' ∉ spaces := fun hmem => by
    rcases hspaces _ hmem with hc | hc <;> exact absurd hc (by decide)
  simp only [List.mem_append, not_or]
  exact ⟨hword hk, hblanks.notMem rfl, hword hname, hspace⟩

/-- **The header in a raw line.** Its brace stands at one place of the line. What stands before that
place is left as the header, and whatever stands behind it, the header and the brace are what the
statement of the line begins with. -/
theorem exists_prepareLine_header {state : AnnotationState} (hstate : state.IsSettled)
    {raw header rest : List Char} {opening : Opening} {name : String}
    (hheader : IsHeader opening.keyword name header)
    (hraw : (prepareLine state raw).2 = header ++ '\x7b' :: rest) :
    ∃ before behind, raw = before ++ '\x7b' :: behind ∧
      prepareLine state before = (.start, trimEnd header) ∧
      ∀ other, ∃ left,
        prepareLine state (before ++ '\x7b' :: other) = (.start, header ++ '\x7b' :: left) := by
  have hstart : (prepareLine state raw).1 = .start :=
    prepareLine_fst hstate (by rw [hraw]; simp)
  obtain ⟨margin, margin', hmargin, -, hbare⟩ := exists_eq_append_trim (withoutComment raw)
  obtain ⟨skipped, hskipped, hframe⟩ := exists_skipAnnotations_append state (bare raw)
  rw [← prepareLine, hraw] at hskipped hframe
  rw [hstart] at hframe
  obtain ⟨cut, hcut⟩ := withoutComment_prefix raw
  rw [← bare, hskipped] at hbare
  obtain ⟨c, more, hcons, hc⟩ := hheader.exists_cons opening.isIdentifier_keyword
  have hheadTrim : trimEnd header = c :: trimEnd more := by
    rw [hcons]
    exact trimEnd_cons (isBlank_of_isIdentifierRest (isIdentifierRest_of_isIdentifierStart hc)) more
  -- what stands before the brace and the brace itself are in no comment
  have huncut : cutComment .outside (margin ++ (skipped ++ header) ++ ['\x7b'])
      = margin ++ (skipped ++ header) ++ ['\x7b'] := by
    refine cutComment_of_append (t := rest ++ margin') ?_
    have hall : margin ++ (skipped ++ header) ++ ['\x7b'] ++ (rest ++ margin')
        = withoutComment raw := by
      rw [hbare]
      simp
    rw [hall, withoutComment, cutComment_cutComment]
  have hfirst (s : List Char) : ∀ d ∈ (skipped ++ header ++ s).head?, isBlank d = false := by
    intro d hd
    have hsame : (skipped ++ header ++ s).head? = (skipped ++ header).head? := by
      rw [hcons]
      cases skipped <;> rfl
    refine isBlank_of_mem_head?_trimStart (s := trimEnd (withoutComment raw)) d ?_
    rw [trimStart_trimEnd, ← bare, hskipped, ← List.append_assoc, List.head?_append,
      ← hsame, Option.mem_def.mp hd]
    rfl
  refine ⟨margin ++ (skipped ++ header), rest ++ (margin' ++ cut), ?_, ?_, fun other => ?_⟩
  · rw [← hcut, hbare]
    simp
  · have hbefore : bare (margin ++ (skipped ++ header)) = skipped ++ trimEnd header := by
      have hnone : ∀ d ∈ (skipped ++ header).head?, isBlank d = false := by
        simpa using hfirst []
      rw [bare_eq_trimEnd hmargin (cutComment_of_append huncut) hnone,
        trimEnd_append skipped (by rw [hheadTrim]; simp)]
    rw [prepareLine, hbefore]
    exact hframe _ (by rw [hheadTrim, hcons]; rfl)
  · obtain ⟨left, hleft⟩ : ∃ left, withoutComment (margin ++ (skipped ++ header) ++ '\x7b' :: other)
        = margin ++ (skipped ++ header ++ '\x7b' :: left) := by
      rw [withoutComment, List.append_cons, cutComment_append huncut (by simp)]
      exact ⟨_, by simp only [List.append_assoc]; rfl⟩
    have hbehind : bare (margin ++ (skipped ++ header) ++ '\x7b' :: other)
        = skipped ++ (header ++ '\x7b' :: trimEnd left) := by
      have hend := trimEnd_append_of_getLast? (s := skipped ++ header ++ ['\x7b'])
        (by simp [isBlank]) left
      rw [bare_eq_trimEnd hmargin hleft (hfirst _), List.append_cons, hend]
      simp
    rw [prepareLine, hbehind]
    exact ⟨trimEnd left, hframe _ (by rw [hcons]; rfl)⟩

end RosInterface.Idl
