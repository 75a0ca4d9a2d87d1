import RosInterface.Proofs.Idl.Lexical
import RosInterface.Proofs.Idl.Preparation

/-!
# Written annotations

The arguments of an annotation are written with balanced parentheses and with string literals, in
which parentheses and slashes mean nothing. They may be broken over lines outside literals. Three
scanners read such lines: comments are cut from each line by itself, blanks are trimmed, and the
arguments are closed across lines. Since a literal is closed on its own line, all of them stand
outside literals where a line ends, so a written annotation is skipped as a whole.

## Main definitions

* `Idl.IsArguments`: texts that may be written as arguments.
* `Idl.IsAnnotationText`: written annotations, with arguments or without.
* `Idl.ReadsInside`, `Idl.ReadsLines`: lines that are read inside arguments.

## Main results

* `Idl.IsArguments.readsLines`: arguments leave as many parentheses open as there were before.
* `Idl.statements_arguments`: a text behind a written annotation with arguments.
* `Idl.statements_annotationName`: a text behind a written annotation without arguments.
-/

namespace RosInterface.Idl

open Text

/-- What stands in a string literal on one line. A backslash takes the next character with it. -/
inductive IsLiteralBody : List Char → Prop
  | nil : IsLiteralBody []
  | char {c : Char} {rest : List Char} : c ≠ '"' → c ≠ '\\' → c ≠ '\n' → IsLiteralBody rest →
      IsLiteralBody (c :: rest)
  | escape {c : Char} {rest : List Char} : c ≠ '\n' → IsLiteralBody rest →
      IsLiteralBody ('\\' :: c :: rest)

/-- Arguments of an annotation: parentheses are balanced outside literals, a literal is closed on
its own line, and there are no comments. -/
inductive IsArguments : List Char → Prop
  | nil : IsArguments []
  | char {c : Char} {rest : List Char} : c ≠ '"' → c ≠ '(' → c ≠ ')' →
      (c = '/' → rest.head? ≠ some '/') → IsArguments rest → IsArguments (c :: rest)
  | literal {body rest : List Char} : IsLiteralBody body → IsArguments rest →
      IsArguments ('"' :: (body ++ '"' :: rest))
  | group {inner rest : List Char} : IsArguments inner → IsArguments rest →
      IsArguments ('(' :: (inner ++ ')' :: rest))

/-- A name of ASCII letters. -/
def IsLetters (name : List Char) : Prop :=
  ∀ c ∈ name, c.isAlpha = true

instance (name : List Char) : Decidable (IsLetters name) :=
  List.decidableBAll (fun c : Char => c.isAlpha = true) name

/-- A written annotation. -/
inductive IsAnnotationText : List Char → Prop
  | plain {name : List Char} : IsLetters name → IsAnnotationText ('@' :: name)
  | applied {name arguments : List Char} : IsLetters name → IsArguments arguments →
      IsAnnotationText ('@' :: (name ++ '(' :: (arguments ++ [')'])))

/-! ### A string literal -/

namespace IsLiteralBody

variable {body : List Char}

/-- A literal is closed by the quote behind its body. -/
theorem literalAfter_append (h : IsLiteralBody body) (s : List Char) :
    literalAfter .inside (body ++ '"' :: s) = literalAfter .outside s := by
  induction h with
  | nil => rfl
  | char hquote hescape _ _ ih =>
    rw [List.cons_append, literalAfter_cons, LiteralState.next, if_neg hescape, if_neg hquote, ih]
  | escape _ _ ih => exact ih

/-- There is no comment in a literal. -/
theorem cutComment_append (h : IsLiteralBody body) (s : List Char) :
    cutComment .inside (body ++ '"' :: s) = body ++ '"' :: cutComment .outside s := by
  induction h with
  | nil => rfl
  | char hquote hescape _ _ ih =>
    rw [List.cons_append, cutComment_cons_of_ne (by decide), LiteralState.next, if_neg hescape,
      if_neg hquote, ih, List.cons_append]
  | escape _ _ ih =>
    rw [List.cons_append, cutComment_cons_of_ne (by decide), List.cons_append,
      cutComment_cons_of_ne (by decide)]
    exact congrArg (fun tail => _ :: _ :: tail) ih

/-- Parentheses in a literal do not count. -/
theorem closeArguments_append (h : IsLiteralBody body) (depth : Nat) (s : List Char) :
    closeArguments ⟨depth, .inside⟩ (body ++ '"' :: s) = closeArguments ⟨depth, .outside⟩ s := by
  induction h with
  | nil => rfl
  | char hquote hescape _ _ ih =>
    rw [List.cons_append, closeArguments_cons_of_ne (by decide), LiteralState.next,
      if_neg hescape, if_neg hquote, ih]
  | escape _ _ ih =>
    rw [List.cons_append, closeArguments_cons_of_ne (by decide), List.cons_append,
      closeArguments_cons_of_ne (by decide)]
    exact ih

theorem notMem_lineFeed (h : IsLiteralBody body) : '\n' ∉ body := by
  induction h with
  | nil => exact List.not_mem_nil
  | char _ _ hfeed _ ih => exact List.not_mem_cons_of_ne_of_not_mem hfeed.symm ih
  | escape hfeed _ ih =>
    refine List.not_mem_cons_of_ne_of_not_mem (by decide) ?_
    exact List.not_mem_cons_of_ne_of_not_mem hfeed.symm ih

end IsLiteralBody

/-! ### A line inside arguments -/

/-- Inside arguments a line without a comment is read from one depth to another, and the literals
in it are closed. -/
structure ReadsInside (depth : Nat) (line : List Char) (after : Nat) : Prop where
  /-- The line has no comment. -/
  uncut : withoutComment line = line
  /-- The literals of the line are closed. -/
  outside : literalAfter .outside line = .outside
  /-- The line does not close the arguments. -/
  reads : closeArguments ⟨depth, .outside⟩ line = (⟨after, .outside⟩, none)

namespace ReadsInside

variable {depth after : Nat} {line : List Char}

theorem nil (depth : Nat) : ReadsInside depth [] depth :=
  ⟨rfl, rfl, rfl⟩

/-- Arguments that are not closed stay open. -/
theorem pos (h : ReadsInside depth line after) (hdepth : 0 < depth) : 0 < after :=
  depth_pos_of_closeArguments hdepth h.reads

/-- A character that does not begin a literal or a comment may stand before the line. -/
theorem cons {before : Nat} {c : Char} (hquote : c ≠ '"') (hslash : c = '/' → line.head? ≠ some '/')
    (hc : closeArguments ⟨before, .outside⟩ (c :: line) = closeArguments ⟨depth, .outside⟩ line)
    (h : ReadsInside depth line after) : ReadsInside before (c :: line) after := by
  have hnext : LiteralState.outside.next c = .outside := if_neg hquote
  refine ⟨?_, by rw [literalAfter_cons, hnext, h.outside], by rw [hc, h.reads]⟩
  rw [withoutComment, cutComment, hnext]
  · exact congrArg _ h.uncut
  · rintro tail - rfl rfl
    exact hslash rfl rfl

theorem char {c : Char} (hquote : c ≠ '"') (hopen : c ≠ '(') (hclose : c ≠ ')')
    (hslash : c = '/' → line.head? ≠ some '/') (h : ReadsInside depth line after) :
    ReadsInside depth (c :: line) after := by
  refine h.cons hquote hslash ?_
  rw [closeArguments_cons line fun _ => ⟨hopen, hclose⟩]
  exact congrArg (fun state => closeArguments ⟨depth, state⟩ line) (if_neg hquote)

theorem opening (h : ReadsInside (depth + 1) line after) :
    ReadsInside depth ('(' :: line) after :=
  h.cons (by decide) (fun hslash => absurd hslash (by decide)) rfl

theorem closing (hdepth : 0 < depth) (h : ReadsInside depth line after) :
    ReadsInside (depth + 1) (')' :: line) after := by
  refine h.cons (by decide) (fun hslash => absurd hslash (by decide)) ?_
  rw [closeArguments, if_neg (by omega), Nat.add_sub_cancel]

theorem literal {body : List Char} (hbody : IsLiteralBody body)
    (h : ReadsInside depth line after) :
    ReadsInside depth ('"' :: (body ++ '"' :: line)) after where
  uncut := by
    have hcut := hbody.cutComment_append line
    rw [← withoutComment, h.uncut] at hcut
    exact congrArg ('"' :: ·) hcut
  outside := (hbody.literalAfter_append line).trans h.outside
  reads := (hbody.closeArguments_append depth line).trans h.reads

end ReadsInside

/-! ### Lines inside arguments -/

/-- Inside arguments the lines, of which there is one at least, are read from one depth to
another. -/
inductive ReadsLines : Nat → List (List Char) → Nat → Prop
  | last {depth after : Nat} {line : List Char} : ReadsInside depth line after →
      ReadsLines depth [line] after
  | cons {depth between after : Nat} {line : List Char} {rest : List (List Char)} :
      ReadsInside depth line between → ReadsLines between rest after →
      ReadsLines depth (line :: rest) after

/-- The first line of lines may begin with more, if that is so for every single line. -/
theorem ReadsLines.modifyHead {before depth after : Nat} {lines : List (List Char)}
    {more : List Char → List Char} (h : ReadsLines depth lines after)
    (hmore : ∀ line between, lines.head? = some line → ReadsInside depth line between →
      ReadsInside before (more line) between) :
    ReadsLines before (lines.modifyHead more) after := by
  cases h with
  | last hline => exact .last (hmore _ _ rfl hline)
  | cons hline hrest => exact .cons (hmore _ _ rfl hline) hrest

/-- **Arguments leave as many parentheses open as there were before.** -/
theorem IsArguments.readsLines {arguments : List Char} (h : IsArguments arguments)
    {depth after : Nat} (hdepth : 0 < depth) {s : List Char} (hs : s.head? ≠ some '/')
    (hread : ReadsLines depth (s.splitOn '\n') after) :
    ReadsLines depth ((arguments ++ s).splitOn '\n') after := by
  induction h generalizing depth s with
  | nil => exact hread
  | @char c rest hquote hopen hclose hslash _ ih =>
    have hrest := ih hdepth hs hread
    by_cases hfeed : c = '\n'
    · subst hfeed
      exact .cons (.nil depth) hrest
    · rw [List.cons_append, ← List.singleton_append,
        splitOn_append_of_notMem (by simpa using Ne.symm hfeed)]
      refine hrest.modifyHead fun line between hline hread => ?_
      refine hread.char hquote hopen hclose fun hc hhead => ?_
      have hhead := head?_of_splitOn hline hhead
      cases rest with
      | nil => exact hs hhead
      | cons d rest => exact hslash hc hhead
  | @literal body rest hbody _ ih =>
    have hrest := ih hdepth hs hread
    have hfeed : '\n' ∉ '"' :: (body ++ ['"']) := by
      simpa using hbody.notMem_lineFeed
    have hsplit : '"' :: (body ++ '"' :: rest) ++ s = '"' :: (body ++ ['"']) ++ (rest ++ s) := by
      simp
    rw [hsplit, splitOn_append_of_notMem hfeed]
    refine hrest.modifyHead fun line between _ hread => ?_
    have hliteral := hread.literal hbody
    simpa using hliteral
  | @group inner rest _ _ ihinner ihrest =>
    have hrest := ihrest hdepth hs hread
    have hclose : ReadsLines (depth + 1) ((')' :: (rest ++ s)).splitOn '\n') after := by
      rw [← List.singleton_append, splitOn_append_of_notMem (by decide)]
      exact hrest.modifyHead fun line between _ hread => hread.closing hdepth
    have hinner := ihinner (Nat.succ_pos depth) (by simp) hclose
    have hsplit : '(' :: (inner ++ ')' :: rest) ++ s = ['('] ++ (inner ++ ')' :: (rest ++ s)) := by
      simp
    rw [hsplit, splitOn_append_of_notMem (by decide)]
    exact hinner.modifyHead fun line between _ hread => hread.opening

/-! ### Preparing the lines of an annotation -/

/-- Blanks leave a scanner where it stands outside literals only. -/
theorem literalAfter_blanks {blanks : List Char} (hblanks : IsBlanks blanks) {state : LiteralState}
    (h : literalAfter state blanks = .outside) : state = .outside := by
  induction blanks generalizing state with
  | nil => exact h
  | cons c blanks ih =>
    have hc := ih (fun d hd => hblanks d (List.mem_cons_of_mem c hd)) h
    have hquote : c ≠ '"' := by
      rintro rfl
      exact absurd (hblanks _ List.mem_cons_self) (by decide)
    cases state with
    | outside => rfl
    | inside =>
      rw [LiteralState.next, if_neg hquote] at hc
      split at hc <;> cases hc
    | escaped => cases hc

/-- Arguments may be trimmed if the literals in them are closed. -/
theorem ReadsInside.closeArguments_trim {depth after : Nat} {line : List Char}
    (h : ReadsInside depth line after) :
    closeArguments ⟨depth, .outside⟩ (trim line) = (⟨after, .outside⟩, none) := by
  obtain ⟨before, behind, hbefore, hbehind, hline⟩ := exists_eq_append_trim line
  have hreads := h.reads
  rw [hline, closeArguments_blanks_append hbefore, closeArguments_append] at hreads
  cases htrim : closeArguments ⟨depth, .outside⟩ (trim line) with
  | mk state rest =>
    rw [htrim] at hreads
    cases rest with
    | some rest => cases hreads
    | none =>
      change closeArguments state behind = _ at hreads
      rw [closeArguments_blanks hbehind] at hreads
      obtain ⟨hstate, -⟩ := Prod.mk.inj hreads
      obtain ⟨hdepth, hliteral⟩ := AnnotationState.mk.inj hstate
      rw [← hdepth, ← literalAfter_blanks hbehind hliteral]

/-- Nothing is left of a line inside arguments. -/
theorem ReadsInside.prepareLine {depth after : Nat} {line : List Char} (hdepth : 0 < depth)
    (h : ReadsInside depth line after) :
    prepareLine ⟨depth, .outside⟩ line = (⟨after, .outside⟩, []) := by
  rw [Idl.prepareLine, bare, h.uncut]
  exact skipAnnotations_of_open hdepth h.closeArguments_trim

theorem skipAnnotations_blanks_append {depth : Nat} (hdepth : 0 < depth) {blanks : List Char}
    (hblanks : IsBlanks blanks) (s : List Char) :
    skipAnnotations ⟨depth, .outside⟩ (blanks ++ s) = skipAnnotations ⟨depth, .outside⟩ s := by
  have hskip : closeArguments ⟨depth, .outside⟩ (blanks ++ s)
      = closeArguments ⟨depth, .outside⟩ s := closeArguments_blanks_append hblanks s
  cases hclose : closeArguments ⟨depth, .outside⟩ s with
  | mk state rest =>
    rw [hclose] at hskip
    cases rest with
    | none => rw [skipAnnotations_of_open hdepth hskip, skipAnnotations_of_open hdepth hclose]
    | some rest =>
      rw [skipAnnotations_of_closed hdepth hskip, skipAnnotations_of_closed hdepth hclose]

theorem skipAnnotations_trimStart {depth : Nat} (hdepth : 0 < depth) (s : List Char) :
    skipAnnotations ⟨depth, .outside⟩ (trimStart s) = skipAnnotations ⟨depth, .outside⟩ s := by
  obtain ⟨blanks, hblanks, hs⟩ := exists_eq_append_trimStart s
  rw [← skipAnnotations_blanks_append hdepth hblanks, ← hs]

/-- **What stands behind the arguments** is left of the line that closes them. -/
theorem ReadsInside.prepareLine_close {depth : Nat} {line : List Char} (hdepth : 0 < depth)
    (h : ReadsInside depth line 1) (rest : List Char) :
    Idl.prepareLine ⟨depth, .outside⟩ (line ++ ')' :: rest) = Idl.prepareLine .start rest := by
  have hcut : withoutComment (line ++ ')' :: rest) = line ++ ')' :: withoutComment rest := by
    rw [withoutComment, cutComment_append h.uncut fun _ hhead => absurd hhead (by simp), h.outside]
    rfl
  have hclose : closeArguments ⟨depth, .outside⟩ (line ++ ')' :: trimEnd (withoutComment rest))
      = (.start, some (trimEnd (withoutComment rest))) := by
    rw [closeArguments_append, h.reads]
    rfl
  have hend : trimEnd (line ++ ')' :: withoutComment rest)
      = line ++ ')' :: trimEnd (withoutComment rest) := by
    have happend := trimEnd_append_of_getLast? (s := line ++ [')'])
      (by simp [isBlank]) (withoutComment rest)
    simpa using happend
  rw [Idl.prepareLine, bare, hcut, ← trimStart_trimEnd, hend, skipAnnotations_trimStart hdepth,
    skipAnnotations_of_closed hdepth hclose, trimStart_trimEnd, Idl.prepareLine, bare]

/-! ### The line on which an annotation begins -/

section Name

variable {name : List Char}

theorem IsLetters.isAnnotationName (hn : IsLetters name) :
    ∀ c ∈ name, isAnnotationName c = true := by
  intro c hc
  have halpha : c.isAlphanum = true := by rw [Char.isAlphanum, hn c hc, Bool.true_or]
  rw [Idl.isAnnotationName, isAlphanumeric_of_isAlphanum halpha]
  rfl

theorem IsLetters.notMem (hn : IsLetters name) {mark : Char} (hmark : mark.isAlpha = false) :
    mark ∉ name := by
  intro hmem
  have halpha := hn mark hmem
  rw [hmark] at halpha
  cases halpha

theorem IsLetters.isBlank (hn : IsLetters name) : ∀ c ∈ name, isBlank c = false := by
  intro c hc
  have hstart : isIdentifierStart c = true := by rw [isIdentifierStart, hn c hc, Bool.true_or]
  exact isBlank_of_isIdentifierRest (isIdentifierRest_of_isIdentifierStart hstart)

/-- An annotation goes on behind its name. -/
theorem IsLetters.afterAnnotationName_append (hn : IsLetters name) {s : List Char}
    (hs : ∀ c ∈ s.head?, Idl.isAnnotationName c = false) :
    afterAnnotationName (name ++ s) = trimStart s := by
  rw [afterAnnotationName, List.dropWhile_append_of_pos hn.isAnnotationName, dropWhile_eq_self hs]

/-- An annotation's name and what is behind it, in a line. -/
theorem bare_annotation (hn : IsLetters name) (s : List Char) :
    bare ('@' :: (name ++ s)) = '@' :: (name ++ trimEnd (withoutComment s)) := by
  have hslash : '/' ∉ '@' :: name := List.not_mem_cons_of_ne_of_not_mem (by decide) (hn.notMem rfl)
  have hquote : '"' ∉ '@' :: name := List.not_mem_cons_of_ne_of_not_mem (by decide) (hn.notMem rfl)
  have hcut : withoutComment ('@' :: name ++ s) = '@' :: name ++ withoutComment s := by
    rw [withoutComment, cutComment_append (cutComment_eq_self hslash _),
      literalAfter_eq_outside hquote, withoutComment]
    exact fun hlast => absurd (List.mem_of_getLast? hlast) hslash
  have hlast : ∀ c ∈ ('@' :: name).getLast?, isBlank c = false := by
    intro c hc
    rcases List.mem_cons.mp (List.mem_of_getLast? hc) with rfl | hc
    · rfl
    · exact hn.isBlank c hc
  rw [← List.cons_append, bare, hcut, trim_eq_trimEnd (by simp [isBlank]),
    trimEnd_append_of_getLast? hlast, List.cons_append]

/-- **What stands behind an opening parenthesis** is read as arguments. -/
theorem prepareLine_open (hn : IsLetters name) (s : List Char) :
    prepareLine .start ('@' :: (name ++ '(' :: s)) = prepareLine ⟨1, .outside⟩ s := by
  have hend : trimEnd (withoutComment ('(' :: s)) = '(' :: trimEnd (withoutComment s) :=
    trimEnd_cons rfl _
  have hafter : afterAnnotationName (name ++ '(' :: trimEnd (withoutComment s))
      = '(' :: trimEnd (withoutComment s) := by
    rw [hn.afterAnnotationName_append (by simp; decide +kernel)]
    rfl
  rw [prepareLine, bare_annotation hn, hend, skipAnnotations_at_of_open rfl hafter, prepareLine,
    bare, ← trimStart_trimEnd, skipAnnotations_trimStart Nat.one_pos]
  rfl

/-- What stands behind an annotation's name and a blank is left of the line, unless it looks like
arguments. -/
theorem prepareLine_name (hn : IsLetters name) {s : List Char}
    (hs : ∀ c ∈ s.head?, Idl.isAnnotationName c = false) (hbare : (bare s).head? ≠ some '(') :
    prepareLine .start ('@' :: (name ++ s)) = prepareLine .start s := by
  have hhead : ∀ c ∈ (trimEnd (withoutComment s)).head?, Idl.isAnnotationName c = false := by
    intro c hc
    obtain ⟨rest, hrest⟩ := withoutComment_prefix s
    obtain ⟨blanks, -, hblanks⟩ := exists_eq_trimEnd_append (withoutComment s)
    refine hs c ?_
    rw [← hrest, hblanks, List.append_assoc, List.head?_append, Option.mem_def.mp hc]
    rfl
  have hafter : afterAnnotationName (name ++ trimEnd (withoutComment s)) = bare s := by
    rw [hn.afterAnnotationName_append hhead, trimStart_trimEnd, bare]
  rw [prepareLine, bare_annotation hn, skipAnnotations_at rfl, hafter, prepareLine]
  intro arguments harguments
  rw [hafter] at harguments
  rw [harguments] at hbare
  exact hbare rfl

end Name

/-! ### Texts behind annotations -/

/-- The line that closes the arguments goes on with what stands behind them. -/
theorem statements_of_readsLines {depth : Nat} (hdepth : 0 < depth) {first : List (List Char)}
    {last rest : List Char} (h : ReadsLines depth (first ++ [last]) 1) (more : List (List Char)) :
    statements ⟨depth, .outside⟩ (first ++ (last ++ ')' :: rest) :: more)
      = statements .start (rest :: more) := by
  induction first generalizing depth with
  | nil =>
    cases h with
    | last hlast => exact statements_cons_congr (hlast.prepareLine_close hdepth rest) more
    | cons _ hrest => cases hrest
  | cons line first ih =>
    rw [List.cons_append] at h ⊢
    generalize hlines : first ++ [last] = lines at h
    cases h with
    | last hlast => exact absurd hlines (by simp)
    | cons hline hrest =>
      subst hlines
      have hprepare := hline.prepareLine hdepth
      rw [statements_cons_of_eq_nil (by rw [hprepare]), hprepare]
      exact ih (hline.pos hdepth) hrest

/-- **A text behind a written annotation with arguments** is read as if it stood alone. -/
theorem statements_arguments {name arguments : List Char} (hn : IsLetters name)
    (ha : IsArguments arguments) (s : List Char) :
    statements .start (('@' :: (name ++ '(' :: (arguments ++ ')' :: s))).splitOn '\n')
      = statements .start (s.splitOn '\n') := by
  obtain ⟨rest, more, hs⟩ := List.exists_cons_of_ne_nil (List.splitOn_ne_nil '\n' s)
  have hclose : (')' :: s).splitOn '\n' = (')' :: rest) :: more := by
    rw [← List.singleton_append, splitOn_append_of_notMem (by decide), hs]
    rfl
  -- the lines of the arguments alone, and of the arguments with the text behind them
  obtain ⟨first, last, hsplit⟩ := exists_splitOn_append '\n' arguments
  have hread : ReadsLines 1 (first ++ [last]) 1 := by
    have hlines := ha.readsLines Nat.one_pos (by simp) (s := []) (.last (.nil 1))
    rwa [hsplit [] [] [] rfl, List.append_nil] at hlines
  have htext := hsplit _ _ _ hclose
  have hname : '\n' ∉ '@' :: (name ++ ['(']) := by
    have hfeed : '\n' ∉ name := hn.notMem rfl
    simpa using hfeed
  obtain ⟨line, others, hline⟩ :=
    List.exists_cons_of_ne_nil (List.splitOn_ne_nil '\n' (arguments ++ ')' :: s))
  have hfirst : ('@' :: (name ++ '(' :: (arguments ++ ')' :: s))).splitOn '\n'
      = ('@' :: (name ++ '(' :: line)) :: others := by
    have happend := splitOn_append_of_notMem hname (arguments ++ ')' :: s)
    rw [hline] at happend
    simpa using happend
  calc
    _ = statements .start (('@' :: (name ++ '(' :: line)) :: others) := by rw [hfirst]
    _ = statements ⟨1, .outside⟩ (line :: others) :=
      statements_cons_congr (prepareLine_open hn line) others
    _ = statements ⟨1, .outside⟩ (first ++ (last ++ ')' :: rest) :: more) := by rw [← hline, htext]
    _ = statements .start (rest :: more) := statements_of_readsLines Nat.one_pos hread more
    _ = statements .start (s.splitOn '\n') := by rw [hs]

/-- **A text behind a written annotation without arguments** is read as if it stood alone, unless
its first statement looks like arguments. -/
theorem statements_annotationName {name s : List Char} (hn : IsLetters name)
    (hs : ∀ c ∈ s.head?, isAnnotationName c = false)
    (h : ∀ text ∈ statements .start (s.splitOn '\n'), text.head? ≠ some '(') :
    statements .start (('@' :: (name ++ s)).splitOn '\n')
      = statements .start (s.splitOn '\n') := by
  obtain ⟨rest, more, hsplit⟩ := List.exists_cons_of_ne_nil (List.splitOn_ne_nil '\n' s)
  have hname : '\n' ∉ '@' :: name := by
    have hfeed : '\n' ∉ name := hn.notMem rfl
    simpa using hfeed
  have hfirst : ('@' :: (name ++ s)).splitOn '\n' = ('@' :: (name ++ rest)) :: more := by
    rw [← List.cons_append, splitOn_append_of_notMem hname, hsplit]
    rfl
  rw [hfirst, hsplit]
  rw [hsplit] at h
  refine statements_cons_congr (prepareLine_name hn (fun c hc => hs c ?_) fun hbare => ?_) more
  · exact head?_of_splitOn (by rw [hsplit]; rfl) hc
  · have hleft : (prepareLine .start rest).2 = bare rest := by
      rw [prepareLine, skipAnnotations_of_head?_ne rfl (by rw [hbare]; decide)]
    have hne : bare rest ≠ [] := by
      intro hnil
      rw [hnil] at hbare
      cases hbare
    refine h (bare rest) ?_ hbare
    rw [statements_cons_of_ne_nil (by rw [hleft]; exact hne), hleft]
    exact List.mem_cons_self

/-- **A text behind a written annotation** and a space or a line break is read as if it stood
alone, unless its first statement looks like arguments. -/
theorem IsAnnotationText.statements_append {written s : List Char} (h : IsAnnotationText written)
    (hs : ∀ c ∈ s.head?, isAnnotationName c = false)
    (hopen : ∀ text ∈ statements .start (s.splitOn '\n'), text.head? ≠ some '(') :
    statements .start ((written ++ s).splitOn '\n') = statements .start (s.splitOn '\n') := by
  cases h with
  | plain hn => exact statements_annotationName hn hs hopen
  | applied hn ha =>
    have h := statements_arguments hn ha s
    simpa using h

end RosInterface.Idl
