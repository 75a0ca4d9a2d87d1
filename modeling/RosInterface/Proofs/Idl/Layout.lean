import Mathlib.Logic.Relation
import RosInterface.Proofs.Idl.Arguments
import RosInterface.Proofs.Idl.OpenArguments

/-!
# Layout, comments and annotations

A text may be laid out in many ways. Blanks may be added at the ends of lines, lines without
content may be put in, comments may be added and annotations may be put in front of lines. None of
this changes the statements of the text, so the text declares the same.

Only an annotation without arguments needs care: what stands behind its name would be its arguments
if it began with a parenthesis. No statement of an accepted text begins like that.

## Main definitions

* `Idl.Edit`: one edit of the layout of a text.

## Main results

* `Idl.Progress.head?_ne_of_action?`: a statement that can be read begins with no parenthesis.
* `Idl.Edit.statements_eq`: an edit leaves the statements of a text as they are.
* `Idl.records_of_edits`: an accepted text declares the same after any number of edits.
-/

namespace RosInterface.Idl

open Text

/-- Blanks on one line. -/
structure IsMargin (s : List Char) : Prop where
  /-- All characters are blank. -/
  blank : IsBlanks s
  /-- None of them ends the line. -/
  line : '\n' ∉ s

/-- A line without content: blanks, and a comment or none. -/
inductive IsIdle : List Char → Prop
  | blank {margin : List Char} : IsMargin margin → IsIdle margin
  | comment {margin comment : List Char} : IsMargin margin → '\n' ∉ comment →
      IsIdle (margin ++ '/' :: '/' :: comment)

/-- The text begins where a line ends: only blanks stand before the next line feed. -/
def AtLineEnd (s : List Char) : Prop :=
  ∃ margin rest, IsMargin margin ∧ s = margin ++ rest ∧ (rest = [] ∨ rest.head? = some '\n')

/-- One edit of the layout of a text. -/
inductive Edit : List Char → List Char → Prop
  /-- Blanks at the start of a line. -/
  | indent {before margin rest : List Char} : IsWhole before → IsMargin margin →
      Edit (before ++ rest) (before ++ (margin ++ rest))
  /-- Blanks at the end of a line. -/
  | trail {before line margin rest : List Char} : IsWhole before → '\n' ∉ line → IsMargin margin →
      AtLineEnd rest → Edit (before ++ (line ++ rest)) (before ++ (line ++ (margin ++ rest)))
  /-- A line without content before another line. -/
  | lineBefore {before line rest : List Char} : IsWhole before → IsIdle line →
      Edit (before ++ rest) (before ++ (line ++ '\n' :: rest))
  /-- A line without content behind the last line. -/
  | lineBehind {before line : List Char} : IsIdle line → Edit before (before ++ '\n' :: line)
  /-- A space and a comment behind a line, the string literals of which are closed. -/
  | comment {before line comment rest : List Char} : IsWhole before → '\n' ∉ line →
      literalAfter .outside (withoutComment line) = .outside → '\n' ∉ comment → AtLineEnd rest →
      Edit (before ++ (line ++ rest)) (before ++ (line ++ (' ' :: '/' :: '/' :: comment ++ rest)))
  /-- An annotation at the start of a line, or behind the blanks there, outside the arguments of
  other annotations. A space or a line break stands behind it. -/
  | annotated {before margin written rest : List Char} {mark : Char} : IsWhole before →
      ¬EndsInArguments before → IsMargin margin → IsAnnotationText written →
      mark = ' ' ∨ mark = '\n' →
      Edit (before ++ (margin ++ rest)) (before ++ (margin ++ (written ++ mark :: rest)))

/-! ### Statements that begin with a parenthesis -/

/-- A first character that is no comma is left when commas are cut. -/
theorem trimCommas_cons {c : Char} (hc : c ≠ ',') (s : List Char) :
    trimCommas (c :: s) = c :: trimCommas s := by
  rw [trimCommas, List.reverse_cons, List.dropWhile_append]
  split
  · rename_i h
    rw [trimCommas, List.isEmpty_iff.mp h, List.dropWhile_cons_of_neg (by simpa using hc)]
    rfl
  · rw [List.reverse_append]
    rfl

/-- No member begins with a parenthesis. -/
theorem toOption_memberOfLine_paren (s : List Char) :
    (memberOfLine ('(' :: s)).toOption = none := by
  rw [memberOfLine]
  cases h : [';'].isSuffixOf? ('(' :: s) with
  | none => rfl
  | some body =>
    have hbody := eq_append_of_isSuffixOf? h
    cases body with
    | nil => cases hbody
    | cons c body =>
      obtain rfl : '(' = c := (List.cons.inj hbody).1
      have htype : typeExpr? ('(' :: trimEnd body) = none := by
        rw [typeExpr?.eq_def]
        rfl
      simp only [trim_cons (c := '(') rfl, wholeMember, memberBody, htype]
      rfl

/-- No value of an enum begins with a parenthesis. -/
theorem toOption_enumValueOfLine_paren (s : List Char) :
    (enumValueOfLine ('(' :: s)).toOption = none := by
  rw [enumValueOfLine, trim_cons rfl, trimCommas_cons (by decide), trim_cons rfl]
  rfl

/-- **A statement that can be read does not begin with a parenthesis.** -/
theorem Progress.head?_ne_of_action? {progress : Progress} {text : List Char} {action : Action}
    (h : progress.action? text = some action) : text.head? ≠ some '(' := by
  intro hhead
  obtain ⟨s, rfl⟩ := List.head?_eq_some_iff.mp hhead
  have hcontent : Statement.ofLine ('(' :: s) = .content := rfl
  cases action?_eq_some_iff.mp h with
  | member _ _ hmember =>
    have hnone := toOption_memberOfLine_paren s
    rw [hmember] at hnone
    cases hnone
  | value _ _ hvalue =>
    have hnone := toOption_enumValueOfLine_paren s
    rw [hvalue] at hnone
    cases hnone
  | skipped hs | typedef hs | openModule hs | openStruct hs | openEnum hs | closeBody hs
  | closeModule hs => cases hcontent.symm.trans hs

/-- No statement of an accepted text begins with a parenthesis. -/
theorem Progress.head?_ne_of_actions? {progress : Progress} {texts : List (List Char)}
    {actions : List Action} (h : progress.actions? texts = some actions) :
    ∀ text ∈ texts, text.head? ≠ some '(' := by
  induction texts generalizing progress actions with
  | nil => exact fun text htext => absurd htext List.not_mem_nil
  | cons first texts ih =>
    obtain ⟨action, more, haction, hmore, -⟩ := actions?_cons_eq_some_iff.mp h
    exact List.forall_mem_cons.mpr ⟨head?_ne_of_action? haction, ih hmore⟩

/-! ### Edits -/

variable {before : List Char}

theorem IsIdle.bare_eq_nil {line : List Char} (h : IsIdle line) : bare line = [] := by
  cases h with
  | @blank margin hmargin =>
    rw [← List.append_nil line, bare_blanks_append hmargin.blank]
    rfl
  | comment hmargin _ =>
    rw [bare_blanks_append hmargin.blank]
    rfl

theorem IsIdle.notMem_lineFeed {line : List Char} (h : IsIdle line) : '\n' ∉ line := by
  cases h with
  | blank hmargin => exact hmargin.line
  | comment hmargin hcomment =>
    simpa using ⟨hmargin.line, hcomment⟩

/-- The first piece of a text at the end of a line is blank. -/
theorem AtLineEnd.exists_splitOn {s : List Char} (h : AtLineEnd s) :
    ∃ margin more, IsBlanks margin ∧ s.splitOn '\n' = margin :: more := by
  obtain ⟨margin, rest, hmargin, rfl, rfl | hrest⟩ := h
  · exact ⟨margin, [], hmargin.blank, by
      rw [List.append_nil, List.splitOn_eq_singleton hmargin.line]⟩
  · obtain ⟨more, rfl⟩ := List.head?_eq_some_iff.mp hrest
    exact ⟨margin, _, hmargin.blank, List.splitOn_append_cons_self_of_not_mem hmargin.line more⟩

/-- Texts that have the same bare lines may stand for each other behind whole lines. -/
theorem statements_congr_of_bareLines (h : IsWhole before) {s t : List Char}
    (hbare : bareLines (t.splitOn '\n') = bareLines (s.splitOn '\n')) :
    statements .start (lines (before ++ t)) = statements .start (lines (before ++ s)) := by
  rw [statements_lines_append h, statements_lines_append h, ← statements_bareLines _ (t.splitOn _),
    hbare, statements_bareLines]

/-- A line may be exchanged at its end, if the same is bare. -/
theorem bareLines_splitOn_congr {line line' rest : List Char} (hline : '\n' ∉ line)
    (hline' : '\n' ∉ line') (h : ∀ head more, rest.splitOn '\n' = head :: more →
      bare (line' ++ head) = bare (line ++ head)) :
    bareLines ((line' ++ rest).splitOn '\n') = bareLines ((line ++ rest).splitOn '\n') := by
  obtain ⟨head, more, hrest⟩ := List.exists_cons_of_ne_nil (List.splitOn_ne_nil '\n' rest)
  rw [splitOn_append_of_notMem hline, splitOn_append_of_notMem hline', hrest]
  refine bareLines_congr ?_
  rw [List.modifyHead_cons, List.modifyHead_cons, List.map_cons, List.map_cons, h head more hrest]

/-- A comment behind a line does not count, if the literals of the line are closed. -/
theorem bare_append_comment {line : List Char}
    (h : literalAfter .outside (withoutComment line) = .outside) (comment : List Char) :
    bare (line ++ ' ' :: '/' :: '/' :: comment) = bare line := by
  by_cases hline : cutComment .outside line = line
  · rw [withoutComment, hline] at h
    have hcut : withoutComment (line ++ ' ' :: '/' :: '/' :: comment) = line ++ [' '] := by
      rw [withoutComment, cutComment_append hline fun _ hhead => absurd hhead (by simp), h]
      rfl
    rw [bare, hcut, trim_append_blanks (by decide), bare, withoutComment, hline]
  · rw [bare, withoutComment, cutComment_append_of_ne _ hline, bare, withoutComment]

/-- Blanks at the start of a line do not count. -/
theorem bareLines_margin_append {margin : List Char} (h : IsMargin margin) (rest : List Char) :
    bareLines ((margin ++ rest).splitOn '\n') = bareLines (rest.splitOn '\n') := by
  rw [← List.nil_append rest]
  exact bareLines_splitOn_congr List.not_mem_nil h.line fun head _ _ =>
    bare_blanks_append h.blank head

/-- A space or a line break at the start of a line does not count. -/
theorem statements_mark_cons {mark : Char} (h : mark = ' ' ∨ mark = '\n') (state : AnnotationState)
    (rest : List Char) :
    statements state ((mark :: rest).splitOn '\n') = statements state (rest.splitOn '\n') := by
  rw [← statements_bareLines, ← statements_bareLines _ (rest.splitOn _)]
  rcases h with rfl | rfl
  · have hspace : IsMargin [' '] := ⟨by decide, by decide⟩
    exact congrArg _ (bareLines_margin_append hspace rest)
  · exact congrArg _ (bareLines_cons_of_eq_nil rfl _)

/-- **An edit leaves the statements of a text as they are,** if none of them begins with a
parenthesis. -/
theorem Edit.statements_eq {s t : List Char} (h : Edit s t)
    (hopen : ∀ text ∈ statements .start (lines s), text.head? ≠ some '(') :
    statements .start (lines t) = statements .start (lines s) := by
  cases h with
  | indent hwhole hmargin =>
    exact statements_congr_of_bareLines hwhole (bareLines_margin_append hmargin _)
  | @trail before line margin rest hwhole hline hmargin hrest =>
    obtain ⟨head, more, hhead, hsplit⟩ := hrest.exists_splitOn
    refine statements_congr_of_bareLines hwhole ?_
    rw [← List.append_assoc]
    refine bareLines_splitOn_congr hline (by simpa using ⟨hline, hmargin.line⟩) ?_
    intro head' more' hsplit'
    obtain ⟨rfl, rfl⟩ := List.cons.inj (hsplit'.symm.trans hsplit)
    rw [List.append_assoc, bare_append_blanks (hmargin.blank.append hhead),
      bare_append_blanks hhead]
  | @lineBefore before line rest hwhole hidle =>
    refine statements_congr_of_bareLines hwhole ?_
    rw [List.splitOn_append_cons_self_of_not_mem hidle.notMem_lineFeed,
      bareLines_cons_of_eq_nil hidle.bare_eq_nil]
  | @lineBehind _ line hidle =>
    have hline : bareLines [line] = [] := bareLines_cons_of_eq_nil hidle.bare_eq_nil []
    rw [statements_lines, statements_lines, List.splitOn_append_cons_self,
      List.splitOn_eq_singleton hidle.notMem_lineFeed, ← statements_bareLines, bareLines_append,
      hline, List.append_nil, statements_bareLines]
  | @comment before line comment rest hwhole hline hclosed hcomment hrest =>
    obtain ⟨head, more, hhead, hsplit⟩ := hrest.exists_splitOn
    refine statements_congr_of_bareLines hwhole ?_
    rw [← List.append_assoc]
    refine bareLines_splitOn_congr hline (by simpa using ⟨hline, hcomment⟩) ?_
    intro head' more' hsplit'
    obtain ⟨rfl, rfl⟩ := List.cons.inj (hsplit'.symm.trans hsplit)
    rw [List.append_assoc, bare_append_blanks hhead]
    exact bare_append_comment hclosed _
  | @annotated before margin written rest mark hwhole hbefore hmargin hwritten hmark =>
    have hstart := annotationsAfter_eq_start (Nat.eq_zero_of_not_pos hbefore)
    have hmark' : ∀ c ∈ (mark :: rest).head?, isAnnotationName c = false := by
      rintro c ⟨⟩
      rcases hmark with rfl | rfl <;> decide +kernel
    have hrest : statements .start (lines (before ++ (margin ++ rest)))
        = statements .start (lines before) ++ statements .start ((mark :: rest).splitOn '\n') := by
      rw [statements_congr_of_bareLines hwhole (bareLines_margin_append hmargin rest),
        statements_lines_append hwhole, hstart, statements_mark_cons hmark]
    rw [statements_congr_of_bareLines hwhole (bareLines_margin_append hmargin _),
      statements_lines_append hwhole, hstart, hwritten.statements_append hmark' ?_, hrest]
    intro text htext
    rw [hrest] at hopen
    exact hopen text (List.mem_append_right _ htext)

/-- Texts with the same statements declare the same, if they are accepted. -/
theorem declarations_congr {s t : List Char} {found : Declarations}
    (hsame : statements .start (lines t) = statements .start (lines s))
    (h : declarations s = .ok found) : declarations t = .ok found := by
  rw [declarations_eq_ok_iff] at h ⊢
  rwa [hsame]

/-- An edit leaves an accepted text accepted, and what it declares as it is. -/
theorem declarations_of_edit {s t : List Char} {found : Declarations}
    (h : declarations s = .ok found) (hedit : Edit s t) : declarations t = .ok found := by
  obtain ⟨actions, hactions, -⟩ := declarations_eq_ok_iff.mp h
  exact declarations_congr (hedit.statements_eq (Progress.head?_ne_of_actions? hactions)) h

/-- **Layout, comments and annotations say nothing.** An accepted text is accepted after any number
of edits of its layout, and declares the same records. -/
theorem records_of_edits {s t : List Char} {found : List Record} (h : records s = .ok found)
    (hedits : Relation.ReflTransGen Edit s t) : records t = .ok found := by
  obtain ⟨declared, hdeclared, rfl⟩ := records_eq_ok_iff.mp h
  have ht : declarations t = .ok declared := by
    clear h
    induction hedits with
    | refl => exact hdeclared
    | tail _ hedit ih => exact declarations_of_edit ih hedit
  exact records_eq_ok_iff.mpr ⟨declared, ht, rfl⟩

/-- A struct with one member. -/
def pointText : List Char :=
  "struct Point \x7b\n  int32 x;\n\x7d;\n".toList

/-- The same struct behind an annotation, and with a comment. -/
def annotatedPointText : List Char :=
  "@unit(\n\")\") struct Point \x7b // in (mm\n  int32 x;\n\x7d;\n".toList

theorem edits_annotatedPointText : Relation.ReflTransGen Edit pointText annotatedPointText := by
  have hannotation : Edit pointText ("@unit(\n\")\") ".toList ++ pointText) :=
    @Edit.annotated [] [] "@unit(\n\")\")".toList pointText ' ' isWhole_nil (by decide +kernel)
      ⟨by decide, by decide⟩
      (@IsAnnotationText.applied "unit".toList "\n\")\"".toList (by decide)
        (.char (by decide) (by decide) (by decide) (by decide)
          (@IsArguments.literal [')'] [] (.char (by decide) (by decide) (by decide) .nil) .nil)))
      (.inl rfl)
  have hcomment : Edit ("@unit(\n\")\") ".toList ++ pointText) annotatedPointText :=
    @Edit.comment "@unit(\n".toList "\")\") struct Point \x7b".toList " in (mm".toList
      "\n  int32 x;\n\x7d;\n".toList (by decide) (by decide) (by decide) (by decide)
      ⟨[], _, ⟨by decide, by decide⟩, rfl, .inr rfl⟩
  exact .tail (.single hannotation) hcomment

theorem records_annotatedPointText :
    records pointText = .ok [⟨"Point", [⟨"x", .primitive "int32"⟩]⟩] ∧
      Relation.ReflTransGen Edit pointText annotatedPointText ∧
      records annotatedPointText = .ok [⟨"Point", [⟨"x", .primitive "int32"⟩]⟩] :=
  have h : records pointText = .ok [⟨"Point", [⟨"x", .primitive "int32"⟩]⟩] := by decide +kernel
  ⟨h, edits_annotatedPointText, records_of_edits h edits_annotatedPointText⟩

end RosInterface.Idl
