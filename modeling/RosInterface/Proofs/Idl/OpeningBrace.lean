import RosInterface.Idl.Bundle
import RosInterface.Proofs.Idl.Insertion
import RosInterface.Proofs.Idl.OpeningLine

/-!
# Text behind an opening brace

Whatever stands behind the brace of an opening line is not looked at. So an accepted text remains
accepted with anything else there, and declares the same. In particular a member that stands there
is lost. If the line is broken behind the brace, the text there becomes a statement of its own, and
the records are the same only if that statement may as well not be there.

## Main definitions

* `Idl.OpensAt`: where the brace of an opening line stands.

## Main results

* `Idl.exists_opensAt`, `Idl.OpensAt.eq`: an opening line has one such place.
* `Idl.OpensAt.declarations_eq_ok_iff`: what stands behind the brace plays no part.
* `Idl.records_break_iff`: breaking an opening line behind its brace.
-/

namespace RosInterface.Idl

open Text

/-- A raw line that goes on with a brace behind `head` opens something there. -/
structure OpensAt (state : AnnotationState) (opening : Opening) (name : String)
    (head : List Char) : Prop where
  /-- No brace of the statement stands before. -/
  first : '\x7b' ∉ (prepareLine state head).2
  /-- Whatever stands behind the brace, the line opens the same. -/
  opens : ∀ tail,
    Statement.ofLine (prepareLine state (head ++ '\x7b' :: tail)).2 = opening.statement name

variable {state : AnnotationState} {opening : Opening} {name : String} {head : List Char}

/-- Every line that opens something does so at one of its braces. -/
theorem exists_opensAt (hstate : state.IsSettled) {line : List Char}
    (h : Statement.ofLine (prepareLine state line).2 = opening.statement name) :
    ∃ head tail, line = head ++ '\x7b' :: tail ∧ OpensAt state opening name head := by
  obtain ⟨header, rest, hheader, hline⟩ := ofLine_eq_statement_iff.mp h
  obtain ⟨head, tail, hsplit, hhead, hprepare⟩ := exists_prepareLine_header hstate hheader hline
  refine ⟨head, tail, hsplit, ?_, fun other => ?_⟩
  · obtain ⟨blanks, -, hblanks⟩ := exists_eq_trimEnd_append header
    intro hmem
    rw [hhead] at hmem
    refine hheader.brace_notMem opening.isIdentifier_keyword ?_
    rw [hblanks]
    exact List.mem_append_left _ hmem
  · obtain ⟨left, hleft⟩ := hprepare other
    rw [hleft]
    exact hheader.ofLine_append left

/-- A line opens something at no more than one of its braces. -/
theorem OpensAt.eq {opening' : Opening} {name' : String} {head' tail tail' : List Char}
    (h : OpensAt state opening name head) (h' : OpensAt state opening' name' head')
    (heq : head ++ '\x7b' :: tail = head' ++ '\x7b' :: tail') : head = head' := by
  -- the brace that stands before the other one is part of the statement before that
  have hno {opening opening' : Opening} {name name' : String} {head middle : List Char}
      (h : OpensAt state opening name head)
      (h' : OpensAt state opening' name' (head ++ '\x7b' :: middle)) : False := by
    obtain ⟨header, rest, -, hstatement⟩ := ofLine_eq_statement_iff.mp (h.opens middle)
    refine h'.first ?_
    rw [hstatement]
    exact List.mem_append_right _ List.mem_cons_self
  rcases List.append_eq_append_iff.mp heq with ⟨middle, rfl, hrest⟩ | ⟨middle, rfl, hrest⟩
  · cases middle with
    | nil => exact (List.append_nil head).symm
    | cons c middle =>
      obtain rfl : '\x7b' = c := (List.cons.inj hrest).1
      exact (hno h h').elim
  · cases middle with
    | nil => exact List.append_nil head'
    | cons c middle =>
      obtain rfl : '\x7b' = c := (List.cons.inj hrest).1
      exact (hno h' h).elim

theorem OpensAt.ne_nil (h : OpensAt state opening name head) (tail : List Char) :
    (prepareLine state (head ++ '\x7b' :: tail)).2 ≠ [] := by
  intro hnil
  have hopens := h.opens tail
  rw [hnil] at hopens
  cases opening <;> cases hopens

/-- The statements of lines that begin with an opening line. -/
theorem OpensAt.exists_statements (hstate : state.IsSettled) (h : OpensAt state opening name head)
    (tail : List Char) :
    ∃ text, Statement.ofLine text = opening.statement name ∧ ∀ raws,
      statements state ((head ++ '\x7b' :: tail) :: raws) = text :: statements .start raws := by
  refine ⟨_, h.opens tail, fun raws => ?_⟩
  rw [statements_cons_of_ne_nil (h.ne_nil tail), prepareLine_fst hstate (h.ne_nil tail)]

/-- Opening lines that open the same do the same. -/
theorem Progress.action?_congr_of_opening {text text' : List Char}
    (h : Statement.ofLine text = opening.statement name)
    (h' : Statement.ofLine text' = opening.statement name) (p : Progress) :
    p.action? text' = p.action? text := by
  rw [action?, action?, h, h']
  obtain ⟨modules, body⟩ := p.place
  cases opening <;> cases body <;> rfl

/-- Statements that do the same everywhere may stand for each other behind others. -/
theorem Progress.actions?_append_congr {more more' : List (List Char)}
    (h : ∀ p : Progress, p.actions? more' = p.actions? more) (texts : List (List Char))
    (p : Progress) : p.actions? (texts ++ more') = p.actions? (texts ++ more) := by
  induction texts generalizing p with
  | nil => exact h p
  | cons text texts ih =>
    rw [List.cons_append, List.cons_append, actions?, actions?]
    simp only [ih]

/-! ### Reading on behind the brace -/

section

variable {before t : List Char} {raws : List (List Char)} {tail : List Char}

/-- Behind the brace the reader stands outside arguments. -/
theorem OpensAt.annotationsAfter_eq (hwhole : IsWhole before) (hhead : '\n' ∉ head)
    (h : OpensAt (annotationsAfter .start (lines before)) opening name head) :
    annotationsAfter .start (lines (before ++ (head ++ ['\x7b']))) = .start := by
  rw [lines_append hwhole, annotationsAfter_append, annotationsAfter_lines,
    List.splitOn_eq_singleton (by simpa using hhead), annotationsAfter,
    prepareLine_fst (isSettled_annotationsAfter_start _) (h.ne_nil [])]
  rfl

/-- The reader behind the brace has done what the lines before and the opening line do. -/
theorem OpensAt.run_eq_ok_iff (hwhole : IsWhole before) (hhead : '\n' ∉ head)
    (h : OpensAt (annotationsAfter .start (lines before)) opening name head) {text : List Char}
    (htext : Statement.ofLine text = opening.statement name) {p : Progress} :
    Progress.start.run 1 (lines (before ++ (head ++ ['\x7b']))) = .ok p ↔
      ∃ first, Progress.start.actions? (statements .start (lines before) ++ [text]) = some first ∧
        Progress.start.applyAll first = p := by
  obtain ⟨text', htext', hstatements⟩ := h.exists_statements (isSettled_annotationsAfter_start _) []
  have hsame (q : Progress) : q.actions? [text'] = q.actions? [text] := by
    rw [Progress.actions?, Progress.actions?, Progress.action?_congr_of_opening htext htext']
  have hlines : statements .start (lines (before ++ (head ++ ['\x7b'])))
      = statements .start (lines before) ++ [text'] := by
    rw [statements_lines_append hwhole, List.splitOn_eq_singleton (by simpa using hhead)]
    exact congrArg _ (hstatements [])
  rw [Progress.run_eq_ok_iff]
  simp only [Progress.start, hlines, h.annotationsAfter_eq hwhole hhead,
    Progress.actions?_append_congr hsame]
  refine exists_congr fun first => and_congr_right fun _ => ?_
  rw [← Progress.applyAll_withAnnotations]

/-- **A text is read on behind the brace,** whatever stands there. -/
theorem OpensAt.declarations_eq_ok_iff (hwhole : IsWhole before) (hhead : '\n' ∉ head)
    (h : OpensAt (annotationsAfter .start (lines before)) opening name head)
    (ht : t.splitOn '\n' = (head ++ '\x7b' :: tail) :: raws) {found : Declarations} :
    declarations (before ++ t) = .ok found ↔
      ∃ p actions, Progress.start.run 1 (lines (before ++ (head ++ ['\x7b']))) = .ok p ∧
        p.actions? (statements .start raws) = some actions ∧
        (p.applyAll actions).place = ([], none) ∧ (p.applyAll actions).declarations = found := by
  obtain ⟨text, htext, hstatements⟩ := h.exists_statements (isSettled_annotationsAfter_start _) tail
  rw [Idl.declarations_eq_ok_iff, statements_lines_append hwhole, ht, hstatements,
    List.append_cons,
    Progress.exists_actions?_append_iff (P := fun p => p.place = _ ∧ p.declarations = found)]
  simp only [h.run_eq_ok_iff hwhole hhead htext]
  constructor
  · rintro ⟨first, actions, hfirst, hactions, hend⟩
    exact ⟨_, actions, ⟨first, hfirst, rfl⟩, hactions, hend⟩
  · rintro ⟨_, actions, ⟨first, hfirst, rfl⟩, hactions, hend⟩
    exact ⟨first, actions, hfirst, hactions, hend⟩

/-- **Which statements may stand behind the brace on a line of their own** without a change of the
records. -/
theorem OpensAt.records_lineFeed_iff (hwhole : IsWhole before) (hhead : '\n' ∉ head)
    (h : OpensAt (annotationsAfter .start (lines before)) opening name head)
    (ht : t.splitOn '\n' = (head ++ ['\x7b']) :: tail :: raws)
    (htail : (prepareLine .start tail).1 = .start) {p : Progress} {actions : List Action}
    (hp : Progress.start.run 1 (lines (before ++ (head ++ ['\x7b']))) = .ok p)
    (hactions : p.actions? (statements .start raws) = some actions)
    (hend : (p.applyAll actions).place = ([], none)) :
    records (before ++ t) = .ok (p.applyAll actions).declarations.records ↔
      p.MayOmit (p.contents actions) (prepareLine .start tail).2 := by
  have hread : records (before ++ t) = .ok (p.applyAll actions).declarations.records ↔
      ∃ others, p.actions? (statements .start (tail :: raws)) = some others ∧
        (p.applyAll others).place = ([], none) ∧
        (p.applyAll others).declarations.records = (p.applyAll actions).declarations.records := by
    simp only [records_eq_ok_iff, h.declarations_eq_ok_iff hwhole hhead ht, hp]
    constructor
    · rintro ⟨_, ⟨_, others, ⟨⟩, hothers, hplace, rfl⟩, hrecords⟩
      exact ⟨others, hothers, hplace, hrecords⟩
    · rintro ⟨others, hothers, hplace, hrecords⟩
      exact ⟨_, ⟨p, others, rfl, hothers, hplace, rfl⟩, hrecords⟩
  rw [hread]
  by_cases hnil : (prepareLine .start tail).2 = []
  · rw [statements_cons_of_eq_nil hnil, htail, hnil]
    exact iff_of_true ⟨actions, hactions, hend, rfl⟩ (.skipped rfl)
  · rw [statements_cons_of_ne_nil hnil, htail]
    exact Progress.insert_iff hactions hend _

end

/-! ### Breaking an opening line -/

/-- **Breaking an opening line behind its brace.** An accepted text declares the same whatever
stands behind the brace of an opening line. If the line is broken there, the text behind the brace
is read, and the records are the same exactly if its statement may as well not be there. -/
theorem records_break_iff {before line rest : List Char} {found : List Record}
    (hwhole : IsWhole before) (hline : '\n' ∉ line) (hrest : rest = [] ∨ rest.head? = some '\n')
    (hopening : Statement.ofLine (prepareLine (annotationsAfter .start (lines before)) line).2
      = opening.statement name)
    (h : records (before ++ (line ++ rest)) = .ok found) :
    ∃ head tail, line = head ++ '\x7b' :: tail ∧
      OpensAt (annotationsAfter .start (lines before)) opening name head ∧
      (∀ other, '\n' ∉ other →
        records (before ++ (head ++ '\x7b' :: (other ++ rest))) = .ok found) ∧
      ((prepareLine .start tail).1 = .start → ∃ p later,
        Progress.start.run 1 (lines (before ++ (head ++ ['\x7b']))) = .ok p ∧
        declarations (before ++ (line ++ rest)) = .ok (p.declarations.addAll later) ∧
        (records (before ++ (head ++ '\x7b' :: '\n' :: (tail ++ rest))) = .ok found ↔
          p.MayOmit later (prepareLine .start tail).2)) := by
  obtain ⟨head, tail, rfl, hat⟩ := exists_opensAt (isSettled_annotationsAfter_start _) hopening
  have hhead : '\n' ∉ head := fun hmem => hline (List.mem_append_left _ hmem)
  have htail : '\n' ∉ tail := fun hmem =>
    hline (List.mem_append_right _ (List.mem_cons_of_mem _ hmem))
  obtain ⟨raws, hraws⟩ : ∃ raws, rest.splitOn '\n' = [] :: raws := by
    rcases hrest with rfl | hrest
    · exact ⟨[], List.splitOn_nil _⟩
    · obtain ⟨more, rfl⟩ := List.head?_eq_some_iff.mp hrest
      exact ⟨_, List.splitOn_append_cons_self_of_not_mem List.not_mem_nil more⟩
  have hsplit {raw : List Char} (hraw : '\n' ∉ raw) :
      (raw ++ rest).splitOn '\n' = raw :: raws := by
    rw [splitOn_append_of_notMem hraw, hraws, List.modifyHead_cons, List.append_nil]
  have hread {other : List Char} (hother : '\n' ∉ other) (declared : Declarations) :
      declarations (before ++ (head ++ '\x7b' :: other ++ rest)) = .ok declared ↔ _ :=
    hat.declarations_eq_ok_iff hwhole hhead (hsplit (by simp [hhead, hother]))
  obtain ⟨declared, hdeclared, rfl⟩ := records_eq_ok_iff.mp h
  obtain ⟨p, actions, hp, hactions, hend, rfl⟩ := (hread htail declared).mp hdeclared
  refine ⟨head, tail, rfl, hat, fun other hother => ?_, fun hstart => ?_⟩
  · rw [← List.cons_append, ← List.append_assoc head, records_eq_ok_iff]
    exact ⟨_, (hread hother _).mpr ⟨p, actions, hp, hactions, hend, rfl⟩, rfl⟩
  · refine ⟨p, p.contents actions, hp, ?_, ?_⟩
    · rw [hdeclared, Progress.declarations_applyAll]
    · refine hat.records_lineFeed_iff hwhole hhead ?_ hstart hp hactions hend
      rw [List.append_cons, List.splitOn_append_cons_self_of_not_mem (by simpa using hhead),
        hsplit htail]

/-- An opening line with a member behind its brace. -/
def lostMemberLine : List Char :=
  "struct A \x7b int32 x;".toList

/-- The text behind that line. -/
def lostMemberRest : List Char :=
  "\n  int32 y;\n\x7d;\n".toList

theorem records_break_lostMember :
    records (lostMemberLine ++ lostMemberRest) = .ok [⟨"A", [⟨"y", .primitive "int32"⟩]⟩] ∧
      ∃ head tail, lostMemberLine = head ++ '\x7b' :: tail ∧ OpensAt .start .struct "A" head ∧
        (∀ other, '\n' ∉ other → records (head ++ '\x7b' :: (other ++ lostMemberRest))
          = .ok [⟨"A", [⟨"y", .primitive "int32"⟩]⟩]) ∧
        ((prepareLine .start tail).1 = .start → ∃ p later,
          Progress.start.run 1 (lines (head ++ ['\x7b'])) = .ok p ∧
          declarations (lostMemberLine ++ lostMemberRest) = .ok (p.declarations.addAll later) ∧
          (records (head ++ '\x7b' :: '\n' :: (tail ++ lostMemberRest))
              = .ok [⟨"A", [⟨"y", .primitive "int32"⟩]⟩] ↔
            p.MayOmit later (prepareLine .start tail).2)) :=
  have h : records (lostMemberLine ++ lostMemberRest)
      = .ok [⟨"A", [⟨"y", .primitive "int32"⟩]⟩] := by decide +kernel
  ⟨h, @records_break_iff .struct "A" [] lostMemberLine lostMemberRest _ isWhole_nil (by decide)
    (.inr rfl) (by decide +kernel) h⟩

/-- The member behind the brace is lost, and it is read if the line is broken there. -/
theorem records_lostMember :
    Statement.ofLine (prepareLine .start lostMemberLine).2 = .openStruct "A" ∧
      lostMemberLine = "struct A \x7b".toList ++ " int32 x;".toList ∧
      records (lostMemberLine ++ lostMemberRest) = .ok [⟨"A", [⟨"y", .primitive "int32"⟩]⟩] ∧
      records ("struct A \x7b".toList ++ '\n' :: (" int32 x;".toList ++ lostMemberRest))
        = .ok [⟨"A", [⟨"x", .primitive "int32"⟩, ⟨"y", .primitive "int32"⟩]⟩] := by
  decide +kernel

end RosInterface.Idl
