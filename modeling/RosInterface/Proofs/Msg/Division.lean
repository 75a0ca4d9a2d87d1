import Mathlib.Data.List.Forall2
import RosInterface.Outcome
import RosInterface.Text.Bytes
import RosInterface.Msg.Interface

/-!
# The sections of a definition

Lines of three dashes divide the definition of a service or an action into sections. Each such line
is a whole line, and it is not part of a section. Between them nothing is lost: the sections and
these lines, put together, are the text, and there is no other way to divide it.

A text that is held as bytes is divided at bytes. They are counted line by line, so a section begins
and ends between two characters.

## Main definitions

* `Msg.Divides`: sections with lines of three dashes between them.
* `Msg.sectionBounds`: the bytes at which the sections of a text begin and end.

## Main results

* `Msg.divides_iff`: a text is divided in one way.
* `Msg.forall₂_standsAt`: the sections stand between the bytes that are counted.
* `Msg.sectionedRecords_eq_wrongSectionCount_iff`: when there is a wrong number of sections.
* `Msg.sections_divide_text`: all of it, for services and actions.
-/

namespace RosInterface.Msg

open Text

variable {s line rest text : List Char} {found separators : List (List Char)}

/-! ### Lines of three dashes -/

/-- The end of a line does not matter. -/
theorem isDashes_append_blanks {blanks : List Char} (h : IsBlanks blanks) (line : List Char) :
    isDashes (line ++ blanks) = isDashes line := by
  rw [isDashes, isDashes, trim_append_blanks h]

theorem isDashes_withoutLineEnd (raw : List Char) : isDashes (withoutLineEnd raw) = isDashes raw := by
  obtain ⟨blanks, hblanks, hraw⟩ := exists_eq_withoutLineEnd_append raw
  rw [← isDashes_append_blanks hblanks, ← hraw]

theorem countP_lines (text : List Char) :
    (lines text).countP isDashes = (rawLines text).countP isDashes := by
  rw [lines, List.countP_map]
  exact List.countP_congr fun raw _ => by rw [Function.comp_apply, isDashes_withoutLineEnd]

/-- There is one section more than there are lines of three dashes. -/
theorem length_sections_eq_countP_lines (text : List Char) :
    (sections text).length = (lines text).countP isDashes + 1 := by
  rw [length_sections, countP_lines]

/-- There are as many lines of three dashes as there are such pieces between the line feeds. -/
theorem countP_splitOn (text : List Char) :
    (text.splitOn '\n').countP isDashes = (lines text).countP isDashes := by
  rw [countP_lines]
  induction text using piece_induction '\n' with
  | last s hs =>
    rw [List.splitOn_eq_singleton hs]
    by_cases hnil : s = []
    · subst hnil
      rfl
    · rw [rawLines_of_notMem hs hnil]
  | piece raw rest hraw ih =>
    rw [List.splitOn_append_cons_self_of_not_mem hraw, rawLines_append hraw, List.countP_cons,
      List.countP_cons, ih, isDashes_append_blanks (by decide)]

/-- None of the lines is a line of three dashes. -/
def HasNoDashes (text : List Char) : Prop :=
  ∀ line ∈ lines text, isDashes line = false

theorem hasNoDashes_iff : HasNoDashes text ↔ ∀ raw ∈ rawLines text, isDashes raw = false := by
  simp only [HasNoDashes, lines, List.forall_mem_map, isDashes_withoutLineEnd]

theorem hasNoDashes_nil : HasNoDashes [] :=
  fun _ hline => nomatch hline

/-! ### Divisions -/

/-- The line stands whole before the rest of a text: a line feed ends it, or the text does. -/
def IsLineBefore (line rest : List Char) : Prop :=
  (∃ content, '\n' ∉ content ∧ line = content ++ ['\n']) ∨ ('\n' ∉ line ∧ rest = [])

/-- The text consists of sections without lines of three dashes, and of such lines, one between each
section and the next. -/
inductive Divides : List (List Char) → List (List Char) → List Char → Prop
  | last {s : List Char} : HasNoDashes s → Divides [s] [] s
  | cons {s line rest : List Char} {found separators : List (List Char)} : IsWhole s →
      HasNoDashes s → IsLineBefore line rest → isDashes line = true →
      Divides found separators rest → Divides (s :: found) (line :: separators) (s ++ (line ++ rest))

/-- Nothing is lost. -/
theorem Divides.exists_eq_append (h : Divides found separators text) :
    ∃ first more, found = first :: more ∧ more.length = separators.length ∧
      text = first ++ (List.zipWith (· ++ ·) separators more).flatten := by
  induction h with
  | @last s _ => exact ⟨s, [], rfl, rfl, (List.append_nil s).symm⟩
  | @cons s line rest found separators _ _ _ _ _ ih =>
    obtain ⟨first, more, rfl, hlength, rfl⟩ := ih
    exact ⟨s, first :: more, rfl, congrArg (· + 1) hlength, by simp⟩

theorem Divides.hasNoDashes (h : Divides found separators text) :
    ∀ part ∈ found, HasNoDashes part := by
  induction h with
  | last hs => exact List.forall_mem_singleton.mpr hs
  | cons _ hs _ _ _ ih => exact List.forall_mem_cons.mpr ⟨hs, ih⟩

theorem IsLineBefore.rawLines_append (h : IsLineBefore line rest) (hne : line ≠ []) :
    rawLines (line ++ rest) = line :: rawLines rest := by
  rcases h with ⟨content, hcontent, rfl⟩ | ⟨hline, rfl⟩
  · rw [List.append_assoc, List.singleton_append, Text.rawLines_append hcontent]
  · rw [List.append_nil, rawLines_of_notMem hline hne]
    rfl

theorem modifyHead_nil_append (found : List (List Char)) :
    found.modifyHead (([] : List Char) ++ ·) = found :=
  congrFun List.modifyHead_id found

theorem sectionsOfLines_ne_nil (ls : List (List Char)) : sectionsOfLines ls ≠ [] := by
  fun_cases sectionsOfLines ls <;> simp_all

/-- Another line belongs to the first section. -/
theorem sectionsOfLines_cons (h : isDashes line = false) (others : List (List Char)) :
    sectionsOfLines (line :: others) = (sectionsOfLines others).modifyHead (line ++ ·) := by
  obtain ⟨first, more, hothers⟩ := List.exists_cons_of_ne_nil (sectionsOfLines_ne_nil others)
  rw [sectionsOfLines, if_neg (by simp [h]), hothers]
  rfl

/-- Lines before a text belong to its first section. -/
theorem sectionsOfLines_append {first : List (List Char)}
    (h : ∀ line ∈ first, isDashes line = false) (others : List (List Char)) :
    sectionsOfLines (first ++ others)
      = (sectionsOfLines others).modifyHead (first.flatten ++ ·) := by
  induction first with
  | nil => exact (modifyHead_nil_append _).symm
  | cons line first ih =>
    obtain ⟨hline, hfirst⟩ := List.forall_mem_cons.mp h
    rw [List.cons_append, sectionsOfLines_cons hline, ih hfirst, List.modifyHead_modifyHead]
    congr 1
    funext others
    exact (List.append_assoc line first.flatten others).symm

/-- A text without lines of three dashes belongs to the first section of what follows. -/
theorem HasNoDashes.sectionsOfLines_append (h : HasNoDashes s) (others : List (List Char)) :
    sectionsOfLines (rawLines s ++ others) = (sectionsOfLines others).modifyHead (s ++ ·) := by
  have happend := Msg.sectionsOfLines_append (hasNoDashes_iff.mp h) others
  rwa [flatten_rawLines] at happend

theorem HasNoDashes.filter_rawLines (h : HasNoDashes s) : (rawLines s).filter isDashes = [] :=
  List.filter_eq_nil_iff.mpr fun raw hraw => by simp [hasNoDashes_iff.mp h raw hraw]

/-- **A text is divided by its own sections only.** -/
theorem Divides.eq (h : Divides found separators text) :
    found = sections text ∧ separators = (rawLines text).filter isDashes := by
  induction h with
  | @last s hs =>
    have happend := hs.sectionsOfLines_append []
    rw [List.append_nil, sectionsOfLines, List.modifyHead_cons, List.append_nil] at happend
    exact ⟨happend.symm, hs.filter_rawLines.symm⟩
  | @cons s line rest found separators hwhole hs hline hdashes _ ih =>
    have hne : line ≠ [] := by
      rintro rfl
      cases hdashes
    have hlines : rawLines (s ++ (line ++ rest)) = rawLines s ++ line :: rawLines rest := by
      rw [rawLines_append_of_isWhole hwhole, hline.rawLines_append hne]
    constructor
    · rw [sections, hlines, hs.sectionsOfLines_append, sectionsOfLines, if_pos hdashes,
        List.modifyHead_cons, List.append_nil, ih.1, sections]
    · rw [hlines, List.filter_append, hs.filter_rawLines, List.filter_cons_of_pos hdashes, ← ih.2,
        List.nil_append]

theorem HasNoDashes.line_append (h : HasNoDashes s) {raw : List Char} (hraw : '\n' ∉ raw)
    (hdashes : isDashes raw = false) : HasNoDashes (raw ++ '\n' :: s) := by
  rw [hasNoDashes_iff] at h ⊢
  rw [rawLines_append hraw, List.forall_mem_cons]
  exact ⟨by rwa [isDashes_append_blanks (by decide)], h⟩

/-- Another line may stand before the first section. -/
theorem Divides.line_append (h : Divides found separators text) {raw : List Char} (hraw : '\n' ∉ raw)
    (hdashes : isDashes raw = false) :
    Divides (found.modifyHead (raw ++ '\n' :: ·)) separators (raw ++ '\n' :: text) := by
  cases h with
  | last hs => exact .last (hs.line_append hraw hdashes)
  | @cons s line rest found separators hwhole hs hline hdash hrest =>
    have hcons := hrest.cons (hwhole.line_append raw) (hs.line_append hraw hdashes) hline hdash
    rwa [List.append_assoc, List.cons_append] at hcons

/-- The sections of a text divide it. -/
theorem divides_sections (text : List Char) :
    Divides (sections text) ((rawLines text).filter isDashes) text := by
  induction text using piece_induction '\n' with
  | last s hs =>
    by_cases hnil : s = []
    · subst hnil
      exact .last hasNoDashes_nil
    · have hlines := rawLines_of_notMem hs hnil
      cases hdashes : isDashes s with
      | false =>
        rw [sections, hlines, sectionsOfLines_cons hdashes, List.filter_cons_of_neg (by simp [hdashes])]
        have hsection : HasNoDashes s := hasNoDashes_iff.mpr (by simp [hlines, hdashes])
        simpa [sectionsOfLines] using Divides.last hsection
      | true =>
        -- the text is a line of three dashes between two empty sections
        have hcons := Divides.last hasNoDashes_nil |>.cons isWhole_nil hasNoDashes_nil
          (.inr ⟨hs, rfl⟩) hdashes
        rw [List.nil_append, List.append_nil] at hcons
        rwa [sections, hlines, sectionsOfLines, if_pos hdashes, List.filter_cons_of_pos hdashes]
  | piece raw rest hraw ih =>
    rw [sections, rawLines_append hraw]
    have hend : isDashes (raw ++ ['\n']) = isDashes raw := isDashes_append_blanks (by decide) raw
    -- the first line begins the first section, or it stands behind an empty one
    cases hdashes : isDashes raw with
    | false =>
      rw [sectionsOfLines_cons (hend.trans hdashes),
        List.filter_cons_of_neg (by simp [hend, hdashes])]
      simpa [sections] using ih.line_append hraw hdashes
    | true =>
      have hcons := ih.cons isWhole_nil hasNoDashes_nil (.inl ⟨raw, hraw, rfl⟩)
        (hend.trans hdashes)
      rw [List.nil_append, List.append_assoc, List.singleton_append] at hcons
      rwa [sectionsOfLines, if_pos (hend.trans hdashes),
        List.filter_cons_of_pos (hend.trans hdashes)]

/-- **A text is divided in one way.** -/
theorem divides_iff : Divides found separators text ↔
    found = sections text ∧ separators = (rawLines text).filter isDashes :=
  ⟨Divides.eq, fun ⟨hfound, hseparators⟩ => hfound ▸ hseparators ▸ divides_sections text⟩

/-! ### Bytes -/

/-- The bytes at which the sections of a text begin and end. The first section begins at the byte
`start`, and the lines that are left begin at the byte `offset`. -/
def sectionBounds (start offset : Nat) : List (List Char) → List (Nat × Nat)
  | [] => [(start, offset)]
  | line :: rest =>
    let behind := offset + byteSize line
    if isDashes line then (start, offset) :: sectionBounds behind behind rest
    else sectionBounds start behind rest

/-- The sections stand between the bytes that are counted. What stands before the lines that are
left belongs to the first section from `part` on. -/
theorem forall₂_standsAt (before part : List Char) (ls : List (List Char)) :
    List.Forall₂ (StandsAt (before ++ (part ++ ls.flatten)))
      ((sectionsOfLines ls).modifyHead (part ++ ·))
      (sectionBounds (byteSize before) (byteSize (before ++ part)) ls) := by
  induction ls generalizing before part with
  | nil =>
    rw [sectionsOfLines, List.modifyHead_cons, List.append_nil]
    exact .cons ⟨before, [], rfl, rfl⟩ .nil
  | cons line ls ih =>
    have hbehind : byteSize (before ++ part) + byteSize line = byteSize (before ++ (part ++ line)) := by
      rw [← byteSize_append, List.append_assoc]
    rw [sectionBounds, hbehind]
    cases hdashes : isDashes line with
    | false =>
      have hmore := ih before (part ++ line)
      rw [sectionsOfLines_cons hdashes, List.modifyHead_modifyHead, if_neg Bool.false_ne_true]
      simpa [Function.comp_def] using hmore
    | true =>
      rw [sectionsOfLines, if_pos hdashes, List.modifyHead_cons, List.append_nil, if_pos rfl]
      refine .cons ⟨before, (line :: ls).flatten, rfl, rfl⟩ ?_
      have hmore := ih (before ++ (part ++ line)) []
      rw [modifyHead_nil_append] at hmore
      simpa using hmore

/-- **The sections of a text stand between the bytes that are counted.** -/
theorem forall₂_sectionBounds (text : List Char) :
    List.Forall₂ (StandsAt text) (sections text) (sectionBounds 0 0 (rawLines text)) := by
  have hall := forall₂_standsAt [] [] (rawLines text)
  rwa [modifyHead_nil_append, flatten_rawLines] at hall

/-! ### Numbers of sections -/

variable {read : Reader} {owner q : QualifiedName} {word ownerWord : String} {expected n : Nat}

theorem sectionRecord_ne_wrongSectionCount (record : QualifiedName) (part : List Char) :
    sectionRecord read record part ≠ .error (.wrongSectionCount word q expected n) := by
  rw [sectionRecord]
  split
  · exact nofun
  · split <;> exact nofun

/-- What is wrong in a section is not their number. -/
theorem partRecords_ne_wrongSectionCount (suffixes : List String) (parts : List (List Char)) :
    partRecords read owner suffixes parts ≠ .error (.wrongSectionCount word q expected n) := by
  fun_induction partRecords read owner suffixes parts with
  | case1 suffix suffixes part parts ih =>
    simp only [Ne, bind_eq_error_iff, not_or, not_exists, not_and]
    exact ⟨sectionRecord_ne_wrongSectionCount _ part, fun _ _ => ⟨ih, fun _ _ => nofun⟩⟩
  | case2 => exact nofun

/-- **The number of sections is found to be wrong** exactly if it is another one than that of the
records, and the error tells both. -/
theorem sectionedRecords_eq_wrongSectionCount_iff {suffixes : List String} {text : List Char} :
    sectionedRecords read ownerWord owner suffixes text
        = .error (.wrongSectionCount word q expected n) ↔
      (lines text).countP isDashes + 1 ≠ suffixes.length ∧ word = ownerWord ∧ q = owner ∧
        expected = suffixes.length ∧ n = (lines text).countP isDashes + 1 := by
  rw [sectionedRecords, length_sections_eq_countP_lines]
  split
  next h => simp [partRecords_ne_wrongSectionCount, h]
  next h => simp [h, eq_comm]

variable {name : String}

/-- With a name of a service, there is a wrong number of sections unless there is one line of three
dashes. -/
theorem serviceRecordsWith_eq_wrongSectionCount_iff (h : recordName .service name = .ok owner) :
    serviceRecordsWith read name text = .error (.wrongSectionCount word q expected n) ↔
      (lines text).countP isDashes ≠ 1 ∧ word = "service" ∧ q = owner ∧ expected = 2 ∧
        n = (lines text).countP isDashes + 1 := by
  have hrecords : serviceRecordsWith read name text
      = sectionedRecords read "service" owner ServiceParts.suffixes.toList text := by
    rw [serviceRecordsWith, h]
    rfl
  rw [hrecords, sectionedRecords_eq_wrongSectionCount_iff]
  exact and_congr_left' (Nat.succ_ne_succ_iff)

/-- With a name of an action, there is a wrong number of sections unless there are two lines of three
dashes. -/
theorem actionRecordsWith_eq_wrongSectionCount_iff (h : recordName .action name = .ok owner) :
    actionRecordsWith read name text = .error (.wrongSectionCount word q expected n) ↔
      (lines text).countP isDashes ≠ 2 ∧ word = "action" ∧ q = owner ∧ expected = 3 ∧
        n = (lines text).countP isDashes + 1 := by
  have hrecords : actionRecordsWith read name text
      = sectionedRecords read "action" owner ActionParts.suffixes.toList text := by
    rw [actionRecordsWith, h]
    rfl
  rw [hrecords, sectionedRecords_eq_wrongSectionCount_iff]
  exact and_congr_left' (Nat.succ_ne_succ_iff)

/-- **Where a definition is divided into sections nothing is lost.** The sections and the lines of
three dashes between them are the text, these lines are whole lines, there is none of them in a
section, and the text is divided in no other way. Counted in bytes, the sections begin and end
between two characters. There is one section more than there are such lines, of which there are as
many as such pieces between the line feeds, so neither the ends of the lines nor a line feed at the
end of the text matter. A service is rejected for the number of its sections unless there is one such
line, and an action unless there are two, whatever the sections hold. -/
theorem sections_divide_text (text : List Char) :
    (∀ found separators, Divides found separators text ↔
      found = sections text ∧ separators = (rawLines text).filter isDashes) ∧
    (∃ first more, sections text = first :: more ∧
      more.length = ((rawLines text).filter isDashes).length ∧
      text = first ++ (List.zipWith (· ++ ·) ((rawLines text).filter isDashes) more).flatten) ∧
    (∀ part ∈ sections text, HasNoDashes part) ∧
    List.Forall₂ (fun part bounds =>
      (⟨bounds.1⟩ : String.Pos.Raw).IsValid (String.ofList text) ∧
      (⟨bounds.2⟩ : String.Pos.Raw).IsValid (String.ofList text) ∧
      text.utf8Encode.extract bounds.1 bounds.2 = part.utf8Encode)
      (sections text) (sectionBounds 0 0 (rawLines text)) ∧
    (sections text).length = (lines text).countP isDashes + 1 ∧
    (text.splitOn '\n').countP isDashes = (lines text).countP isDashes ∧
    (∀ read name owner, recordName .service name = .ok owner → ∀ word q expected n,
      serviceRecordsWith read name text = .error (.wrongSectionCount word q expected n) ↔
        (lines text).countP isDashes ≠ 1 ∧ word = "service" ∧ q = owner ∧ expected = 2 ∧
          n = (lines text).countP isDashes + 1) ∧
    (∀ read name owner, recordName .action name = .ok owner → ∀ word q expected n,
      actionRecordsWith read name text = .error (.wrongSectionCount word q expected n) ↔
        (lines text).countP isDashes ≠ 2 ∧ word = "action" ∧ q = owner ∧ expected = 3 ∧
          n = (lines text).countP isDashes + 1) := by
  have hdivides := divides_sections text
  refine ⟨fun _ _ => divides_iff, hdivides.exists_eq_append, hdivides.hasNoDashes,
    (forall₂_sectionBounds text).imp fun _ _ h => h.isValid_and_extract_eq,
    length_sections_eq_countP_lines text, countP_splitOn text,
    fun _ _ _ h _ _ _ _ => serviceRecordsWith_eq_wrongSectionCount_iff h,
    fun _ _ _ h _ _ _ _ => actionRecordsWith_eq_wrongSectionCount_iff h⟩

/-- Two lines of three dashes, with blanks around them and different ends. -/
def twiceDividedText : List Char :=
  "int32 a\n\u00a0--- \r\nint32 b\n---".toList

theorem serviceRecords_twiceDividedText :
    recordName .service "pkg/srv/Twice" = .ok ⟨["pkg", "srv"], "Twice"⟩ ∧
    serviceRecords "pkg/srv/Twice" twiceDividedText
      = .error (.wrongSectionCount "service" ⟨["pkg", "srv"], "Twice"⟩ 2 3) := by
  have hname : recordName .service "pkg/srv/Twice" = .ok ⟨["pkg", "srv"], "Twice"⟩ := by decide
  have hcount : (lines twiceDividedText).countP isDashes = 2 := by decide
  obtain ⟨-, -, -, -, -, -, hservice, -⟩ := sections_divide_text twiceDividedText
  exact ⟨hname, (hservice _ _ _ hname _ _ _ _).mpr
    ⟨by rw [hcount]; decide, rfl, rfl, rfl, by rw [hcount]⟩⟩

end RosInterface.Msg
