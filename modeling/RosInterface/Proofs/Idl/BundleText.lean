import RosInterface.Proofs.Idl.Layout
import RosInterface.Proofs.Idl.Sections

/-!
# Bundles that are written

Sections are written as a bundle: above each of them stands a line of equals signs, then a header
with the path of the section in one of its spellings, then the lines of its body. The text may be
laid out with blank lines and with blanks at the ends of lines. It is read as the same sections in
the same order, and the first section with a path is found under either spelling of the path.

Whatever the text of a bundle is, its lines that are neither blank nor separators are the headers of
its sections, each with the body of its section below.

## Main definitions

* `Idl.IsLaidOut`: a text with given lines.
* `Idl.Section.IsPrintable`: a section that can be written.
* `Idl.WrittenSection`, `Idl.WrittenSection.lines`: a section with the way it is written.
* `Idl.Section.IsHeadedBy`: a header line of a section.

## Main results

* `Idl.bundleLines_of_isLaidOut`: the lines of a text that is laid out.
* `Idl.sections_of_isLaidOut`: the sections of a bundle that is written.
* `Idl.findSection?_text_eq_some_iff`: the first section with a path is found.
* `Idl.exists_headers_of_sections`: the lines of a bundle are those of its sections.
-/

namespace RosInterface.Idl

open Text

/-! ### Lines that are laid out -/

/-- The text has the given lines, with blanks at their ends or none. Lines without content may stand
between them, and no line feed needs to end the text. -/
inductive IsLaidOut : List (List Char) → List Char → Prop
  /-- At the end there may be blanks. -/
  | last {margin : List Char} : IsMargin margin → IsLaidOut [] margin
  /-- A line without content may be put in. -/
  | blank {margin text : List Char} {written : List (List Char)} : IsMargin margin →
      IsLaidOut written text → IsLaidOut written (margin ++ '\n' :: text)
  /-- The last line need not be ended. -/
  | lastLine {before line after : List Char} : IsMargin before → IsMargin after →
      IsLaidOut [line] (before ++ (line ++ after))
  /-- A line may have blanks at its ends. -/
  | line {before line after text : List Char} {written : List (List Char)} : IsMargin before →
      IsMargin after → IsLaidOut written text →
        IsLaidOut (line :: written) (before ++ (line ++ after) ++ '\n' :: text)

theorem bundleLines_of_isMargin {margin : List Char} (h : IsMargin margin) :
    bundleLines margin = [] := by
  rw [bundleLines_of_notMem h.line, (trim_eq_nil_iff margin).mpr h.blank]
  rfl

/-- A line with blanks at its ends. -/
theorem bundleLines_margin_append {before line after : List Char} (hbefore : IsMargin before)
    (hafter : IsMargin after) (hline : IsContent line) :
    '\n' ∉ before ++ (line ++ after) ∧ bundleLines (before ++ (line ++ after)) = [line] := by
  have hone : '\n' ∉ before ++ (line ++ after) := by
    simp only [List.mem_append, not_or]
    exact ⟨hbefore.line, hline.lineFeed_notMem, hafter.line⟩
  refine ⟨hone, ?_⟩
  rw [bundleLines_of_notMem hone, trim_blanks_append hbefore.blank,
    trim_append_blanks hafter.blank, ← bundleLines_of_notMem hline.lineFeed_notMem,
    bundleLines_of_isContent hline]

/-- **The lines of a text that is laid out** are read, however it is laid out. -/
theorem bundleLines_of_isLaidOut {written : List (List Char)} {text : List Char}
    (h : IsLaidOut written text) (hwritten : ∀ line ∈ written, IsContent line) :
    bundleLines text = written := by
  induction h with
  | last hmargin => exact bundleLines_of_isMargin hmargin
  | blank hmargin _ ih =>
    rw [bundleLines_append hmargin.line, bundleLines_of_isMargin hmargin, ih hwritten,
      List.nil_append]
  | lastLine hbefore hafter =>
    exact (bundleLines_margin_append hbefore hafter (hwritten _ List.mem_cons_self)).2
  | line hbefore hafter _ ih =>
    obtain ⟨hline, hrest⟩ := List.forall_mem_cons.mp hwritten
    obtain ⟨hone, hlines⟩ := bundleLines_margin_append hbefore hafter hline
    rw [bundleLines_append hone, hlines, ih hrest, List.singleton_append]

/-! ### Sections that are printed -/

/-- The section can be written. Its path has segments, which stand for themselves in either
spelling, and its body has lines that stand for themselves in a bundle. -/
structure Section.IsPrintable (s : Section) : Prop where
  /-- The path is not empty. -/
  path_ne_nil : s.path ≠ []
  /-- The segments of the path stand for themselves. -/
  isScopeSegment : ∀ segment ∈ s.path, IsScopeSegment segment
  /-- The path is written on one line. -/
  lineFeed_notMem : ∀ segment ∈ s.path, '\n' ∉ segment.toList
  /-- The lines of the body stand for themselves. -/
  isBundleLine : ∀ line ∈ s.body, IsBundleLine line

instance (s : Section) : Decidable s.IsPrintable :=
  decidable_of_iff (s.path ≠ [] ∧ (∀ segment ∈ s.path, IsScopeSegment segment) ∧
      (∀ segment ∈ s.path, '\n' ∉ segment.toList) ∧ ∀ line ∈ s.body, IsBundleLine line)
    ⟨fun ⟨hne, hsegments, hpath, hbody⟩ => ⟨hne, hsegments, hpath, hbody⟩,
      fun ⟨hne, hsegments, hpath, hbody⟩ => ⟨hne, hsegments, hpath, hbody⟩⟩

/-- A section with the way it is written. -/
structure WrittenSection where
  /-- The section. -/
  content : Section
  /-- The spelling of the path in the header. -/
  spelling : PathSpelling
  /-- How many equals signs stand above the header, besides the first one. -/
  width : Nat

namespace WrittenSection

/-- The line of equals signs above the header. -/
def rule (w : WrittenSection) : List Char :=
  List.replicate (w.width + 1) '='

/-- The header. -/
def header (w : WrittenSection) : List Char :=
  "IDL: ".toList ++ (w.spelling.text w.content.path).toList

/-- The lines of the section as it is written. -/
def lines (w : WrittenSection) : List (List Char) :=
  w.rule :: w.header :: w.content.body

variable {w : WrittenSection}

theorem isSeparator_rule (w : WrittenSection) : isSeparator w.rule = true := by
  simp [isSeparator, rule, List.replicate_succ]

/-- The header is a line of a bundle. -/
theorem isBundleLine_header (h : w.content.IsPrintable) : IsBundleLine w.header := by
  have hsegments : ∀ segment ∈ w.content.path, IsSegment segment :=
    fun segment hs => (h.isScopeSegment segment hs).toIsSegment
  obtain ⟨last, hlast, hblank⟩ := exists_getLast?_text hsegments h.path_ne_nil w.spelling
  have hpath : '\n' ∉ (w.spelling.text w.content.path).toList :=
    notMem_text h.lineFeed_notMem w.spelling (by cases w.spelling <;> decide)
  exact {
    trim_eq := by
      refine trim_eq_self (fun c hc => ?_) fun c hc => ?_
      · obtain rfl : 'I' = c := Option.some.inj hc
        rfl
      · rw [header, List.getLast?_append, hlast] at hc
        obtain rfl : last = c := Option.some.inj hc
        exact hblank
    ne_nil := List.cons_ne_nil _ _
    lineFeed_notMem := by
      rw [header, List.mem_append, not_or]
      exact ⟨by decide, hpath⟩
    isSeparator_eq := rfl }

/-- The section is read from its header and its body. -/
theorem isReadFrom (h : w.content.IsPrintable) :
    w.content.IsReadFrom (w.header :: w.content.body) := by
  have hpath := pathSegments_text h.isScopeSegment h.path_ne_nil w.spelling
  have hread := isReadFrom_header (hpath ▸ h.path_ne_nil) w.content.body
  rwa [hpath, ← header, (isBundleLine_header h).trim_eq] at hread

end WrittenSection

variable {written : List WrittenSection}

/-- The groups of a bundle that is written are the sections, each with its header. -/
theorem groups_flatMap_lines (h : ∀ w ∈ written, w.content.IsPrintable) :
    groups (written.flatMap WrittenSection.lines)
      = [] :: written.map fun w => w.header :: w.content.body := by
  induction written with
  | nil => rfl
  | cons w written ih =>
    obtain ⟨hw, hwritten⟩ := List.forall_mem_cons.mp h
    have hgroup : ∀ line ∈ w.header :: w.content.body, isSeparator line = false :=
      List.forall_mem_cons.mpr ⟨(WrittenSection.isBundleLine_header hw).isSeparator_eq,
        fun line hline => (hw.isBundleLine line hline).isSeparator_eq⟩
    rw [List.flatMap_cons, WrittenSection.lines, List.cons_append,
      groups_cons_of_isSeparator w.isSeparator_rule, groups_append hgroup, ih hwritten,
      List.modifyHead_cons, List.append_nil, List.map_cons]

/-- The lines of sections that are written stand for themselves. -/
theorem isContent_of_mem_lines (h : ∀ w ∈ written, w.content.IsPrintable) :
    ∀ line ∈ written.flatMap WrittenSection.lines, IsContent line := by
  intro line hline
  obtain ⟨w, hw, hline⟩ := List.mem_flatMap.mp hline
  rcases List.mem_cons.mp hline with rfl | hline
  · exact isContent_of_isSeparator w.isSeparator_rule
  · rcases List.mem_cons.mp hline with rfl | hline
    · exact (WrittenSection.isBundleLine_header (h w hw)).isContent
    · exact ((h w hw).isBundleLine line hline).isContent

/-- **A bundle that is written is read as its sections**, however it is laid out. -/
theorem sections_of_isLaidOut {text : List Char} (hne : written ≠ [])
    (h : ∀ w ∈ written, w.content.IsPrintable)
    (htext : IsLaidOut (written.flatMap WrittenSection.lines) text) :
    sections text = .ok (written.map WrittenSection.content) := by
  have hgroups : ((groups (bundleLines text)).filter fun group => !group.isEmpty)
      = written.map fun w => w.header :: w.content.body := by
    rw [bundleLines_of_isLaidOut htext (isContent_of_mem_lines h), groups_flatMap_lines h,
      List.filter_cons_of_neg (by simp)]
    exact List.filter_eq_self.mpr (List.forall_mem_map.mpr fun w _ => rfl)
  rw [sections_eq_ok_iff, hgroups, List.forall₂_map_left_iff, List.forall₂_map_right_iff,
    List.forall₂_same]
  exact ⟨fun w hw => WrittenSection.isReadFrom (h w hw), by simpa using hne⟩

/-- **The first section with a path is found**, under either spelling of the path. -/
theorem findSection?_text_eq_some_iff {path : Path} (hne : path ≠ [])
    (h : ∀ segment ∈ path, IsScopeSegment segment) (spelling : PathSpelling)
    {parts : List Section} {s : Section} :
    findSection? parts (spelling.text path) = some s ↔
      ∃ before after, parts = before ++ s :: after ∧ s.path = path ∧
        ∀ other ∈ before, other.path ≠ path := by
  rw [findSection?, pathSegments_text h hne, List.find?_eq_some_iff_append]
  simp only [decide_eq_true_iff, Bool.not_eq_true', decide_eq_false_iff_not]
  constructor
  · rintro ⟨hs, before, after, hparts, hbefore⟩
    exact ⟨before, after, hparts, hs, hbefore⟩
  · rintro ⟨before, after, hparts, hs, hbefore⟩
    exact ⟨hs, before, after, hparts, hbefore⟩

/-! ### The lines of any bundle -/

/-- The line is a header with the path of the section. -/
def Section.IsHeadedBy (s : Section) (header : List Char) : Prop :=
  ∃ path, pathSegments path = s.path ∧ header = "IDL:".toList ++ path

/-- Groups of lines from which sections are read are the headers and the bodies of the sections. -/
theorem exists_headers_of_isReadFrom {parts : List Section} {read : List (List (List Char))}
    (h : List.Forall₂ Section.IsReadFrom parts read) :
    ∃ headers, List.Forall₂ Section.IsHeadedBy parts headers ∧
      read = List.zipWith (fun s header => header :: s.body) parts headers := by
  induction h with
  | nil => exact ⟨[], .nil, rfl⟩
  | cons hs _ ih =>
    obtain ⟨path, hpath, -, rfl⟩ := Section.isReadFrom_iff.mp hs
    obtain ⟨headers, hheaders, rfl⟩ := ih
    exact ⟨("IDL:".toList ++ path) :: headers, .cons ⟨path, hpath, rfl⟩ hheaders, rfl⟩

/-- **The lines of a bundle are those of its sections**, each header with its body below. -/
theorem exists_headers_of_sections {text : List Char} {parts : List Section}
    (h : sections text = .ok parts) :
    ∃ headers, List.Forall₂ Section.IsHeadedBy parts headers ∧
      ((bundleLines text).filter fun line => !isSeparator line)
        = (List.zipWith (fun s header => header :: s.body) parts headers).flatten := by
  obtain ⟨hread, -⟩ := sections_eq_ok_iff.mp h
  obtain ⟨headers, hheaders, hgroups⟩ := exists_headers_of_isReadFrom hread
  refine ⟨headers, hheaders, ?_⟩
  rw [← flatten_groups, ← List.flatten_filter_not_isEmpty, hgroups]

/-- **A bundle that is written is read back, and nothing is lost in reading.** Sections that are
written as a bundle, with any layout, are read as these sections in their order; the first one with
a path is found under either spelling of the path. The lines of any bundle that are neither blank
nor separators are, without the blanks at their ends, the headers of its sections, each with the
body of its section below. -/
theorem sections_of_written_and_lines_of_sections :
    (∀ (written : List WrittenSection) (text : List Char), written ≠ [] →
      (∀ w ∈ written, w.content.IsPrintable) →
        IsLaidOut (written.flatMap WrittenSection.lines) text →
          sections text = .ok (written.map WrittenSection.content) ∧
          ∀ path : Path, path ≠ [] → (∀ segment ∈ path, IsScopeSegment segment) →
            ∀ (spelling : PathSpelling) (s : Section),
              findSection? (written.map WrittenSection.content) (spelling.text path) = some s ↔
                ∃ before after, written.map WrittenSection.content = before ++ s :: after ∧
                  s.path = path ∧ ∀ other ∈ before, other.path ≠ path) ∧
    ∀ (text : List Char) (parts : List Section), sections text = .ok parts →
      ∃ headers, List.Forall₂ Section.IsHeadedBy parts headers ∧
        ((lines text).map trim).filter (fun line => !line.isEmpty && !isSeparator line)
          = (List.zipWith (fun s header => header :: s.body) parts headers).flatten := by
  constructor
  · intro written text hne h htext
    exact ⟨sections_of_isLaidOut hne h htext, fun path hpath hsegments spelling s =>
      findSection?_text_eq_some_iff hpath hsegments spelling⟩
  · intro text parts h
    obtain ⟨headers, hheaders, hlines⟩ := exists_headers_of_sections h
    refine ⟨headers, hheaders, ?_⟩
    rw [← hlines, bundleLines, List.filter_filter]
    exact List.filter_congr fun line _ => Bool.and_comm _ _

/-- Two sections, the headers of which are spelled differently. -/
def spelledSections : List WrittenSection :=
  [⟨⟨["p", "A"], ["struct A \x7b\x7d;".toList]⟩, .slash, 0⟩, ⟨⟨["p", "B"], []⟩, .scope, 2⟩]

/-- The two sections with blank lines, indentation and a carriage return. -/
def spelledText : List Char :=
  "\n =\nIDL: p/A\r\n\tstruct A \x7b\x7d;\n\n===\nIDL: p::B".toList

theorem isLaidOut_spelledText :
    IsLaidOut (spelledSections.flatMap WrittenSection.lines) spelledText := by
  have hnone : IsMargin [] := ⟨by decide, by decide⟩
  have hspace : IsMargin [' '] := ⟨by decide, by decide⟩
  have htab : IsMargin ['\t'] := ⟨by decide, by decide⟩
  have hreturn : IsMargin ['\r'] := ⟨by decide, by decide⟩
  exact .blank hnone (.line hspace hnone (.line hnone hreturn (.line htab hnone
    (.blank hnone (.line hnone hnone (.lastLine hnone hnone))))))

theorem sections_spelledText :
    (sections spelledText = .ok (spelledSections.map WrittenSection.content) ∧
      findSection? (spelledSections.map WrittenSection.content) "p::A"
        = some ⟨["p", "A"], ["struct A \x7b\x7d;".toList]⟩) ∧
    ∃ headers,
      List.Forall₂ Section.IsHeadedBy (spelledSections.map WrittenSection.content) headers ∧
        ["IDL: p/A".toList, "struct A \x7b\x7d;".toList, "IDL: p::B".toList]
          = (List.zipWith (fun s header => header :: s.body)
              (spelledSections.map WrittenSection.content) headers).flatten := by
  obtain ⟨hread, hfind⟩ := sections_of_written_and_lines_of_sections.1 spelledSections spelledText
    (by decide) (by decide +kernel) isLaidOut_spelledText
  refine ⟨⟨hread, ?_⟩, ?_⟩
  · exact (hfind ["p", "A"] (by decide) (by decide +kernel) .scope _).mpr
      ⟨[], [⟨["p", "B"], []⟩], rfl, rfl, by simp⟩
  · obtain ⟨headers, hheaders, hlines⟩ :=
      sections_of_written_and_lines_of_sections.2 spelledText _ hread
    refine ⟨headers, hheaders, hlines ▸ ?_⟩
    decide +kernel

end RosInterface.Idl
