import Mathlib.Data.List.Basic
import RosInterface.QualifiedName

/-!
# Paths of segments

A path written with slashes between its segments is read back. What is read has no slash in a
segment, no blanks at its ends and is not empty, so it can be written and read again.

A name can be read from many texts, with more slashes and blanks between its segments. One of them
is the text that the name is written as, its *plain spelling*.

## Main definitions

* `IsSegment`: a text that stands for itself between slashes.
* `QualifiedName.Spells`: the plain spelling of a name.

## Main results

* `splitOn_intercalate`: the pieces between the slashes of a path are its segments.
* `intercalate_injective`: different paths are written differently.
* `slashSegments_intercalate`: a path is read back.
* `isSegment_of_mem_slashSegments`: only segments are read.
* `slashSegments_blanks_append`, `slashSegments_append_blanks`: blanks around a path do not count.
* `QualifiedName.parse?_eq_some_iff`, `QualifiedName.parse?_text`: reading and writing names.
* `QualifiedName.Spells.append`: a suffix of a name goes to the end of its plain spelling.
-/

namespace RosInterface

open Text

/-- The text stands for itself between slashes. -/
structure IsSegment (segment : String) : Prop where
  /-- The segment is not empty. -/
  ne_empty : segment ≠ ""
  /-- There is no slash in the segment. -/
  slash_notMem : '/' ∉ segment.toList
  /-- There are no blanks at the ends of the segment. -/
  trim_eq : trim segment.toList = segment.toList

instance (segment : String) : Decidable (IsSegment segment) :=
  decidable_of_iff
    (segment ≠ "" ∧ '/' ∉ segment.toList ∧ trim segment.toList = segment.toList)
    ⟨fun ⟨hne, hslash, htrim⟩ => ⟨hne, hslash, htrim⟩,
      fun ⟨hne, hslash, htrim⟩ => ⟨hne, hslash, htrim⟩⟩

variable {path path' : List String} {blanks : List Char}

/-- Two segments without a slash between them are one segment. -/
theorem IsSegment.append {first second : String} (h : IsSegment first) (h' : IsSegment second) :
    IsSegment (first ++ second) where
  ne_empty := fun hempty => h.ne_empty (String.append_eq_empty_iff.mp hempty).1
  slash_notMem := by
    rw [String.toList_append, List.mem_append, not_or]
    exact ⟨h.slash_notMem, h'.slash_notMem⟩
  trim_eq := by
    rw [String.toList_append]
    refine trim_eq_self (fun c hc => ?_) fun c hc => ?_
    · rw [List.head?_append_of_ne_nil _ (by simpa using h.ne_empty), ← h.trim_eq] at hc
      exact isBlank_of_mem_head?_trim c hc
    · rw [List.getLast?_append_of_ne_nil _ (by simpa using h'.ne_empty), ← h'.trim_eq] at hc
      exact isBlank_of_mem_getLast?_trim c hc

/-! ### Writing -/

/-- The pieces between the slashes of a path are its segments. -/
theorem splitOn_intercalate (h : ∀ segment ∈ path, '/' ∉ segment.toList) (hne : path ≠ []) :
    ("/".intercalate path).toList.splitOn '/' = path.map String.toList := by
  rw [String.toList_intercalate]
  exact List.splitOn_intercalate '/' (List.forall_mem_map.mpr h) (by simpa using hne)

/-- Different paths are written differently, unless there are slashes in their segments. -/
theorem intercalate_injective (h : ∀ segment ∈ path, '/' ∉ segment.toList) (hne : path ≠ [])
    (h' : ∀ segment ∈ path', '/' ∉ segment.toList) (hne' : path' ≠ [])
    (heq : "/".intercalate path = "/".intercalate path') : path = path' := by
  have hpieces := congrArg (fun s : String => s.toList.splitOn '/') heq
  simp only [splitOn_intercalate h hne, splitOn_intercalate h' hne'] at hpieces
  exact (List.map_inj_right fun _ _ => String.toList_inj.mp).mp hpieces

/-! ### Reading -/

/-- What is left of a piece between slashes stands for itself, unless the piece is blank. -/
theorem isSegment_trim {piece : List Char} (hslash : '/' ∉ piece) (hne : trim piece ≠ []) :
    IsSegment (String.ofList (trim piece)) where
  ne_empty := by rwa [Ne, ← String.toList_eq_nil_iff, String.toList_ofList]
  slash_notMem := by
    rw [String.toList_ofList]
    exact fun hmem => hslash (mem_of_mem_trim hmem)
  trim_eq := by rw [String.toList_ofList, trim_trim]

/-- Only segments are read. -/
theorem isSegment_of_mem_slashSegments {s : List Char} {segment : String}
    (h : segment ∈ slashSegments s) : IsSegment segment := by
  obtain ⟨trimmed, htrimmed, rfl⟩ := List.mem_map.mp h
  obtain ⟨hpiece, hne⟩ := List.mem_filter.mp htrimmed
  obtain ⟨piece, hmem, rfl⟩ := List.mem_map.mp hpiece
  exact isSegment_trim (notMem_of_mem_splitOn hmem) (by simpa using hne)

/-- Segments are read as they are. -/
theorem segmentsOf_map_toList (h : ∀ segment ∈ path, IsSegment segment) :
    segmentsOf (path.map String.toList) = path := by
  have htrim : (path.map String.toList).map trim = path.map String.toList := by
    rw [List.map_map]
    exact List.map_congr_left fun segment hs => (h segment hs).trim_eq
  have hfilter : (path.map String.toList).filter (fun piece => !piece.isEmpty)
      = path.map String.toList := by
    refine List.filter_eq_self.mpr (List.forall_mem_map.mpr fun segment hs => ?_)
    simpa using (h segment hs).ne_empty
  rw [segmentsOf, htrim, hfilter, List.map_map]
  exact (List.map_congr_left fun segment _ => String.ofList_toList).trans path.map_id

/-- A path is read back. -/
theorem slashSegments_intercalate (h : ∀ segment ∈ path, IsSegment segment) (hne : path ≠ []) :
    slashSegments ("/".intercalate path).toList = path := by
  rw [slashSegments, splitOn_intercalate (fun segment hs => (h segment hs).slash_notMem) hne,
    segmentsOf_map_toList h]

/-! ### Blanks around a path -/

/-- Blanks at the start of the first piece do not count. -/
theorem segmentsOf_modifyHead_blanks (h : IsBlanks blanks) (pieces : List (List Char)) :
    segmentsOf (pieces.modifyHead (blanks ++ ·)) = segmentsOf pieces := by
  cases pieces with
  | nil => rfl
  | cons piece pieces =>
    rw [List.modifyHead_cons, segmentsOf, List.map_cons, trim_blanks_append h, segmentsOf,
      List.map_cons]

/-- Blanks at the end of the last piece do not count. -/
theorem segmentsOf_append_blanks (h : IsBlanks blanks) (first : List (List Char))
    (last : List Char) : segmentsOf (first ++ [last ++ blanks]) = segmentsOf (first ++ [last]) := by
  rw [segmentsOf, List.map_append, List.map_singleton, trim_append_blanks h, segmentsOf,
    List.map_append, List.map_singleton]

/-- Blanks before a path do not count. -/
theorem slashSegments_blanks_append (h : IsBlanks blanks) (s : List Char) :
    slashSegments (blanks ++ s) = slashSegments s := by
  rw [slashSegments, splitOn_append_of_notMem (h.notMem rfl), segmentsOf_modifyHead_blanks h,
    slashSegments]

/-- Blanks behind a path do not count. -/
theorem slashSegments_append_blanks (h : IsBlanks blanks) (s : List Char) :
    slashSegments (s ++ blanks) = slashSegments s := by
  obtain ⟨first, last, hsplit⟩ := exists_splitOn_append '/' s
  have hs : s.splitOn '/' = first ++ [last] := by
    simpa using hsplit [] [] [] (List.splitOn_nil '/')
  have hblanks : (s ++ blanks).splitOn '/' = first ++ [last ++ blanks] :=
    hsplit blanks blanks [] (List.splitOn_eq_singleton (h.notMem rfl))
  rw [slashSegments, hblanks, segmentsOf_append_blanks h, slashSegments, hs]

namespace QualifiedName

variable {q : QualifiedName}

theorem ofSegments?_eq_some_iff {segments : List String} :
    ofSegments? segments = some q ↔ segments = q.segments := by
  rw [ofSegments?, Option.map_eq_some_iff]
  constructor
  · rintro ⟨name, hname, rfl⟩
    obtain ⟨namespaces, rfl⟩ := List.getLast?_eq_some_iff.mp hname
    simp [QualifiedName.segments]
  · rintro rfl
    exact ⟨q.name, by simp [segments], by simp [segments]⟩

/-- A name is read from its segments. -/
theorem parse?_eq_some_iff {s : String} : parse? s = some q ↔ slashSegments s.toList = q.segments :=
  ofSegments?_eq_some_iff

theorem segments_ne_nil (q : QualifiedName) : q.segments ≠ [] :=
  List.append_ne_nil_of_right_ne_nil _ (List.cons_ne_nil _ _)

/-- One or more segments are those of a name. -/
theorem exists_segments_eq (h : path ≠ []) : ∃ q : QualifiedName, q.segments = path :=
  ⟨⟨path.dropLast, path.getLast h⟩, List.dropLast_concat_getLast h⟩

/-- Only segments are read. -/
theorem isSegment_of_parse? {s : String} (h : parse? s = some q) {segment : String}
    (hs : segment ∈ q.segments) : IsSegment segment :=
  isSegment_of_mem_slashSegments (parse?_eq_some_iff.mp h ▸ hs)

/-- A name that is written is read back. -/
theorem parse?_text (h : ∀ segment ∈ q.segments, IsSegment segment) : parse? q.text = some q :=
  parse?_eq_some_iff.mpr (slashSegments_intercalate h q.segments_ne_nil)

/-- A suffix of the name is written at the end. -/
theorem text_withName_append (q : QualifiedName) (suffix : String) :
    (q.withName (q.name ++ suffix)).text = q.text ++ suffix := by
  change "/".intercalate (q.namespaces ++ [q.name ++ suffix])
    = "/".intercalate (q.namespaces ++ [q.name]) ++ suffix
  by_cases hnil : q.namespaces = []
  · rw [hnil, List.nil_append, List.nil_append, String.intercalate_singleton,
      String.intercalate_singleton]
  · rw [String.intercalate_append_of_ne_nil hnil (List.cons_ne_nil _ _),
      String.intercalate_append_of_ne_nil hnil (List.cons_ne_nil _ _),
      String.intercalate_singleton, String.intercalate_singleton, ← String.append_assoc]

/-! ### Plain spellings -/

/-- The text is the plain spelling of a qualified name: the name is read from it, and the name is
written like this. -/
structure Spells (q : QualifiedName) (s : String) : Prop where
  /-- The name is read from the text. -/
  parse?_eq : parse? s = some q
  /-- The name is written as the text. -/
  text_eq : q.text = s

/-- A name whose segments can be written has a plain spelling. -/
theorem spells_text (h : ∀ segment ∈ q.segments, IsSegment segment) : q.Spells q.text :=
  ⟨parse?_text h, rfl⟩

namespace Spells

variable {s : String}

theorem isSegment (h : q.Spells s) {segment : String} (hs : segment ∈ q.segments) :
    IsSegment segment :=
  isSegment_of_parse? h.parse?_eq hs

/-- A suffix of a name goes to the end of its plain spelling. -/
theorem append (h : q.Spells s) {suffix : String} (hsuffix : IsSegment suffix) :
    (q.withName (q.name ++ suffix)).Spells (s ++ suffix) := by
  have hown : IsSegment q.name := h.isSegment (by simp [segments])
  have hsegments : ∀ segment ∈ (q.withName (q.name ++ suffix)).segments, IsSegment segment := by
    refine List.forall_mem_append.mpr ⟨fun segment hs => h.isSegment ?_, ?_⟩
    · exact List.mem_append_left _ hs
    · exact List.forall_mem_singleton.mpr (hown.append hsuffix)
  have hspells := spells_text hsegments
  rwa [text_withName_append, h.text_eq] at hspells

end Spells

end QualifiedName

end RosInterface
