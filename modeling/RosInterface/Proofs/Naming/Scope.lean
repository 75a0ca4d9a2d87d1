import RosInterface.Idl.Declaration
import RosInterface.Proofs.Naming.Path

/-!
# The two spellings of a path

A path is written with `/` or with `::` between its segments. Which of the two it is shows in the
text: it is `::` where that occurs at all. In either spelling the path is read back, unless there
are colons in its segments, and blanks around the path do not count.

## Main definitions

* `IsScopeSegment`: a text that stands for itself between separators of either kind.
* `PathSpelling`, `PathSpelling.text`: a path in one of its spellings.

## Main results

* `pathSegments_text`: a path is read back from either spelling.
* `pathSegments_blanks_append`, `pathSegments_append_blanks`: blanks around a path do not count.
-/

namespace RosInterface

open Text

/-- The text stands for itself between the separators of a path. -/
structure IsScopeSegment (segment : String) : Prop extends IsSegment segment where
  /-- There is no colon in the segment. -/
  colon_notMem : ':' ∉ segment.toList

instance (segment : String) : Decidable (IsScopeSegment segment) :=
  decidable_of_iff (IsSegment segment ∧ ':' ∉ segment.toList)
    ⟨fun ⟨hsegment, hcolon⟩ => ⟨hsegment, hcolon⟩, fun h => ⟨h.toIsSegment, h.colon_notMem⟩⟩

/-- The spelling of a path. -/
inductive PathSpelling where
  /-- There is `/` between the segments. -/
  | slash
  /-- There is `::` between the segments. -/
  | scope
deriving DecidableEq

/-- What stands between two segments of a path. -/
def PathSpelling.separator : PathSpelling → String
  | slash => "/"
  | scope => "::"

/-- The path in a spelling. -/
def PathSpelling.text (spelling : PathSpelling) (path : Idl.Path) : String :=
  spelling.separator.intercalate path

variable {path : Idl.Path}

/-! ### Paths that are written -/

/-- A character that is in no segment and not in the separator is not in the path. -/
theorem notMem_text {c : Char} (h : ∀ segment ∈ path, c ∉ segment.toList)
    (spelling : PathSpelling) (hc : c ∉ spelling.separator.toList) :
    c ∉ (spelling.text path).toList := by
  rw [PathSpelling.text, String.toList_intercalate]
  induction path with
  | nil => exact List.not_mem_nil
  | cons segment path ih =>
    obtain ⟨hsegment, hrest⟩ := List.forall_mem_cons.mp h
    by_cases hpath : path = []
    · rwa [hpath, List.map_singleton, List.intercalate_singleton]
    · rw [List.map_cons, List.intercalate_cons_of_ne_nil (by simpa using hpath), List.mem_append,
        List.mem_append, not_or, not_or]
      exact ⟨⟨hsegment, hc⟩, ih hrest⟩

/-- A path does not end with a blank. -/
theorem exists_getLast?_text (h : ∀ segment ∈ path, IsSegment segment) (hne : path ≠ [])
    (spelling : PathSpelling) :
    ∃ last, (spelling.text path).toList.getLast? = some last ∧ isBlank last = false := by
  rw [PathSpelling.text, String.toList_intercalate]
  induction path with
  | nil => exact absurd rfl hne
  | cons segment path ih =>
    obtain ⟨hsegment, hrest⟩ := List.forall_mem_cons.mp h
    by_cases hpath : path = []
    · have hempty : segment.toList ≠ [] := by simpa using hsegment.ne_empty
      refine ⟨segment.toList.getLast hempty, ?_, ?_⟩
      · rw [hpath, List.map_singleton, List.intercalate_singleton,
          List.getLast?_eq_some_getLast hempty]
      · refine isBlank_of_mem_getLast?_trim (s := segment.toList) _ ?_
        rw [hsegment.trim_eq]
        exact List.getLast?_eq_some_getLast hempty
    · obtain ⟨last, hlast, hblank⟩ := ih hrest hpath
      refine ⟨last, ?_, hblank⟩
      rw [List.map_cons, List.intercalate_cons_of_ne_nil (by simpa using hpath),
        List.getLast?_append, hlast, Option.some_or]

/-- The pieces between the separators `::` of a path are its segments. -/
theorem splitScope_intercalate (h : ∀ segment ∈ path, ':' ∉ segment.toList) (hne : path ≠ []) :
    splitScope ("::".intercalate path).toList = path.map String.toList := by
  rw [String.toList_intercalate]
  induction path with
  | nil => exact absurd rfl hne
  | cons segment path ih =>
    obtain ⟨hsegment, hrest⟩ := List.forall_mem_cons.mp h
    cases path with
    | nil => simpa using splitScope_eq_singleton hsegment
    | cons next path =>
      rw [List.map_cons, List.intercalate_cons_of_ne_nil (by simp), List.append_assoc,
        splitScope_append_of_notMem hsegment]
      -- what follows the segment begins with the separator
      change List.modifyHead _ ([] :: splitScope (List.intercalate _ _)) = _
      rw [ih hrest (List.cons_ne_nil _ _), List.modifyHead_cons, List.append_nil, List.map_cons]

/-- A path without colons is read with slashes between its segments. -/
theorem pathSegments_of_notMem {s : List Char} (h : ':' ∉ s) :
    pathSegments s = slashSegments s := by
  have hone : ¬1 < (splitScope s).length := by simp [splitScope_eq_singleton h]
  rw [pathSegments, if_neg (mt (occursIn_scope_iff s).mp hone)]

/-- **A path is read back from either spelling.** -/
theorem pathSegments_text (h : ∀ segment ∈ path, IsScopeSegment segment) (hne : path ≠ [])
    (spelling : PathSpelling) : pathSegments (spelling.text path).toList = path := by
  have hcolon : ∀ segment ∈ path, ':' ∉ segment.toList :=
    fun segment hs => (h segment hs).colon_notMem
  have hsegment : ∀ segment ∈ path, IsSegment segment :=
    fun segment hs => (h segment hs).toIsSegment
  cases spelling with
  | slash =>
    rw [pathSegments_of_notMem (notMem_text hcolon .slash (by decide))]
    exact slashSegments_intercalate hsegment hne
  | scope =>
    have hpieces : splitScope (PathSpelling.scope.text path).toList = path.map String.toList :=
      splitScope_intercalate hcolon hne
    rw [pathSegments]
    split
    · rw [scopeSegments, hpieces, segmentsOf_map_toList hsegment]
    · rename_i hoccurs
      -- without a separator there is one segment, which is written in the same way with slashes
      rw [occursIn_scope_iff, hpieces, List.length_map] at hoccurs
      obtain ⟨segment, rfl⟩ : ∃ segment, path = [segment] := by
        rw [← List.length_eq_one_iff]
        have hpos := List.length_pos_iff.mpr hne
        omega
      have hread := slashSegments_intercalate hsegment hne
      rw [String.intercalate_singleton] at hread
      rwa [PathSpelling.text, String.intercalate_singleton]

/-! ### Blanks around a path -/

variable {blanks : List Char}

/-- Blanks before a path do not count. -/
theorem pathSegments_blanks_append (h : IsBlanks blanks) (s : List Char) :
    pathSegments (blanks ++ s) = pathSegments s := by
  have hscope := splitScope_append_of_notMem (h.notMem rfl) s
  have hoccurs : occursIn [':', ':'] (blanks ++ s) = occursIn [':', ':'] s := by
    rw [Bool.eq_iff_iff, occursIn_scope_iff, occursIn_scope_iff, hscope, List.length_modifyHead]
  rw [pathSegments, pathSegments, hoccurs, scopeSegments, hscope,
    segmentsOf_modifyHead_blanks h, slashSegments_blanks_append h, scopeSegments]

/-- Blanks behind a path do not count. -/
theorem pathSegments_append_blanks (h : IsBlanks blanks) (s : List Char) :
    pathSegments (s ++ blanks) = pathSegments s := by
  obtain ⟨first, last, hscope, hscope'⟩ := exists_splitScope_append (h.notMem rfl) s
  have hoccurs : occursIn [':', ':'] (s ++ blanks) = occursIn [':', ':'] s := by
    rw [Bool.eq_iff_iff, occursIn_scope_iff, occursIn_scope_iff, hscope, hscope',
      List.length_append, List.length_append, List.length_singleton, List.length_singleton]
  rw [pathSegments, pathSegments, hoccurs, scopeSegments, scopeSegments, hscope, hscope',
    segmentsOf_append_blanks h, slashSegments_append_blanks h]

end RosInterface
