import RosInterface.Proofs.Naming.Path

/-!
# The kind of a name

A name is classified by the markers that occur in it as a text. A marker has a slash at either end,
so it occurs where the segment of its kind stands between two other segments. In a qualified name
these are the namespaces other than the package.

## Main definitions

* `IsInnerSegment`: a segment of a name between two others.

## Main results

* `occursIn_slashes_iff`: a pattern between slashes is a segment between two others.
* `Kind.classify?_eq_find?`: the kind of any text is the first one that is an inner segment of it.
* `Kind.classify?_text`: the kind of a qualified name is the first one that is a namespace of it
  other than the package.
-/

namespace RosInterface

open Text

/-- What is put between two lists of texts stands between the two texts. -/
theorem intercalate_append {separator : List Char} {before after : List (List Char)}
    (hbefore : before ≠ []) (hafter : after ≠ []) :
    List.intercalate separator (before ++ after) =
      List.intercalate separator before ++ separator ++ List.intercalate separator after := by
  induction before with
  | nil => exact absurd rfl hbefore
  | cons first rest ih =>
    by_cases hrest : rest = []
    · rw [hrest, List.singleton_append, List.intercalate_cons_of_ne_nil hafter,
        List.intercalate_singleton]
    · have happend : rest ++ after ≠ [] := List.append_ne_nil_of_left_ne_nil hrest _
      rw [List.cons_append, List.intercalate_cons_of_ne_nil happend, ih hrest,
        List.intercalate_cons_of_ne_nil hrest]
      simp only [List.append_assoc]

/-- A text between slashes occurs in a path if it is a segment with another segment on either
side. -/
theorem occursIn_slashes_iff {segment s : List Char} (h : '/' ∉ segment) :
    occursIn ('/' :: (segment ++ ['/'])) s = true ↔
      ∃ before after, before ≠ [] ∧ after ≠ [] ∧ s.splitOn '/' = before ++ segment :: after := by
  rw [occursIn_iff]
  constructor
  · rintro ⟨left, right, rfl⟩
    refine ⟨left.splitOn '/', right.splitOn '/', List.splitOn_ne_nil _ _,
      List.splitOn_ne_nil _ _, ?_⟩
    rw [← List.splitOn_append_cons_self_of_not_mem h, ← List.splitOn_append_cons_self]
    simp
  · rintro ⟨before, after, hbefore, hafter, hsplit⟩
    have hjoin : List.intercalate ['/'] (s.splitOn '/') = s := List.intercalate_splitOn '/'
    refine ⟨List.intercalate ['/'] before, List.intercalate ['/'] after, ?_⟩
    rw [← hjoin, hsplit, intercalate_append hbefore (List.cons_ne_nil _ _),
      List.intercalate_cons_of_ne_nil hafter]
    simp

/-- An element stands between two others if it is one of those between the first and the last. -/
theorem exists_eq_append_cons_iff {α : Type} {x : α} {elements : List α} :
    (∃ before after, before ≠ [] ∧ after ≠ [] ∧ elements = before ++ x :: after) ↔
      x ∈ elements.dropLast.tail := by
  constructor
  · rintro ⟨before, after, hbefore, hafter, rfl⟩
    rw [List.dropLast_append_of_ne_nil (List.cons_ne_nil _ _), List.dropLast_cons_of_ne_nil hafter,
      List.tail_append_of_ne_nil hbefore]
    exact List.mem_append_right _ List.mem_cons_self
  · intro hx
    obtain ⟨between, more, hsplit⟩ := List.append_of_mem hx
    have hinit : elements.dropLast ≠ [] := fun hnil => by simp [hnil] at hx
    have hne : elements ≠ [] := fun hnil => hinit (by rw [hnil, List.dropLast_nil])
    refine ⟨elements.dropLast.head hinit :: between, more ++ [elements.getLast hne],
      List.cons_ne_nil _ _, List.append_ne_nil_of_right_ne_nil _ (List.cons_ne_nil _ _), ?_⟩
    calc
      elements = elements.dropLast ++ [elements.getLast hne] :=
        (List.dropLast_concat_getLast hne).symm
      _ = elements.dropLast.head hinit :: elements.dropLast.tail ++ [elements.getLast hne] := by
        rw [List.cons_head_tail]
      _ = _ := by simp [hsplit]

/-- The segment stands between two others in the name, which is cut at every slash. -/
def IsInnerSegment (segment name : String) : Prop :=
  ∃ before after, before ≠ [] ∧ after ≠ [] ∧
    name.toList.splitOn '/' = before ++ segment.toList :: after

instance (segment name : String) : Decidable (IsInnerSegment segment name) :=
  decidable_of_iff _ exists_eq_append_cons_iff.symm

/-- The inner segments of the text of a qualified name are its namespaces other than the
package. -/
theorem isInnerSegment_text_iff {q : QualifiedName} {segment : String}
    (h : ∀ segment ∈ q.segments, '/' ∉ segment.toList) :
    IsInnerSegment segment q.text ↔ segment ∈ q.namespaces.tail := by
  rw [IsInnerSegment, exists_eq_append_cons_iff, QualifiedName.text,
    splitOn_intercalate h q.segments_ne_nil, ← List.map_dropLast, ← List.map_tail,
    QualifiedName.segments, List.dropLast_concat, List.mem_map]
  constructor
  · rintro ⟨other, hmem, heq⟩
    exact String.toList_inj.mp heq ▸ hmem
  · exact fun hmem => ⟨segment, hmem, rfl⟩

namespace Kind

theorem slash_notMem_segment (kind : Kind) : '/' ∉ kind.segment.toList := by
  cases kind <;> decide

/-- **The kind of a name** is the first one that is an inner segment of it. -/
theorem classify?_eq_find? (name : String) :
    classify? name =
      [message, service, action].find? fun kind => IsInnerSegment kind.segment name := by
  rw [classify?]
  congr 1
  funext kind
  rw [Bool.eq_iff_iff, decide_eq_true_iff]
  exact occursIn_slashes_iff kind.slash_notMem_segment

/-- **The kind of a qualified name** is the first one that is a namespace other than the package. -/
theorem classify?_text {q : QualifiedName} (h : ∀ segment ∈ q.segments, '/' ∉ segment.toList) :
    classify? q.text =
      [message, service, action].find? fun kind => kind.segment ∈ q.namespaces.tail := by
  simp only [classify?_eq_find?, isInnerSegment_text_iff h]

/-- With a single namespace beside the package, the kind is the one that this stands for. -/
theorem classify?_text_eq_ofSegment? {q : QualifiedName} {package segment : String}
    (h : ∀ segment ∈ q.segments, '/' ∉ segment.toList) (hq : q.namespaces = [package, segment]) :
    classify? q.text = ofSegment? segment := by
  simp only [classify?_text h, hq, List.tail_cons, List.mem_singleton, ofSegment?]

/-- An interface is classified by the namespace beside its package. -/
theorem classify?_text_of_namespaces {q : QualifiedName} {package : String} {kind : Kind}
    (h : ∀ segment ∈ q.segments, '/' ∉ segment.toList)
    (hq : q.namespaces = [package, kind.segment]) : classify? q.text = some kind := by
  rw [classify?_text_eq_ofSegment? h hq, ofSegment?_segment]

end Kind

end RosInterface
