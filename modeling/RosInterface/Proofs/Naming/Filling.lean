import Mathlib.Logic.Relation
import RosInterface.Proofs.Naming.Path

/-!
# What may be put around the segments of a name

A name is read from many texts. Slashes and blanks may be put in at every place of a text that is
inside no segment, which leaves the name that is read as it is. All the texts that a name is read
from come from its plain spelling in this way. Only a text of slashes and blanks is no name.

## Main definitions

* `IsFilling`: slashes and blanks.
* `EndsOutside`, `BeginsOutside`: a text that ends or begins inside no segment.
* `Fills`: slashes and blanks are put in at one place inside no segment.

## Main results

* `slashSegments_append`: a text that is cut inside no segment is read part by part.
* `slashSegments_eq_of_fills`: what is put in does not change the segments.
* `slashSegments_eq_nil_iff`: a text without segments consists of slashes and blanks.
* `exists_place_of_slashSegments`: where a segment stands in a text.
* `QualifiedName.reads_iff`: the texts that a name is read from.
* `QualifiedName.roundTrip_and_fillings`: names are read back, and read the same with more slashes
  and blanks around their segments.
-/

namespace RosInterface

open Text

/-- Slashes and blanks in any order. -/
def IsFilling (s : List Char) : Prop :=
  ∀ c ∈ s, c = '/' ∨ isBlank c = true

instance (s : List Char) : Decidable (IsFilling s) :=
  List.decidableBAll (fun c => c = '/' ∨ isBlank c = true) s

/-- The text ends inside no segment: from its start or from a slash on, only blanks follow. -/
inductive EndsOutside : List Char → Prop
  | start {blanks : List Char} : IsBlanks blanks → EndsOutside blanks
  | slash {left blanks : List Char} : IsBlanks blanks → EndsOutside (left ++ '/' :: blanks)

/-- The text begins inside no segment: there are only blanks up to a slash or to its end. -/
inductive BeginsOutside : List Char → Prop
  | finish {blanks : List Char} : IsBlanks blanks → BeginsOutside blanks
  | slash {blanks right : List Char} : IsBlanks blanks → BeginsOutside (blanks ++ '/' :: right)

/-- Slashes and blanks are put in at one place, which is inside no segment. -/
inductive Fills : List Char → List Char → Prop
  | fill {left filling right : List Char} : IsFilling filling →
      EndsOutside left ∨ BeginsOutside right → Fills (left ++ right) (left ++ (filling ++ right))

variable {blanks filling left right s t : List Char}

/-! ### Slashes, blanks and pieces -/

theorem segmentsOf_append (pieces pieces' : List (List Char)) :
    segmentsOf (pieces ++ pieces') = segmentsOf pieces ++ segmentsOf pieces' := by
  rw [segmentsOf, List.map_append, List.filter_append, List.map_append, segmentsOf, segmentsOf]

/-- A text is read up to a slash and from there on. -/
theorem slashSegments_append_slash (s t : List Char) :
    slashSegments (s ++ '/' :: t) = slashSegments s ++ slashSegments t := by
  rw [slashSegments, List.splitOn_append_cons_self, segmentsOf_append, slashSegments,
    slashSegments]

theorem Text.IsBlanks.isFilling {blanks : List Char} (h : IsBlanks blanks) : IsFilling blanks :=
  fun c hc => Or.inr (h c hc)

theorem IsFilling.append (hs : IsFilling s) (ht : IsFilling t) : IsFilling (s ++ t) :=
  List.forall_mem_append.mpr ⟨hs, ht⟩

/-- Slashes and blanks before a text do not count. -/
theorem slashSegments_filling_append (h : IsFilling filling) (s : List Char) :
    slashSegments (filling ++ s) = slashSegments s := by
  induction filling with
  | nil => rfl
  | cons c filling ih =>
    obtain ⟨hc, hrest⟩ := List.forall_mem_cons.mp h
    rcases hc with rfl | hblank
    · exact (slashSegments_append_slash [] (filling ++ s)).trans (ih hrest)
    · have hskip := slashSegments_blanks_append (List.forall_mem_singleton.mpr hblank)
        (filling ++ s)
      exact hskip.trans (ih hrest)

/-- Slashes and blanks behind a text do not count. -/
theorem slashSegments_append_filling (h : IsFilling filling) (s : List Char) :
    slashSegments (s ++ filling) = slashSegments s := by
  induction filling generalizing s with
  | nil => rw [List.append_nil]
  | cons c filling ih =>
    obtain ⟨hc, hrest⟩ := List.forall_mem_cons.mp h
    rcases hc with rfl | hblank
    · rw [slashSegments_append_slash, ← List.nil_append filling, ih hrest]
      exact List.append_nil _
    · rw [← List.singleton_append, ← List.append_assoc, ih hrest,
        slashSegments_append_blanks (List.forall_mem_singleton.mpr hblank)]

theorem slashSegments_filling (h : IsFilling filling) : slashSegments filling = [] :=
  slashSegments_append_filling h []

/-- A piece between slashes is blank, or it is one segment with blanks at its ends. -/
theorem isBlanks_or_exists_segment (h : '/' ∉ s) :
    IsBlanks s ∨ ∃ blanks segment blanks', IsBlanks blanks ∧ IsBlanks blanks' ∧
      IsSegment segment ∧ s = blanks ++ (segment.toList ++ blanks') := by
  by_cases hnil : trim s = []
  · exact Or.inl ((trim_eq_nil_iff s).mp hnil)
  · obtain ⟨blanks, blanks', hblanks, hblanks', hs⟩ := exists_eq_append_trim s
    exact Or.inr ⟨blanks, String.ofList (trim s), blanks', hblanks, hblanks',
      isSegment_trim h hnil, by rwa [String.toList_ofList]⟩

/-- Induction on the pieces of a text, each of which is blank or one segment. -/
@[elab_as_elim]
theorem segment_induction {motive : List Char → Prop}
    (lastBlank : ∀ blanks, IsBlanks blanks → motive blanks)
    (lastSegment : ∀ blanks segment blanks', IsBlanks blanks → IsBlanks blanks' →
      IsSegment segment → motive (blanks ++ (segment.toList ++ blanks')))
    (blank : ∀ blanks rest, IsBlanks blanks → motive rest → motive (blanks ++ '/' :: rest))
    (segment : ∀ blanks segment blanks' rest, IsBlanks blanks → IsBlanks blanks' →
      IsSegment segment → motive rest →
      motive (blanks ++ (segment.toList ++ (blanks' ++ '/' :: rest))))
    (s : List Char) : motive s := by
  induction s using piece_induction '/' with
  | last piece hpiece =>
    rcases isBlanks_or_exists_segment hpiece with
      hblanks | ⟨blanks, own, blanks', hblanks, hblanks', hown, rfl⟩
    · exact lastBlank piece hblanks
    · exact lastSegment blanks own blanks' hblanks hblanks' hown
  | piece piece rest hpiece ih =>
    rcases isBlanks_or_exists_segment hpiece with
      hblanks | ⟨blanks, own, blanks', hblanks, hblanks', hown, rfl⟩
    · exact blank piece rest hblanks ih
    · simp only [List.append_assoc]
      exact segment blanks own blanks' rest hblanks hblanks' hown ih

/-- A blank piece is passed over. -/
theorem slashSegments_blank (h : IsBlanks blanks) (rest : List Char) :
    slashSegments (blanks ++ '/' :: rest) = slashSegments rest := by
  rw [slashSegments_append_slash, slashSegments_filling h.isFilling, List.nil_append]

/-- A segment with blanks at its ends is read as it is. -/
theorem IsSegment.slashSegments_last {segment : String} {blanks blanks' : List Char}
    (h : IsSegment segment) (hblanks : IsBlanks blanks) (hblanks' : IsBlanks blanks') :
    slashSegments (blanks ++ (segment.toList ++ blanks')) = [segment] := by
  have hread := slashSegments_intercalate (List.forall_mem_singleton.mpr h) (List.cons_ne_nil _ _)
  rw [String.intercalate_singleton] at hread
  rw [slashSegments_blanks_append hblanks, slashSegments_append_blanks hblanks', hread]

/-- A segment up to a slash is read before what is behind the slash. -/
theorem IsSegment.slashSegments_cons {segment : String} {blanks blanks' : List Char}
    (h : IsSegment segment) (hblanks : IsBlanks blanks) (hblanks' : IsBlanks blanks')
    (rest : List Char) :
    slashSegments (blanks ++ (segment.toList ++ (blanks' ++ '/' :: rest))) =
      segment :: slashSegments rest := by
  rw [← List.append_assoc, ← List.append_assoc, List.append_assoc blanks,
    slashSegments_append_slash, h.slashSegments_last hblanks hblanks', List.singleton_append]

/-- **A text without segments consists of slashes and blanks.** -/
theorem slashSegments_eq_nil_iff (s : List Char) : slashSegments s = [] ↔ IsFilling s := by
  refine ⟨fun h => ?_, slashSegments_filling⟩
  induction s using segment_induction with
  | lastBlank blanks hblanks => exact hblanks.isFilling
  | lastSegment blanks segment blanks' hblanks hblanks' hsegment =>
    rw [hsegment.slashSegments_last hblanks hblanks'] at h
    cases h
  | blank blanks rest hblanks ih =>
    rw [slashSegments_blank hblanks] at h
    exact hblanks.isFilling.append (List.forall_mem_cons.mpr ⟨Or.inl rfl, ih h⟩)
  | segment blanks segment blanks' rest hblanks hblanks' hsegment ih =>
    rw [hsegment.slashSegments_cons hblanks hblanks'] at h
    cases h

/-! ### Places inside no segment -/

/-- What stands behind a text that ends inside no segment is read on its own. -/
theorem EndsOutside.slashSegments_append (h : EndsOutside left) (right : List Char) :
    slashSegments (left ++ right) = slashSegments left ++ slashSegments right := by
  cases h with
  | start hblanks =>
    rw [slashSegments_blanks_append hblanks, slashSegments_filling hblanks.isFilling,
      List.nil_append]
  | slash hblanks =>
    rw [List.append_assoc, List.cons_append, slashSegments_append_slash,
      slashSegments_append_slash, slashSegments_blanks_append hblanks,
      slashSegments_filling hblanks.isFilling, List.append_nil]

/-- What stands before a text that begins inside no segment is read on its own. -/
theorem BeginsOutside.slashSegments_append (h : BeginsOutside right) (left : List Char) :
    slashSegments (left ++ right) = slashSegments left ++ slashSegments right := by
  cases h with
  | finish hblanks =>
    rw [slashSegments_append_blanks hblanks, slashSegments_filling hblanks.isFilling,
      List.append_nil]
  | slash hblanks =>
    rw [← List.append_assoc, slashSegments_append_slash, slashSegments_append_slash,
      slashSegments_append_blanks hblanks, slashSegments_filling hblanks.isFilling,
      List.nil_append]

/-- **A text that is cut inside no segment is read part by part.** -/
theorem slashSegments_append (h : EndsOutside left ∨ BeginsOutside right) :
    slashSegments (left ++ right) = slashSegments left ++ slashSegments right :=
  h.elim (fun hleft => hleft.slashSegments_append right)
    fun hright => hright.slashSegments_append left

/-- What is put in at a place inside no segment does not change the segments. -/
theorem Fills.slashSegments_eq (h : Fills s t) : slashSegments t = slashSegments s := by
  cases h with
  | fill hfilling hplace =>
    rw [slashSegments_append hplace]
    rcases hplace with hleft | hright
    · rw [hleft.slashSegments_append, slashSegments_filling_append hfilling]
    · rw [← List.append_assoc, hright.slashSegments_append, slashSegments_append_filling hfilling]

/-- **What is put in at any number of places does not change the segments.** -/
theorem slashSegments_eq_of_fills (h : Relation.ReflTransGen Fills s t) :
    slashSegments t = slashSegments s := by
  induction h with
  | refl => rfl
  | tail _ hfill ih => exact hfill.slashSegments_eq.trans ih

/-- A text before a slash does not change where the text behind it ends. -/
theorem EndsOutside.append_slash (h : EndsOutside left) (piece : List Char) :
    EndsOutside (piece ++ '/' :: left) := by
  cases h with
  | start hblanks => exact .slash hblanks
  | @slash left blanks hblanks =>
    rw [← List.cons_append, ← List.append_assoc]
    exact .slash hblanks

/-- **The place of a segment.** The segments before and behind it are read from the texts before
and behind it, which end and begin inside no segment. -/
theorem exists_place_of_slashSegments {before after : List String} {segment : String}
    (h : slashSegments s = before ++ segment :: after) :
    ∃ left right, s = left ++ (segment.toList ++ right) ∧ slashSegments left = before ∧
      slashSegments right = after ∧ EndsOutside left ∧ BeginsOutside right := by
  induction s using segment_induction generalizing before with
  | lastBlank blanks hblanks =>
    rw [slashSegments_filling hblanks.isFilling] at h
    simp at h
  | lastSegment blanks own blanks' hblanks hblanks' hown =>
    rw [hown.slashSegments_last hblanks hblanks', List.singleton_eq_append_iff] at h
    rcases h with ⟨rfl, hone⟩ | ⟨-, hone⟩
    · obtain ⟨rfl, rfl⟩ := List.cons.inj hone
      exact ⟨blanks, blanks', rfl, slashSegments_filling hblanks.isFilling,
        slashSegments_filling hblanks'.isFilling, .start hblanks, .finish hblanks'⟩
    · cases hone
  | blank blanks rest hblanks ih =>
    have hskip := slashSegments_blank hblanks
    rw [hskip] at h
    obtain ⟨left, right, rfl, hbefore, hafter, hleft, hright⟩ := ih h
    exact ⟨blanks ++ '/' :: left, right, by simp only [List.append_assoc, List.cons_append],
      (hskip left).trans hbefore, hafter, hleft.append_slash blanks, hright⟩
  | segment blanks own blanks' rest hblanks hblanks' hown ih =>
    have hread := hown.slashSegments_cons hblanks hblanks'
    rw [hread] at h
    cases before with
    | nil =>
      obtain ⟨rfl, rfl⟩ := List.cons.inj h
      exact ⟨blanks, blanks' ++ '/' :: rest, rfl, slashSegments_filling hblanks.isFilling,
        slashSegments_blank hblanks' rest, .start hblanks, .slash hblanks'⟩
    | cons first before =>
      obtain ⟨rfl, hrest⟩ := List.cons.inj h
      obtain ⟨left, right, rfl, hbefore, hafter, hleft, hright⟩ := ih hrest
      refine ⟨blanks ++ (own.toList ++ (blanks' ++ '/' :: left)), right, ?_,
        (hread left).trans (by rw [hbefore]), hafter, ?_, hright⟩
      · simp only [List.append_assoc, List.cons_append]
      · simpa only [List.append_assoc] using
          hleft.append_slash (blanks ++ (own.toList ++ blanks'))

/-! ### All the texts that are read alike -/

/-- What is put in behind a slash is put in behind what stands before the slash. -/
theorem Fills.behind_slash (h : Fills s t) (piece : List Char) :
    Fills (piece ++ '/' :: s) (piece ++ '/' :: t) := by
  cases h with
  | @fill left filling right hfilling hplace =>
    have hfill := Fills.fill hfilling (hplace.imp_left fun hleft => hleft.append_slash piece)
    simpa only [List.append_assoc, List.cons_append] using hfill

/-- Slashes and blanks are put in before and behind a segment. -/
theorem fills_around {before behind : List Char} (hleft : EndsOutside left)
    (hbefore : IsFilling before) (hbehind : IsFilling behind) (segment : List Char)
    (hright : BeginsOutside right) :
    Relation.ReflTransGen Fills (left ++ (segment ++ right))
      (left ++ (before ++ (segment ++ (behind ++ right)))) := by
  have hend : Fills (left ++ (before ++ (segment ++ right)))
      (left ++ (before ++ (segment ++ (behind ++ right)))) := by
    have hfill := @Fills.fill (left ++ (before ++ segment)) behind right hbehind (Or.inr hright)
    simpa only [List.append_assoc] using hfill
  exact .tail (.single (.fill hbefore (Or.inl hleft))) hend

/-- **A text comes from the path that is read from it**, by slashes and blanks that are put in. -/
theorem fills_of_slashSegments (h : slashSegments s ≠ []) :
    Relation.ReflTransGen Fills ("/".intercalate (slashSegments s)).toList s := by
  have hnone : IsBlanks [] := fun _ hc => absurd hc List.not_mem_nil
  have hstart : EndsOutside [] := .start hnone
  induction s using segment_induction with
  | lastBlank blanks hblanks => exact absurd (slashSegments_filling hblanks.isFilling) h
  | lastSegment blanks segment blanks' hblanks hblanks' hsegment =>
    rw [hsegment.slashSegments_last hblanks hblanks', String.intercalate_singleton]
    simpa only [List.nil_append, List.append_nil] using
      fills_around hstart hblanks.isFilling hblanks'.isFilling segment.toList (.finish hnone)
  | blank blanks rest hblanks ih =>
    rw [slashSegments_blank hblanks] at h ⊢
    have hfilling : IsFilling (blanks ++ ['/']) := hblanks.isFilling.append (by decide)
    have hfill := @Fills.fill [] (blanks ++ ['/']) rest hfilling (Or.inl hstart)
    rw [List.append_assoc] at hfill
    exact (ih h).tail hfill
  | segment blanks segment blanks' rest hblanks hblanks' hsegment ih =>
    rw [hsegment.slashSegments_cons hblanks hblanks']
    by_cases hrest : slashSegments rest = []
    · -- without another segment the slash was put in as well
      have hbehind : IsFilling (blanks' ++ '/' :: rest) := by
        rwa [← slashSegments_eq_nil_iff, slashSegments_blank hblanks']
      rw [hrest, String.intercalate_singleton]
      simpa only [List.nil_append, List.append_nil] using
        fills_around hstart hblanks.isFilling hbehind segment.toList (.finish hnone)
    · have hhead : ("/".intercalate (segment :: slashSegments rest)).toList
          = segment.toList ++ '/' :: ("/".intercalate (slashSegments rest)).toList := by
        rw [String.intercalate_cons_of_ne_nil hrest, String.toList_append, String.toList_append,
          List.append_assoc]
        rfl
      have htail := Relation.ReflTransGen.lift (segment.toList ++ '/' :: ·)
        (fun _ _ hfill => Fills.behind_slash hfill segment.toList) _ _ (ih hrest)
      rw [hhead]
      exact htail.trans
        (fills_around hstart hblanks.isFilling hblanks'.isFilling segment.toList (.slash hnone))

namespace QualifiedName

/-- **No name is read from a text of slashes and blanks only**, and one is read from any other. -/
theorem parse?_eq_none_iff {s : String} : parse? s = none ↔ IsFilling s.toList := by
  rw [← slashSegments_eq_nil_iff, parse?, ofSegments?, Option.map_eq_none_iff,
    List.getLast?_eq_none_iff]

/-- **The texts that a name is read from** are those that come from the text that it is written as,
by slashes and blanks that are put in around its segments. -/
theorem reads_iff {q : QualifiedName} {s : String} :
    parse? s = some q ↔ (∀ segment ∈ q.segments, IsSegment segment) ∧
      Relation.ReflTransGen Fills q.text.toList s.toList := by
  constructor
  · intro h
    have hread := parse?_eq_some_iff.mp h
    refine ⟨fun segment => isSegment_of_parse? h, ?_⟩
    rw [text, ← hread]
    exact fills_of_slashSegments (hread ▸ q.segments_ne_nil)
  · rintro ⟨hsegments, hfills⟩
    rw [parse?_eq_some_iff, slashSegments_eq_of_fills hfills]
    exact parse?_eq_some_iff.mp (parse?_text hsegments)

/-- **Names are read back, and read the same with more around their segments.** A name is read from
the text that it is written as if its segments can be written at all, and those of a name that was
read can. Each of them stands somewhere in the text that it was read from, and slashes and blanks
around it there, or at any number of places inside no segment, do not change the name. A text is no
name exactly if it consists of slashes and blanks. -/
theorem roundTrip_and_fillings :
    (∀ q : QualifiedName, (∀ segment ∈ q.segments, IsSegment segment) →
      parse? q.text = some q) ∧
    (∀ (s : String) (q : QualifiedName), parse? s = some q →
      (∀ segment ∈ q.segments, IsSegment segment) ∧ parse? q.text = some q ∧
      (∀ before segment after, q.segments = before ++ segment :: after →
        ∃ left right, s.toList = left ++ (segment.toList ++ right) ∧
          slashSegments left = before ∧ slashSegments right = after ∧
          ∀ filling filling', IsFilling filling → IsFilling filling' →
            parse? (.ofList (left ++ (filling ++ (segment.toList ++ (filling' ++ right))))) =
              some q) ∧
      ∀ t : String, Relation.ReflTransGen Fills s.toList t.toList → parse? t = some q) ∧
    ∀ s : String, parse? s = none ↔ IsFilling s.toList := by
  refine ⟨fun q => parse?_text, fun s q h => ?_, fun s => parse?_eq_none_iff⟩
  have hsegments : ∀ segment ∈ q.segments, IsSegment segment :=
    fun segment => isSegment_of_parse? h
  have hfills (t : String) (ht : Relation.ReflTransGen Fills s.toList t.toList) :
      parse? t = some q :=
    reads_iff.mpr ⟨hsegments, (reads_iff.mp h).2.trans ht⟩
  refine ⟨hsegments, parse?_text hsegments, fun before segment after hsplit => ?_, hfills⟩
  obtain ⟨left, right, hs, hbefore, hafter, hleft, hright⟩ :=
    exists_place_of_slashSegments ((parse?_eq_some_iff.mp h).trans hsplit)
  refine ⟨left, right, hs, hbefore, hafter, fun filling filling' hfilling hfilling' => ?_⟩
  refine hfills _ ?_
  rw [hs, String.toList_ofList]
  exact fills_around hleft hfilling hfilling' segment.toList hright

/-- A blank within a segment belongs to it; blanks and slashes around it do not. -/
theorem parse?_blank_in_package :
    parse? "a b/msg/T" = some ⟨["a b", "msg"], "T"⟩ ∧
      parse? "a b //msg/T" = some ⟨["a b", "msg"], "T"⟩ ∧ parse? " / " = none := by
  obtain ⟨hwritten, hread, hnone⟩ := roundTrip_and_fillings
  have hplain : parse? "a b/msg/T" = some ⟨["a b", "msg"], "T"⟩ :=
    hwritten ⟨["a b", "msg"], "T"⟩ (by decide)
  have hplace : BeginsOutside "/msg/T".toList := @BeginsOutside.slash [] "msg/T".toList (by decide)
  have hfill : Fills "a b/msg/T".toList "a b //msg/T".toList :=
    @Fills.fill "a b".toList " /".toList "/msg/T".toList (by decide) (Or.inr hplace)
  exact ⟨hplain, (hread _ _ hplain).2.2.2 _ (.single hfill), (hnone " / ").mpr (by decide)⟩

end QualifiedName

end RosInterface
