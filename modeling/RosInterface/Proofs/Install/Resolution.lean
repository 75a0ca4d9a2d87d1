import RosInterface.Install.Resolution
import RosInterface.Proofs.Install.Overlay
import RosInterface.Proofs.Resolution.Dependence

/-!
# Lookups without an answer

A lookup of a record over an index has no answer exactly if the reader of message specifications
gives up at the file that was found. A computation comes to nothing exactly if it takes such a
lookup. With a reader that never gives up there is always an answer.

Up to the first lookup without an answer a resolution is what it would be over any lookup that
answers what the index answers. So it makes no difference what stands in the place of an answer that
is missing.

## Main definitions

* `Msg.Reader.Returns`: the reader never gives up.
* `Install.Index.GivesUpAt`: the reader gives up at the file of the record of a name.
* `Install.Index.IsAnsweredBy`: a lookup that answers what an index answers.

## Main results

* `Msg.isFatal_of_interfaceRecordsWith`: a definition is read to its end if the reader returns.
* `Install.Index.record?_eq_none_iff`: when a lookup has no answer.
* `Install.Index.resolve?_eq_none_iff`: when nothing comes of a resolution.
* `Install.Index.IsAnsweredBy.outcome?_resolve`: what takes the place of missing answers.
-/

namespace RosInterface

/-! ### Readers that return -/

namespace Msg

/-- The reader never gives up: it has fields or an error for every text. -/
def Reader.Returns (read : Reader) : Prop :=
  ∀ record text, read record text ≠ .error .loneQuote

variable {read : Reader} {e : Error}

/-- A name that is refused is no case in which the reader gives up. -/
theorem isFatal_of_recordName {kind : Kind} {name : String} (h : recordName kind name = .error e) :
    e.isFatal = false := by
  rw [recordName] at h
  repeat' split at h
  all_goals cases h
  all_goals rfl

theorem isFatal_of_sectionRecord (hread : read.Returns) {record : QualifiedName}
    {text : List Char} (h : sectionRecord read record text = .error e) : e.isFatal = false := by
  rw [sectionRecord] at h
  split at h
  · cases h
  · split at h
    · rename_i cause hcause
      obtain rfl := Except.error.inj h
      cases cause with
      | malformedMain => rfl
      | malformedDependency name => rfl
      | loneQuote => exact absurd hcause (hread record text)
    · cases h

theorem isFatal_of_partRecords (hread : read.Returns) {owner : QualifiedName}
    {suffixes : List String} {texts : List (List Char)}
    (h : partRecords read owner suffixes texts = .error e) : e.isFatal = false := by
  induction suffixes generalizing texts with
  | nil =>
    rw [partRecords] at h
    · cases h
    · simp
  | cons suffix suffixes ih =>
    cases texts with
    | nil => cases h
    | cons text texts =>
      rw [partRecords, bind_eq_error_iff] at h
      rcases h with hfirst | ⟨first, -, hrest⟩
      · exact isFatal_of_sectionRecord hread hfirst
      · rcases bind_eq_error_iff.mp hrest with hothers | ⟨others, -, hpure⟩
        · exact ih hothers
        · cases hpure

theorem isFatal_of_sectionedRecords (hread : read.Returns) {ownerWord : String}
    {owner : QualifiedName} {suffixes : List String} {text : List Char}
    (h : sectionedRecords read ownerWord owner suffixes text = .error e) : e.isFatal = false := by
  rw [sectionedRecords] at h
  split at h
  · exact isFatal_of_partRecords hread h
  · obtain rfl := Except.error.inj h
    rfl

/-- **A definition is read to its end** by a reader that never gives up. -/
theorem isFatal_of_interfaceRecordsWith (hread : read.Returns) {name : String} {text : List Char}
    (h : interfaceRecordsWith read name text = .error e) : e.isFatal = false := by
  rw [interfaceRecordsWith] at h
  split at h
  · obtain rfl := Except.error.inj h
    rfl
  split at h
  · rcases bind_eq_error_iff.mp h with hname | ⟨owner, -, hrecords⟩
    · exact isFatal_of_recordName hname
    · exact isFatal_of_sectionedRecords hread hrecords
  · rcases bind_eq_error_iff.mp h with hname | ⟨owner, -, hrecords⟩
    · exact isFatal_of_recordName hname
    · exact isFatal_of_sectionedRecords hread hrecords
  · rcases bind_eq_error_iff.mp h with hname | ⟨owner, -, hrest⟩
    · exact isFatal_of_recordName hname
    · rcases bind_eq_error_iff.mp hrest with hrecord | ⟨record, -, hpure⟩
      · exact isFatal_of_sectionRecord hread hrecord
      · cases hpure

end Msg

namespace Install

/-- No file makes a reader give up that never does. -/
theorem isFatal_of_loadWith {read : Msg.Reader} (hread : read.Returns) {files : Files}
    {location : Location} {candidate : Candidate} {e : LoadError}
    (h : loadWith read files location candidate = .error e) : e.isFatal = false := by
  rw [loadWith] at h
  split at h
  · obtain rfl := Except.error.inj h
    rfl
  · rename_i text _
    cases hformat : candidate.format with
    | idl =>
      rw [hformat] at h
      obtain ⟨cause, -, rfl⟩ := mapError_eq_error_iff.mp h
      rfl
    | definition kind =>
      rw [hformat] at h
      obtain ⟨cause, hcause, rfl⟩ := mapError_eq_error_iff.mp h
      exact Msg.isFatal_of_interfaceRecordsWith hread hcause

namespace Index

/-! ### Lookups without an answer -/

variable (index : Index) (read : Msg.Reader) (files : Files)

/-- The reader gives up at the file that is found for the record of a name. -/
def GivesUpAt (name : String) : Prop :=
  ∃ location candidate e, index.found? files name = some (location, candidate) ∧
    location.isWhole = false ∧ loadWith read files location candidate = .error e ∧
      e.isFatal = true

variable {index read files}

/-- A lookup has no answer exactly if the reader gives up at the file that is found. -/
theorem record?_eq_none_iff {name : String} :
    index.record? read files name = none ↔ index.GivesUpAt read files name := by
  rw [record?_eq]
  constructor
  · intro h
    cases hfound : index.found? files name with
    | none =>
      rw [hfound] at h
      cases h
    | some found =>
      obtain ⟨location, candidate⟩ := found
      rw [hfound] at h
      have hfile := isRecordFrom_ofSearch read files name location candidate
      cases hwhole : location.isWhole with
      | true =>
        rw [hfile.whole hwhole] at h
        cases h
      | false =>
        obtain ⟨e, hload, hfatal⟩ := (hfile.none_iff hwhole).mp h
        exact ⟨location, candidate, e, hfound, hwhole, hload, hfatal⟩
  · rintro ⟨location, candidate, e, hfound, hwhole, hload, hfatal⟩
    rw [hfound]
    exact ((isRecordFrom_ofSearch read files name location candidate).none_iff hwhole).mpr
      ⟨e, hload, hfatal⟩

/-- The reader of this library gives up where a default value is a lone quote. -/
example : (Index.mk ["p"]).record? Msg.reader
    (.ofList [(⟨"p", ["share", "k", "msg", "A.msg"]⟩, .ok "string s \"\n".toUTF8)]) "k/msg/A"
      = none := by
  decide +kernel

/-- A reader that never gives up does not do so at any file. -/
theorem not_givesUpAt (hread : read.Returns) (name : String) :
    ¬index.GivesUpAt read files name := by
  rintro ⟨location, candidate, e, -, -, hload, hfatal⟩
  rw [isFatal_of_loadWith hread hload] at hfatal
  cases hfatal

theorem returns_eq_false_iff {call : Call} :
    index.returns read files call = false ↔
      ∃ name, call = .record name ∧ index.GivesUpAt read files name := by
  cases call with
  | record name =>
    rw [returns, Option.isSome_eq_false_iff, Option.isNone_iff_eq_none, record?_eq_none_iff]
    simp
  | service name => simp [returns]
  | action name => simp [returns]

/-! ### Computations over an index -/

section

variable {α : Type} {t : Traced α}

/-- Something comes of a computation if all of its lookups have an answer, and it is the value. -/
theorem outcome?_eq_some_iff {value : α} : index.outcome? read files t = some value ↔
    (∀ call ∈ t.calls, index.returns read files call = true) ∧ t.value = value := by
  rw [outcome?]
  split
  · rename_i hall
    rw [Option.some_inj]
    exact ⟨fun h => ⟨List.all_eq_true.mp hall, h⟩, And.right⟩
  · rename_i hsome
    exact iff_of_false nofun fun h => hsome (List.all_eq_true.mpr h.1)

/-- **A computation comes to nothing** if the reader gives up at the file of a record that is looked
up. -/
theorem outcome?_eq_none_iff : index.outcome? read files t = none ↔
    ∃ name, .record name ∈ t.calls ∧ index.GivesUpAt read files name := by
  rw [outcome?]
  split
  · rename_i hall
    refine iff_of_false nofun fun ⟨name, hname, hgives⟩ => ?_
    have hreturns := List.all_eq_true.mp hall _ hname
    rw [returns_eq_false_iff.mpr ⟨name, rfl, hgives⟩] at hreturns
    cases hreturns
  · rename_i hsome
    refine iff_of_true rfl ?_
    obtain ⟨call, hcall, hfalse⟩ : ∃ call ∈ t.calls, index.returns read files call = false := by
      simpa using hsome
    obtain ⟨name, rfl, hgives⟩ := returns_eq_false_iff.mp hfalse
    exact ⟨name, hcall, hgives⟩

/-- With a reader that never gives up, every computation comes to its value. -/
theorem outcome?_of_returns (hread : read.Returns) :
    index.outcome? read files t = some t.value := by
  refine outcome?_eq_some_iff.mpr ⟨fun call _ => ?_, rfl⟩
  cases hreturns : index.returns read files call with
  | true => rfl
  | false =>
    obtain ⟨name, -, hgives⟩ := returns_eq_false_iff.mp hreturns
    exact absurd hgives (not_givesUpAt hread name)

end

/-- **Nothing comes of a resolution** if the reader gives up at the file of a record that is looked
up in it. -/
theorem resolve?_eq_none_iff {name : String} : index.resolve? read files name = none ↔
    ∃ part, .record part ∈ (resolve (index.lookupWith read files) name).calls ∧
      index.GivesUpAt read files part :=
  outcome?_eq_none_iff

/-- With a reader that never gives up, a resolution has an outcome. -/
theorem resolve?_of_returns (hread : read.Returns) (name : String) :
    index.resolve? read files name = some (resolve (index.lookupWith read files) name).value :=
  outcome?_of_returns hread

/-! ### What takes the place of missing answers -/

variable (index read files) in
/-- The lookup gives the answers of the index, as far as there are any. -/
structure IsAnsweredBy (lookup : Lookup) : Prop where
  /-- Records have the answer of the index, if it has one. -/
  record : ∀ name answer, index.record? read files name = some answer →
    lookup.record name = answer
  /-- Services have the answer of the index. -/
  service : ∀ name, lookup.service name = index.service files name
  /-- Actions have the answer of the index. -/
  action : ∀ name, lookup.action name = index.action files name

theorem isAnsweredBy_lookupWith : index.IsAnsweredBy read files (index.lookupWith read files) where
  record name answer h := by
    change index.recordWith read files name = answer
    rw [recordWith, h]
    rfl
  service _ := rfl
  action _ := rfl

namespace IsAnsweredBy

variable {lookup other : Lookup}

/-- Two lookups with the answers of the index give the same answers to questions that it answers. -/
theorem sameOn (h : index.IsAnsweredBy read files lookup)
    (hother : index.IsAnsweredBy read files other) {calls : List Call}
    (hcalls : ∀ call ∈ calls, index.returns read files call = true) :
    lookup.SameOn other calls where
  record name hname := by
    obtain ⟨answer, hanswer⟩ := Option.isSome_iff_exists.mp (hcalls _ hname)
    rw [h.record name answer hanswer, hother.record name answer hanswer]
  service name _ := (hother.service name).trans (h.service name).symm
  action name _ := (hother.action name).trans (h.action name).symm

/-- **What takes the place of a missing answer does not count.** The outcome of a resolution is the
same over every lookup that gives the answers of the index. -/
theorem outcome?_resolve (h : index.IsAnsweredBy read files lookup) (name : String) :
    index.outcome? read files (resolve lookup name) = index.resolve? read files name := by
  have hstep {first second : Lookup} (hfirst : index.IsAnsweredBy read files first)
      (hsecond : index.IsAnsweredBy read files second)
      {value : Except ResolutionError ResolvedInterface}
      (hsome : index.outcome? read files (resolve first name) = some value) :
      index.outcome? read files (resolve second name) = some value := by
    obtain ⟨hcalls, -⟩ := outcome?_eq_some_iff.mp hsome
    rw [resolve_eq_of_sameOn (hfirst.sameOn hsecond hcalls), hsome]
  exact Option.ext fun value =>
    ⟨hstep h isAnsweredBy_lookupWith, hstep isAnsweredBy_lookupWith h⟩

end IsAnsweredBy

end Index

end Install

end RosInterface
