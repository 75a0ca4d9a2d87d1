import RosInterface.Proofs.Install.Overlay
import RosInterface.Proofs.Install.WholeInterface
import RosInterface.Proofs.Registry.History

/-!
# Records that a file defines more than once

An IDL file may define several records of one name. An index answers with the first of them, and a
registry that is made from the records of the file with the last one. So the two agree on a name
exactly if its first and its last record have the same fields. The definition of a single interface
names no record twice, and there they always agree.

## Main definitions

* `Record.IsFirst`: the first record of its name in a list.

## Main results

* `Install.nodup_names_of_loadWith`: the definition of a single interface names no record twice.
* `Install.Index.record_ofList_iff`: when an index and a registry give the same record.
-/

namespace RosInterface

/-! ### First and last records -/

/-- The record is the first one of its name. -/
def Record.IsFirst (record : Record) (records : List Record) : Prop :=
  ∃ before after, records = before ++ record :: after ∧ record.name ∉ before.map Record.name

variable {records : List Record} {name : String} {fields : List Field}

/-- The first record of a name is the one that is found from the left. -/
theorem exists_find?_iff_isFirst :
    (∃ record, records.find? (fun record => record.name = name) = some record ∧
      record.fields = fields) ↔ Record.IsFirst ⟨name, fields⟩ records := by
  have hother (before : List Record) :
      (∀ record ∈ before, (!decide (record.name = name)) = true) ↔
        name ∉ before.map Record.name := by
    simp only [List.mem_map, not_exists, not_and, Bool.not_eq_true', decide_eq_false_iff_not]
  constructor
  · rintro ⟨record, hfind, rfl⟩
    obtain ⟨hname, before, after, hsplit, hbefore⟩ := List.find?_eq_some_iff_append.mp hfind
    obtain rfl := of_decide_eq_true hname
    exact ⟨before, after, hsplit, (hother before).mp hbefore⟩
  · rintro ⟨before, after, hsplit, hbefore⟩
    exact ⟨⟨name, fields⟩, List.find?_eq_some_iff_append.mpr
      ⟨decide_eq_true rfl, before, after, hsplit, (hother before).mpr hbefore⟩, rfl⟩

/-- A name of which there is a record has a first one. -/
theorem exists_isFirst (h : name ∈ records.map Record.name) :
    ∃ fields, Record.IsFirst ⟨name, fields⟩ records := by
  obtain ⟨names, names', hsplit, hnew⟩ := List.eq_append_cons_of_mem h
  obtain ⟨before, rest, rfl, rfl, hrest⟩ := List.map_eq_append_iff.mp hsplit
  obtain ⟨record, after, rfl, rfl, rfl⟩ := List.map_eq_cons_iff.mp hrest
  exact ⟨record.fields, before, after, rfl, hnew⟩

/-- A name of which there is a record has a last one. -/
theorem exists_isLast (h : name ∈ records.map Record.name) :
    ∃ fields, Record.IsLast ⟨name, fields⟩ records := by
  cases hrecord : (Registry.ofList records).record name with
  | ok fields => exact ⟨fields, Registry.record_ofList_eq_ok_iff.mp hrecord⟩
  | error e =>
    obtain ⟨-, hcontains⟩ := Registry.record_eq_error_iff.mp hrecord
    rw [Registry.contains_ofList_iff.mpr h] at hcontains
    cases hcontains

/-- The name of a record in a list is one of its names. -/
theorem mem_names_of_split {before after : List Record}
    (h : records = before ++ ⟨name, fields⟩ :: after) : name ∈ records.map Record.name := by
  rw [h]
  exact List.mem_map.mpr ⟨⟨name, fields⟩, List.mem_append_right _ List.mem_cons_self, rfl⟩

/-- The same fields stand first and last under a name exactly if those that stand first equal those
that stand last. -/
theorem forall_isFirst_iff_isLast :
    (∀ fields, Record.IsFirst ⟨name, fields⟩ records ↔ Record.IsLast ⟨name, fields⟩ records) ↔
      ∀ first last, Record.IsFirst ⟨name, first⟩ records → Record.IsLast ⟨name, last⟩ records →
        first = last := by
  constructor
  · intro h first last hfirst hlast
    have hrecord := Registry.record_ofList_eq_ok_iff.mpr ((h first).mp hfirst)
    exact Except.ok.inj (hrecord.symm.trans (Registry.record_ofList_eq_ok_iff.mpr hlast))
  · intro h fields
    constructor
    · rintro ⟨before, after, hsplit, hbefore⟩
      obtain ⟨last, hlast⟩ := exists_isLast (mem_names_of_split hsplit)
      exact h fields last ⟨before, after, hsplit, hbefore⟩ hlast ▸ hlast
    · rintro ⟨before, after, hsplit, hafter⟩
      obtain ⟨first, hfirst⟩ := exists_isFirst (mem_names_of_split hsplit)
      exact h first fields hfirst ⟨before, after, hsplit, hafter⟩ ▸ hfirst

/-- Among records with different names the first one of a name is the last one. -/
theorem isFirst_iff_isLast (h : (records.map Record.name).Nodup) :
    Record.IsFirst ⟨name, fields⟩ records ↔ Record.IsLast ⟨name, fields⟩ records := by
  constructor
  · rintro ⟨before, after, rfl, -⟩
    rw [List.map_append, List.map_cons] at h
    exact ⟨before, after, rfl, fun hmem => (List.nodup_middle.mp h).notMem <|
      List.mem_append_right _ hmem⟩
  · rintro ⟨before, after, rfl, -⟩
    rw [List.map_append, List.map_cons] at h
    exact ⟨before, after, rfl, fun hmem => (List.nodup_middle.mp h).notMem <|
      List.mem_append_left _ hmem⟩

namespace Install

variable {read : Msg.Reader} {files : Files} {location : Location} {candidate : Candidate}

/-- The definition of a single interface names no record twice. -/
theorem nodup_names_of_loadWith (h : loadWith read files location candidate = .ok records)
    (hformat : candidate.format ≠ .idl) : (records.map Record.name).Nodup := by
  cases hkind : candidate.format with
  | idl => exact absurd hkind hformat
  | definition kind =>
    obtain ⟨q, kind, -, hnames⟩ := exists_recordNames_of_loadWith h hkind
    exact hnames ▸ kind.nodup_recordNames q.text

namespace Index

/-- **An index and a registry may give different records of one file.** Let the search for the file
of a name come to one that can be read, and let the name be that of a record and not of a service or
an action as a whole. The index answers with the fields of the first record of the name in the file,
and a registry of the records of the file with those of the last one. So they answer alike exactly
if these have the same fields. Where the file is the definition of a single interface, this is
always so. -/
theorem record_ofList_iff (index : Index) (read : Msg.Reader) (files : Files)
    (hparse : Location.parse? name = some location) (hwhole : location.isWhole = false)
    (hsource : index.source? files location = some candidate)
    (hload : loadWith read files location candidate = .ok records) :
    (∀ fields, index.record? read files name = some (.ok fields) ↔
      Record.IsFirst ⟨name, fields⟩ records) ∧
    (∀ fields, (Registry.ofList records).record name = .ok fields ↔
      Record.IsLast ⟨name, fields⟩ records) ∧
    ((∀ fields, index.record? read files name = some (.ok fields) ↔
        (Registry.ofList records).record name = .ok fields) ↔
      ∀ first last, Record.IsFirst ⟨name, first⟩ records → Record.IsLast ⟨name, last⟩ records →
        first = last) ∧
    (candidate.format ≠ .idl → ∀ fields, index.record? read files name = some (.ok fields) ↔
      (Registry.ofList records).record name = .ok fields) := by
  have hindex (fields : List Field) : index.record? read files name = some (.ok fields) ↔
      Record.IsFirst ⟨name, fields⟩ records := by
    rw [record?_eq_recordIn? _ _ _ _ hparse hwhole hsource, recordIn?_eq_ok_iff,
      ← exists_find?_iff_isFirst]
    constructor
    · rintro ⟨others, record, hothers, hfind⟩
      obtain rfl := Except.ok.inj (hload.symm.trans hothers)
      exact ⟨record, hfind⟩
    · rintro ⟨record, hfind⟩
      exact ⟨records, record, hload, hfind⟩
  have hregistry (fields : List Field) : (Registry.ofList records).record name = .ok fields ↔
      Record.IsLast ⟨name, fields⟩ records := Registry.record_ofList_eq_ok_iff
  refine ⟨hindex, hregistry, ?_, fun hformat fields => ?_⟩
  · simp only [hindex, hregistry]
    exact forall_isFirst_iff_isLast
  · rw [hindex, hregistry, isFirst_iff_isLast (nodup_names_of_loadWith hload hformat)]

/-! ### A record that is defined again -/

/-- An IDL file that defines one record once for each of the given members. -/
def repeatedContent (members : List String) : ByteArray :=
  ("module k \x7b\nmodule msg \x7b\n" ++
    String.join (members.map fun member => "struct A \x7b\n" ++ member ++ "\n\x7d;\n") ++
    "\x7d;\n\x7d;\n").toUTF8

/-- The file that is looked for first where there is no definition of a message. -/
def repeatedCandidate : Candidate :=
  ⟨⟨"p", ["share", "k", "msg", "A.idl"]⟩, .idl⟩

/-- A prefix with this file only. -/
def repeatedFiles (members : List String) : Files :=
  .ofList [(repeatedCandidate.path, .ok (repeatedContent members))]

/-- The place where the file is looked for. -/
def repeatedLocation : Location :=
  ⟨"k", .message, "A", "A"⟩

theorem parse?_repeatedLocation : Location.parse? "k/msg/A" = some repeatedLocation := by
  decide +kernel

theorem source?_repeatedFiles (members : List String) :
    (Index.mk ["p"]).source? (repeatedFiles members) repeatedLocation =
      some repeatedCandidate := by
  rfl

/-- A definition between two like ones makes no difference. -/
theorem record?_repeatedFiles :
    (Index.mk ["p"]).record? Msg.reader (repeatedFiles ["int32 x;", "int64 y;", "int32 x;"])
        "k/msg/A" = some (.ok [⟨"x", .primitive "int32"⟩]) ∧
    ∃ records, loadWith Msg.reader (repeatedFiles ["int32 x;", "int64 y;", "int32 x;"])
        repeatedLocation repeatedCandidate = .ok records ∧
      (Registry.ofList records).record "k/msg/A" = .ok [⟨"x", .primitive "int32"⟩] := by
  have hload : loadWith Msg.reader (repeatedFiles ["int32 x;", "int64 y;", "int32 x;"])
      repeatedLocation repeatedCandidate =
        .ok [⟨"k/msg/A", [⟨"x", .primitive "int32"⟩]⟩, ⟨"k/msg/A", [⟨"y", .primitive "int64"⟩]⟩,
          ⟨"k/msg/A", [⟨"x", .primitive "int32"⟩]⟩] := by decide +kernel
  obtain ⟨hindex, hregistry, -, -⟩ :=
    record_ofList_iff _ _ _ parse?_repeatedLocation rfl (source?_repeatedFiles _) hload
  have hfirst := (hindex [⟨"x", .primitive "int32"⟩]).mpr ⟨[], _, rfl, List.not_mem_nil⟩
  have hlast := (hregistry [⟨"x", .primitive "int32"⟩]).mpr ⟨[_, _], [], rfl, List.not_mem_nil⟩
  exact ⟨hfirst, _, hload, hlast⟩

/-- Of two different definitions, the index answers with the first one and the registry with the
second one. -/
theorem record?_repeatedFiles_differ :
    (Index.mk ["p"]).record? Msg.reader (repeatedFiles ["int32 x;", "int64 y;"]) "k/msg/A" =
      some (.ok [⟨"x", .primitive "int32"⟩]) ∧
    ∃ records, Location.parse? "k/msg/A" = some repeatedLocation ∧
      (Index.mk ["p"]).source? (repeatedFiles ["int32 x;", "int64 y;"]) repeatedLocation =
        some repeatedCandidate ∧
      loadWith Msg.reader (repeatedFiles ["int32 x;", "int64 y;"]) repeatedLocation
        repeatedCandidate = .ok records ∧
      (Registry.ofList records).record "k/msg/A" = .ok [⟨"y", .primitive "int64"⟩] := by
  have hload : loadWith Msg.reader (repeatedFiles ["int32 x;", "int64 y;"]) repeatedLocation
      repeatedCandidate =
        .ok [⟨"k/msg/A", [⟨"x", .primitive "int32"⟩]⟩,
          ⟨"k/msg/A", [⟨"y", .primitive "int64"⟩]⟩] := by decide +kernel
  have hsource := source?_repeatedFiles ["int32 x;", "int64 y;"]
  refine ⟨?_, _, parse?_repeatedLocation, hsource, hload, by decide⟩
  rw [record?_eq_recordIn? _ _ _ _ parse?_repeatedLocation rfl hsource, recordIn?, hload]
  rfl

end Index

end Install

end RosInterface
