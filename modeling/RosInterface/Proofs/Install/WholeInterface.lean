import RosInterface.Proofs.Install.Resolution
import RosInterface.Proofs.Resolution.Convention

/-!
# Services and actions in files

A service or an action is installed in one file, and its records are looked for in this file under
names of their own. So the interface is resolved exactly if the file can be read and defines each of
these records. It takes no other file, and there is no other name under which a record could be
missed: where the file does not define one of them, the resolution fails with that record as not
available.

The reader of message specifications is a parameter. A resolution comes to nothing if the reader
gives up at a file on the way, and that can be the file of a record to which a field refers.

## Main results

* `Install.exists_recordNames_of_loadWith`: the names of the records in the definition of an
  interface.
* `Install.IsWholeName.interfaceFile?_recordName`: the records of an interface are in its file.
* `Install.IsWholeName.record?_recordName`: they are answered from its file.
* `Install.IsWholeName.exists_resolve_eq_ok_iff`: an interface is resolved if its file defines its
  records.
* `Install.IsWholeName.interfaceFile?_and_resolve?_iff`: interfaces that are resolved from a file.
-/

namespace RosInterface.Install

section

variable {read : Msg.Reader} {files : Files} {location : Location} {candidate : Candidate}

/-- The records in the definition of a single interface have the names that its kind tells. -/
theorem exists_recordNames_of_loadWith {records : List Record} {kind : Kind}
    (h : loadWith read files location candidate = .ok records)
    (hformat : candidate.format = .definition kind) :
    ∃ (q : QualifiedName) (own : Kind),
      QualifiedName.canonical? location.interfaceName = some q ∧
        records.map Record.name = own.recordNames q.text := by
  obtain ⟨text, -, hrecords⟩ := (loadWith_eq_ok_iff read).mp h
  rw [hformat] at hrecords
  obtain ⟨q, own, hname, -, hnames⟩ :=
    Msg.exists_of_interfaceRecordsWith (mapError_eq_ok_iff.mp hrecords)
  exact ⟨q, own, hname, hnames⟩

/-- A file is read in the same way for each of several records. -/
theorem forall_mem_exists_loadWith_iff {parts : List String} (hne : parts ≠ []) :
    (∀ part ∈ parts, ∃ records, loadWith read files location candidate = .ok records ∧
        part ∈ records.map Record.name) ↔
      ∃ records, loadWith read files location candidate = .ok records ∧
        ∀ part ∈ parts, part ∈ records.map Record.name := by
  constructor
  · intro hall
    obtain ⟨first, hfirst⟩ := List.exists_mem_of_ne_nil parts hne
    obtain ⟨records, hload, -⟩ := hall first hfirst
    refine ⟨records, hload, fun part hpart => ?_⟩
    obtain ⟨others, hothers, hmem⟩ := hall part hpart
    rwa [Except.ok.inj (hload.symm.trans hothers)]
  · exact fun ⟨records, hload, hall⟩ part hpart => ⟨records, hload, hall part hpart⟩

/-- The segments of a path to a file tell its format. -/
theorem exists_format_of_source? {index : Index}
    (h : index.source? files location = some candidate) :
    (candidate.format = .definition location.kind ∨ candidate.format = .idl) ∧
      candidate.path.segments = ["share", location.package, location.kind.segment,
        location.base ++ "." ++ candidate.format.extension] := by
  obtain ⟨-, root, rfl | rfl⟩ := Index.source?_spec index files h
  · exact ⟨.inl rfl, rfl⟩
  · exact ⟨.inr rfl, rfl⟩

end

namespace IsWholeName

variable {q : QualifiedName} {package name : String} {kind : Kind} {index : Index}
  {read : Msg.Reader} {files : Files} {candidate : Candidate}

/-- The records of an interface are looked for in the file of the interface. -/
theorem interfaceFile?_recordName (h : IsWholeName q package kind name) (index : Index)
    (files : Files) {part : String} (hpart : part ∈ kind.recordNames name) :
    index.interfaceFile? files part = index.interfaceFile? files name := by
  obtain ⟨own, hparse, -⟩ := h.exists_parse?_recordName hpart
  rw [Index.interfaceFile?, Index.interfaceFile?, hparse, h.parse?_eq]
  rfl

/-- The records of an interface are answered from the file of the interface, which is read under the
name of the interface. -/
theorem record?_recordName (h : IsWholeName q package kind name)
    (hsource : index.source? files ⟨package, kind, q.name, q.name⟩ = some candidate)
    {part : String} (hpart : part ∈ kind.recordNames name) :
    index.record? read files part =
      Index.recordIn? read files part ⟨package, kind, q.name, q.name⟩ candidate := by
  obtain ⟨own, hparse, hwhole⟩ := h.exists_parse?_recordName hpart
  rw [index.record?_eq_recordIn? read files part hparse hwhole hsource]
  rfl

/-- An interface that has a file is there, with the conventional names of its records. -/
theorem namesRecords (h : IsWholeName q package kind name) {path : SourcePath}
    (hpath : index.interfaceFile? files name = some path) :
    (index.lookupWith read files).NamesRecords name kind := by
  have hrequire : index.requireFile files name = .ok () := by
    rw [Index.requireFile, hpath]
    rfl
  cases kind with
  | message => trivial
  | service => exact congrArg (Except.map fun _ => ServiceParts.names name) hrequire
  | action => exact congrArg (Except.map fun _ => ActionParts.names name) hrequire

/-- **An interface is resolved if its file defines its records.** -/
theorem exists_resolve_eq_ok_iff (h : IsWholeName q package kind name)
    (hsource : index.source? files ⟨package, kind, q.name, q.name⟩ = some candidate)
    (hnames : (index.lookupWith read files).NamesRecords name kind) :
    (∃ resolved, (resolve (index.lookupWith read files) name).value = .ok resolved) ↔
      ∃ text records, files.readText candidate.path = .ok text ∧
        recordsOfTextWith read candidate.format name text = .ok records ∧
          ∀ part ∈ kind.recordNames name, part ∈ records.map Record.name := by
  have hpart : ∀ part ∈ kind.recordNames name,
      ((∃ fields, (index.lookupWith read files).record part = .ok fields) ↔
        ∃ records, loadWith read files ⟨package, kind, q.name, q.name⟩ candidate = .ok records ∧
          part ∈ records.map Record.name) := by
    intro part hpart
    change (∃ fields, index.recordWith read files part = .ok fields) ↔ _
    simp only [Index.recordWith_eq_ok_iff, h.record?_recordName hsource hpart]
    exact Index.exists_recordIn?_eq_ok_iff
  rw [resolve, Source.exists_resolveWith_eq_ok_iff hnames h.classify?_eq, forall₂_congr hpart,
    forall_mem_exists_loadWith_iff (kind.recordNames_ne_nil name)]
  simp only [loadWith_eq_ok_iff, h.interfaceName_eq]
  constructor
  · rintro ⟨records, ⟨text, htext, hrecords⟩, hparts⟩
    exact ⟨text, records, htext, hrecords, hparts⟩
  · rintro ⟨text, records, htext, hrecords, hparts⟩
    exact ⟨records, ⟨text, htext, hrecords⟩, hparts⟩

/-- Where an interface has a file, a resolution that fails does so for want of one of its records.
That record was looked up, so that there is an answer for it, and the answer is from the file. -/
theorem exists_unavailable_of_resolve?_eq_error (h : IsWholeName q package kind name)
    (hsource : index.source? files ⟨package, kind, q.name, q.name⟩ = some candidate)
    (hnames : (index.lookupWith read files).NamesRecords name kind) {e : ResolutionError}
    (he : index.resolve? read files name = some (.error e)) :
    ∃ part ∈ kind.recordNames name, ∃ reason,
      e = .typeNotFound name (.unavailable part reason) := by
  obtain ⟨hcalls, hvalue⟩ := Index.outcome?_eq_some_iff.mp he
  obtain ⟨part, hpart, cause, hcall, hcause, rfl⟩ :=
    Source.exists_cause_of_resolveWith hnames h.classify?_eq hvalue
  obtain ⟨answer, hanswer⟩ := Option.isSome_iff_exists.mp (hcalls _ hcall)
  obtain rfl : answer = .error cause :=
    (Index.isAnsweredBy_lookupWith.record part answer hanswer).symm.trans hcause
  rw [h.record?_recordName hsource hpart] at hanswer
  obtain ⟨reason, rfl⟩ := Index.exists_reason_of_recordIn? hanswer
  exact ⟨part, hpart, reason, rfl⟩

/-- **Interfaces that are resolved from a file.** Take the plain spelling of the name of an
interface as a whole: a message, or a service or an action and not one of its records. Then the file
of the interface is also that of each of its records.

Let there be such a file. If the resolution of the name comes to anything, it is an interface
exactly if the file can be read as a text which, read under this name, defines a record of each of
the names. Otherwise one of these records is not available, which is the reason for the failure. The
resolution comes to nothing exactly if a record is looked up at whose file the reader of
specifications gives up. So there is an outcome in every case if the reader never does. It is the
same over every lookup that gives the answers of the index, whatever takes the place of an answer
that is missing. -/
theorem interfaceFile?_and_resolve?_iff (h : IsWholeName q package kind name) (index : Index)
    (read : Msg.Reader) (files : Files) :
    (∀ part ∈ kind.recordNames name,
      index.interfaceFile? files part = index.interfaceFile? files name) ∧
    (∀ path, index.interfaceFile? files name = some path → ∃ format,
      (format = .definition kind ∨ format = .idl) ∧
      path.segments = ["share", package, kind.segment, q.name ++ "." ++ format.extension] ∧
      files.isFile path = true ∧
      ∀ result, index.resolve? read files name = some result →
        ((∃ resolved, result = .ok resolved) ↔
          ∃ text records, files.readText path = .ok text ∧
            recordsOfTextWith read format name text = .ok records ∧
              ∀ part ∈ kind.recordNames name, part ∈ records.map Record.name) ∧
        ∀ e, result = .error e → ∃ part ∈ kind.recordNames name, ∃ reason,
          e = .typeNotFound name (.unavailable part reason)) ∧
    (index.resolve? read files name = none ↔
      ∃ part, .record part ∈ (resolve (index.lookupWith read files) name).calls ∧
        index.GivesUpAt read files part) ∧
    (read.Returns → ∃ result, index.resolve? read files name = some result) ∧
    (∀ lookup, index.IsAnsweredBy read files lookup →
      index.outcome? read files (resolve lookup name) = index.resolve? read files name) := by
  refine ⟨fun part hpart => h.interfaceFile?_recordName index files hpart, fun path hpath => ?_,
    Index.resolve?_eq_none_iff, fun hread => ⟨_, Index.resolve?_of_returns hread name⟩,
    fun _ hlookup => hlookup.outcome?_resolve name⟩
  obtain ⟨location, candidate, hfound, -, rfl, hthere⟩ :=
    Index.exists_of_interfaceFile? index files name hpath
  obtain ⟨hparse, hsource⟩ := (Index.found?_eq_some_iff index files name).mp hfound
  obtain rfl := Option.some.inj (h.parse?_eq.symm.trans hparse)
  obtain ⟨hformat, hsegments⟩ := exists_format_of_source? hsource
  have hnames : (index.lookupWith read files).NamesRecords name kind := h.namesRecords hpath
  refine ⟨candidate.format, hformat, hsegments, hthere, fun result hresult => ⟨?_, ?_⟩⟩
  · rw [← (Index.outcome?_eq_some_iff.mp hresult).2]
    exact h.exists_resolve_eq_ok_iff hsource hnames
  · rintro e rfl
    exact h.exists_unavailable_of_resolve?_eq_error hsource hnames hresult

end IsWholeName

/-! ### Two services -/

/-- A service with both of its records. -/
def echoText : String :=
  "int32 a\n---\nstring b\n"

/-- An IDL text with the request of a service, and no response. -/
def halfText : String :=
  "module demo \x7b\nmodule srv \x7b\nstruct Half_Request \x7b\n\x7d;\n\x7d;\n\x7d;\n"

/-- A prefix with these two files. -/
def serviceFiles : Files :=
  .ofList [
    (⟨"opt", ["share", "demo", "srv", "Echo.srv"]⟩, .ok echoText.toUTF8),
    (⟨"opt", ["share", "demo", "srv", "Half.idl"]⟩, .ok halfText.toUTF8)]

/-- The reader of this library, but that it never gives up. -/
def patientReader : Msg.Reader :=
  fun record text =>
    match Msg.reader record text with
    | .error .loneQuote => .error .malformedMain
    | answer => answer

theorem returns_patientReader : patientReader.Returns := by
  intro record text h
  rw [patientReader] at h
  split at h
  · cases h
  · rename_i hother
    exact hother h

/-- The first service is resolved from its file. The second one is not, for want of a record. -/
theorem resolve?_serviceFiles :
    IsWholeName ⟨["demo", "srv"], "Echo"⟩ "demo" .service "demo/srv/Echo" ∧
    IsWholeName ⟨["demo", "srv"], "Half"⟩ "demo" .service "demo/srv/Half" ∧
    (Index.mk ["opt"]).interfaceFile? serviceFiles "demo/srv/Echo_Response"
      = some ⟨"opt", ["share", "demo", "srv", "Echo.srv"]⟩ ∧
    (∃ resolved, (Index.mk ["opt"]).resolve? patientReader serviceFiles "demo/srv/Echo"
      = some (.ok resolved)) ∧
    ∃ part reason, (Index.mk ["opt"]).resolve? patientReader serviceFiles "demo/srv/Half"
      = some (.error (.typeNotFound "demo/srv/Half" (.unavailable part reason))) := by
  have hecho : IsWholeName ⟨["demo", "srv"], "Echo"⟩ "demo" .service "demo/srv/Echo" :=
    ⟨⟨by decide +kernel, by decide +kernel⟩, rfl, by decide⟩
  have hhalf : IsWholeName ⟨["demo", "srv"], "Half"⟩ "demo" .service "demo/srv/Half" :=
    ⟨⟨by decide +kernel, by decide +kernel⟩, rfl, by decide⟩
  have hechoFile : (Index.mk ["opt"]).interfaceFile? serviceFiles "demo/srv/Echo"
      = some ⟨"opt", ["share", "demo", "srv", "Echo.srv"]⟩ := by decide +kernel
  have hhalfFile : (Index.mk ["opt"]).interfaceFile? serviceFiles "demo/srv/Half"
      = some ⟨"opt", ["share", "demo", "srv", "Half.idl"]⟩ := by decide +kernel
  obtain ⟨hparts, hfile, -, hreturns, -⟩ :=
    hecho.interfaceFile?_and_resolve?_iff (Index.mk ["opt"]) patientReader serviceFiles
  refine ⟨hecho, hhalf, ?_, ?_, ?_⟩
  · rw [hparts "demo/srv/Echo_Response" (by decide), hechoFile]
  · obtain ⟨result, hresult⟩ := hreturns returns_patientReader
    obtain ⟨format, rfl | rfl, hsegments, -, houtcome⟩ := hfile _ hechoFile
    · obtain ⟨resolved, rfl⟩ := (houtcome result hresult).1.mpr
        ⟨echoText.toList, [⟨"demo/srv/Echo_Request", [⟨"a", .primitive "int32"⟩]⟩,
          ⟨"demo/srv/Echo_Response", [⟨"b", .string none⟩]⟩],
          by decide +kernel, by decide +kernel, by decide⟩
      exact ⟨resolved, hresult⟩
    · exact absurd hsegments (by decide)
  · obtain ⟨-, hfile, -, hreturns, -⟩ :=
      hhalf.interfaceFile?_and_resolve?_iff (Index.mk ["opt"]) patientReader serviceFiles
    obtain ⟨result, hresult⟩ := hreturns returns_patientReader
    obtain ⟨format, rfl | rfl, hsegments, -, houtcome⟩ := hfile _ hhalfFile
    · exact absurd hsegments (by decide)
    · obtain ⟨hiff, herror⟩ := houtcome result hresult
      have htext : serviceFiles.readText ⟨"opt", ["share", "demo", "srv", "Half.idl"]⟩
          = .ok halfText.toList := by decide +kernel
      have hrecords : recordsOfTextWith patientReader .idl "demo/srv/Half" halfText.toList
          = .ok [⟨"demo/srv/Half_Request", []⟩] := by decide +kernel
      cases result with
      | ok resolved =>
        obtain ⟨text, records, htext', hrecords', hdefined⟩ := hiff.mp ⟨resolved, rfl⟩
        obtain rfl := Except.ok.inj (htext.symm.trans htext')
        obtain rfl := Except.ok.inj (hrecords.symm.trans hrecords')
        exact absurd (hdefined "demo/srv/Half_Response" (by decide)) (by decide)
      | error e =>
        obtain ⟨part, -, reason, rfl⟩ := herror e rfl
        exact ⟨part, reason, hresult⟩

end RosInterface.Install
