import RosInterface.Install.Index
import RosInterface.Proofs.Install.Location

/-!
# Search paths that lie over one another

An index looks for the file of an interface below one prefix after the other. The search ends with
the first file, before anything is read, and all that is answered about a name follows from what the
search has come to. So with prefixes put before others, a name is answered for by the first ones
alone if they have a file for it, however bad that file is and be it one that cannot be read, and by
the others alone if not. The built-in records come last: they are answered with where no prefix has
a file.

This is so with every reader of message specifications. Where the reader gives up at the file that
was found, there is no answer, and nothing else is tried then either.

## Main definitions

* `Install.Index.found?`: what the search for the file of an interface comes to.
* `Install.Answers`, `Install.Index.answers`: all that an index answers about a name.
* `Install.IsRecordFrom`: what a file answers for the record of a name.

## Main results

* `Install.Index.source?_append`: the search below two lists of prefixes.
* `Install.Index.answers_eq`: all answers follow from what the search comes to.
* `Install.Index.answers_append`: prefixes that lie over others.
-/

namespace RosInterface.Install

/-! ### Records from a file -/

section

variable {read : Msg.Reader} {files : Files} {location : Location} {candidate : Candidate}
  {name : String}

/-- A file answers with the fields of the first record of the name that it defines. -/
theorem Index.recordIn?_eq_ok_iff {fields : List Field} :
    recordIn? read files name location candidate = some (.ok fields) ↔ ∃ records record,
      loadWith read files location candidate = .ok records ∧
        records.find? (fun record => record.name = name) = some record ∧
          record.fields = fields := by
  rw [recordIn?]
  cases loadWith read files location candidate with
  | error e =>
    dsimp only
    split <;> simp
  | ok records =>
    cases hfind : records.find? fun record => record.name = name with
    | none => simp [hfind]
    | some record => simp [hfind]

/-- A file has no answer exactly if the reader gives up at it. -/
theorem Index.recordIn?_eq_none_iff :
    recordIn? read files name location candidate = none ↔
      ∃ e, loadWith read files location candidate = .error e ∧ e.isFatal = true := by
  rw [recordIn?]
  cases loadWith read files location candidate with
  | error e =>
    dsimp only
    split
    · rename_i hfatal
      simp [hfatal]
    · rename_i hfatal
      simp [hfatal]
  | ok records =>
    dsimp only
    split <;> simp

/-- A file that answers with something else than fields makes the record unavailable. -/
theorem Index.exists_reason_of_recordIn? {e : LookupError}
    (h : recordIn? read files name location candidate = some (.error e)) :
    ∃ reason, e = .unavailable name reason := by
  rw [recordIn?] at h
  split at h
  · split at h
    · cases h
    · exact ⟨_, (Except.error.inj (Option.some.inj h)).symm⟩
  · split at h
    · cases h
    · exact ⟨_, (Except.error.inj (Option.some.inj h)).symm⟩

/-- A file that cannot be read makes the record unavailable, for the reason of that failure. -/
theorem Index.recordIn?_of_unreadable {reason : String}
    (h : files.readText candidate.path = .error reason) :
    recordIn? read files name location candidate =
      some (.error (.unavailable name
        ("cannot read '" ++ candidate.path.text ++ "': " ++ reason))) := by
  rw [recordIn?, loadWith, h]
  rfl

/-- A file answers with fields if it can be read and defines a record of the name. -/
theorem Index.exists_recordIn?_eq_ok_iff :
    (∃ fields, recordIn? read files name location candidate = some (.ok fields)) ↔
      ∃ records, loadWith read files location candidate = .ok records ∧
        name ∈ records.map Record.name := by
  simp only [recordIn?_eq_ok_iff]
  constructor
  · rintro ⟨fields, records, record, hload, hfind, -⟩
    have hname : record.name = name := by simpa using List.find?_some hfind
    exact ⟨records, hload, List.mem_map.mpr ⟨record, List.mem_of_find?_eq_some hfind, hname⟩⟩
  · rintro ⟨records, hload, hmem⟩
    obtain ⟨record, hrecord, hname⟩ := List.mem_map.mp hmem
    have hsome : (records.find? fun record => record.name = name).isSome = true :=
      List.find?_isSome.mpr ⟨record, hrecord, decide_eq_true hname⟩
    obtain ⟨found, hfound⟩ := Option.isSome_iff_exists.mp hsome
    exact ⟨found.fields, records, found, hload, hfound, rfl⟩

end

/-- What a file answers for the record of a name. -/
structure IsRecordFrom (read : Msg.Reader) (files : Files) (location : Location)
    (candidate : Candidate) (name : String) (answer : Option (Except LookupError (List Field))) :
    Prop where
  /-- A service or an action as a whole is no record, and the file is not read. -/
  whole : location.isWhole = true → answer = some (.error (.notFound name))
  /-- Otherwise there are fields if the file can be read and defines a record of the name, and they
  are those of the first one. -/
  ok_iff : location.isWhole = false → ∀ fields, answer = some (.ok fields) ↔ ∃ records record,
    loadWith read files location candidate = .ok records ∧
      records.find? (fun record => record.name = name) = some record ∧ record.fields = fields
  /-- There is no answer exactly if the reader of specifications gives up at the file. -/
  none_iff : location.isWhole = false → (answer = none ↔
    ∃ e, loadWith read files location candidate = .error e ∧ e.isFatal = true)
  /-- All else makes the record unavailable: a file that cannot be read, that is malformed or that
  has no record of the name. -/
  unavailable : location.isWhole = false → ∀ e, answer = some (.error e) →
    ∃ reason, e = .unavailable name reason
  /-- If the file cannot be read as a text, that is the reason. -/
  unreadable : location.isWhole = false → ∀ reason, files.readText candidate.path = .error reason →
    answer = some (.error (.unavailable name
      ("cannot read '" ++ candidate.path.text ++ "': " ++ reason)))

/-! ### Built-in records -/

/-- The names of the built-in records are those of messages. -/
theorem exists_parse?_of_builtins {name : String} {fields : List Field}
    (h : builtins.record name = .ok fields) :
    ∃ location, Location.parse? name = some location ∧ location.isWhole = false := by
  have hkeys : ∀ key ∈ builtins.records.keys,
      ((Location.parse? key).map Location.isWhole) = some false := by
    decide +kernel
  exact Option.map_eq_some_iff.mp
    (hkeys name (Table.mem_keys_of_get? (Registry.record_eq_ok_iff.mp h)))

/-- A name that is not that of a record is not that of a built-in record. -/
theorem builtins_record_eq_notFound {name : String}
    (h : ∀ location, Location.parse? name = some location → location.isWhole = true) :
    builtins.record name = .error (.notFound name) := by
  cases hrecord : builtins.record name with
  | ok fields =>
    obtain ⟨location, hparse, hwhole⟩ := exists_parse?_of_builtins hrecord
    rw [h location hparse] at hwhole
    cases hwhole
  | error e =>
    rw [Registry.record] at hrecord
    split at hrecord
    · cases hrecord
    · exact hrecord ▸ rfl

/-! ### The search and its answers -/

/-- All that is answered about a name. -/
structure Answers where
  /-- The path of the file that defines the interface. -/
  file : Option SourcePath
  /-- The fields of the record, if the lookup has an answer. -/
  record : Option (Except LookupError (List Field))
  /-- The names of the records of the service. -/
  service : Except LookupError (ServiceParts String)
  /-- The names of the records of the action. -/
  action : Except LookupError (ActionParts String)

section

variable (read : Msg.Reader) (files : Files) (name : String)

/-- What is answered about a name after a search for its file. -/
def Answers.ofSearch : Option (Location × Candidate) → Answers
  | none =>
    ⟨none, some (builtins.record name), .error (.notFound name), .error (.notFound name)⟩
  | some (location, candidate) =>
    { file := some candidate.path
      record :=
        if location.isWhole then some (.error (.notFound name))
        else Index.recordIn? read files name location candidate
      service := .ok (.names name)
      action := .ok (.names name) }

/-- After a search that has found a file, the record is answered from that file. -/
theorem isRecordFrom_ofSearch (location : Location) (candidate : Candidate) :
    IsRecordFrom read files location candidate name
      (Answers.ofSearch read files name (some (location, candidate))).record := by
  cases hwhole : location.isWhole with
  | true =>
    have hrecord : (Answers.ofSearch read files name (some (location, candidate))).record
        = some (.error (.notFound name)) := if_pos hwhole
    rw [hrecord]
    exact ⟨fun _ => rfl, fun h => (nomatch hwhole.symm.trans h),
      fun h => (nomatch hwhole.symm.trans h), fun h => (nomatch hwhole.symm.trans h),
      fun h => (nomatch hwhole.symm.trans h)⟩
  | false =>
    have hrecord : (Answers.ofSearch read files name (some (location, candidate))).record
        = Index.recordIn? read files name location candidate :=
      if_neg (by rw [hwhole]; exact Bool.false_ne_true)
    rw [hrecord]
    exact ⟨fun h => (nomatch hwhole.symm.trans h), fun _ _ => Index.recordIn?_eq_ok_iff,
      fun _ => Index.recordIn?_eq_none_iff, fun _ _ => Index.exists_reason_of_recordIn?,
      fun _ _ => Index.recordIn?_of_unreadable⟩

end

namespace Index

/-- Where the interface of a name is installed, with the file that defines it. -/
def found? (index : Index) (files : Files) (name : String) : Option (Location × Candidate) :=
  (Location.parse? name).bind fun location => (index.source? files location).map (location, ·)

/-- All that an index answers about a name. -/
def answers (index : Index) (read : Msg.Reader) (files : Files) (name : String) : Answers where
  file := index.interfaceFile? files name
  record := index.record? read files name
  service := index.service files name
  action := index.action files name

variable (index : Index) (read : Msg.Reader) (files : Files) (name : String)

theorem found?_eq_some_iff {location : Location} {candidate : Candidate} :
    index.found? files name = some (location, candidate) ↔
      Location.parse? name = some location ∧ index.source? files location = some candidate := by
  rw [found?, Option.bind_eq_some_iff]
  constructor
  · rintro ⟨other, hparse, hsource⟩
    obtain ⟨found, hfound, heq⟩ := Option.map_eq_some_iff.mp hsource
    cases heq
    exact ⟨hparse, hfound⟩
  · rintro ⟨hparse, hsource⟩
    exact ⟨location, hparse, by rw [hsource]; rfl⟩

theorem interfaceFile?_eq :
    index.interfaceFile? files name =
      (index.found? files name).map fun found => found.2.path := by
  rw [interfaceFile?, found?]
  cases Location.parse? name with
  | none => rfl
  | some location =>
    simp only [Option.bind_eq_bind, Option.bind_some]
    cases index.source? files location <;> rfl

theorem requireFile_eq :
    index.requireFile files name =
      if (index.found? files name).isSome then .ok () else .error (.notFound name) := by
  rw [requireFile, interfaceFile?_eq, Option.isSome_map]

theorem record?_eq :
    index.record? read files name =
      (Answers.ofSearch read files name (index.found? files name)).record := by
  rw [record?, found?]
  cases hparse : Location.parse? name with
  | none =>
    refine congrArg some (builtins_record_eq_notFound fun location h => ?_).symm
    rw [hparse] at h
    cases h
  | some location =>
    simp only [Option.bind_some]
    cases index.source? files location with
    | some found => rfl
    | none =>
      split
      · rename_i hwhole
        refine congrArg some (builtins_record_eq_notFound fun other h => ?_).symm
        rw [hparse] at h
        exact Option.some.inj h ▸ hwhole
      · rfl

/-- Where a file is found for the name of a record, the record is looked for in it. -/
theorem record?_eq_recordIn? {location : Location} {candidate : Candidate}
    (hparse : Location.parse? name = some location) (hwhole : location.isWhole = false)
    (hsource : index.source? files location = some candidate) :
    index.record? read files name = recordIn? read files name location candidate := by
  simp only [record?, hparse, hwhole, hsource]
  rfl

/-- **All answers about a name follow from what the search for its file comes to.** -/
theorem answers_eq :
    index.answers read files name = .ofSearch read files name (index.found? files name) := by
  simp only [answers, service, action, requireFile_eq, interfaceFile?_eq, record?_eq]
  cases index.found? files name <;> rfl

/-! ### Prefixes over others -/

variable (upper lower : List String)

/-- The search goes on below the second list of prefixes only if nothing was found below the first
one. -/
theorem source?_append (location : Location) :
    (Index.mk (upper ++ lower)).source? files location =
      ((Index.mk upper).source? files location).or ((Index.mk lower).source? files location) := by
  rw [source?, candidates, List.flatMap_append, List.find?_append]
  rfl

theorem found?_append :
    (Index.mk (upper ++ lower)).found? files name =
      ((Index.mk upper).found? files name).or ((Index.mk lower).found? files name) := by
  simp only [found?]
  cases Location.parse? name with
  | none => rfl
  | some location =>
    simp only [Option.bind_some, source?_append]
    cases (Index.mk upper).source? files location <;> rfl

/-- The file of an interface is one that was tried, and is there. -/
theorem exists_of_interfaceFile? {path : SourcePath}
    (h : index.interfaceFile? files name = some path) : ∃ location candidate,
      index.found? files name = some (location, candidate) ∧
        candidate ∈ index.candidates location ∧ candidate.path = path ∧
          files.isFile path = true := by
  rw [interfaceFile?_eq] at h
  obtain ⟨⟨location, candidate⟩, hfound, rfl⟩ := Option.map_eq_some_iff.mp h
  obtain ⟨-, hsource⟩ := (found?_eq_some_iff index files name).mp hfound
  exact ⟨location, candidate, hfound, List.mem_of_find?_eq_some hsource, rfl,
    (source?_spec index files hsource).1⟩

/-- **Prefixes that lie over others.** Let an index search some prefixes and then others. For a
name for which the first ones have a file, it answers all questions as an index over the first ones
alone does, and for any other name as an index over the others alone does.

So a file below the first prefixes hides all that comes later. The record of a name is answered from
this file: with the fields of the first record of the name in it, and otherwise the record is not
available, whether the file cannot be read, is malformed or has no record of the name. There is no
answer at all if the reader of specifications gives up at the file, which may be any reader here.
The built-in records are answered with where there is no file below any prefix. -/
theorem answers_append :
    (Index.mk (upper ++ lower)).answers read files name =
      (if ((Index.mk upper).interfaceFile? files name).isSome then
        (Index.mk upper).answers read files name
      else (Index.mk lower).answers read files name) ∧
    (∀ path, (Index.mk upper).interfaceFile? files name = some path →
      (Index.mk (upper ++ lower)).interfaceFile? files name = some path ∧
      ∃ location candidate, Location.parse? name = some location ∧
        candidate ∈ (Index.mk upper).candidates location ∧ candidate.path = path ∧
          files.isFile path = true ∧
            IsRecordFrom read files location candidate name
              ((Index.mk (upper ++ lower)).record? read files name)) ∧
    ((Index.mk (upper ++ lower)).interfaceFile? files name = none →
      (Index.mk (upper ++ lower)).record? read files name = some (builtins.record name)) := by
  have hoverlay : (Index.mk (upper ++ lower)).answers read files name =
      if ((Index.mk upper).interfaceFile? files name).isSome then
        (Index.mk upper).answers read files name
      else (Index.mk lower).answers read files name := by
    rw [interfaceFile?_eq, Option.isSome_map, answers_eq, answers_eq, answers_eq, found?_append]
    cases (Index.mk upper).found? files name <;> rfl
  refine ⟨hoverlay, fun path hpath => ?_, fun hnone => ?_⟩
  · rw [hpath, Option.isSome_some, if_pos rfl] at hoverlay
    have hfile : (Index.mk (upper ++ lower)).interfaceFile? files name
        = (Index.mk upper).interfaceFile? files name := congrArg Answers.file hoverlay
    have hrecord : (Index.mk (upper ++ lower)).record? read files name
        = (Index.mk upper).record? read files name := congrArg Answers.record hoverlay
    obtain ⟨location, candidate, hfound, htried, hcandidate, hthere⟩ :=
      exists_of_interfaceFile? _ files name hpath
    refine ⟨hfile.trans hpath, location, candidate,
      ((found?_eq_some_iff _ files name).mp hfound).1, htried, hcandidate, hthere, ?_⟩
    rw [hrecord, record?_eq, hfound]
    exact isRecordFrom_ofSearch read files name location candidate
  · rw [interfaceFile?_eq, Option.map_eq_none_iff] at hnone
    rw [record?_eq, hnone]
    rfl

end Index

/-! ### A file that cannot be read and hides another one -/

/-- Two prefixes with a file for the same message. The first file cannot be read. -/
def lockedFiles : Files :=
  .ofList [
    (⟨"over", ["share", "builtin_interfaces", "msg", "Time.msg"]⟩,
      .error "Permission denied (os error 13)"),
    (⟨"under", ["share", "builtin_interfaces", "msg", "Time.msg"]⟩,
      .ok "int64 ticks\n".toUTF8)]

/-- Neither the later file nor the built-in record is used in place of the file that cannot be
read. -/
theorem Index.record?_lockedFiles :
    (Index.mk ["over"]).interfaceFile? lockedFiles "builtin_interfaces/msg/Time"
      = some ⟨"over", ["share", "builtin_interfaces", "msg", "Time.msg"]⟩ ∧
    (Index.mk ["under"]).record? Msg.reader lockedFiles "builtin_interfaces/msg/Time"
      = some (.ok [⟨"ticks", .primitive "int64"⟩]) ∧
    (Index.mk (["over"] ++ ["under"])).record? Msg.reader lockedFiles "builtin_interfaces/msg/Time"
      = some (.error (.unavailable "builtin_interfaces/msg/Time"
          ("cannot read 'over/share/builtin_interfaces/msg/Time.msg': "
            ++ "Permission denied (os error 13)"))) := by
  have hover : (Index.mk ["over"]).interfaceFile? lockedFiles "builtin_interfaces/msg/Time"
      = some ⟨"over", ["share", "builtin_interfaces", "msg", "Time.msg"]⟩ := by decide +kernel
  have hunder : (Index.mk ["under"]).record? Msg.reader lockedFiles "builtin_interfaces/msg/Time"
      = some (.ok [⟨"ticks", .primitive "int64"⟩]) := by decide +kernel
  refine ⟨hover, hunder, ?_⟩
  obtain ⟨-, location, candidate, hparse, -, hcandidate, -, hrecord⟩ :=
    (Index.answers_append Msg.reader lockedFiles "builtin_interfaces/msg/Time"
      ["over"] ["under"]).2.1 _ hover
  have hwhole : location.isWhole = false := by
    have hall : (Location.parse? "builtin_interfaces/msg/Time").map Location.isWhole
        = some false := by decide +kernel
    rw [hparse] at hall
    exact Option.some.inj hall
  have hread : lockedFiles.readText candidate.path = .error "Permission denied (os error 13)" := by
    rw [hcandidate]
    decide +kernel
  have htext : candidate.path.text = "over/share/builtin_interfaces/msg/Time.msg" := by
    rw [hcandidate]
    decide +kernel
  rw [hrecord.unreadable hwhole _ hread, htext]
  decide +kernel

end RosInterface.Install
