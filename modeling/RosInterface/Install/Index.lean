import RosInterface.Install.Builtin
import RosInterface.Install.Location
import RosInterface.Idl.Bundle
import RosInterface.Msg.Interface

/-!
# Indexes of installed interfaces

An *index* searches install prefixes, in order, for the files that define interfaces. The first
file that is found is the one that counts, whether it can be read or not and whatever it holds.
Where no prefix has a file, the built-in records remain.

The reader of message specifications is a parameter. It may give up at a text. A lookup that reads
the text has no answer then, which is neither fields nor an error.

## Main definitions

* `Install.Index`: the prefixes that are searched.
* `Install.Index.ofSearchPath`: the prefixes in the value of an environment variable.
* `Install.Index.source?`: the file that defines an interface.
* `Install.LoadError`, `Install.loadWith`: reading the file.
* `Install.Index.record?`: the fields of a record, where the lookup has an answer.
* `Install.Index.service`, `Install.Index.action`: the names of the records of an interface.
* `Install.Index.lookupWith`: the index as a lookup.

## Main results

* `Install.Index.exists_names`: an index knows finitely many records.
-/

namespace RosInterface.Install

/-! ### Reading a file -/

/-- Why the records of a file are not known. -/
inductive LoadError where
  /-- The file cannot be read as a text, for the given reason. -/
  | unreadable (path : SourcePath) (reason : String)
  /-- The text is no IDL file. -/
  | idl (error : Idl.Error)
  /-- The text is no definition of an interface. -/
  | definition (error : Msg.Error)
deriving DecidableEq

namespace LoadError

/-- The text that tells a user about the error. -/
def message : LoadError → String
  | unreadable path reason => "cannot read '" ++ path.text ++ "': " ++ reason
  | idl error => error.message
  | definition error => error.message

/-- The reader gave up, so that there is no answer at all. -/
def isFatal : LoadError → Bool
  | definition error => error.isFatal
  | _ => false

end LoadError

section

variable (read : Msg.Reader)

/-- The records that a text defines, in a format and under the name of an interface. -/
def recordsOfTextWith (format : Format) (interfaceName : String) (text : List Char) :
    Except LoadError (List Record) :=
  match format with
  | .idl => (Idl.records text).mapError .idl
  | .definition _ => (Msg.interfaceRecordsWith read interfaceName text).mapError .definition

/-- The records that a file defines. -/
def loadWith (files : Files) (location : Location) (candidate : Candidate) :
    Except LoadError (List Record) :=
  match files.readText candidate.path with
  | .error reason => .error (.unreadable candidate.path reason)
  | .ok text => recordsOfTextWith read candidate.format location.interfaceName text

/-- The records of a file are known if it can be read as a text that defines them. -/
theorem loadWith_eq_ok_iff {files : Files} {location : Location} {candidate : Candidate}
    {records : List Record} : loadWith read files location candidate = .ok records ↔
      ∃ text, files.readText candidate.path = .ok text ∧
        recordsOfTextWith read candidate.format location.interfaceName text = .ok records := by
  rw [loadWith]
  cases files.readText candidate.path with
  | error reason => simp
  | ok text => simp

end

/-! ### Indexes -/

/-- The prefixes that are searched for interfaces. -/
structure Index where
  /-- The prefixes, in the order in which they are searched. -/
  prefixes : List String

namespace Index

/-- The index over the prefixes in a search path, the text of an environment variable if that is
set: what stands between colons, as far as it is not empty. -/
def ofSearchPath (value : Option String) : Index where
  prefixes := ((value.getD "").toList.splitOn ':').filterMap fun piece =>
    if piece.isEmpty then none else some (String.ofList piece)

section

variable (index : Index) (files : Files)

/-- The files that may define an interface, in the order in which they are tried. -/
def candidates (location : Location) : List Candidate :=
  index.prefixes.flatMap location.candidates

/-- The file that defines an interface: the first one that is there. Nothing is read. -/
def source? (location : Location) : Option Candidate :=
  (index.candidates location).find? fun candidate => files.isFile candidate.path

/-- The path of the file that defines the interface of a name. -/
def interfaceFile? (name : String) : Option SourcePath := do
  let location ← Location.parse? name
  let candidate ← index.source? files location
  return candidate.path

/-- Requires that there is a file which defines the interface of a name. -/
def requireFile (name : String) : Except LookupError Unit :=
  if (index.interfaceFile? files name).isSome then .ok () else .error (.notFound name)

/-- The names of the records of a service. It exists if there is a file that defines it, and its
records are named by the convention. -/
def service (name : String) : Except LookupError (ServiceParts String) :=
  (index.requireFile files name).map fun _ => ServiceParts.names name

/-- The names of the records of an action, in the same way. -/
def action (name : String) : Except LookupError (ActionParts String) :=
  (index.requireFile files name).map fun _ => ActionParts.names name

/-- The paths that are looked at, in the search for the file of the interface of a name. -/
def pathsOf (name : String) : List SourcePath :=
  match Location.parse? name with
  | none => []
  | some location => (index.candidates location).map Candidate.path

end

variable (index : Index) (read : Msg.Reader) (files : Files)

/-- The fields of the record of a name, among those that the file of its interface defines. There
is no answer if the reader gives up at the file. -/
def recordIn? (name : String) (location : Location) (candidate : Candidate) :
    Option (Except LookupError (List Field)) :=
  match loadWith read files location candidate with
  | .error e => if e.isFatal then none else some (.error (.unavailable name e.message))
  | .ok records =>
    match records.find? fun record => record.name = name with
    | some record => some (.ok record.fields)
    | none =>
      some (.error
        (.unavailable name ("'" ++ candidate.path.text ++ "' does not define this type")))

/-- The fields of the record of a name, or the reason why there are none. There is no answer if the
reader gives up at the file that was found. -/
def record? (name : String) : Option (Except LookupError (List Field)) :=
  match Location.parse? name with
  | none => some (.error (.notFound name))
  | some location =>
    if location.isWhole then some (.error (.notFound name))
    else
      match index.source? files location with
      | none => some (builtins.record name)
      | some candidate => recordIn? read files name location candidate

/-! ### An index knows finitely many records -/

/-- The names of the records that a content defines. -/
def definedNames (format : Format) (interfaceName : String) (content : ByteArray) :
    List String :=
  match decode content with
  | .error _ => []
  | .ok text =>
    match recordsOfTextWith read format interfaceName text with
    | .error _ => []
    | .ok records => records.map Record.name

/-- The names that an interface may have if its file has a given name. -/
def basesOfFile (file : String) : List String :=
  [.definition .message, .definition .service, .definition .action, .idl].filterMap
    fun format : Format =>
      (('.' :: format.extension.toList).isSuffixOf? file.toList).map String.ofList

/-- The names of all records that an index may know, if files have the given contents and the
given names on the way to them. -/
def possibleNames (names : List String) (contents : List ByteArray) : List String :=
  builtins.records.keys ++
    contents.flatMap fun content =>
      definedNames read .idl "" content ++
        names.flatMap fun package =>
          [Kind.message, .service, .action].flatMap fun kind =>
            (names.flatMap basesOfFile).flatMap fun base =>
              definedNames read (.definition kind)
                (Location.interfaceName ⟨package, kind, base, base⟩) content

theorem isSuffixOf?_append (a b : List Char) : b.isSuffixOf? (a ++ b) = some a := by
  have hp : ∀ s t : List Char, s.isPrefixOf? (s ++ t) = some t := fun s t => by
    induction s with
    | nil => rfl
    | cons c s ih =>
      change (if c == c then s.isPrefixOf? (s ++ t) else none) = some t
      rw [if_pos (beq_self_eq_true c), ih]
  change (b.reverse.isPrefixOf? (a ++ b).reverse).map List.reverse = some a
  rw [List.reverse_append, hp, Option.map_some, List.reverse_reverse]

theorem base_mem_basesOfFile (base : String) (format : Format) :
    base ∈ basesOfFile (base ++ "." ++ format.extension) := by
  refine List.mem_filterMap.mpr ⟨format, ?_, ?_⟩
  · cases format with
    | idl => simp
    | definition kind => cases kind <;> simp
  · have h : (base ++ "." ++ format.extension).toList
        = base.toList ++ '.' :: format.extension.toList := by
      simp [String.toList_append]
    rw [h, isSuffixOf?_append]
    simp

theorem name_mem_definedNames {name : String} {location : Location} {candidate : Candidate}
    {content : ByteArray} {fields : List Field} (hread : files.read candidate.path = .ok content)
    (h : recordIn? read files name location candidate = some (.ok fields)) :
    name ∈ definedNames read candidate.format location.interfaceName content := by
  rw [recordIn?] at h
  split at h
  · split at h <;> cases h
  · rename_i records hload
    split at h
    · rename_i record hfind
      have hname : record.name = name := by simpa using List.find?_some hfind
      obtain ⟨text, htext, hrecords⟩ := (loadWith_eq_ok_iff read).mp hload
      obtain ⟨content', hcontent, hdecode⟩ := bind_eq_ok_iff.mp htext
      obtain rfl := Except.ok.inj (hread.symm.trans hcontent)
      rw [definedNames, hdecode]
      simp only [hrecords]
      exact List.mem_map.mpr ⟨record, List.mem_of_find?_eq_some hfind, hname⟩
    · cases h

/-- Fields come from a file that can be read. -/
theorem exists_content_of_recordIn? {name : String} {location : Location} {candidate : Candidate}
    {fields : List Field} (h : recordIn? read files name location candidate = some (.ok fields)) :
    ∃ content, files.read candidate.path = .ok content := by
  rw [recordIn?] at h
  split at h
  · split at h <;> cases h
  · rename_i records hload
    obtain ⟨text, htext, -⟩ := (loadWith_eq_ok_iff read).mp hload
    obtain ⟨content, hcontent, -⟩ := bind_eq_ok_iff.mp htext
    exact ⟨content, hcontent⟩

theorem source?_spec {location : Location} {candidate : Candidate}
    (h : index.source? files location = some candidate) :
    files.isFile candidate.path = true ∧
      ∃ root, candidate = location.candidate root (.definition location.kind) ∨
        candidate = location.candidate root .idl := by
  refine ⟨by simpa using List.find?_some h, ?_⟩
  obtain ⟨root, -, hroot⟩ := List.mem_flatMap.mp (List.mem_of_find?_eq_some h)
  exact ⟨root, by simpa [Location.candidates] using hroot⟩

theorem mem_possibleNames {names : List String} {contents : List ByteArray}
    (hfin : ∀ path content, files.isFile path = true → files.read path = .ok content →
      content ∈ contents ∧ ∀ s ∈ path.segments, s ∈ names)
    {name : String} {fields : List Field}
    (h : index.record? read files name = some (.ok fields)) :
    name ∈ possibleNames read names contents := by
  rw [record?] at h
  split at h
  · cases h
  · rename_i location _
    split at h
    · cases h
    · split at h
      · have hrecord := Option.some.inj h
        exact List.mem_append_left _ (by
          rw [Registry.record] at hrecord
          split at hrecord
          · rename_i hg
            exact Table.mem_keys_of_get? hg
          · cases hrecord)
      · rename_i candidate hs
        obtain ⟨hfile, root, hr⟩ := source?_spec index files hs
        obtain ⟨content, hread⟩ := exists_content_of_recordIn? read files h
        obtain ⟨hcontent, hnames⟩ := hfin _ _ hfile hread
        have hd := name_mem_definedNames read files hread h
        refine List.mem_append_right _ (List.mem_flatMap.mpr ⟨content, hcontent, ?_⟩)
        rcases hr with rfl | rfl
        · have hbase :
              location.base ++ "." ++ (Format.definition location.kind).extension ∈ names :=
            hnames _ (by simp [Location.candidate])
          refine List.mem_append_right _ (List.mem_flatMap.mpr
            ⟨location.package, hnames _ (by simp [Location.candidate]), ?_⟩)
          refine List.mem_flatMap.mpr ⟨location.kind, by cases location.kind <;> simp, ?_⟩
          refine List.mem_flatMap.mpr ⟨location.base, List.mem_flatMap.mpr
            ⟨_, hbase, base_mem_basesOfFile _ _⟩, hd⟩
        · exact List.mem_append_left _ hd

/-- An index over finitely many files knows finitely many records. -/
theorem exists_names : ∃ names : List String, ∀ name fields,
    index.record? read files name = some (.ok fields) → name ∈ names := by
  obtain ⟨names, contents, hfin⟩ := files.finite
  exact ⟨possibleNames read names contents,
    fun _ _ h => mem_possibleNames index read files hfin h⟩

/-! ### The index as a lookup -/

/-- What stands for the answer of a lookup. Where there is none, an error takes its place. -/
def recordWith (name : String) : Except LookupError (List Field) :=
  (index.record? read files name).getD (.error (.notFound name))

/-- Fields are always an answer. -/
theorem recordWith_eq_ok_iff {name : String} {fields : List Field} :
    index.recordWith read files name = .ok fields ↔
      index.record? read files name = some (.ok fields) := by
  rw [recordWith]
  cases index.record? read files name with
  | none => simp
  | some answer => simp

/-- The index as a lookup. Where a lookup has no answer, what takes its place does not get to be
seen, as the lookup is the last thing that happens (`Index.outcome?`). -/
def lookupWith : Lookup where
  record := index.recordWith read files
  service := index.service files
  action := index.action files
  finite := by
    obtain ⟨names, h⟩ := index.exists_names read files
    exact ⟨names, fun name fields hok =>
      h name fields ((index.recordWith_eq_ok_iff read files).mp hok)⟩

end Index

end RosInterface.Install
