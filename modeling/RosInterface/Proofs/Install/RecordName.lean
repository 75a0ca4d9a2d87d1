import Mathlib.Data.Set.Function
import RosInterface.Proofs.Expansion.Bound
import RosInterface.Proofs.Idl.Names
import RosInterface.Proofs.Install.WholeInterface

/-!
# One name for each record

A file is found from many spellings of a name, since blanks around segments and slashes without
anything between them play no part in the search. The records in the file have one name each, which
is the plain spelling of a qualified name, and a record is only answered if it has the very name
that was asked for. So no record is found under two spellings, and a comparison of texts is enough
to tell whether a record is being described already.

## Main definitions

* `Install.IsRecordName`: the plain spelling of the name of a record.

## Main results

* `Install.exists_spells_of_loadWith`: the records of a file have plain spellings for names.
* `Install.Index.exists_location_of_record?`: what is known of a name under which there is a record.
* `Install.Index.isRecordName_and_injOn_parse?`: one record has one name.
-/

namespace RosInterface

/-- The name that a text stands for has a plain spelling. -/
theorem QualifiedName.spells_of_canonical? {name : String} {q : QualifiedName}
    (h : canonical? name = some q) : q.Spells q.text := by
  obtain ⟨parsed, hparse, rfl⟩ := Option.map_eq_some_iff.mp h
  have hsegments : ∀ segment ∈ parsed.segments, IsSegment segment :=
    fun segment hs => isSegment_of_parse? hparse hs
  refine spells_text ?_
  split
  · rename_i package hnamespaces
    have hkind : IsSegment Kind.message.segment := ⟨by decide, by decide, by decide⟩
    rw [segments, hnamespaces] at hsegments
    simp only [segments, List.cons_append, List.nil_append, List.forall_mem_cons] at hsegments ⊢
    exact ⟨hsegments.1, hkind, hsegments.2⟩
  · exact hsegments

/-- The names on a proper chain stay different where they are taken to different things. -/
theorem Resolver.IsProper.nodup_map {α : Type} {record : RecordSource} {chain : List String}
    {f : String → α} (h : IsProper record chain) (hf : Set.InjOn f record.known) :
    (chain.map f).Nodup :=
  List.Nodup.map_on (fun name hname other hother heq => hf (h.2 name hname) (h.2 other hother) heq)
    h.1

namespace Install

/-! ### The records of a file -/

/-- The records of an interface have plain spellings for names if the interface does. -/
theorem exists_spells_of_mem_recordNames {q : QualifiedName} {name part : String} {kind : Kind}
    (h : q.Spells name) (hpart : part ∈ kind.recordNames name) :
    ∃ q : QualifiedName, q.Spells part := by
  rcases mem_recordNames_iff.mp hpart with ⟨-, rfl⟩ | ⟨suffix, hsuffix, rfl⟩
  · exact ⟨q, h⟩
  · exact ⟨_, h.append (isSegment_of_mem_partSuffixes hsuffix)⟩

/-- **The records of a file have plain spellings for names**, in either format. -/
theorem exists_spells_of_loadWith {read : Msg.Reader} {files : Files} {location : Location}
    {candidate : Candidate} {records : List Record}
    (h : loadWith read files location candidate = .ok records) {record : Record}
    (hrecord : record ∈ records) : ∃ q : QualifiedName, q.Spells record.name := by
  cases hformat : candidate.format with
  | idl =>
    obtain ⟨text, -, hrecords⟩ := (loadWith_eq_ok_iff read).mp h
    rw [hformat] at hrecords
    exact Idl.exists_spells_of_records (mapError_eq_ok_iff.mp hrecords) hrecord
  | definition kind =>
    obtain ⟨q, kind, hname, hnames⟩ := exists_recordNames_of_loadWith h hformat
    have hmem : record.name ∈ kind.recordNames q.text :=
      hnames ▸ List.mem_map.mpr ⟨record, hrecord, rfl⟩
    exact exists_spells_of_mem_recordNames (QualifiedName.spells_of_canonical? hname) hmem

/-- The built-in records have plain spellings for names. -/
theorem exists_spells_of_builtins {name : String} {fields : List Field}
    (h : builtins.record name = .ok fields) : ∃ q : QualifiedName, q.Spells name := by
  have hkeys : ∀ key ∈ builtins.records.keys,
      ((QualifiedName.parse? key).map QualifiedName.text) = some key := by
    decide +kernel
  obtain ⟨q, hparse, htext⟩ := Option.map_eq_some_iff.mp
    (hkeys name (Table.mem_keys_of_get? (Registry.record_eq_ok_iff.mp h)))
  exact ⟨q, hparse, htext⟩

/-! ### The records of an index -/

/-- The text is the plain spelling of the name of a record: a package, the segment of a kind and a
name, which for a record of a service or an action is more than its suffix. -/
structure IsRecordName (q : QualifiedName) (package : String) (kind : Kind) (name : String) :
    Prop where
  /-- The text is the plain spelling of the name. -/
  spells : q.Spells name
  /-- The name has a package and the segment of the kind. -/
  namespaces_eq : q.namespaces = [package, kind.segment]
  /-- The name of a record of a service or an action has a suffix of the kind, and more. -/
  exists_suffix : kind ≠ .message →
    ∃ stem, ∃ suffix ∈ partSuffixes kind, stem ≠ "" ∧ q.name = stem ++ suffix

namespace Index

variable {index : Index} {read : Msg.Reader} {files : Files} {name : String}
  {fields : List Field}

/-- A name under which there is a record is a plain spelling, and it is looked for as the name of a
record. -/
theorem exists_location_of_record? (h : index.record? read files name = some (.ok fields)) :
    (∃ q : QualifiedName, q.Spells name) ∧
      ∃ location, Location.parse? name = some location ∧ location.isWhole = false := by
  rw [record?_eq] at h
  cases hfound : index.found? files name with
  | none =>
    rw [hfound] at h
    have hbuiltin := Option.some.inj h
    exact ⟨exists_spells_of_builtins hbuiltin, exists_parse?_of_builtins hbuiltin⟩
  | some found =>
    obtain ⟨location, candidate⟩ := found
    obtain ⟨hparse, -⟩ := (found?_eq_some_iff index files name).mp hfound
    rw [hfound] at h
    have hfile := isRecordFrom_ofSearch read files name location candidate
    cases hwhole : location.isWhole with
    | true =>
      rw [hfile.whole hwhole] at h
      cases h
    | false =>
      obtain ⟨records, record, hload, hfind, -⟩ := (hfile.ok_iff hwhole fields).mp h
      have hname : record.name = name := by simpa using List.find?_some hfind
      exact ⟨hname ▸ exists_spells_of_loadWith hload (List.mem_of_find?_eq_some hfind),
        location, hparse, hwhole⟩

/-- A name under which there is a record is that of a record. -/
theorem exists_isRecordName (h : index.record? read files name = some (.ok fields)) :
    ∃ q package kind, IsRecordName q package kind name := by
  obtain ⟨⟨q, hspells⟩, location, hlocation, hwhole⟩ := exists_location_of_record? h
  obtain ⟨q', package, kind, hparse, hnamespaces, rfl⟩ :=
    Location.parse?_eq_some_iff.mp hlocation
  obtain rfl := Option.some.inj (hspells.parse?_eq.symm.trans hparse)
  refine ⟨q, package, kind, hspells, hnamespaces, fun hkind => ?_⟩
  have hbase : withoutSuffix (partSuffixes kind) q.name ≠ q.name :=
    (Location.isWhole_eq_false_iff.mp hwhole).resolve_left hkind
  obtain ⟨suffix, hsuffix, hempty, hname⟩ := exists_suffix_of_withoutSuffix_ne hbase
  exact ⟨_, suffix, hsuffix, hempty, hname.symm⟩

/-- Different names under which there are records are read as different qualified names. -/
theorem injOn_parse? :
    Set.InjOn QualifiedName.parse? (RecordSource.known (index.recordWith read files)) := by
  rintro name ⟨fields, hname⟩ other ⟨fields', hother⟩ heq
  rw [recordWith_eq_ok_iff] at hname hother
  obtain ⟨⟨q, hspells⟩, -⟩ := exists_location_of_record? hname
  obtain ⟨⟨q', hspells'⟩, -⟩ := exists_location_of_record? hother
  have hsame : q = q' :=
    Option.some.inj (hspells.parse?_eq.symm.trans (heq.trans hspells'.parse?_eq))
  rw [← hspells.text_eq, ← hspells'.text_eq, hsame]

variable (index read files)

/-- **One record has one name.** Let there be a record under a name in an index. Then the name is
the plain spelling of a qualified name with a package, the segment of a kind and a name of its own,
which for a record of a service or an action is more than a suffix of the kind. No other text that
is read as the same qualified name is that of a record.

So the resolver compares texts for cycles and misses none of them: wherever it describes a record in
a schema, the record is another one than all those that it is describing around it, as qualified
names. -/
theorem isRecordName_and_injOn_parse? :
    (∀ name fields, index.record? read files name = some (.ok fields) →
      ∃ q package kind, IsRecordName q package kind name) ∧
    Set.InjOn QualifiedName.parse? (RecordSource.known (index.recordWith read files)) ∧
    ∀ name fields schema, index.record? read files name = some (.ok fields) →
      schema = (walkRecord (index.lookupWith read files) [] name fields).value →
        ∀ place node, (Node.record name schema).at? place = some node →
          (((Node.record name schema).chainTo [] place).map QualifiedName.parse?).Nodup ∧
          (node.IsExpanded → QualifiedName.parse? node.typeName ∉
            ((Node.record name schema).chainTo [] place).map QualifiedName.parse?) := by
  refine ⟨fun name fields h => exists_isRecordName h, injOn_parse?, ?_⟩
  rintro name fields _ h rfl place node hat
  obtain ⟨depth, after, hrun, -⟩ :=
    exists_walkRecord?_of_lookup (index.lookupWith read files) [] name fields
  have hrecord : (index.lookupWith read files).record name = .ok fields :=
    (index.recordWith_eq_ok_iff read files).mpr h
  have htrace := traceable_of_walkRecord? hrecord hrun
  refine ⟨(htrace.isProper_chainTo hat).nodup_map injOn_parse?, fun hx => ?_⟩
  have hnodup := (htrace.isProper_cons hat hx).nodup_map injOn_parse?
  exact (List.nodup_cons.mp hnodup).1

end Index

/-! ### A record that refers to itself -/

/-- A message whose field is a sequence of the same message. -/
def nodeFiles : Files :=
  .ofList [(⟨"opt", ["share", "demo", "msg", "Node.msg"]⟩, .ok "Node[] children\n".toUTF8)]

/-- The message is described once, and there is no record under another spelling of its name,
although the file is found from that one too. -/
theorem Index.record?_nodeFiles :
    (∃ q package kind, IsRecordName q package kind "demo/msg/Node") ∧
    (Index.mk ["opt"]).interfaceFile? nodeFiles "demo// msg/Node"
      = some ⟨"opt", ["share", "demo", "msg", "Node.msg"]⟩ ∧
    (∀ fields, (Index.mk ["opt"]).record? Msg.reader nodeFiles "demo// msg/Node"
      ≠ some (.ok fields)) ∧
    ∃ schema, schema = (walkRecord ((Index.mk ["opt"]).lookupWith Msg.reader nodeFiles) []
        "demo/msg/Node" [⟨"children", .sequence (.record "demo/msg/Node") .unbounded⟩]).value ∧
      (Node.record "demo/msg/Node" schema).at? [.field "children", .items]
        = some (.named "demo/msg/Node") ∧
      (((Node.record "demo/msg/Node" schema).chainTo [] [.field "children", .items]).map
        QualifiedName.parse?).Nodup := by
  have hrecord : (Index.mk ["opt"]).record? Msg.reader nodeFiles "demo/msg/Node"
      = some (.ok [⟨"children", .sequence (.record "demo/msg/Node") .unbounded⟩]) := by
    decide +kernel
  obtain ⟨hname, hinj, hwalk⟩ :=
    Index.isRecordName_and_injOn_parse? (Index.mk ["opt"]) Msg.reader nodeFiles
  refine ⟨hname _ _ hrecord, by decide +kernel, fun fields hfields => ?_, ?_⟩
  · have hknown {other : String} {fields : List Field}
        (h : (Index.mk ["opt"]).record? Msg.reader nodeFiles other = some (.ok fields)) :
        other ∈ RecordSource.known ((Index.mk ["opt"]).recordWith Msg.reader nodeFiles) :=
      ⟨fields, (Index.recordWith_eq_ok_iff _ _ _).mpr h⟩
    have hsame : "demo// msg/Node" = "demo/msg/Node" :=
      hinj (hknown hfields) (hknown hrecord) (by decide +kernel)
    exact absurd hsame (by decide)
  · obtain ⟨after, hrun⟩ : ∃ after, (Resolver.under []).walkRecord?
        ((Index.mk ["opt"]).lookupWith Msg.reader nodeFiles).record 0 "demo/msg/Node"
        [⟨"children", .sequence (.record "demo/msg/Node") .unbounded⟩]
          = some (⟨[("children", .array (.named "demo/msg/Node") .unbounded)]⟩, after) := ⟨_, rfl⟩
    have hvalue := congrArg Traced.value (walkRecord_eq_of_walkRecord? hrun)
    have hat : (Node.record "demo/msg/Node"
        ⟨[("children", .array (.named "demo/msg/Node") .unbounded)]⟩).at?
          [.field "children", .items] = some (.named "demo/msg/Node") := rfl
    exact ⟨_, hvalue.symm, hat, (hwalk _ _ _ hrecord hvalue.symm _ _ hat).1⟩

end Install

end RosInterface
