import Mathlib.Data.List.Basic
import RosInterface.Msg.Interface
import RosInterface.Registry
import RosInterface.Outcome
import RosInterface.Proofs.Naming.Classification
import RosInterface.Proofs.Resolution.DirectCalls

/-!
# Definitions that are read can be resolved

A text that is read as the definition of an interface gives the records that the interface is made
of. The name that was given is read as a qualified name, the segment of a message is put in where it
was left out, and the records are named after the result. When these records are in a registry, the
interface is found there under this name: it is classified by its second namespace, the registry has
each of its records, and each part of the schema is the walk of one of them.

Nothing is assumed about what a specification says. A reader of specifications may give any fields,
and different ones for two records with the same text.

## Main definitions

* `QualifiedName.canonical?`: the name with the segment of its kind.
* `QualifiedName.IsInterface`: the name of an interface of a kind.
* `Kind.recordNames`: the names of the records of an interface.
* `InterfaceSchema.parts`: the parts of a schema.

## Main results

* `Msg.exists_of_interfaceRecordsWith`: the records of a definition have the names of its kind.
* `Registry.exists_isSchema_extend`: an interface whose records are in a registry has a schema.
* `exists_resolve_extend_eq_ok`: definitions that are read can be resolved.
-/

namespace RosInterface

/-- The names of the records of an interface of a kind, in order. -/
def Kind.recordNames (name : String) : Kind → List String
  | message => [name]
  | service => (ServiceParts.names name).toList
  | action => (ActionParts.names name).toList

/-- The parts of a schema, in order. -/
def InterfaceSchema.parts : InterfaceSchema → List RecordSchema
  | message record => [record]
  | service parts => parts.toList
  | action parts => parts.toList

/-- The records of an interface have different names. -/
theorem Kind.nodup_recordNames (kind : Kind) (name : String) : (kind.recordNames name).Nodup := by
  cases kind <;>
    simp [recordNames, ServiceParts.names, ServiceParts.suffixes, ServiceParts.map,
      ServiceParts.toList, ActionParts.names, ActionParts.suffixes, ActionParts.map,
      ActionParts.toList]

/-- An interface has at least one record. -/
theorem Kind.recordNames_ne_nil (kind : Kind) (name : String) : kind.recordNames name ≠ [] := by
  cases kind <;> exact List.cons_ne_nil _ _

/-! ### Names -/

namespace QualifiedName

/-- The name that a text stands for. Where only a package is given, it is the name of a message. -/
def canonical? (name : String) : Option QualifiedName :=
  (parse? name).map fun q =>
    match q.namespaces with
    | [package] => { q with namespaces := [package, Kind.message.segment] }
    | _ => q

/-- The name of an interface of a kind: a package, the segment of the kind and a name. -/
structure IsInterface (q : QualifiedName) (kind : Kind) : Prop where
  /-- The namespaces are a package and the segment of the kind. -/
  namespaces_eq : ∃ package, q.namespaces = [package, kind.segment]
  /-- There is no slash in any segment. -/
  slash_notMem : ∀ segment ∈ q.segments, '/' ∉ segment.toList

/-- The name of an interface is classified as its kind. -/
theorem IsInterface.classify?_text {q : QualifiedName} {kind : Kind} (h : q.IsInterface kind) :
    Kind.classify? q.text = some kind := by
  obtain ⟨package, hq⟩ := h.namespaces_eq
  exact Kind.classify?_text_of_namespaces h.slash_notMem hq

end QualifiedName

namespace Msg

variable {read : Reader}

/-- A name that is accepted for an interface of a kind is one. -/
theorem isInterface_of_recordName {kind : Kind} {name : String} {q : QualifiedName}
    (h : recordName kind name = .ok q) :
    QualifiedName.canonical? name = some q ∧ q.IsInterface kind := by
  rw [recordName] at h
  cases hparse : QualifiedName.parse? name with
  | none =>
    rw [hparse] at h
    cases h
  | some parsed =>
    rw [hparse] at h
    have hslash : ∀ segment ∈ parsed.segments, '/' ∉ segment.toList :=
      fun segment hs => (QualifiedName.isSegment_of_parse? hparse hs).slash_notMem
    obtain ⟨namespaces, own⟩ := parsed
    rcases namespaces with _ | ⟨package, _ | ⟨segment, _ | ⟨third, more⟩⟩⟩
    · cases h
    · -- only a package: the segment of a message is put in
      simp only at h
      split at h
      · rename_i hkind
        subst hkind
        obtain rfl := Except.ok.inj h
        refine ⟨by rw [QualifiedName.canonical?, hparse]; rfl, ⟨package, rfl⟩, ?_⟩
        simp only [QualifiedName.segments, List.cons_append, List.nil_append,
          List.forall_mem_cons] at hslash ⊢
        exact ⟨hslash.1, Kind.slash_notMem_segment .message, hslash.2⟩
      · cases h
    · simp only at h
      split at h
      · rename_i hsegment
        subst hsegment
        obtain rfl := Except.ok.inj h
        exact ⟨by rw [QualifiedName.canonical?, hparse]; rfl, ⟨package, rfl⟩, hslash⟩
      · cases h
    · cases h

/-- The record of a section has the name that was asked for. -/
theorem name_of_sectionRecord {record : QualifiedName} {text : List Char} {found : Record}
    (h : sectionRecord read record text = .ok found) : found.name = record.text := by
  rw [sectionRecord] at h
  split at h
  · exact Except.ok.inj h ▸ rfl
  · split at h
    · cases h
    · exact Except.ok.inj h ▸ rfl

/-- The records of sections are named after their owner with one of the suffixes each. -/
theorem names_of_partRecords {owner : QualifiedName} {suffixes : List String}
    {texts : List (List Char)} {found : List Record} (hlength : texts.length = suffixes.length)
    (h : partRecords read owner suffixes texts = .ok found) :
    found.map Record.name = suffixes.map (owner.text ++ ·) := by
  induction suffixes generalizing texts found with
  | nil =>
    rw [partRecords] at h
    · exact Except.ok.inj h ▸ rfl
    · simp
  | cons suffix suffixes ih =>
    cases texts with
    | nil => cases hlength
    | cons text texts =>
      simp only [partRecords, bind_eq_ok_iff, pure_eq_ok_iff] at h
      obtain ⟨first, hfirst, others, hothers, rfl⟩ := h
      rw [List.map_cons, List.map_cons, ih (Nat.succ.inj hlength) hothers,
        name_of_sectionRecord hfirst, QualifiedName.text_withName_append]

/-- A definition with a section for each suffix has a record for each suffix. -/
theorem names_of_sectionedRecords {ownerWord : String} {owner : QualifiedName}
    {suffixes : List String} {text : List Char} {found : List Record}
    (h : sectionedRecords read ownerWord owner suffixes text = .ok found) :
    found.map Record.name = suffixes.map (owner.text ++ ·) := by
  rw [sectionedRecords] at h
  split at h
  · rename_i hlength
    exact names_of_partRecords hlength h
  · cases h

/-- **The records of a definition** have the names of the records of an interface. The name of the
interface is the one that the given text stands for. -/
theorem exists_of_interfaceRecordsWith {name : String} {text : List Char} {found : List Record}
    (h : interfaceRecordsWith read name text = .ok found) :
    ∃ q kind, QualifiedName.canonical? name = some q ∧ q.IsInterface kind ∧
      found.map Record.name = kind.recordNames q.text := by
  rw [interfaceRecordsWith] at h
  split at h
  · cases h
  split at h
  · simp only [serviceRecordsWith, bind_eq_ok_iff] at h
    obtain ⟨q, hq, hfound⟩ := h
    obtain ⟨hname, hinterface⟩ := isInterface_of_recordName hq
    exact ⟨q, .service, hname, hinterface, names_of_sectionedRecords hfound⟩
  · simp only [actionRecordsWith, bind_eq_ok_iff] at h
    obtain ⟨q, hq, hfound⟩ := h
    obtain ⟨hname, hinterface⟩ := isInterface_of_recordName hq
    exact ⟨q, .action, hname, hinterface, names_of_sectionedRecords hfound⟩
  · simp only [messageRecordsWith, bind_eq_ok_iff, pure_eq_ok_iff] at h
    obtain ⟨q, hq, record, hrecord, rfl⟩ := h
    obtain ⟨hname, hinterface⟩ := isInterface_of_recordName hq
    exact ⟨q, .message, hname, hinterface, congrArg ([·]) (name_of_sectionRecord hrecord)⟩

end Msg

/-! ### Resolution -/

/-- **An interface whose records are in a registry has a schema**, with a part for each record. -/
theorem Registry.exists_isSchema_extend {name : String} {kind : Kind} {records : List Record}
    (h : records.map Record.name = kind.recordNames name) (registry : Registry) :
    ∃ schema : InterfaceSchema, schema.kind = kind ∧
      (registry.extend records).lookup.toSource.IsSchema
        (walkRecord (registry.extend records).lookup []) name schema ∧
      schema.parts = records.map fun record =>
        (walkRecord (registry.extend records).lookup [] record.name record.fields).value := by
  have hn : (records.map Record.name).Nodup := h ▸ kind.nodup_recordNames name
  have hexpansion : ∀ record ∈ records, (registry.extend records).lookup.toSource.IsExpansion
      (walkRecord (registry.extend records).lookup []) record.name
      (walkRecord (registry.extend records).lookup [] record.name record.fields).value :=
    fun record hrecord =>
      ⟨record.fields, record_eq_ok_iff.mpr (get?_extend_of_mem hn hrecord _), rfl⟩
  have hcontains : ∀ part ∈ kind.recordNames name,
      (registry.extend records).contains part = true := by
    rw [← h]
    refine List.forall_mem_map.mpr fun record hrecord => ?_
    rw [contains, Table.contains, get?_extend_of_mem hn hrecord]
    rfl
  cases kind with
  | message =>
    obtain ⟨record, rest, rfl, hrecord, hrest⟩ := List.map_eq_cons_iff.mp h
    obtain rfl := List.map_eq_nil_iff.mp hrest
    refine ⟨.message _, rfl, ?_, rfl⟩
    exact hrecord ▸ hexpansion record List.mem_cons_self
  | service =>
    obtain ⟨request, rest, rfl, hrequest, hrest⟩ := List.map_eq_cons_iff.mp h
    obtain ⟨response, rest, rfl, hresponse, hrest⟩ := List.map_eq_cons_iff.mp hrest
    obtain rfl := List.map_eq_nil_iff.mp hrest
    simp only [List.forall_mem_cons] at hexpansion
    refine ⟨.service ⟨_, _⟩, rfl, ?_, rfl⟩
    exact ⟨.names name, service_eq_ok_iff.mpr ⟨rfl, hcontains⟩, hrequest ▸ hexpansion.1,
      hresponse ▸ hexpansion.2.1⟩
  | action =>
    obtain ⟨goal, rest, rfl, hgoal, hrest⟩ := List.map_eq_cons_iff.mp h
    obtain ⟨result, rest, rfl, hresult, hrest⟩ := List.map_eq_cons_iff.mp hrest
    obtain ⟨feedback, rest, rfl, hfeedback, hrest⟩ := List.map_eq_cons_iff.mp hrest
    obtain rfl := List.map_eq_nil_iff.mp hrest
    simp only [List.forall_mem_cons] at hexpansion
    refine ⟨.action ⟨_, _, _⟩, rfl, ?_, rfl⟩
    exact ⟨.names name, action_eq_ok_iff.mpr ⟨rfl, hcontains⟩, hgoal ▸ hexpansion.1,
      hresult ▸ hexpansion.2.1, hfeedback ▸ hexpansion.2.2.1⟩

/-- **Definitions that are read can be resolved.** -/
theorem exists_resolve_extend_eq_ok {read : Msg.Reader} {name : String} {text : List Char}
    {records : List Record} (h : Msg.interfaceRecordsWith read name text = .ok records)
    (registry : Registry) : ∃ q kind schema,
      QualifiedName.canonical? name = some q ∧ q.kindSegment? = some kind.segment ∧
        records.map Record.name = kind.recordNames q.text ∧
        (resolve (registry.extend records).lookup q.text).value = .ok ⟨q.text, schema⟩ ∧
        schema.kind = kind ∧
        schema.parts = records.map fun record =>
          (walkRecord (registry.extend records).lookup [] record.name record.fields).value := by
  obtain ⟨q, kind, hname, hinterface, hrecords⟩ := Msg.exists_of_interfaceRecordsWith h
  obtain ⟨schema, hkind, hschema, hparts⟩ := Registry.exists_isSchema_extend hrecords registry
  have hsegment : q.kindSegment? = some kind.segment := by
    obtain ⟨package, hq⟩ := hinterface.namespaces_eq
    rw [QualifiedName.kindSegment?, hq]
    rfl
  have hclassify : Kind.classify? q.text = some schema.kind := by
    rw [hkind, hinterface.classify?_text]
  refine ⟨q, kind, schema, hname, hsegment, hrecords, ?_, hkind, hparts⟩
  exact value_resolveWith_eq_ok_iff.mpr ⟨rfl, hclassify, hschema⟩

/-- A service whose name is written with blanks and an empty segment is found under its plain
name. -/
theorem resolve_extend_echo : ∃ schema,
    (resolve (Registry.empty.extend [⟨"demo/srv/Echo_Request", [⟨"a", .primitive "int32"⟩]⟩,
      ⟨"demo/srv/Echo_Response", []⟩]).lookup "demo/srv/Echo").value
        = .ok ⟨"demo/srv/Echo", schema⟩ ∧ schema.kind = .service := by
  have hread : Msg.interfaceRecordsWith (fun _ => Msg.specificationFields) " demo // srv/Echo"
      "int32 a\n---\n".toList = .ok [⟨"demo/srv/Echo_Request", [⟨"a", .primitive "int32"⟩]⟩,
        ⟨"demo/srv/Echo_Response", []⟩] := by
    decide +kernel
  obtain ⟨q, kind, schema, hname, hsegment, -, hresolve, hkind, -⟩ :=
    exists_resolve_extend_eq_ok hread Registry.empty
  have hq : QualifiedName.canonical? " demo // srv/Echo" = some ⟨["demo", "srv"], "Echo"⟩ := by
    decide +kernel
  obtain rfl := Option.some.inj (hname.symm.trans hq)
  have htext : QualifiedName.text ⟨["demo", "srv"], "Echo"⟩ = "demo/srv/Echo" := by decide +kernel
  rw [htext] at hresolve
  refine ⟨schema, hresolve, hkind.trans ?_⟩
  cases kind
  · exact absurd hsegment (by decide)
  · rfl
  · exact absurd hsegment (by decide)

end RosInterface
