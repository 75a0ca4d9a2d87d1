import RosInterface.Lookup

/-!
# Registries

A *registry* holds records in memory, the last one of each name. It has a service or an action
when it has all the records that such an interface is made of by the naming convention.

## Main definitions

* `Registry`: the fields of records under their names.
* `Registry.insert`, `Registry.extend`, `Registry.ofList`: putting records in.
* `Registry.names`: the names of the records, sorted.
* `Registry.lookup`: the registry as a lookup.

## Main results

* `Registry.get?_extend`: putting records in changes nothing under other names.
* `Registry.get?_extend_of_mem`: records with different names are found.
* `Registry.record_eq_ok_iff`, `Registry.service_eq_ok_iff`, `Registry.action_eq_ok_iff`: what a
  registry answers.
-/

namespace RosInterface

/-- Records held in memory. -/
structure Registry where
  /-- The fields of each record. -/
  records : Table String (List Field)

namespace Registry

/-- The registry without records. -/
def empty : Registry :=
  ⟨Table.empty⟩

/-- Puts a record in, in the place of one of the same name. -/
def insert (registry : Registry) (record : Record) : Registry :=
  ⟨registry.records.insert record.name record.fields⟩

/-- Puts records in, one after the other. -/
def extend (registry : Registry) (records : List Record) : Registry :=
  records.foldl insert registry

/-- The registry of a list of records. -/
def ofList (records : List Record) : Registry :=
  empty.extend records

/-- There is a record of this name. -/
def contains (registry : Registry) (name : String) : Bool :=
  registry.records.contains name

/-- The number of records. -/
def size (registry : Registry) : Nat :=
  registry.records.size

/-- The names of the records in the order of their code points. -/
def names (registry : Registry) : List String :=
  registry.records.keys.mergeSort fun a b => !decide (b < a)

/-- The fields of the record of a name. -/
def record (registry : Registry) (name : String) : Except LookupError (List Field) :=
  match registry.records.get? name with
  | some fields => .ok fields
  | none => .error (.notFound name)

theorem record_eq_ok_iff {registry : Registry} {name : String} {fields : List Field} :
    registry.record name = .ok fields ↔ registry.records.get? name = some fields := by
  rw [record]
  cases registry.records.get? name <;> simp

/-- Records of other names do not touch a record. -/
theorem get?_extend {records : List Record} {name : String}
    (h : ∀ record ∈ records, record.name ≠ name) (registry : Registry) :
    (registry.extend records).records.get? name = registry.records.get? name := by
  induction records generalizing registry with
  | nil => rfl
  | cons record rest ih =>
    obtain ⟨hrecord, hrest⟩ := List.forall_mem_cons.mp h
    have hstep := ih hrest (registry.insert record)
    rwa [insert, Table.get?_insert, if_neg fun he => hrecord he.symm] at hstep

/-- Each of several records with different names is found under its name. -/
theorem get?_extend_of_mem {records : List Record} (hn : (records.map Record.name).Nodup)
    {record : Record} (h : record ∈ records) (registry : Registry) :
    (registry.extend records).records.get? record.name = some record.fields := by
  induction records generalizing registry with
  | nil => cases h
  | cons first rest ih =>
    obtain ⟨hfirst, hrest⟩ := List.nodup_cons.mp hn
    have hstep : registry.extend (first :: rest) = (registry.insert first).extend rest := rfl
    rw [hstep]
    rcases List.mem_cons.mp h with rfl | h
    · have hother : ∀ other ∈ rest, other.name ≠ record.name :=
        fun other hother heq => hfirst (heq ▸ List.mem_map_of_mem hother)
      rw [get?_extend hother, insert, Table.get?_insert, if_pos rfl]
    · exact ih hrest h _

/-- Requires the records that an interface is made of. Without any of them there is no such
interface; else the first one that is missing is reported. -/
def requireParts (registry : Registry) (owner : String) (parts : List String) :
    Except LookupError Unit :=
  if parts.all fun part => !registry.contains part then .error (.notFound owner)
  else
    match parts.find? fun part => !registry.contains part with
    | some missing =>
      .error (.unavailable owner ("sub-record '" ++ missing ++ "' is not defined"))
    | none => .ok ()

/-- The records of a service. -/
def service (registry : Registry) (name : String) : Except LookupError (ServiceParts String) :=
  let parts := ServiceParts.names name
  (registry.requireParts name parts.toList).map fun _ => parts

/-- The records of an action. -/
def action (registry : Registry) (name : String) : Except LookupError (ActionParts String) :=
  let parts := ActionParts.names name
  (registry.requireParts name parts.toList).map fun _ => parts

/-- The parts of an interface are there if each of them is. -/
theorem requireParts_eq_ok_iff {registry : Registry} {owner : String} {parts : List String}
    (hparts : parts ≠ []) : registry.requireParts owner parts = .ok () ↔
      ∀ part ∈ parts, registry.contains part = true := by
  rw [requireParts]
  constructor
  · intro h part hpart
    split at h
    · cases h
    · split at h
      · cases h
      · rename_i hfind
        simpa using List.find?_eq_none.mp hfind part hpart
  · intro h
    obtain ⟨first, hfirst⟩ := List.exists_mem_of_ne_nil parts hparts
    have hany : ¬(parts.all fun part => !registry.contains part) = true := by
      rw [List.all_eq_true]
      exact fun hall => by simpa [h first hfirst] using hall first hfirst
    have hfind : parts.find? (fun part => !registry.contains part) = none :=
      List.find?_eq_none.mpr fun part hpart => by simp [h part hpart]
    rw [if_neg hany, hfind]

/-- What is answered once the parts of an interface are required. -/
theorem map_requireParts_eq_ok_iff {α : Type} {registry : Registry} {owner : String}
    {parts : List String} (hparts : parts ≠ []) {answer result : α} :
    (registry.requireParts owner parts).map (fun _ => answer) = .ok result ↔
      result = answer ∧ ∀ part ∈ parts, registry.contains part = true := by
  rw [← requireParts_eq_ok_iff hparts]
  cases registry.requireParts owner parts with
  | error e => simp [Except.map]
  | ok _ => simp [Except.map, eq_comm]

/-- The registry has a service if it has all records of it. -/
theorem service_eq_ok_iff {registry : Registry} {name : String} {parts : ServiceParts String} :
    registry.service name = .ok parts ↔ parts = .names name ∧
      ∀ part ∈ (ServiceParts.names name).toList, registry.contains part = true :=
  map_requireParts_eq_ok_iff (List.cons_ne_nil _ _)

/-- The registry has an action if it has all records of it. -/
theorem action_eq_ok_iff {registry : Registry} {name : String} {parts : ActionParts String} :
    registry.action name = .ok parts ↔ parts = .names name ∧
      ∀ part ∈ (ActionParts.names name).toList, registry.contains part = true :=
  map_requireParts_eq_ok_iff (List.cons_ne_nil _ _)

/-- The registry as a lookup. -/
def lookup (registry : Registry) : Lookup where
  record := registry.record
  service := registry.service
  action := registry.action
  finite := by
    refine ⟨registry.records.keys, fun name fields h => ?_⟩
    rw [record] at h
    split at h
    · rename_i hg
      exact Table.mem_keys_of_get? hg
    · cases h

end Registry

end RosInterface
