import Mathlib.Data.List.Basic
import Mathlib.Order.Basic
import RosInterface.Outcome
import RosInterface.Registry
import RosInterface.Proofs.Expansion.FieldTable
import RosInterface.Proofs.Registry.ByteOrder

/-!
# The history of a registry

A registry is filled record by record or with many records at once. What it answers is told by its
*history*, the records that were put in, one after the other: a name has the fields of the last
record of this name. Its names are the names in the history, each once and in the order of the
bytes. How the history was divided into changes plays no part, and neither does the order of records
with different names.

A service or an action is there if all records are that it is made of by the naming convention.
Without any of them there is no such interface, and otherwise the first one that is missing is
reported.

## Main definitions

* `Record.IsLast`: the last record of its name in a list.
* `Registry.Change`, `Registry.after`: what may be done to a registry, and what comes of it.
* `Registry.history`: the records that changes put in.
* `Registry.IsPartsAnswer`: what is answered about an interface made of records.
* `Registry.Reflects`: how a registry with a history answers.
* `IsReordering`: the order of records with different names may be another one.

## Main results

* `isReordering_swap`: records with different names change places.
* `Registry.foldl_apply_eq_extend`: changes put in their history.
* `Registry.isPartsAnswer_requireParts`: the three answers about an interface.
* `Registry.reflects_ofList`: the registry of a list answers as the list tells.
* `Registry.reflects_history`: so does a registry after any changes, and it is the same after
  others whose history is reordered.
-/

namespace RosInterface

/-! ### Records in order -/

/-- The record is the last one of its name. -/
def Record.IsLast (record : Record) (records : List Record) : Prop :=
  ∃ before after, records = before ++ record :: after ∧ record.name ∉ after.map Record.name

/-- The name of a record with its fields. -/
def Record.entry (record : Record) : String × List Field :=
  (record.name, record.fields)

/-- Records with the same name stand in the same order in both lists. Those with different names
may have changed places. -/
def IsReordering (records records' : List Record) : Prop :=
  ∀ name, records.filter (fun record => record.name = name) =
    records'.filter fun record => record.name = name

/-- Two records with different names change places. -/
theorem isReordering_swap (before after : List Record) {record record' : Record}
    (h : record.name ≠ record'.name) :
    IsReordering (before ++ record :: record' :: after) (before ++ record' :: record :: after) := by
  intro name
  rw [List.filter_append, List.filter_append, List.append_right_inj, List.filter_cons,
    List.filter_cons, List.filter_cons, List.filter_cons]
  by_cases hname : record.name = name
  · have hother : record'.name ≠ name := fun heq => h (hname.trans heq.symm)
    simp [hname, hother]
  · simp [hname]

namespace Registry

variable {records records' : List Record} {name : String} {registry registry' : Registry}

/-! ### What a registry holds -/

/-- Records are put in as the entries of their names. -/
theorem records_extend (registry : Registry) (records : List Record) :
    (registry.extend records).records = registry.records.insertAll (records.map Record.entry) := by
  rw [Table.insertAll, List.foldl_map]
  induction records generalizing registry with
  | nil => rfl
  | cons record records ih => exact ih (registry.insert record)

theorem records_ofList (records : List Record) :
    (ofList records).records = Table.ofList (records.map Record.entry) :=
  records_extend empty records

theorem map_fst_entry (records : List Record) :
    (records.map Record.entry).map Prod.fst = records.map Record.name :=
  List.map_map

/-- The last record of a name counts. -/
theorem record_ofList_eq_ok_iff {fields : List Field} :
    (ofList records).record name = .ok fields ↔ Record.IsLast ⟨name, fields⟩ records := by
  rw [record_eq_ok_iff, records_ofList, Table.get?_ofList, Table.lastUnder?_eq_some_iff]
  constructor
  · rintro ⟨before, after, hsplit, hafter⟩
    obtain ⟨before, rest, rfl, rfl, hrest⟩ := List.map_eq_append_iff.mp hsplit
    obtain ⟨record, after, rfl, hrecord, rfl⟩ := List.map_eq_cons_iff.mp hrest
    cases hrecord
    exact ⟨before, after, rfl, map_fst_entry after ▸ hafter⟩
  · rintro ⟨before, after, rfl, hafter⟩
    exact ⟨before.map Record.entry, after.map Record.entry, List.map_append,
      (map_fst_entry after).symm ▸ hafter⟩

/-- Where there is no record, that is the answer. -/
theorem record_eq_error_iff {e : LookupError} :
    registry.record name = .error e ↔ e = .notFound name ∧ registry.contains name = false := by
  rw [record, contains, Table.contains]
  cases registry.records.get? name <;> simp [eq_comm]

theorem contains_eq_true_iff_mem_keys :
    registry.contains name = true ↔ name ∈ registry.records.keys :=
  Table.contains_eq_true_iff

theorem contains_ofList_iff :
    (ofList records).contains name = true ↔ name ∈ records.map Record.name := by
  rw [contains_eq_true_iff_mem_keys, records_ofList, Table.mem_keys_ofList, map_fst_entry]

/-! ### The names of a registry -/

/-- The names are those of the records, in another order. -/
theorem names_perm (registry : Registry) : registry.names.Perm registry.records.keys :=
  List.mergeSort_perm _ _

/-- Names that stand in a registry once each are in strict order. -/
theorem pairwise_names (h : registry.records.keys.Nodup) :
    registry.names.Pairwise fun a b => a < b := by
  have hle (a b : String) : (!decide (b < a)) = true ↔ a ≤ b := by
    rw [Bool.not_eq_true', decide_eq_false_iff_not, not_lt]
  have hsorted : registry.names.Pairwise fun a b => (!decide (b < a)) = true :=
    List.pairwise_mergeSort
      (fun a b c hab hbc => (hle a c).mpr (((hle a b).mp hab).trans ((hle b c).mp hbc)))
      (fun a b => by rw [Bool.or_eq_true, hle, hle]; exact le_total a b) _
  exact hsorted.imp₂ (fun a b hab hne => lt_of_le_of_ne ((hle a b).mp hab) hne)
    ((names_perm registry).nodup_iff.mpr h)

theorem mem_names_iff : name ∈ registry.names ↔ registry.contains name = true :=
  (names_perm registry).mem_iff.trans contains_eq_true_iff_mem_keys.symm

theorem length_names (registry : Registry) : registry.names.length = registry.size := by
  rw [(names_perm registry).length_eq, Table.keys, List.length_map, size, Table.size]

/-! ### Interfaces made of records -/

/-- What is answered about an interface that is made of records. -/
structure IsPartsAnswer {α : Type} (registry : Registry) (name : String) (parts : List String)
    (result : α) (answer : Except LookupError α) : Prop where
  /-- The interface is there if all its records are. -/
  ok_iff : ∀ found, answer = .ok found ↔
    found = result ∧ ∀ part ∈ parts, registry.contains part = true
  /-- There is no such interface if there is none of its records. -/
  notFound_iff : ∀ owner, answer = .error (.notFound owner) ↔
    owner = name ∧ ∀ part ∈ parts, registry.contains part = false
  /-- With some of its records and without others, the first one that is missing is reported. -/
  unavailable_iff : ∀ owner reason, answer = .error (.unavailable owner reason) ↔
    owner = name ∧ (∃ part ∈ parts, registry.contains part = true) ∧
      ∃ before missing after, parts = before ++ missing :: after ∧
        (∀ part ∈ before, registry.contains part = true) ∧ registry.contains missing = false ∧
        reason = "sub-record '" ++ missing ++ "' is not defined"

/-- The part is the first one that is missing. -/
theorem find?_missing_eq_some_iff {parts : List String} {missing : String} :
    parts.find? (fun part => !registry.contains part) = some missing ↔
      ∃ before after, parts = before ++ missing :: after ∧
        (∀ part ∈ before, registry.contains part = true) ∧ registry.contains missing = false := by
  simp only [List.find?_eq_some_iff_append, Bool.not_not, Bool.not_eq_true']
  constructor
  · rintro ⟨hmissing, before, after, hparts, hbefore⟩
    exact ⟨before, after, hparts, hbefore, hmissing⟩
  · rintro ⟨before, after, hparts, hbefore, hmissing⟩
    exact ⟨hmissing, before, after, hparts, hbefore⟩

/-- Why the parts of an interface are not there: none of them is, or some are missing. -/
theorem requireParts_eq_error_iff {parts : List String} {e : LookupError} :
    registry.requireParts name parts = .error e ↔
      (e = .notFound name ∧ ∀ part ∈ parts, registry.contains part = false) ∨
      ((∃ part ∈ parts, registry.contains part = true) ∧ ∃ missing,
        parts.find? (fun part => !registry.contains part) = some missing ∧
          e = .unavailable name ("sub-record '" ++ missing ++ "' is not defined")) := by
  have hall : (parts.all fun part => !registry.contains part) = true ↔
      ∀ part ∈ parts, registry.contains part = false := by
    simp only [List.all_eq_true, Bool.not_eq_true']
  have hany : (∃ part ∈ parts, registry.contains part = true) ↔
      ¬∀ part ∈ parts, registry.contains part = false := by simp
  rw [requireParts, hany, ← hall]
  split
  · rename_i hnone
    simp [hnone, eq_comm]
  · rename_i hsome
    cases parts.find? fun part => !registry.contains part <;> simp [hsome, eq_comm]

/-- **The three answers about an interface**: all its records are there, none of them, or some. -/
theorem isPartsAnswer_requireParts {α : Type} {parts : List String} (hparts : parts ≠ [])
    (registry : Registry) (name : String) (result : α) :
    registry.IsPartsAnswer name parts result
      ((registry.requireParts name parts).map fun _ => result) where
  ok_iff _ := map_requireParts_eq_ok_iff hparts
  notFound_iff owner := by
    rw [map_eq_error_iff, requireParts_eq_error_iff]
    simp
  unavailable_iff owner reason := by
    rw [map_eq_error_iff, requireParts_eq_error_iff]
    simp only [LookupError.unavailable.injEq, reduceCtorEq, false_and, false_or,
      find?_missing_eq_some_iff]
    constructor
    · rintro ⟨hsome, missing, ⟨before, after, hparts, hbefore, hmissing⟩, rfl, rfl⟩
      exact ⟨rfl, hsome, before, missing, after, hparts, hbefore, hmissing, rfl⟩
    · rintro ⟨rfl, hsome, before, missing, after, hparts, hbefore, hmissing, rfl⟩
      exact ⟨hsome, missing, ⟨before, after, hparts, hbefore, hmissing⟩, rfl, rfl⟩

/-! ### Changes -/

/-- What may be done to a registry. -/
inductive Change where
  /-- A record is put in. -/
  | insert (record : Record)
  /-- A record is put in, and the registry is handed on. -/
  | withRecord (record : Record)
  /-- Records are put in one after the other. -/
  | extend (records : List Record)

/-- The registry after a change. -/
def Change.apply (registry : Registry) : Change → Registry
  | .insert record | .withRecord record => registry.insert record
  | .extend records => registry.extend records

/-- The records that a change puts in. -/
def Change.added : Change → List Record
  | .insert record | .withRecord record => [record]
  | .extend records => records

/-- What comes of changes to the registry without records. -/
def after (changes : List Change) : Registry :=
  changes.foldl Change.apply empty

/-- All the records that changes put in, one after the other. -/
def history (changes : List Change) : List Record :=
  changes.flatMap Change.added

theorem Change.apply_eq_extend (registry : Registry) (change : Change) :
    change.apply registry = registry.extend change.added := by
  cases change <;> rfl

/-- **Changes put in their history**, however it is divided into them. -/
theorem foldl_apply_eq_extend (changes : List Change) (registry : Registry) :
    changes.foldl Change.apply registry = registry.extend (history changes) := by
  induction changes generalizing registry with
  | nil => rfl
  | cons change changes ih =>
    calc
      (change :: changes).foldl Change.apply registry
          = (registry.extend change.added).extend (history changes) := by
        rw [List.foldl_cons, ih, Change.apply_eq_extend]
      _ = registry.extend (change.added ++ history changes) := (List.foldl_append ..).symm
      _ = registry.extend (history (change :: changes)) := rfl

theorem after_eq_ofList (changes : List Change) : after changes = ofList (history changes) :=
  foldl_apply_eq_extend changes empty

/-! ### Answers -/

/-- The registry answers as a history tells. -/
structure Reflects (registry : Registry) (records : List Record) : Prop where
  /-- A name has the fields of the last record of this name. -/
  record_ok_iff : ∀ name fields,
    registry.record name = .ok fields ↔ Record.IsLast ⟨name, fields⟩ records
  /-- Without a record of this name, there is none. -/
  record_error_iff : ∀ name e, registry.record name = .error e ↔
    e = .notFound name ∧ name ∉ records.map Record.name
  /-- The names stand in the strict order of their bytes. -/
  pairwise_names : registry.names.Pairwise fun a b => a.toUTF8.data.toList < b.toUTF8.data.toList
  /-- The names are those of the records. -/
  mem_names_iff : ∀ name, name ∈ registry.names ↔ name ∈ records.map Record.name
  /-- The registry has a record of each of its names. -/
  contains_iff : ∀ name, registry.contains name = true ↔ name ∈ registry.names
  /-- The names are counted. -/
  size_eq : registry.size = registry.names.length
  /-- A service is made of two records. -/
  service : ∀ name, registry.IsPartsAnswer name [name ++ "_Request", name ++ "_Response"]
    ⟨name ++ "_Request", name ++ "_Response"⟩ (registry.service name)
  /-- An action is made of three records. -/
  action : ∀ name,
    registry.IsPartsAnswer name [name ++ "_Goal", name ++ "_Result", name ++ "_Feedback"]
      ⟨name ++ "_Goal", name ++ "_Result", name ++ "_Feedback"⟩ (registry.action name)

/-- **The registry of a list answers as the list tells.** -/
theorem reflects_ofList (records : List Record) : (ofList records).Reflects records where
  record_ok_iff name fields := record_ofList_eq_ok_iff
  record_error_iff name e := by
    rw [record_eq_error_iff, ← contains_ofList_iff, Bool.not_eq_true]
  pairwise_names := by
    refine (pairwise_names ?_).imp toUTF8_lt_iff.mpr
    rw [records_ofList]
    exact Table.nodup_keys_ofList _
  mem_names_iff name := mem_names_iff.trans contains_ofList_iff
  contains_iff name := mem_names_iff.symm
  size_eq := (length_names _).symm
  service name := isPartsAnswer_requireParts (List.cons_ne_nil _ _) _ _ _
  action name := isPartsAnswer_requireParts (List.cons_ne_nil _ _) _ _ _

/-- The two registries answer all questions in the same way. -/
structure AnswersAs (registry registry' : Registry) : Prop where
  record_eq : registry.record = registry'.record
  service_eq : registry.service = registry'.service
  action_eq : registry.action = registry'.action
  contains_eq : registry.contains = registry'.contains
  names_eq : registry.names = registry'.names
  size_eq : registry.size = registry'.size

/-- Registries answer in the same way if they have the same fields under every name. -/
theorem answersAs_of_get?_eq (hn : registry.records.keys.Nodup) (hn' : registry'.records.keys.Nodup)
    (h : ∀ name, registry.records.get? name = registry'.records.get? name) :
    registry.AnswersAs registry' := by
  have hcontains : registry.contains = registry'.contains := by
    funext name
    rw [contains, contains, Table.contains, Table.contains, h]
  have hparts (owner : String) (parts : List String) :
      registry.requireParts owner parts = registry'.requireParts owner parts := by
    rw [requireParts, requireParts, hcontains]
  have hnames : registry.names = registry'.names := by
    have hperm : registry.names.Perm registry'.names := by
      refine (List.perm_ext_iff_of_nodup ((names_perm _).nodup_iff.mpr hn)
        ((names_perm _).nodup_iff.mpr hn')).mpr fun name => ?_
      rw [mem_names_iff, mem_names_iff, hcontains]
    exact List.Perm.eq_of_pairwise (fun a b _ _ hab hba => absurd hab (lt_asymm hba))
      (pairwise_names hn) (pairwise_names hn') hperm
  exact {
    record_eq := by funext name; rw [record, record, h]
    service_eq := by funext name; rw [service, service, hparts]
    action_eq := by funext name; rw [action, action, hparts]
    contains_eq := hcontains
    names_eq := hnames
    size_eq := by rw [← length_names, hnames, length_names] }

/-- A reordered list makes a registry with the same answers. -/
theorem answersAs_of_isReordering (h : IsReordering records records') :
    (ofList records).AnswersAs (ofList records') := by
  have hlast (records : List Record) (name : String) : (ofList records).records.get? name
      = ((records.filter fun record => record.name = name).getLast?).map Record.fields := by
    rw [records_ofList, Table.get?_ofList, Table.lastUnder?, ← List.map_reverse, List.find?_map,
      List.getLast?_filter, Option.map_map]
    rfl
  refine answersAs_of_get?_eq ?_ ?_ fun name => by rw [hlast, hlast, h name]
  · rw [records_ofList]
    exact Table.nodup_keys_ofList _
  · rw [records_ofList]
    exact Table.nodup_keys_ofList _

/-- **A registry answers as its history tells.** After any changes, to a registry that was empty, a
name has the fields of the last record of this name that was put in. The names stand in the strict
order of their bytes. A service and an action are there, are missing or are incomplete, by the
records that they are made of. Other changes give the same answers if their history is a reordering
of records with different names. -/
theorem reflects_history (changes : List Change) :
    (after changes).Reflects (history changes) ∧
      ∀ others, IsReordering (history changes) (history others) →
        (after changes).AnswersAs (after others) := by
  refine ⟨?_, fun others hreordering => ?_⟩
  · rw [after_eq_ofList]
    exact reflects_ofList _
  · rw [after_eq_ofList, after_eq_ofList]
    exact answersAs_of_isReordering hreordering

/-! ### A service without its response -/

/-- The request of a service is put in twice, and a record with a name of another script in
between. -/
def requestChanges : List Change :=
  [.insert ⟨"S_Request", [⟨"x", .string none⟩]⟩, .extend [⟨"é", []⟩, ⟨"S_Request", []⟩]]

/-- The other record is put in first. -/
def reorderedChanges : List Change :=
  [.withRecord ⟨"é", []⟩, .extend [⟨"S_Request", [⟨"x", .string none⟩]⟩, ⟨"S_Request", []⟩]]

/-- The second request counts in either order, and the response is missing. -/
theorem after_requestChanges :
    (after requestChanges).record "S_Request" = .ok [] ∧
    IsReordering (history requestChanges) (history reorderedChanges) ∧
    (after reorderedChanges).record "S_Request" = .ok [] ∧
    (after reorderedChanges).service "S" =
      .error (.unavailable "S" "sub-record 'S_Response' is not defined") := by
  obtain ⟨hreflects, hothers⟩ := reflects_history requestChanges
  have hreordering : IsReordering (history requestChanges) (history reorderedChanges) :=
    isReordering_swap [] _ (by decide)
  have hanswers := hothers reorderedChanges hreordering
  have hrecord : (after requestChanges).record "S_Request" = .ok [] :=
    (hreflects.record_ok_iff _ _).mpr
      ⟨[⟨"S_Request", [⟨"x", .string none⟩]⟩, ⟨"é", []⟩], [], rfl, List.not_mem_nil⟩
  have hservice : (after requestChanges).service "S" =
      .error (.unavailable "S" "sub-record 'S_Response' is not defined") :=
    ((hreflects.service "S").unavailable_iff _ _).mpr ⟨rfl, ⟨"S_Request", by decide +kernel⟩,
      ["S_Request"], "S_Response", [], by decide +kernel⟩
  exact ⟨hrecord, hreordering, hanswers.record_eq ▸ hrecord, hanswers.service_eq ▸ hservice⟩

end Registry

end RosInterface
