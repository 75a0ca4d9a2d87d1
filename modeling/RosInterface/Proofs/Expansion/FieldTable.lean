import Mathlib.Data.List.Forall2
import Mathlib.Data.Finset.Card
import RosInterface.Proofs.Expansion.Place
import RosInterface.Proofs.Expansion.Dependence

/-!
# Field lists as tables

A field list may name a field more than once, and some of its fields hold no data. Its record schema
is the table that *collects* the other fields, each with the node of its descriptor: a name stands
where it came first and has the node that came last.

A table that is made from a list of entries collects them, and so it does when more entries are
inserted. The fields of one list are described below the same chain, since describing a field leaves
the chain as it was. So a walk makes the table of the nodes that the fields have by themselves.

## Main definitions

* `Table.Collects`: what a table shows of the entries that were put in.
* `Field.HasEntry`: a field's name with the node of its descriptor.

## Main results

* `Table.pairwise_keys_ofList`: the keys of a table stand in the order in which they came first.
* `Table.collects_ofList`: a table made from a list collects its entries.
* `Resolver.exists_entries_of_walkOnto?`: a walk puts in one entry for each field with data.
* `walk_collects_fields`: a record schema collects the fields of a list.
-/

namespace RosInterface

/-! ### What a table shows -/

namespace Table

variable {κ α : Type} [DecidableEq κ]

/-- A table shows the entries of a list that were put in one after the other. -/
structure Collects (t : Table κ α) (entries : List (κ × α)) : Prop where
  /-- The keys are those of the entries. -/
  mem_keys_iff : ∀ key, key ∈ t.keys ↔ key ∈ entries.map Prod.fst
  /-- They stand in the order in which they come first. In particular no key stands twice. -/
  pairwise_keys : t.keys.Pairwise fun key key' =>
    (entries.map Prod.fst).idxOf key < (entries.map Prod.fst).idxOf key'
  /-- A key has the value of the last entry with this key. -/
  get?_eq_some_iff : ∀ key value, t.get? key = some value ↔
    ∃ before after, entries = before ++ (key, value) :: after ∧ key ∉ after.map Prod.fst
  /-- The keys that have a value are those of the entries. -/
  contains_iff : ∀ key, t.contains key = true ↔ key ∈ entries.map Prod.fst
  /-- Keys are counted once each. -/
  size_eq : t.size = (entries.map Prod.fst).toFinset.card
  /-- The keys are listed in their order, each with the value that it has. -/
  entries_eq : t.entries.map some = t.keys.map fun key => (t.get? key).map fun value => (key, value)

/-- No key is listed twice where keys stand in the order in which they come first. -/
theorem Collects.nodup_keys {t : Table κ α} {entries : List (κ × α)} (h : t.Collects entries) :
    t.keys.Nodup := by
  refine h.pairwise_keys.imp fun {key key'} hlt heq => ?_
  rw [heq] at hlt
  exact Nat.lt_irrefl _ hlt

/-- The value that comes last under a key is that of an entry behind which the key does not come
any more. -/
theorem lastUnder?_eq_some_iff {entries : List (κ × α)} {key : κ} {value : α} :
    lastUnder? key entries = some value ↔
      ∃ before after, entries = before ++ (key, value) :: after ∧ key ∉ after.map Prod.fst := by
  have hnew (key : κ) (others : List (κ × α)) :
      (∀ entry ∈ others, (!decide (entry.1 = key)) = true) ↔ key ∉ others.map Prod.fst := by
    simp only [List.mem_map, not_exists, not_and, Bool.not_eq_true', decide_eq_false_iff_not]
  rw [lastUnder?, Option.map_eq_some_iff]
  constructor
  · rintro ⟨⟨found, _⟩, hfind, rfl⟩
    obtain ⟨hkey, after, before, hsplit, hafter⟩ := List.find?_eq_some_iff_append.mp hfind
    obtain rfl : found = key := by simpa using hkey
    refine ⟨before.reverse, after.reverse, by simpa using List.reverse_eq_iff.mp hsplit, ?_⟩
    rw [List.map_reverse, List.mem_reverse]
    exact (hnew found after).mp hafter
  · rintro ⟨before, after, rfl, hafter⟩
    refine ⟨(key, value), List.find?_eq_some_iff_append.mpr ⟨by simp, after.reverse, before.reverse,
      by simp, (hnew key after.reverse).mpr ?_⟩, rfl⟩
    rwa [List.map_reverse, List.mem_reverse]

/-- Keys in the order in which they come first among names stay so when a name is added and put at
the end if it is new. -/
theorem pairwise_idxOf_concat {keys names : List κ} (hmem : ∀ key, key ∈ keys ↔ key ∈ names)
    (hkeys : keys.Pairwise fun key key' => names.idxOf key < names.idxOf key') (name : κ) :
    (if name ∈ keys then keys else keys ++ [name]).Pairwise fun key key' =>
      (names ++ [name]).idxOf key < (names ++ [name]).idxOf key' := by
  have hold {key : κ} (hkey : key ∈ keys) : (names ++ [name]).idxOf key = names.idxOf key :=
    List.idxOf_append_of_mem ((hmem key).mp hkey)
  have hkept : keys.Pairwise fun key key' =>
      (names ++ [name]).idxOf key < (names ++ [name]).idxOf key' :=
    hkeys.imp_of_mem fun hkey hkey' hlt => by rwa [hold hkey, hold hkey']
  split
  · exact hkept
  · rename_i hnew
    refine List.pairwise_append.mpr
      ⟨hkept, List.pairwise_singleton _ _, fun key hkey last hlast => ?_⟩
    obtain rfl := List.mem_singleton.mp hlast
    rw [hold hkey, List.idxOf_append_of_notMem fun h => hnew ((hmem last).mpr h)]
    exact Nat.lt_add_right _ (List.idxOf_lt_length_of_mem ((hmem key).mp hkey))

theorem ofList_concat (entries : List (κ × α)) (entry : κ × α) :
    ofList (entries ++ [entry]) = (ofList entries).insert entry.1 entry.2 :=
  insertAll_append _ _ _

/-- A table made from a list has its keys in the order in which they come first. -/
theorem pairwise_keys_ofList (entries : List (κ × α)) :
    (ofList entries).keys.Pairwise fun key key' =>
      (entries.map Prod.fst).idxOf key < (entries.map Prod.fst).idxOf key' := by
  induction entries using List.reverseRecOn with
  | nil => exact .nil
  | append_singleton entries entry ih =>
    rw [ofList_concat, keys_insert, List.map_append, List.map_singleton]
    exact pairwise_idxOf_concat (fun key => mem_keys_ofList) ih entry.1

/-- A table that lists no key twice lists every key with the value that it has. -/
theorem map_some_entries {t : Table κ α} (h : t.keys.Nodup) :
    t.entries.map some = t.keys.map fun key => (t.get? key).map fun value => (key, value) := by
  rw [keys, List.map_map]
  refine List.map_congr_left fun entry hentry => ?_
  rw [Function.comp_apply, (get?_eq_some_iff h).mpr hentry, Option.map_some]

/-- **A table made from a list collects its entries.** -/
theorem collects_ofList (entries : List (κ × α)) : (ofList entries).Collects entries where
  mem_keys_iff key := mem_keys_ofList
  pairwise_keys := pairwise_keys_ofList entries
  get?_eq_some_iff key value := by rw [get?_ofList, lastUnder?_eq_some_iff]
  contains_iff key := contains_eq_true_iff.trans mem_keys_ofList
  size_eq := by
    have hkeys : (ofList entries).keys.toFinset = (entries.map Prod.fst).toFinset :=
      Finset.ext fun key => by rw [List.mem_toFinset, List.mem_toFinset, mem_keys_ofList]
    rw [← hkeys, List.toFinset_card_of_nodup (nodup_keys_ofList entries), keys, List.length_map,
      size]
  entries_eq := map_some_entries (nodup_keys_ofList entries)

/-- A table made from several tables collects the entries from which these were made. -/
theorem collects_ofList_flatMap {β : Type} (groups : List β) (entries : β → List (κ × α)) :
    (ofList (groups.flatMap fun group => (ofList (entries group)).entries)).Collects
      (groups.flatMap entries) := by
  rw [ofList, insertAll_flatMap_entries_ofList]
  exact collects_ofList _

/-- Entries that are inserted into a table made from a list are collected behind those of the
list. -/
theorem collects_insertAll_ofList (entries more : List (κ × α)) :
    ((ofList entries).insertAll more).Collects (entries ++ more) := by
  have happend : (ofList entries).insertAll more = ofList (entries ++ more) :=
    (insertAll_append _ _ _).symm
  rw [happend]
  exact collects_ofList _

end Table

/-! ### The fields of a list -/

/-- The entry of a field below a chain: its name, with the node of its descriptor. -/
def Field.HasEntry (record : RecordSource) (depth : Nat) (chain : List String) (field : Field)
    (entry : String × Node) : Prop :=
  entry.1 = field.name ∧ ∃ after,
    (Resolver.under chain).convert? record depth field.descriptor = some (entry.2, after)

namespace Resolver

variable {record : RecordSource} {depth : Nat} {r after : Resolver}

/-- **A walk puts in one entry for each field with data**, in the order of the fields. -/
theorem exists_entries_of_walkOnto? {fields : List Field} {schema out : RecordSchema}
    (h : r.walkOnto? record depth schema fields = some (out, after)) :
    ∃ entries, List.Forall₂ (Field.HasEntry record depth r.chain) (dataFields fields) entries ∧
      out = schema.insertAll entries := by
  induction fields generalizing r schema with
  | nil =>
    cases h
    exact ⟨[], .nil, rfl⟩
  | cons field rest ih =>
    by_cases hb : field.isBookkeeping = true
    · rw [walkOnto?_of_bookkeeping hb] at h
      rw [dataFields, List.filter_cons_of_neg (by simp [hb])]
      exact ih h
    · rw [Bool.not_eq_true] at hb
      obtain ⟨node, between, hnode, hrest⟩ := (walkOnto?_cons_eq_some hb).mp h
      obtain ⟨entries, hentries, rfl⟩ := ih hrest
      obtain ⟨calls, chains, hframe⟩ := (run_frame depth).1 _ _ _ hnode
      rw [chain_of_convert? hnode] at hentries
      rw [dataFields, List.filter_cons_of_pos (by simp [hb])]
      exact ⟨(field.name, node) :: entries,
        .cons ⟨rfl, _, hframe (under r.chain) rfl⟩ hentries, rfl⟩

end Resolver

section

variable (lookup : Lookup) (chain : List String) (fields : List Field)

/-- The entries of the fields with data, over a lookup. -/
def fieldEntries : List (String × Node) :=
  (dataFields fields).map fun field =>
    (field.name, (convert lookup chain field.descriptor).value)

/-- Over a lookup a record schema is the table of the entries of its fields. -/
theorem value_walk_eq_ofList :
    (walk lookup chain fields).value = Table.ofList (fieldEntries lookup chain fields) := by
  obtain ⟨depth, after, hrun, -⟩ := exists_walk?_of_lookup lookup chain fields
  obtain ⟨entries, hentries, hout⟩ := Resolver.exists_entries_of_walkOnto? hrun
  have heq : fieldEntries lookup chain fields = entries := by
    rw [fieldEntries, ← List.forall₂_eq_eq_eq, List.forall₂_map_left_iff]
    refine hentries.imp fun field entry h => ?_
    obtain ⟨hname, last, hnode⟩ := h
    have hvalue : convert lookup chain field.descriptor = ⟨entry.2, last.calls⟩ :=
      convert_eq_of_convert? hnode
    rw [hvalue, ← hname]
  rw [hout, heq]
  rfl

/-- A name has the node of the last field with data that has this name. -/
theorem get?_value_walk (name : String) : (walk lookup chain fields).value.get? name =
    (lastField? fields name).map fun field => (convert lookup chain field.descriptor).value := by
  rw [value_walk_eq_ofList, Table.get?_ofList, Table.lastUnder?, fieldEntries, dataFields,
    lastField?, List.getLast?_filter, ← List.map_reverse, List.find?_map, ← List.filter_reverse,
    List.find?_filter, Option.map_map]
  simp [Function.comp_def, Bool.beq_eq_decide_eq]

end

/-- **A field list becomes a table without loss.** The record schema of a field list, below any
chain, collects the fields that hold data, each with the node that its descriptor has below that
chain: its keys are the names of these fields, each once and in the order in which they come first,
and a name has the node of the last of these fields that has this name. The schema goes on
collecting when more entries are inserted, and what it shows of them agrees, whether a key is looked
for, counted or listed. A record schema that is made from any list of entries does the same.

This is so over all sources where the walk ends, to whatever depth, with one entry for each field
that holds data; and over lookups, where it always ends. -/
theorem walk_collects_fields :
    (∀ (record : RecordSource) (chain : List String) (depth : Nat) (fields : List Field)
      (schema : RecordSchema) (after : Resolver),
      (Resolver.under chain).walk? record depth fields = some (schema, after) →
        ∃ entries, List.Forall₂ (Field.HasEntry record depth chain) (dataFields fields) entries ∧
          schema.Collects entries ∧
          ∀ more, (schema.insertAll more).Collects (entries ++ more)) ∧
    (∀ (lookup : Lookup) (chain : List String) (fields : List Field),
      (walk lookup chain fields).value.Collects (fieldEntries lookup chain fields) ∧
      (∀ name, (walk lookup chain fields).value.get? name =
        (lastField? fields name).map fun field =>
          (convert lookup chain field.descriptor).value) ∧
      ∀ more, ((walk lookup chain fields).value.insertAll more).Collects
        (fieldEntries lookup chain fields ++ more)) ∧
    ∀ entries more : List (String × Node),
      (Table.ofList entries).Collects entries ∧
        ((Table.ofList entries).insertAll more).Collects (entries ++ more) := by
  refine ⟨fun record chain depth fields schema after hrun => ?_, fun lookup chain fields => ?_, ?_⟩
  · obtain ⟨entries, hentries, rfl⟩ := Resolver.exists_entries_of_walkOnto? hrun
    exact ⟨entries, hentries, Table.collects_ofList entries,
      Table.collects_insertAll_ofList entries⟩
  · refine ⟨?_, get?_value_walk lookup chain fields, fun more => ?_⟩
    · rw [value_walk_eq_ofList]
      exact Table.collects_ofList _
    · rw [value_walk_eq_ofList]
      exact Table.collects_insertAll_ofList _ more
  · exact fun entries more =>
      ⟨Table.collects_ofList entries, Table.collects_insertAll_ofList entries more⟩

/-! ### A field that is declared twice -/

/-- A field that is declared as a number and again as a record, with others in between. -/
def repeatedFields : List Field :=
  [⟨"x", .primitive "double"⟩, ⟨"_pad", .primitive "octet"⟩, ⟨"y", .string none⟩,
    ⟨"x", .record "demo/msg/Top"⟩]

/-- The schema of these fields inside the record that they refer to. -/
def repeatedSchema : RecordSchema :=
  ⟨[("x", .named "demo/msg/Top"), ("y", .string none)]⟩

/-- The field keeps its first place and has its second type. -/
theorem repeatedSchema_collects : ∃ after entries,
    (Resolver.under ["demo/msg/Top"]).walk? (fun name => .error (.notFound name)) 0 repeatedFields
      = some (repeatedSchema, after) ∧
    entries.map Prod.fst = ["x", "y", "x"] ∧ repeatedSchema.Collects entries := by
  obtain ⟨after, hrun⟩ : ∃ after,
      (Resolver.under ["demo/msg/Top"]).walk? (fun name => .error (.notFound name)) 0
        repeatedFields = some (repeatedSchema, after) := ⟨_, rfl⟩
  obtain ⟨entries, hentries, hcollects, -⟩ := walk_collects_fields.1 _ _ _ _ _ _ hrun
  have hnames : entries.map Prod.fst = (dataFields repeatedFields).map Field.name := by
    rw [← List.forall₂_eq_eq_eq, List.forall₂_map_left_iff, List.forall₂_map_right_iff]
    exact hentries.flip.imp fun entry field h => h.1
  exact ⟨after, entries, hrun, hnames, hcollects⟩

end RosInterface
