import Mathlib.Data.List.Forall2
import RosInterface.Schema.Expansion

/-!
# Expansion over more definitions

A record source may know more records than another one, with the same fields for those that both
know. A resolver then gives almost the same nodes over the two. Where the larger source knows a
record that the smaller one does not, a node with the record's name only has the fields of that
record added. Nothing else changes: below the added fields there is nothing to compare, and
everywhere else the two resolvers go through the same chains, so they are cut at the same cycles.

## Main definitions

* `RecordSource.Within`, `RecordSource.NewIn`: sources that know more records.
* `Node.ExpandsTo`, `RecordSchema.ExpandsTo`: the same description with the fields of some records
  added.

## Main results

* `RecordSchema.ExpandsTo.insert`: putting a node in keeps the order.
* `Resolver.expandsTo_of_run`: over more records every run gives the same with fields added.
* `convert_expandsTo`, `walk_expandsTo`, `walkRecord_expandsTo`: the same over lookups.
-/

namespace RosInterface

/-! ### Sources that know more records -/

namespace RecordSource

/-- What the first source knows the second one knows too, with the same fields. -/
def Within (less more : RecordSource) : Prop :=
  ∀ name fields, less name = .ok fields → more name = .ok fields

/-- The record is known to the second source and not to the first. -/
def NewIn (less more : RecordSource) (name : String) : Prop :=
  (∃ e, less name = .error e) ∧ ∃ fields, more name = .ok fields

end RecordSource

/-! ### Fields that are added -/

/-- Two entries have the same key and values that are related. -/
inductive Table.SameKey {κ α β : Type} (R : α → β → Prop) : κ × α → κ × β → Prop
  | of (key : κ) {value : α} {value' : β} (h : R value value') :
    SameKey R (key, value) (key, value')

/-- The second node is the first one with the fields of some records added, each of a record whose
name is `new`. Such a record has its name only in the first node. -/
inductive Node.ExpandsTo (new : String → Prop) : Node → Node → Prop
  /-- Nothing is added. -/
  | same (node : Node) : ExpandsTo new node node
  /-- All fields of a record are added. -/
  | opened {name : String} (hnew : new name) (schema : RecordSchema) :
    ExpandsTo new (.named name) (.record name schema)
  /-- Fields are added in the items of an array or a sequence. -/
  | items {items items' : Node} (extent : Extent) (h : ExpandsTo new items items') :
    ExpandsTo new (.array items extent) (.array items' extent)
  /-- Fields are added in the fields of a record. -/
  | fields {name : String} {schema schema' : RecordSchema}
    (h : List.Forall₂ (Table.SameKey (ExpandsTo new)) schema.entries schema'.entries) :
    ExpandsTo new (.record name schema) (.record name schema')

/-- The second schema has the same fields in the same order, in which the fields of some records
are added. -/
def RecordSchema.ExpandsTo (new : String → Prop) (schema schema' : RecordSchema) : Prop :=
  List.Forall₂ (Table.SameKey (Node.ExpandsTo new)) schema.entries schema'.entries

/-- Related values that are put under one key keep entries related. -/
theorem Table.forall₂_insertEntry {κ α β : Type} [DecidableEq κ] {R : α → β → Prop}
    {entries : List (κ × α)} {entries' : List (κ × β)}
    (h : List.Forall₂ (SameKey R) entries entries') (key : κ) {value : α} {value' : β}
    (hvalue : R value value') :
    List.Forall₂ (SameKey R) (insertEntry key value entries)
      (insertEntry key value' entries') := by
  induction h with
  | nil => exact .cons (.of key hvalue) .nil
  | cons hentry hrest ih =>
    cases hentry with
    | of k hk =>
      rw [insertEntry, insertEntry]
      split
      · exact .cons (.of key hvalue) hrest
      · exact .cons (.of k hk) ih

namespace RecordSchema

variable {new : String → Prop} {schema schema' : RecordSchema}

theorem expandsTo_empty : ExpandsTo new Table.empty Table.empty :=
  .nil

/-- A node that is put in, or takes the place of another one, does so on both sides. -/
theorem ExpandsTo.insert (h : schema.ExpandsTo new schema') (name : String) {node node' : Node}
    (hnode : node.ExpandsTo new node') :
    ExpandsTo new (Table.insert schema name node) (Table.insert schema' name node') :=
  Table.forall₂_insertEntry h name hnode

end RecordSchema

/-! ### Two runs -/

namespace Resolver

variable {less more : RecordSource}

/-- **Over more records a run gives the same with fields added.** The two runs begin on the same
chain; the depths to which they go do not matter. -/
theorem expandsTo_of_run (h : less.Within more) (depth : Nat) :
    (∀ (r : Resolver) d out, r.convert? less depth d = some out →
      ∀ (r' : Resolver) depth' out', r'.chain = r.chain →
        r'.convert? more depth' d = some out' →
          out.1.ExpandsTo (less.NewIn more) out'.1) ∧
    ∀ (r : Resolver) schema fields out, r.walkOnto? less depth schema fields = some out →
      ∀ (r' : Resolver) depth' schema' out', r'.chain = r.chain →
        schema.ExpandsTo (less.NewIn more) schema' →
          r'.walkOnto? more depth' schema' fields = some out' →
            out.1.ExpandsTo (less.NewIn more) out'.1 := by
  apply run_induction
  case primitive =>
    rintro depth r name r' depth' out' - ⟨⟩
    exact .same _
  case string =>
    rintro depth r maxLength r' depth' out' - ⟨⟩
    exact .same _
  case unknown =>
    rintro depth r tag r' depth' out' - ⟨⟩
    exact .same _
  case sequence =>
    intro depth r element extent items after _ ih r' depth' out' hchain hrun
    obtain ⟨items', after', hitems, rfl⟩ := convert?_sequence_eq_some.mp hrun
    exact .items extent (ih r' depth' _ hchain hitems)
  case cycle =>
    intro depth r name hn r' depth' out' hchain hrun
    rw [convert?_record_of_mem (hchain ▸ hn)] at hrun
    cases hrun
    exact .same _
  case missing =>
    intro depth r name e hn he r' depth' out' hchain hrun
    have hn' : name ∉ r'.chain := hchain ▸ hn
    cases hmore : more name with
    | error e' =>
      rw [convert?_record_of_error hn' hmore] at hrun
      cases hrun
      exact .same _
    | ok fields =>
      obtain ⟨below, schema, after, rfl, -, rfl⟩ := (convert?_record_of_ok hn' hmore).mp hrun
      exact .opened ⟨⟨e, he⟩, fields, hmore⟩ schema
  case found =>
    intro depth r name fields schema after hn hr _ ih r' depth' out' hchain hrun
    obtain ⟨below, schema', last, rfl, hwalk, rfl⟩ :=
      (convert?_record_of_ok (hchain ▸ hn) (h name fields hr)).mp hrun
    obtain ⟨schema'', after', hfields, he⟩ := walkRecord?_eq_some.mp hwalk
    cases he
    have hinner : ((r'.asked name).enter name).chain = ((r.asked name).enter name).chain := by
      simp [hchain]
    exact .fields (ih _ below _ _ hinner RecordSchema.expandsTo_empty hfields)
  case done =>
    rintro depth r schema r' depth' schema' out' - hschema ⟨⟩
    exact hschema
  case skip =>
    intro depth r schema field rest out hb ih r' depth' schema' out' hchain hschema hrun
    rw [walkOnto?_of_bookkeeping hb] at hrun
    exact ih r' depth' schema' out' hchain hschema hrun
  case put =>
    intro depth r schema field rest node between out hb hnode ihNode _ ihRest r' depth' schema'
      out' hchain hschema hrun
    obtain ⟨node', between', hnode', hrest⟩ := (walkOnto?_cons_eq_some hb).mp hrun
    have hbetween : between'.chain = between.chain := by
      rw [chain_of_convert? hnode', hchain, chain_of_convert? hnode]
    exact ihRest between' depth' _ out' hbetween
      (hschema.insert field.name (ihNode r' depth' _ hchain hnode')) hrest

section

variable {depth depth' : Nat} {r r' after after' : Resolver}

/-- The node of a descriptor, over more records. -/
theorem expandsTo_of_convert? (h : less.Within more) (hchain : r'.chain = r.chain)
    {d : Descriptor} {node node' : Node} (hrun : r.convert? less depth d = some (node, after))
    (hrun' : r'.convert? more depth' d = some (node', after')) :
    node.ExpandsTo (less.NewIn more) node' :=
  (expandsTo_of_run h depth).1 _ _ _ hrun _ depth' (node', after') hchain hrun'

/-- The record schema of a field list, over more records. -/
theorem expandsTo_of_walk? (h : less.Within more) (hchain : r'.chain = r.chain)
    {fields : List Field} {schema schema' : RecordSchema}
    (hrun : r.walk? less depth fields = some (schema, after))
    (hrun' : r'.walk? more depth' fields = some (schema', after')) :
    schema.ExpandsTo (less.NewIn more) schema' :=
  (expandsTo_of_run h depth).2 _ _ _ _ hrun _ depth' _ (schema', after') hchain
    RecordSchema.expandsTo_empty hrun'

/-- The record schema of the fields of a record, over more records. -/
theorem expandsTo_of_walkRecord? (h : less.Within more) (hchain : r'.chain = r.chain)
    {name : String} {fields : List Field} {schema schema' : RecordSchema}
    (hrun : r.walkRecord? less depth name fields = some (schema, after))
    (hrun' : r'.walkRecord? more depth' name fields = some (schema', after')) :
    schema.ExpandsTo (less.NewIn more) schema' := by
  obtain ⟨schema, between, hwalk, he⟩ := walkRecord?_eq_some.mp hrun
  cases he
  obtain ⟨schema', between', hwalk', he'⟩ := walkRecord?_eq_some.mp hrun'
  cases he'
  have hinner : (r'.enter name).chain = (r.enter name).chain := by simp [hchain]
  exact expandsTo_of_walk? h hinner hwalk hwalk'

end

end Resolver

/-! ### Two lookups -/

section

variable {less more : Lookup} (chain : List String)

/-- Over a lookup that knows more records, the node of a descriptor has fields added. -/
theorem convert_expandsTo (h : RecordSource.Within less.record more.record) (d : Descriptor) :
    (convert less chain d).value.ExpandsTo (RecordSource.NewIn less.record more.record)
      (convert more chain d).value := by
  obtain ⟨depth, after, hrun, -⟩ := exists_convert?_of_lookup less chain d
  obtain ⟨depth', after', hrun', -⟩ := exists_convert?_of_lookup more chain d
  exact Resolver.expandsTo_of_convert? h rfl hrun hrun'

/-- Over a lookup that knows more records, the schema of a field list has fields added. -/
theorem walk_expandsTo (h : RecordSource.Within less.record more.record) (fields : List Field) :
    (walk less chain fields).value.ExpandsTo (RecordSource.NewIn less.record more.record)
      (walk more chain fields).value := by
  obtain ⟨depth, after, hrun, -⟩ := exists_walk?_of_lookup less chain fields
  obtain ⟨depth', after', hrun', -⟩ := exists_walk?_of_lookup more chain fields
  exact Resolver.expandsTo_of_walk? h rfl hrun hrun'

/-- Over a lookup that knows more records, the schema of a record has fields added. -/
theorem walkRecord_expandsTo (h : RecordSource.Within less.record more.record) (name : String)
    (fields : List Field) :
    (walkRecord less chain name fields).value.ExpandsTo
      (RecordSource.NewIn less.record more.record) (walkRecord more chain name fields).value := by
  obtain ⟨depth, after, hrun, -⟩ := exists_walkRecord?_of_lookup less chain name fields
  obtain ⟨depth', after', hrun', -⟩ := exists_walkRecord?_of_lookup more chain name fields
  exact Resolver.expandsTo_of_walkRecord? h rfl hrun hrun'

end

end RosInterface
