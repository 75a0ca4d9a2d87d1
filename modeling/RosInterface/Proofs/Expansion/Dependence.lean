import RosInterface.Schema.Expansion

/-!
# What an expansion depends on

An expansion asks its source for some records and for nothing else. Another source may differ from
the first one in every record that was not asked for. Where a record was asked for, it may fail for
another reason, or find fields that differ where they hold no data. Over such a source the same
lookups are made in the same order, and they lead to the same result.

The induction is over the whole run. The records it asks for include those that its parts ask for,
as a resolver never forgets a lookup.

## Main definitions

* `dataFields`: the fields of a list that hold data.
* `RecordSource.Agree`: answers for a record that an expansion cannot tell apart.
* `RecordSource.AgreeOn`: sources that agree on all records among given lookups.

## Main results

* `Resolver.walkOnto?_congr`: only the fields that hold data count.
* `Resolver.run_of_agreeOn`: a run over a source that agrees on what was asked for is the same run.
* `expansion_eq_of_agreeOn`: the same for descriptors, field lists and records.
-/

namespace RosInterface

/-- The fields that hold data. -/
def dataFields (fields : List Field) : List Field :=
  fields.filter fun field => !field.isBookkeeping

namespace RecordSource

/-- Two answers for a record agree if both are errors, or if the fields of both are the same where
they hold data. -/
inductive Agree : Except LookupError (List Field) → Except LookupError (List Field) → Prop
  | failed (e e' : LookupError) : Agree (.error e) (.error e')
  | found {fields fields' : List Field} (h : dataFields fields = dataFields fields') :
    Agree (.ok fields) (.ok fields')

/-- Two sources agree on every record that was asked for. -/
def AgreeOn (record other : RecordSource) (calls : List Call) : Prop :=
  ∀ name, .record name ∈ calls → Agree (record name) (other name)

theorem AgreeOn.mono {record other : RecordSource} {calls later : List Call}
    (h : record.AgreeOn other later) (hsub : calls ⊆ later) : record.AgreeOn other calls :=
  fun name hname => h name (hsub hname)

end RecordSource

namespace Resolver

variable {record other : RecordSource} {depth : Nat} {r after : Resolver}

/-! ### Fields that hold no data -/

theorem walkOnto?_dataFields (fields : List Field) (r : Resolver) (schema : RecordSchema) :
    r.walkOnto? record depth schema (dataFields fields) =
      r.walkOnto? record depth schema fields := by
  induction fields generalizing r schema with
  | nil => rfl
  | cons field rest ih =>
    by_cases hb : field.isBookkeeping = true
    · rw [walkOnto?_of_bookkeeping hb, ← ih r schema, dataFields, dataFields,
        List.filter_cons_of_neg (by simp [hb])]
    · have hdata : dataFields (field :: rest) = field :: dataFields rest :=
        List.filter_cons_of_pos (by simpa using hb)
      rw [Bool.not_eq_true] at hb
      refine Option.ext fun out => ?_
      rw [hdata, walkOnto?_cons_eq_some hb, walkOnto?_cons_eq_some hb]
      simp only [ih]

/-- Only the fields that hold data count. -/
theorem walkOnto?_congr {fields fields' : List Field} (h : dataFields fields = dataFields fields')
    (r : Resolver) (schema : RecordSchema) :
    r.walkOnto? record depth schema fields = r.walkOnto? record depth schema fields' := by
  rw [← walkOnto?_dataFields fields, h, walkOnto?_dataFields]

/-! ### Lookups that were made -/

/-- A walk forgets no lookup that was made before. -/
theorem calls_subset_of_walkOnto? {schema : RecordSchema} {fields : List Field}
    {out : RecordSchema × Resolver} (h : r.walkOnto? record depth schema fields = some out) :
    r.calls ⊆ out.2.calls := by
  obtain ⟨calls, chains, hafter⟩ := (exists_later_of_run depth).2 _ _ _ _ h
  rw [hafter]
  exact List.subset_append_left _ _

/-- **A run goes by the answers to its own lookups.** Over a source that agrees with the first one
on every record that was asked for, the run is the same. -/
theorem run_of_agreeOn (record other : RecordSource) (depth : Nat) :
    (∀ (r : Resolver) d out, r.convert? record depth d = some out →
      record.AgreeOn other out.2.calls → r.convert? other depth d = some out) ∧
    ∀ (r : Resolver) schema fields out, r.walkOnto? record depth schema fields = some out →
      record.AgreeOn other out.2.calls → r.walkOnto? other depth schema fields = some out := by
  apply run_induction
  case primitive => exact fun depth r name _ => convert?_primitive name
  case string => exact fun depth r maxLength _ => convert?_string maxLength
  case unknown => exact fun depth r tag _ => convert?_unknown tag
  case sequence =>
    intro depth r element extent items after _ ih hagree
    exact convert?_sequence_eq_some.mpr ⟨items, after, ih hagree, rfl⟩
  case cycle => exact fun depth r name hn _ => convert?_record_of_mem hn
  case missing =>
    intro depth r name e hn he hagree
    have hname := hagree name (List.mem_append_right _ (List.mem_singleton_self _))
    rw [he] at hname
    cases hother : other name with
    | error e' => exact convert?_record_of_error hn hother
    | ok fields' =>
      rw [hother] at hname
      cases hname
  case found =>
    intro depth r name fields schema after hn hr hwalk ih hagree
    -- The lookup of the record is among those made by the walk of its fields.
    have hcalled : Call.record name ∈ after.calls :=
      calls_subset_of_walkOnto? hwalk (List.mem_append_right _ (List.mem_singleton_self _))
    have hname := hagree name hcalled
    rw [hr] at hname
    cases hother : other name with
    | error e' =>
      rw [hother] at hname
      cases hname
    | ok fields' =>
      rw [hother] at hname
      cases hname with
      | found hfields =>
        refine (convert?_record_of_ok hn hother).mpr ⟨depth, schema, after.leave, rfl, ?_, rfl⟩
        refine walkRecord?_eq_some.mpr ⟨schema, after, ?_, rfl⟩
        rw [walk?, ← walkOnto?_congr hfields]
        exact ih hagree
  case done => exact fun depth r schema _ => walkOnto?_nil schema
  case skip =>
    intro depth r schema field rest out hb ih hagree
    rw [walkOnto?_of_bookkeeping hb]
    exact ih hagree
  case put =>
    intro depth r schema field rest node between out hb _ ihNode hrest ihRest hagree
    have hbetween := hagree.mono (calls_subset_of_walkOnto? hrest)
    exact (walkOnto?_cons_eq_some hb).mpr ⟨node, between, ihNode hbetween, ihRest hagree⟩

/-- The walk of fields that are the same where they hold data, over a source that agrees. -/
theorem walk?_of_agreeOn {fields fields' : List Field} {schema : RecordSchema}
    (h : r.walk? record depth fields = some (schema, after))
    (hagree : record.AgreeOn other after.calls) (hfields : dataFields fields = dataFields fields') :
    r.walk? other depth fields' = some (schema, after) := by
  rw [walk?, ← walkOnto?_congr hfields]
  exact (run_of_agreeOn record other depth).2 _ _ _ _ h hagree

/-- The same for the fields of a record. -/
theorem walkRecord?_of_agreeOn {name : String} {fields fields' : List Field}
    {schema : RecordSchema} (h : r.walkRecord? record depth name fields = some (schema, after))
    (hagree : record.AgreeOn other after.calls) (hfields : dataFields fields = dataFields fields') :
    r.walkRecord? other depth name fields' = some (schema, after) := by
  obtain ⟨schema, last, hwalk, he⟩ := walkRecord?_eq_some.mp h
  cases he
  exact walkRecord?_eq_some.mpr ⟨schema, last, walk?_of_agreeOn hwalk hagree hfields, rfl⟩

end Resolver

/-- The expansion of a record over a lookup that agrees on what was looked up is the same. -/
theorem walkRecord_eq_of_agreeOn {lookup other : Lookup} {chain : List String} {name : String}
    {fields fields' : List Field}
    (hagree : RecordSource.AgreeOn lookup.record other.record
      (walkRecord lookup chain name fields).calls)
    (hfields : dataFields fields = dataFields fields') :
    walkRecord other chain name fields' = walkRecord lookup chain name fields := by
  obtain ⟨depth, after, hrun, hcalls⟩ := exists_walkRecord?_of_lookup lookup chain name fields
  rw [hcalls] at hagree
  rw [walkRecord_eq_of_walkRecord? (Resolver.walkRecord?_of_agreeOn hrun hagree hfields), ← hcalls]

/-- **An expansion depends only on what was looked up.** Take an expansion of a descriptor, of a
field list or of the fields of a record, on any chain. Over every source that agrees with the first
one on the records that were looked up, it has the same result, after the same lookups in the same
order. Agreement allows other reasons for a failure and other fields that hold no data, and nothing
is said about any other record. The fields given may differ in the same way.

This is so over all sources where the expansion ends, to whatever depth, and over lookups, where it
always does. -/
theorem expansion_eq_of_agreeOn :
    (∀ (record other : RecordSource) (chain : List String) (depth : Nat),
      (∀ d node after, (Resolver.under chain).convert? record depth d = some (node, after) →
        record.AgreeOn other after.calls →
          (Resolver.under chain).convert? other depth d = some (node, after)) ∧
      (∀ fields fields' schema after,
        (Resolver.under chain).walk? record depth fields = some (schema, after) →
          record.AgreeOn other after.calls → dataFields fields = dataFields fields' →
            (Resolver.under chain).walk? other depth fields' = some (schema, after)) ∧
      ∀ name fields fields' schema after,
        (Resolver.under chain).walkRecord? record depth name fields = some (schema, after) →
          record.AgreeOn other after.calls → dataFields fields = dataFields fields' →
            (Resolver.under chain).walkRecord? other depth name fields' = some (schema, after)) ∧
    ∀ (lookup other : Lookup) (chain : List String),
      (∀ d, RecordSource.AgreeOn lookup.record other.record (convert lookup chain d).calls →
        convert other chain d = convert lookup chain d) ∧
      (∀ fields fields',
        RecordSource.AgreeOn lookup.record other.record (walk lookup chain fields).calls →
          dataFields fields = dataFields fields' →
            walk other chain fields' = walk lookup chain fields) ∧
      ∀ name fields fields',
        RecordSource.AgreeOn lookup.record other.record
          (walkRecord lookup chain name fields).calls →
            dataFields fields = dataFields fields' →
              walkRecord other chain name fields' = walkRecord lookup chain name fields := by
  refine ⟨fun record other chain depth => ⟨?_, ?_, ?_⟩, fun lookup other chain => ⟨?_, ?_, ?_⟩⟩
  · intro d node after hrun hagree
    exact (Resolver.run_of_agreeOn record other depth).1 _ _ _ hrun hagree
  · intro fields fields' schema after hrun hagree hfields
    exact Resolver.walk?_of_agreeOn hrun hagree hfields
  · intro name fields fields' schema after hrun hagree hfields
    exact Resolver.walkRecord?_of_agreeOn hrun hagree hfields
  · intro d hagree
    obtain ⟨depth, after, hrun, hcalls⟩ := exists_convert?_of_lookup lookup chain d
    rw [hcalls] at hagree
    have hother := (Resolver.run_of_agreeOn _ other.record depth).1 _ _ _ hrun hagree
    rw [convert_eq_of_convert? hother, ← hcalls]
  · intro fields fields' hagree hfields
    obtain ⟨depth, after, hrun, hcalls⟩ := exists_walk?_of_lookup lookup chain fields
    rw [hcalls] at hagree
    rw [walk_eq_of_walk? (Resolver.walk?_of_agreeOn hrun hagree hfields), ← hcalls]
  · exact fun name fields fields' => walkRecord_eq_of_agreeOn

/-! ### Two sources that agree -/

/-- A source of a pair and of a record that only a field without data refers to. -/
def paddedSource : RecordSource := fun name =>
  if name = "demo/msg/Pair" then
    .ok [⟨"left", .record "demo/msg/Lost"⟩, ⟨"_pad", .record "demo/msg/Hidden"⟩]
  else if name = "demo/msg/Hidden" then .ok [⟨"x", .primitive "double"⟩]
  else .error (.notFound name)

/-- A source of the pair only, which gives other reasons. -/
def plainSource : RecordSource := fun name =>
  if name = "demo/msg/Pair" then .ok [⟨"left", .record "demo/msg/Lost"⟩]
  else .error (.unavailable name "unreadable")

/-- The pair is the same over both sources, below a chain with another record on it. -/
theorem convert?_plainSource : ∃ after,
    (Resolver.under ["demo/msg/Top"]).convert? paddedSource 1 (.record "demo/msg/Pair")
      = some (.record "demo/msg/Pair" ⟨[("left", .named "demo/msg/Lost")]⟩, after) ∧
    after.calls = [.record "demo/msg/Pair", .record "demo/msg/Lost"] ∧
    paddedSource.AgreeOn plainSource after.calls ∧
    (Resolver.under ["demo/msg/Top"]).convert? plainSource 1 (.record "demo/msg/Pair")
      = some (.record "demo/msg/Pair" ⟨[("left", .named "demo/msg/Lost")]⟩, after) := by
  obtain ⟨after, hrun, hcalls⟩ : ∃ after,
      (Resolver.under ["demo/msg/Top"]).convert? paddedSource 1 (.record "demo/msg/Pair")
        = some (.record "demo/msg/Pair" ⟨[("left", .named "demo/msg/Lost")]⟩, after) ∧
      after.calls = [.record "demo/msg/Pair", .record "demo/msg/Lost"] := ⟨_, rfl, rfl⟩
  have hagree : paddedSource.AgreeOn plainSource after.calls := by
    intro name hname
    rw [hcalls, List.mem_cons, List.mem_singleton] at hname
    rcases hname with ⟨⟨⟩⟩ | ⟨⟨⟩⟩
    · exact .found (by decide)
    · exact .failed _ _
  exact ⟨after, hrun, hcalls, hagree,
    (expansion_eq_of_agreeOn.1 _ _ _ _).1 _ _ _ hrun hagree⟩

end RosInterface
