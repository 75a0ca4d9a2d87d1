import RosInterface.Proofs.Expansion.Cut
import RosInterface.Proofs.Expansion.Dependence
import RosInterface.Proofs.Resolution.DirectCalls

/-!
# Expansion inside other records

A chain has an effect on an expansion only where one of its names is met again. The names that can
be met are those that are *reached* from the descriptor: it refers to them, or fields that hold data
refer to them in records that are found and are reached themselves. So two chains with the same
names among these give the same expansion, after the same lookups. The chains may differ in the
order of the names, list them any number of times, and hold any other names.

When a record is entered, both chains get its name, and what is reached from its fields is reached
from the record. This carries the induction over the whole run.

In particular a record is described in the same way inside other records and on its own, as long as
none of the others is reached from it.

## Main definitions

* `Descriptor.Reaches`, `FieldsReach`: the records that are met below a descriptor or field list.
* `AgreeAmong`: chains with the same names among given ones.

## Main results

* `Resolver.run_of_agreeAmong`: a run goes by the names on its chain that are reached.
* `walkRecord_of_not_reaches`: the fields of a record, below records that are not reached from it.
* `expansion_eq_of_agreeAmong`: expansions below two chains, and a record inside other ones.
-/

namespace RosInterface

/-- A record is met in the expansion of a descriptor: the descriptor refers to it, or to a record
that is found and has a field with data in which it is met. -/
inductive Descriptor.Reaches (record : RecordSource) : Descriptor → String → Prop
  /-- A reference to the record. -/
  | reference (name : String) : Reaches record (.record name) name
  /-- The record is met in the elements of an array or a sequence. -/
  | element {element : Descriptor} {name : String} (extent : Extent)
    (h : Reaches record element name) : Reaches record (.sequence element extent) name
  /-- The record is met in a field of a record that is found. -/
  | field {outer name : String} {fields : List Field} {field : Field}
    (hr : record outer = .ok fields) (hf : field ∈ dataFields fields)
    (h : Reaches record field.descriptor name) : Reaches record (.record outer) name

/-- A record is met in the expansion of a field list. -/
def FieldsReach (record : RecordSource) (fields : List Field) (name : String) : Prop :=
  ∃ field ∈ dataFields fields, field.descriptor.Reaches record name

/-- Two chains have the same names among those that are reached. -/
def AgreeAmong (reached : String → Prop) (chain chain' : List String) : Prop :=
  ∀ name, reached name → (name ∈ chain ↔ name ∈ chain')

variable {record : RecordSource}

/-! ### What is reached -/

theorem fieldsReach_cons_of_bookkeeping {field : Field} (hb : field.isBookkeeping = true)
    {rest : List Field} {name : String} (h : FieldsReach record rest name) :
    FieldsReach record (field :: rest) name := by
  have hdata : dataFields (field :: rest) = dataFields rest :=
    List.filter_cons_of_neg (by simp [hb])
  rwa [FieldsReach, hdata]

theorem fieldsReach_cons_iff {field : Field} (hb : field.isBookkeeping = false)
    {rest : List Field} {name : String} :
    FieldsReach record (field :: rest) name ↔
      field.descriptor.Reaches record name ∨ FieldsReach record rest name := by
  have hdata : dataFields (field :: rest) = field :: dataFields rest :=
    List.filter_cons_of_pos (by simp [hb])
  simp only [FieldsReach, hdata, List.mem_cons, exists_eq_or_imp]

/-- What is met in the fields of a record is met below the record. -/
theorem FieldsReach.reaches {name : String} {fields : List Field} (hr : record name = .ok fields)
    {inner : String} (h : FieldsReach record fields inner) :
    (Descriptor.record name).Reaches record inner := by
  obtain ⟨field, hf, hreaches⟩ := h
  exact .field hr hf hreaches

namespace AgreeAmong

variable {reached reached' : String → Prop} {chain chain' : List String}

theorem mono (h : AgreeAmong reached chain chain') (hsub : ∀ name, reached' name → reached name) :
    AgreeAmong reached' chain chain' :=
  fun name hname => h name (hsub name hname)

/-- Chains that agree do so with a further name on both of them. -/
theorem cons (h : AgreeAmong reached chain chain') (name : String) :
    AgreeAmong reached (name :: chain) (name :: chain') := by
  intro other hother
  rw [List.mem_cons, List.mem_cons, h other hother]

/-- A chain without any name that is reached agrees with the empty one. -/
theorem nil_of_notMem (h : ∀ name ∈ chain, ¬reached name) : AgreeAmong reached chain [] := by
  intro name hname
  exact iff_of_false (fun hmem => h name hmem hname) List.not_mem_nil

end AgreeAmong

/-! ### Two runs -/

namespace Resolver

variable {depth : Nat} {r r' after : Resolver}

/-- **A run goes by the names on its chain that are reached.** On a chain with the same names among
these it has the same result, after the same lookups. -/
theorem run_of_agreeAmong (depth : Nat) :
    (∀ (r : Resolver) d out, r.convert? record depth d = some out →
      ∀ r' : Resolver, r'.calls = r.calls → AgreeAmong (d.Reaches record) r.chain r'.chain →
        ∃ after, r'.convert? record depth d = some (out.1, after) ∧ after.calls = out.2.calls) ∧
    ∀ (r : Resolver) schema fields out, r.walkOnto? record depth schema fields = some out →
      ∀ r' : Resolver, r'.calls = r.calls →
        AgreeAmong (FieldsReach record fields) r.chain r'.chain →
          ∃ after, r'.walkOnto? record depth schema fields = some (out.1, after) ∧
            after.calls = out.2.calls := by
  apply run_induction
  case primitive => exact fun depth r name r' hcalls _ => ⟨r', convert?_primitive name, hcalls⟩
  case string => exact fun depth r length r' hcalls _ => ⟨r', convert?_string length, hcalls⟩
  case unknown => exact fun depth r tag r' hcalls _ => ⟨r', convert?_unknown tag, hcalls⟩
  case sequence =>
    intro depth r element extent items after _ ih r' hcalls hagree
    obtain ⟨after', hrun, hafter⟩ :=
      ih r' hcalls (hagree.mono fun name hname => .element extent hname)
    exact ⟨after', convert?_sequence_eq_some.mpr ⟨items, after', hrun, rfl⟩, hafter⟩
  case cycle =>
    intro depth r name hn r' hcalls hagree
    exact ⟨r', convert?_record_of_mem ((hagree name (.reference name)).mp hn), hcalls⟩
  case missing =>
    intro depth r name e hn he r' hcalls hagree
    have hn' : name ∉ r'.chain := fun hmem => hn ((hagree name (.reference name)).mpr hmem)
    exact ⟨r'.asked name, convert?_record_of_error hn' he, congrArg (· ++ _) hcalls⟩
  case found =>
    intro depth r name fields schema after hn hr _ ih r' hcalls hagree
    have hn' : name ∉ r'.chain := fun hmem => hn ((hagree name (.reference name)).mpr hmem)
    have hinner : AgreeAmong (FieldsReach record fields) (name :: r.chain) (name :: r'.chain) :=
      (hagree.mono fun inner hinner => hinner.reaches hr).cons name
    obtain ⟨after', hrun, hafter⟩ :=
      ih ((r'.asked name).enter name) (congrArg (· ++ _) hcalls) hinner
    exact ⟨after'.leave, (convert?_record_of_ok hn' hr).mpr
      ⟨depth, schema, after'.leave, rfl, walkRecord?_eq_some.mpr ⟨schema, after', hrun, rfl⟩, rfl⟩,
      hafter⟩
  case done => exact fun depth r schema r' hcalls _ => ⟨r', walkOnto?_nil schema, hcalls⟩
  case skip =>
    intro depth r schema field rest out hb ih r' hcalls hagree
    rw [walkOnto?_of_bookkeeping hb]
    exact ih r' hcalls (hagree.mono fun name hname => fieldsReach_cons_of_bookkeeping hb hname)
  case put =>
    intro depth r schema field rest node between out hb hnode ihNode _ ihRest r' hcalls hagree
    obtain ⟨between', hnode', hbetween⟩ := ihNode r' hcalls
      (hagree.mono fun name hname => (fieldsReach_cons_iff hb).mpr (.inl hname))
    -- Both chains are between the field and the rest what they were before the field.
    have hrest : AgreeAmong (FieldsReach record rest) between.chain between'.chain := by
      rw [chain_of_convert? hnode, chain_of_convert? hnode']
      exact hagree.mono fun name hname => (fieldsReach_cons_iff hb).mpr (.inr hname)
    obtain ⟨after', hrun, hafter⟩ := ihRest between' hbetween hrest
    exact ⟨after', (walkOnto?_cons_eq_some hb).mpr ⟨node, between', hnode', hrun⟩, hafter⟩

variable {chain chain' : List String}

/-- The node of a descriptor, below two chains that agree. -/
theorem convert?_of_agreeAmong {d : Descriptor} {node : Node}
    (h : (under chain).convert? record depth d = some (node, after))
    (hagree : AgreeAmong (d.Reaches record) chain chain') :
    ∃ after', (under chain').convert? record depth d = some (node, after') ∧
      after'.calls = after.calls :=
  (run_of_agreeAmong depth).1 _ _ _ h (under chain') rfl hagree

/-- The record schema of a field list, below two chains that agree. -/
theorem walk?_of_agreeAmong {fields : List Field} {schema : RecordSchema}
    (h : (under chain).walk? record depth fields = some (schema, after))
    (hagree : AgreeAmong (FieldsReach record fields) chain chain') :
    ∃ after', (under chain').walk? record depth fields = some (schema, after') ∧
      after'.calls = after.calls :=
  (run_of_agreeAmong depth).2 _ _ _ _ h (under chain') rfl hagree

/-- The record schema of the fields of a record, below two chains that agree. -/
theorem walkRecord?_of_agreeAmong {name : String} {fields : List Field} {schema : RecordSchema}
    (h : (under chain).walkRecord? record depth name fields = some (schema, after))
    (hagree : AgreeAmong (FieldsReach record fields) chain chain') :
    ∃ after', (under chain').walkRecord? record depth name fields = some (schema, after') ∧
      after'.calls = after.calls := by
  obtain ⟨schema, last, hwalk, he⟩ := walkRecord?_eq_some.mp h
  cases he
  obtain ⟨last', hwalk', hlast⟩ :=
    (run_of_agreeAmong depth).2 _ _ _ _ hwalk ((under chain').enter name) rfl (hagree.cons name)
  exact ⟨last'.leave, walkRecord?_eq_some.mpr ⟨schema, last', hwalk', rfl⟩, hlast⟩

end Resolver

/-! ### Expansion over a lookup -/

variable {lookup : Lookup} {chain chain' : List String}

theorem convert_eq_of_agreeAmong {d : Descriptor}
    (h : AgreeAmong (d.Reaches lookup.record) chain chain') :
    convert lookup chain' d = convert lookup chain d := by
  obtain ⟨depth, after, hrun, hcalls⟩ := exists_convert?_of_lookup lookup chain d
  obtain ⟨after', hrun', hafter⟩ := Resolver.convert?_of_agreeAmong hrun h
  rw [convert_eq_of_convert? hrun', hafter, ← hcalls]

theorem walk_eq_of_agreeAmong {fields : List Field}
    (h : AgreeAmong (FieldsReach lookup.record fields) chain chain') :
    walk lookup chain' fields = walk lookup chain fields := by
  obtain ⟨depth, after, hrun, hcalls⟩ := exists_walk?_of_lookup lookup chain fields
  obtain ⟨after', hrun', hafter⟩ := Resolver.walk?_of_agreeAmong hrun h
  rw [walk_eq_of_walk? hrun', hafter, ← hcalls]

theorem walkRecord_eq_of_agreeAmong {name : String} {fields : List Field}
    (h : AgreeAmong (FieldsReach lookup.record fields) chain chain') :
    walkRecord lookup chain' name fields = walkRecord lookup chain name fields := by
  obtain ⟨depth, after, hrun, hcalls⟩ := exists_walkRecord?_of_lookup lookup chain name fields
  obtain ⟨after', hrun', hafter⟩ := Resolver.walkRecord?_of_agreeAmong hrun h
  rw [walkRecord_eq_of_walkRecord? hrun', hafter, ← hcalls]

/-! ### A record inside other records -/

section

variable {depth : Nat} {name : String} {node : Node}

/-- A record from which no name on the chain is reached has the fields that it has on its own. -/
theorem ReferenceNode.eq_record (h : ReferenceNode lookup.record depth chain name node)
    (hfree : ∀ outer ∈ chain, ¬(Descriptor.record name).Reaches lookup.record outer)
    {fields : List Field} (hr : lookup.record name = .ok fields) :
    node = .record name (walkRecord lookup [] name fields).value := by
  have hn : name ∉ chain := fun hmem => hfree name hmem (.reference name)
  obtain ⟨found, schema, after, hfound, hwalk, rfl, -⟩ :=
    h.exists_walk (h.isExpanded_iff.mpr ⟨hn, fields, hr⟩)
  obtain rfl := Except.ok.inj (hr.symm.trans hfound)
  have hagree : AgreeAmong (FieldsReach lookup.record fields) chain [] :=
    .nil_of_notMem fun outer houter hreached => hfree outer houter (hreached.reaches hr)
  obtain ⟨after', hwalk', -⟩ := Resolver.walkRecord?_of_agreeAmong hwalk hagree
  rw [walkRecord_eq_of_walkRecord? hwalk']

/-- A record that cannot be looked up is named only. -/
theorem ReferenceNode.eq_named_of_error (h : ReferenceNode lookup.record depth chain name node)
    {e : LookupError} (hr : lookup.record name = .error e) : node = .named name := by
  refine h.eq_named fun hx => ?_
  obtain ⟨-, fields, hfields⟩ := h.isExpanded_iff.mp hx
  cases hr.symm.trans hfields

/-- What stands at a place where a record is referred to is made from that reference. -/
theorem exists_referenceNode {d : Descriptor} {place : Place}
    (hat : (convert lookup chain d).value.at? place = some node)
    (hd : d.below? lookup.record place = some (.record name)) :
    ∃ depth, ReferenceNode lookup.record depth
      ((convert lookup chain d).value.chainTo chain place) name node := by
  obtain ⟨depth, after, hrun, -⟩ := exists_convert?_of_lookup lookup chain d
  obtain ⟨d', hd', hmade⟩ :=
    (Resolver.madeFrom_at? depth).1 _ _ _ hrun depth depth.le_refl place node hat
  obtain rfl := Option.some.inj (hd.symm.trans hd')
  exact ⟨depth, hmade⟩

end

/-- **An expansion does not depend on its surroundings unless they recurse.** Take two chains that
have the same names among those that are reached from a descriptor or from a field list, whatever
else stands on them, in whatever order and however often. Over every source, to every depth, the
expansion comes to the same result below the one as below the other, after the same lookups in the
same order. Over a lookup, where it always comes to an end, the two expansions are equal.

So take a place in a node where a record is referred to, with `outer` any record that is expanded
around the place or was on the chain before. If none of them is reached from the record, then what
stands at the place is what the record comes to on its own: with the fields that it has as a record
that is looked up, and as a message that is resolved, or with none if it cannot be looked up. -/
theorem expansion_eq_of_agreeAmong :
    (∀ (record : RecordSource) (depth : Nat) (chain chain' : List String),
      (∀ d node after, (Resolver.under chain).convert? record depth d = some (node, after) →
        AgreeAmong (d.Reaches record) chain chain' →
          ∃ after', (Resolver.under chain').convert? record depth d = some (node, after') ∧
            after'.calls = after.calls) ∧
      (∀ fields schema after,
        (Resolver.under chain).walk? record depth fields = some (schema, after) →
          AgreeAmong (FieldsReach record fields) chain chain' →
            ∃ after', (Resolver.under chain').walk? record depth fields = some (schema, after') ∧
              after'.calls = after.calls) ∧
      ∀ name fields schema after,
        (Resolver.under chain).walkRecord? record depth name fields = some (schema, after) →
          AgreeAmong (FieldsReach record fields) chain chain' →
            ∃ after',
              (Resolver.under chain').walkRecord? record depth name fields
                = some (schema, after') ∧ after'.calls = after.calls) ∧
    (∀ (lookup : Lookup) (chain chain' : List String),
      (∀ d, AgreeAmong (d.Reaches lookup.record) chain chain' →
        convert lookup chain' d = convert lookup chain d) ∧
      ∀ fields, AgreeAmong (FieldsReach lookup.record fields) chain chain' →
        walk lookup chain' fields = walk lookup chain fields ∧
          ∀ name, walkRecord lookup chain' name fields = walkRecord lookup chain name fields) ∧
    ∀ (lookup : Lookup) (chain : List String) (d : Descriptor) (place : Place) (node : Node)
      (name : String), (convert lookup chain d).value.at? place = some node →
        d.below? lookup.record place = some (.record name) →
          (∀ outer ∈ (convert lookup chain d).value.chainTo chain place,
            ¬(Descriptor.record name).Reaches lookup.record outer) →
              (∀ fields, lookup.record name = .ok fields →
                ∃ schema, node = .record name schema ∧
                  (recordSchema lookup.toSource (walkRecord lookup []) name).value = .ok schema ∧
                  (Kind.classify? name = some .message →
                    (resolve lookup name).value = .ok ⟨name, .message schema⟩)) ∧
              ∀ e, lookup.record name = .error e → node = .named name := by
  refine ⟨fun record depth chain chain' => ⟨?_, ?_, ?_⟩, fun lookup chain chain' => ⟨?_, ?_⟩, ?_⟩
  · exact fun d node after hrun hagree => Resolver.convert?_of_agreeAmong hrun hagree
  · exact fun fields schema after hrun hagree => Resolver.walk?_of_agreeAmong hrun hagree
  · exact fun name fields schema after hrun hagree =>
      Resolver.walkRecord?_of_agreeAmong hrun hagree
  · exact fun d hagree => convert_eq_of_agreeAmong hagree
  · exact fun fields hagree =>
      ⟨walk_eq_of_agreeAmong hagree, fun name => walkRecord_eq_of_agreeAmong hagree⟩
  · intro lookup chain d place node name hat hd hfree
    obtain ⟨depth, hmade⟩ := exists_referenceNode hat hd
    refine ⟨fun fields hr => ?_, fun e he => hmade.eq_named_of_error he⟩
    have hexpansion : lookup.toSource.IsExpansion (walkRecord lookup []) name
        (walkRecord lookup [] name fields).value := ⟨fields, hr, rfl⟩
    refine ⟨_, hmade.eq_record hfree hr, Source.value_recordSchema_eq_ok_iff.mpr hexpansion, ?_⟩
    exact fun hkind => value_resolveWith_eq_ok_iff.mpr ⟨rfl, hkind, hexpansion⟩

/-! ### A record that refers to itself around another one -/

/-- A tree of pairs of points, in which only a field without data refers back to the tree. -/
def treeSource : RecordSource := fun name =>
  if name = "demo/msg/Tree" then
    .ok [⟨"pairs", .sequence (.record "demo/msg/Pair") .unbounded⟩,
      ⟨"next", .record "demo/msg/Tree"⟩]
  else if name = "demo/msg/Pair" then
    .ok [⟨"left", .record "demo/msg/Point"⟩, ⟨"_tree", .record "demo/msg/Tree"⟩]
  else if name = "demo/msg/Point" then .ok [⟨"x", .primitive "double"⟩]
  else .error (.notFound name)

/-- The lookup of these records. -/
def treeLookup : Lookup where
  record := treeSource
  service name := .error (.notFound name)
  action name := .error (.notFound name)
  finite := by
    refine ⟨["demo/msg/Tree", "demo/msg/Pair", "demo/msg/Point"], fun name fields hr => ?_⟩
    refine Decidable.byContradiction fun hn => ?_
    simp only [List.mem_cons, List.not_mem_nil, or_false, not_or] at hn
    rw [treeSource, if_neg hn.1, if_neg hn.2.1, if_neg hn.2.2] at hr
    cases hr

/-- The node of a pair, in which the tree is not named. -/
def pairNode : Node :=
  .record "demo/msg/Pair"
    ⟨[("left", .record "demo/msg/Point" ⟨[("x", .named "double")]⟩)]⟩

/-- A pair and a point are all that is met in a pair. -/
theorem eq_or_eq_of_reaches_pair {name : String}
    (h : (Descriptor.record "demo/msg/Pair").Reaches treeSource name) :
    name = "demo/msg/Pair" ∨ name = "demo/msg/Point" := by
  cases h with
  | reference => exact .inl rfl
  | field hr hf h =>
    cases hr
    obtain rfl := List.mem_singleton.mp hf
    cases h with
    | reference => exact .inr rfl
    | field hr hf h =>
      cases hr
      obtain rfl := List.mem_singleton.mp hf
      cases h

/-- The pair has the same fields in the tree, on its own, and below two other chains. -/
theorem convert_pair_in_tree :
    AgreeAmong ((Descriptor.record "demo/msg/Pair").Reaches treeLookup.record)
        ["demo/msg/Tree", "a", "a"] ["b"] ∧
      convert treeLookup ["b"] (.record "demo/msg/Pair")
        = convert treeLookup ["demo/msg/Tree", "a", "a"] (.record "demo/msg/Pair") ∧
      ∃ schema, (convert treeLookup [] (.record "demo/msg/Tree")).value.at?
          [.field "pairs", .items] = some (.record "demo/msg/Pair" schema) ∧
        (resolve treeLookup "demo/msg/Pair").value = .ok ⟨"demo/msg/Pair", .message schema⟩ ∧
        ∃ after, (Resolver.under ["b"]).convert? treeSource 2 (.record "demo/msg/Pair")
          = some (.record "demo/msg/Pair" schema, after) := by
  have hagree : AgreeAmong ((Descriptor.record "demo/msg/Pair").Reaches treeLookup.record)
      ["demo/msg/Tree", "a", "a"] ["b"] := by
    intro name hname
    rcases eq_or_eq_of_reaches_pair hname with rfl | rfl <;> decide
  obtain ⟨after, hrun⟩ : ∃ after,
      (Resolver.under []).convert? treeLookup.record 3 (.record "demo/msg/Tree")
        = some (.record "demo/msg/Tree" ⟨[("pairs", .array pairNode .unbounded),
            ("next", .named "demo/msg/Tree")]⟩, after) := ⟨_, rfl⟩
  have hvalue := congrArg Traced.value (convert_eq_of_convert? hrun)
  have hat : (convert treeLookup [] (.record "demo/msg/Tree")).value.at?
      [.field "pairs", .items] = some pairNode := by
    rw [hvalue]
    rfl
  have hfree : ∀ outer ∈ (convert treeLookup [] (.record "demo/msg/Tree")).value.chainTo []
      [.field "pairs", .items], ¬(Descriptor.record "demo/msg/Pair").Reaches treeSource outer := by
    rw [hvalue]
    intro outer houter hreached
    obtain rfl : outer = "demo/msg/Tree" := List.mem_singleton.mp houter
    exact absurd (eq_or_eq_of_reaches_pair hreached) (by decide)
  obtain ⟨hfound, -⟩ := expansion_eq_of_agreeAmong.2.2 treeLookup [] (.record "demo/msg/Tree")
    [.field "pairs", .items] pairNode "demo/msg/Pair" hat rfl hfree
  obtain ⟨schema, hnode, -, hresolve⟩ := hfound _ rfl
  obtain ⟨last, hpair⟩ : ∃ last, (Resolver.under ["demo/msg/Tree", "a", "a"]).convert? treeSource 2
      (.record "demo/msg/Pair") = some (pairNode, last) := ⟨_, rfl⟩
  obtain ⟨last', hpair', -⟩ := (expansion_eq_of_agreeAmong.1 _ _ _ _).1 _ _ _ hpair hagree
  rw [hnode] at hat hpair'
  exact ⟨hagree, (expansion_eq_of_agreeAmong.2.1 treeLookup _ _).1 _ hagree, schema, hat,
    hresolve (by decide), last', hpair'⟩

end RosInterface
