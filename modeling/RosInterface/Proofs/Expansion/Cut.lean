import RosInterface.Proofs.Expansion.Place

/-!
# Where the expansion of records stops

In the node of a record, what stands at a place is followed back to the descriptor that it was
made from. A record reference has its fields exactly when the record can be looked up and is not
already being described around it. So the expansion is cut at cycles and at failed lookups, and
nowhere else.

## Main definitions

* `ReferenceNode`: what a record reference becomes below a chain.
* `MadeFrom`: what a node says about the descriptor that it was made from.

## Main results

* `Resolver.madeFrom_at?`: every node in a result is made from the descriptor that it comes from,
  below the chain of the records expanded around it.
* `isExpanded_iff_notMem_chain`: the expansion is cut exactly at cycles and at failed lookups.
-/

namespace RosInterface

variable {record : RecordSource} {depth : Nat}

/-- The nodes that a reference to a record becomes below a chain. -/
inductive ReferenceNode (record : RecordSource) (depth : Nat) (chain : List String)
    (name : String) : Node → Prop
  /-- The record is described by its fields, with its name on the chain. -/
  | expanded {fields : List Field} {schema : RecordSchema} {after : Resolver}
      (hn : name ∉ chain) (hr : record name = .ok fields)
      (hw : (Resolver.under chain).walkRecord? record depth name fields = some (schema, after)) :
      ReferenceNode record depth chain name (.record name schema)
  /-- The record is named only. -/
  | cut (h : name ∈ chain ∨ ∃ e, record name = .error e) :
      ReferenceNode record depth chain name (.named name)

/-- A node is made from a descriptor below a chain. Of the types other than records it is only
said that they have no fields. -/
def MadeFrom (record : RecordSource) (depth : Nat) (chain : List String) :
    Descriptor → Node → Prop
  | .record name, node => ReferenceNode record depth chain name node
  | _, node => ¬node.IsExpanded

/-- Every node in the node of a descriptor comes from some descriptor and is made from it, below
the chain of the records expanded around it. -/
def Traceable (record : RecordSource) (depth : Nat) (chain : List String)
    (descriptor : Descriptor) (node : Node) : Prop :=
  ∀ place m, node.at? place = some m → ∃ d, descriptor.below? record place = some d ∧
    MadeFrom record depth (node.chainTo chain place) d m

/-- A node without anything below it is traceable if it is made from its descriptor. -/
theorem Traceable.of_leaf {chain : List String} {descriptor : Descriptor} {node : Node}
    (hchild : ∀ step, node.child? step = none) (h : MadeFrom record depth chain descriptor node) :
    Traceable record depth chain descriptor node := by
  intro place m hm
  cases place with
  | nil =>
    cases hm
    exact ⟨descriptor, Descriptor.below?_nil descriptor, h⟩
  | cons step rest =>
    obtain ⟨child, hc, -⟩ := Node.exists_child?_of_at?_cons hm
    rw [hchild step] at hc
    cases hc

/-- The items of a sequence are traceable below the same chain. -/
theorem Traceable.ofSequence {chain : List String} {element : Descriptor} {items : Node}
    (extent : Extent) (h : Traceable record depth chain element items) :
    Traceable record depth chain (.sequence element extent) (.array items extent) := by
  intro place m hm
  cases place with
  | nil =>
    cases hm
    exact ⟨_, Descriptor.below?_nil _, Node.not_isExpanded_array items extent⟩
  | cons step rest =>
    obtain ⟨child, hc, hrest⟩ := Node.exists_child?_of_at?_cons hm
    cases step with
    | items =>
      cases hc
      rw [Node.chainTo_cons rfl]
      exact h rest m hrest
    | field key => cases hc

/-- The nodes of a record's fields are traceable below the chain with the record on it. -/
theorem Traceable.ofRecord {chain : List String} {name : String} {fields : List Field}
    {schema : RecordSchema} (hr : record name = .ok fields)
    (hmade : ReferenceNode record depth chain name (.record name schema))
    (h : ∀ key node, schema.get? key = some node → ∃ field, lastField? fields key = some field ∧
      Traceable record depth (name :: chain) field.descriptor node) :
    Traceable record depth chain (.record name) (.record name schema) := by
  intro place m hm
  cases place with
  | nil =>
    cases hm
    exact ⟨_, Descriptor.below?_nil _, hmade⟩
  | cons step rest =>
    obtain ⟨child, hc, hrest⟩ := Node.exists_child?_of_at?_cons hm
    cases step with
    | items => cases hc
    | field key =>
      obtain ⟨field, hf, ht⟩ := h key child hc
      rw [Node.chainTo_cons hc, Descriptor.below?_field hr hf]
      exact ht rest m hrest

namespace Resolver

/-- **Every node of a result can be traced to its descriptor.** The chain of the resolver is the
chain of the records that are expanded around the place of a node. -/
theorem madeFrom_at? (depth : Nat) :
    (∀ (r : Resolver) d out, r.convert? record depth d = some out →
      ∀ top, depth ≤ top → Traceable record top r.chain d out.1) ∧
    ∀ (r : Resolver) schema fields out, r.walkOnto? record depth schema fields = some out →
      ∀ top, depth ≤ top → ∀ key node, out.1.get? key = some node →
        (∃ field, lastField? fields key = some field ∧
          Traceable record top r.chain field.descriptor node) ∨
        (lastField? fields key = none ∧ schema.get? key = some node) := by
  apply run_induction
  case primitive =>
    exact fun _ r name _ _ => .of_leaf (Node.child?_named name) (Node.not_isExpanded_named name)
  case string =>
    exact fun _ r maxLength _ _ =>
      .of_leaf (Node.child?_string maxLength) (Node.not_isExpanded_string maxLength)
  case unknown =>
    exact fun _ r tag _ _ => .of_leaf (Node.child?_named tag) (Node.not_isExpanded_named tag)
  case sequence =>
    exact fun _ r element extent items after _ ih top hle => (ih top hle).ofSequence extent
  case cycle =>
    exact fun _ r name hn _ _ => .of_leaf (Node.child?_named name) (.cut (.inl hn))
  case missing =>
    exact fun _ r name e _ hr _ _ => .of_leaf (Node.child?_named name) (.cut (.inr ⟨e, hr⟩))
  case found =>
    intro depth r name fields schema after hn hr hwalk ih top hle
    obtain ⟨calls, chains, hframe⟩ := (run_frame depth).2 _ _ _ _ hwalk
    have hw := walkRecord?_eq_some.mpr ⟨schema, _, hframe ((under r.chain).enter name) rfl, rfl⟩
    have htop := walkRecord?_mono hw top (Nat.le_of_succ_le hle)
    exact .ofRecord hr (.expanded hn hr htop) fun key node hkey =>
      exists_lastField?_of_empty (ih top (Nat.le_of_succ_le hle) key node hkey)
  case done =>
    exact fun _ r schema _ _ key node hkey => .inr ⟨rfl, hkey⟩
  case skip =>
    intro depth r schema field rest out hb ih top hle key node hkey
    rw [lastField?_cons_of_bookkeeping hb]
    exact ih top hle key node hkey
  case put =>
    intro depth r schema field rest node between out hb hnode ihNode _ ihRest top hle key m hkey
    have hchain : between.chain = r.chain := chain_of_convert? hnode
    rw [hchain] at ihRest
    exact exists_lastField?_cons (R := fun field node =>
      Traceable record top r.chain field.descriptor node) hb (ihNode top hle)
      (ihRest top hle key m hkey)

/-- A record schema has a node for every field that holds data, and for nothing else. -/
theorem isSome_get?_of_run (depth : Nat) :
    (∀ (r : Resolver) d out, r.convert? record depth d = some out → True) ∧
    ∀ (r : Resolver) schema fields out, r.walkOnto? record depth schema fields = some out →
      ∀ key, (out.1.get? key).isSome ↔
        (lastField? fields key).isSome ∨ (schema.get? key).isSome := by
  apply run_induction
  case done =>
    intro depth r schema key
    simp [lastField?]
  case skip =>
    intro depth r schema field rest out hb ih key
    rw [ih key, lastField?_cons_of_bookkeeping hb]
  case put =>
    intro depth r schema field rest node between out hb _ _ _ ih key
    rw [ih key, Table.get?_insert]
    by_cases he : field.name = key
    · subst he
      simp [lastField?_cons_self hb]
    · rw [lastField?_cons_of_ne he, if_neg fun h => he h.symm]
  all_goals
    intros
    trivial

theorem isSome_get?_of_walkRecord? {r : Resolver} {name : String} {fields : List Field}
    {schema : RecordSchema} {after : Resolver}
    (h : r.walkRecord? record depth name fields = some (schema, after)) (key : String) :
    (schema.get? key).isSome ↔ (lastField? fields key).isSome := by
  obtain ⟨schema', between, hwalk, he⟩ := walkRecord?_eq_some.mp h
  cases he
  have hkeys := (isSome_get?_of_run depth).2 _ _ _ _ hwalk key
  simpa [Table.empty, Table.get?] using hkeys

end Resolver

/-! ### Records that are expanded -/

namespace ReferenceNode

variable {chain : List String} {name : String} {node : Node}

/-- A reference is expanded exactly if its record is not on the chain and can be looked up. -/
theorem isExpanded_iff (h : ReferenceNode record depth chain name node) :
    node.IsExpanded ↔ name ∉ chain ∧ ∃ fields, record name = .ok fields := by
  cases h with
  | expanded hn hr _ => exact ⟨fun _ => ⟨hn, _, hr⟩, fun _ => Node.isExpanded_record name _⟩
  | cut h =>
    refine ⟨fun hx => absurd hx (Node.not_isExpanded_named name), ?_⟩
    rintro ⟨hn, fields, hr⟩
    rcases h with hm | ⟨e, he⟩
    · exact absurd hm hn
    · rw [hr] at he
      cases he

/-- What is expanded holds the walk of exactly the fields that were looked up, all of them. -/
theorem exists_walk (h : ReferenceNode record depth chain name node) (hx : node.IsExpanded) :
    ∃ fields schema after, record name = .ok fields ∧
      (Resolver.under chain).walkRecord? record depth name fields = some (schema, after) ∧
        node = .record name schema ∧
          ∀ key, (schema.get? key).isSome ↔ (lastField? fields key).isSome := by
  cases h with
  | expanded _ hr hw =>
    exact ⟨_, _, _, hr, hw, rfl, Resolver.isSome_get?_of_walkRecord? hw⟩
  | cut => exact absurd hx (Node.not_isExpanded_named name)

/-- What is not expanded is named only. -/
theorem eq_named (h : ReferenceNode record depth chain name node) (hx : ¬node.IsExpanded) :
    node = .named name := by
  cases h with
  | expanded => exact absurd (Node.isExpanded_record name _) hx
  | cut => rfl

theorem typeName_eq (h : ReferenceNode record depth chain name node) : node.typeName = name := by
  cases h <;> rfl

end ReferenceNode

/-- The name of an expanded node is not on the chain around it. -/
theorem MadeFrom.typeName_notMem {chain : List String} {d : Descriptor} {node : Node}
    (h : MadeFrom record depth chain d node) (hx : node.IsExpanded) : node.typeName ∉ chain := by
  cases d with
  | record name =>
    have href : ReferenceNode record depth chain name node := h
    rw [href.typeName_eq]
    exact (href.isExpanded_iff.mp hx).1
  | _ => exact absurd hx h

/-- The record of a fresh walk, as a node, is traceable to a reference to it. -/
theorem traceable_of_walkRecord? {name : String} {fields : List Field} {schema : RecordSchema}
    {after : Resolver} (hr : record name = .ok fields)
    (hrun : Resolver.fresh.walkRecord? record depth name fields = some (schema, after)) :
    Traceable record depth [] (.record name) (.record name schema) := by
  refine .ofRecord hr (.expanded List.not_mem_nil hr hrun) fun key node hkey => ?_
  obtain ⟨schema', between, hwalk, he⟩ := Resolver.walkRecord?_eq_some.mp hrun
  cases he
  have hnode := (Resolver.madeFrom_at? depth).2 _ _ _ _ hwalk depth depth.le_refl key node hkey
  exact exists_lastField?_of_empty hnode

/-- **The expansion is cut exactly at cycles and at failed lookups.** In the node of a record
whose fields have been walked, to whatever depth it took, take any place, with `chain` the names
of the records expanded around it. What stands there was made from a descriptor. If that is a
reference to a record, then

* the node has fields if and only if the record is not on the chain and can be looked up;
* its fields are then the walk of exactly the fields that were looked up, below the chain, with a
  node for each of them that holds data;
* otherwise the node has the name only;
* if the record can be looked up and the place is not inside an expansion of the same record, the
  node has its fields.

The chain has no name twice, and the name of a node that has fields is not on it: no record is
expanded twice on a way down, the outermost one included. -/
theorem isExpanded_iff_notMem_chain {name : String} {fields : List Field}
    {schema : RecordSchema} {after : Resolver} (hr : record name = .ok fields)
    (hrun : Resolver.fresh.walkRecord? record depth name fields = some (schema, after))
    {place : Place} {node : Node} (hat : (Node.record name schema).at? place = some node)
    {chain : List String} (hchain : chain = (Node.record name schema).chainTo [] place) :
    (∃ d, (Descriptor.record name).below? record place = some d ∧ ∀ inner, d = .record inner →
      (node.IsExpanded ↔ inner ∉ chain ∧ ∃ found, record inner = .ok found) ∧
      (node.IsExpanded → ∃ found nested later, record inner = .ok found ∧
        (Resolver.under chain).walkRecord? record depth inner found = some (nested, later) ∧
          node = .record inner nested ∧
            ∀ key, (nested.get? key).isSome ↔ (lastField? found key).isSome) ∧
      (¬node.IsExpanded → node = .named inner) ∧
      (∀ found, record inner = .ok found →
        (∀ outer rest m, place = outer ++ rest → rest ≠ [] →
          (Node.record name schema).at? outer = some m → m.IsExpanded → m.typeName ≠ inner) →
            node.IsExpanded)) ∧
    chain.Nodup ∧ (node.IsExpanded → node.typeName ∉ chain) := by
  have htrace := traceable_of_walkRecord? hr hrun
  have hnew : ∀ p m, (Node.record name schema).at? p = some m → m.IsExpanded →
      m.typeName ∉ (Node.record name schema).chainTo [] p := by
    intro p m hm hx
    obtain ⟨d, -, hmade⟩ := htrace p m hm
    exact hmade.typeName_notMem hx
  subst hchain
  refine ⟨?_, Node.nodup_chainTo place hnew List.nodup_nil hat, hnew place node hat⟩
  obtain ⟨d, hd, hmade⟩ := htrace place node hat
  refine ⟨d, hd, ?_⟩
  rintro inner rfl
  have href : ReferenceNode record depth _ inner node := hmade
  refine ⟨href.isExpanded_iff, href.exists_walk, href.eq_named, fun found hfound hfree => ?_⟩
  -- A name on the chain is that of an expanded record around the place.
  refine href.isExpanded_iff.mpr ⟨fun hmem => ?_, found, hfound⟩
  obtain ⟨outer, rest, m, hp, hne, hm, hx, ht⟩ :=
    Node.mem_chainTo place hmem List.not_mem_nil
  exact hfree outer rest m hp hne hm hx ht

/-! ### A loop -/

/-- Two records that refer to each other, the second also to one that is missing. -/
def loopSource : RecordSource := fun name =>
  if name = "a" then .ok [⟨"b", .sequence (.record "b") .unbounded⟩]
  else if name = "b" then .ok [⟨"back", .record "a"⟩, ⟨"gone", .record "c"⟩]
  else .error (.notFound name)

/-- The schema of the first record of the loop. -/
def loopSchema : RecordSchema :=
  ⟨[("b", .array (.record "b" ⟨[("back", .named "a"), ("gone", .named "c")]⟩) .unbounded)]⟩

/-- The way back to the first record of the loop is not followed. -/
theorem not_isExpanded_in_loop :
    (∃ fields after, loopSource "a" = .ok fields ∧
      Resolver.fresh.walkRecord? loopSource 1 "a" fields = some (loopSchema, after)) ∧
    (Node.record "a" loopSchema).at? [.field "b", .items, .field "back"] = some (.named "a") ∧
    ((Node.named "a").IsExpanded ↔
      "a" ∉ ["b", "a"] ∧ ∃ found, loopSource "a" = .ok found) ∧
    ["b", "a"].Nodup := by
  obtain ⟨after, hrun⟩ : ∃ after, Resolver.fresh.walkRecord? loopSource 1 "a"
      [⟨"b", .sequence (.record "b") .unbounded⟩] = some (loopSchema, after) := ⟨_, rfl⟩
  have hat : (Node.record "a" loopSchema).at? [.field "b", .items, .field "back"]
      = some (.named "a") := rfl
  have hr : loopSource "a" = .ok [⟨"b", .sequence (.record "b") .unbounded⟩] := rfl
  obtain ⟨⟨d, hd, hcut⟩, hnodup, -⟩ := isExpanded_iff_notMem_chain hr hrun hat rfl
  have hda : d = .record "a" := (Option.some.inj hd).symm
  exact ⟨⟨_, after, hr, hrun⟩, hat, (hcut "a" hda).1, hnodup⟩

end RosInterface
