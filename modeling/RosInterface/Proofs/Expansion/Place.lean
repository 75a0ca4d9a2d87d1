import RosInterface.Schema.Resolver

/-!
# Places in a node

A *place* is a way down from a node, into the items of a sequence or to a field of a record. What
stands at a place of a node was made from a descriptor: the one reached by following the place
through the declared types, where a record reference is followed into the fields that were looked
up for it. On the way down the names of the expanded records are collected, the innermost first,
in the form in which a resolver keeps its chain.

## Main definitions

* `Step`, `Place`, `Node.at?`: places, and what stands there.
* `Node.chainTo`: the records that are expanded around a place.
* `lastField?`, `Descriptor.below?`: the descriptor that the node at a place comes from.

## Main results

* `Node.mem_chainTo`: a name that is collected on the way is that of an expanded record there.
* `Node.nodup_chainTo`: when no record is expanded inside its own expansion, no name is collected
  twice.
* `exists_lastField?_cons`, `exists_lastField?_of_empty`: how a field in front, and starting with
  nothing, bear on which field a node in a walked schema comes from.
-/

namespace RosInterface

/-- A step down from a node. -/
inductive Step where
  /-- Into the items of an array or a sequence. -/
  | items
  /-- To a field of a record. -/
  | field (name : String)
deriving DecidableEq

/-- A way down from a node. -/
abbrev Place :=
  List Step

namespace Node

/-- The node one step down. -/
def child? (node : Node) : Step → Option Node
  | .items => node.items
  | .field name => node.fields.bind fun fields => fields.get? name

/-- The node at a place. -/
def at? : Node → Place → Option Node
  | node, [] => some node
  | node, step :: rest => (node.child? step).bind fun child => child.at? rest

/-- The names of the records that are expanded on the way to a place, put on a chain one after the
other. The node at the place itself does not count. -/
def chainTo (chain : List String) : Node → Place → List String
  | _, [] => chain
  | node, step :: rest =>
    match node.child? step with
    | none => chain
    | some child =>
      chainTo (if node.fields.isSome then node.typeName :: chain else chain) child rest

/-- The node is one of a record with its fields. -/
def IsExpanded (node : Node) : Prop :=
  node.fields.isSome = true

@[simp] theorem at?_nil (node : Node) : node.at? [] = some node :=
  rfl

theorem at?_cons {node child : Node} {step : Step} (h : node.child? step = some child)
    (rest : Place) : node.at? (step :: rest) = child.at? rest := by
  rw [at?, h]
  rfl

theorem exists_child?_of_at?_cons {node m : Node} {step : Step} {rest : Place}
    (h : node.at? (step :: rest) = some m) :
    ∃ child, node.child? step = some child ∧ child.at? rest = some m :=
  Option.bind_eq_some_iff.mp h

@[simp] theorem chainTo_nil (chain : List String) (node : Node) : chainTo chain node [] = chain :=
  rfl

theorem chainTo_cons {node child : Node} {step : Step} (h : node.child? step = some child)
    (chain : List String) (rest : Place) :
    chainTo chain node (step :: rest) =
      chainTo (if node.fields.isSome then node.typeName :: chain else chain) child rest := by
  rw [chainTo, h]

/-- A name that is collected on the way to a place, if it was not on the chain before, is the name
of an expanded record on the way. -/
theorem mem_chainTo {name : String} (place : Place) : ∀ {chain : List String} {node : Node},
    name ∈ chainTo chain node place → name ∉ chain →
      ∃ (outer inner : Place) (m : Node), place = outer ++ inner ∧ inner ≠ [] ∧
        node.at? outer = some m ∧ m.IsExpanded ∧ m.typeName = name := by
  induction place with
  | nil => exact fun hm hn => absurd hm hn
  | cons step rest ih =>
    intro chain node hm hn
    cases hc : node.child? step with
    | none =>
      rw [chainTo, hc] at hm
      exact absurd hm hn
    | some child =>
      rw [chainTo_cons hc] at hm
      by_cases hnode : node.fields.isSome = true ∧ node.typeName = name
      · exact ⟨[], step :: rest, node, rfl, by simp, rfl, hnode.1, hnode.2⟩
      · have hn' : name ∉ if node.fields.isSome then node.typeName :: chain else chain := by
          split
          · rename_i he
            rw [List.mem_cons, not_or]
            exact ⟨fun heq => hnode ⟨he, heq.symm⟩, hn⟩
          · exact hn
        obtain ⟨outer, inner, m, rfl, hi, ha, hx, ht⟩ := ih hm hn'
        exact ⟨step :: outer, inner, m, rfl, hi, (at?_cons hc outer).trans ha, hx, ht⟩

/-- If no expanded record below a node is on the chain around it, the chain to a place lists no
name twice. -/
theorem nodup_chainTo (place : Place) : ∀ {chain : List String} {node m : Node},
    (∀ p m, node.at? p = some m → m.IsExpanded → m.typeName ∉ chainTo chain node p) →
      chain.Nodup → node.at? place = some m → (chainTo chain node place).Nodup := by
  induction place with
  | nil => exact fun _ hchain _ => hchain
  | cons step rest ih =>
    intro chain node m hnew hchain hm
    obtain ⟨child, hc, hrest⟩ := exists_child?_of_at?_cons hm
    rw [chainTo_cons hc]
    refine ih (fun p m' hp hx => ?_) ?_ hrest
    · have hstep := hnew (step :: p) m' ((at?_cons hc p).trans hp) hx
      rwa [chainTo_cons hc] at hstep
    · split
      · rename_i he
        exact List.nodup_cons.mpr ⟨hnew [] node rfl he, hchain⟩
      · exact hchain

/-! ### The nodes in use -/

theorem child?_named (name : String) (step : Step) : (named name).child? step = none := by
  cases step <;> rfl

theorem child?_string (maxLength : Option Nat) (step : Step) :
    (string maxLength).child? step = none := by
  cases step <;> rfl

theorem not_isExpanded_named (name : String) : ¬(named name).IsExpanded := by
  simp [IsExpanded, named]

theorem not_isExpanded_string (maxLength : Option Nat) : ¬(string maxLength).IsExpanded := by
  simp [IsExpanded, string]

theorem not_isExpanded_array (items : Node) (extent : Extent) :
    ¬(array items extent).IsExpanded := by
  simp [IsExpanded, array]

theorem isExpanded_record (name : String) (fields : RecordSchema) :
    (record name fields).IsExpanded :=
  rfl

end Node

/-! ### Where a node comes from -/

/-- The field that a record schema describes under a name: the last one of that name that holds
data. -/
def lastField? (fields : List Field) (name : String) : Option Field :=
  (fields.filter fun field => !field.isBookkeeping && field.name == name).getLast?

theorem lastField?_cons_of_bookkeeping {field : Field} (h : field.isBookkeeping = true)
    (rest : List Field) (name : String) :
    lastField? (field :: rest) name = lastField? rest name := by
  rw [lastField?, List.filter_cons_of_neg (by simp [h]), lastField?]

theorem lastField?_cons_of_ne {field : Field} {name : String} (h : field.name ≠ name)
    (rest : List Field) : lastField? (field :: rest) name = lastField? rest name := by
  rw [lastField?, List.filter_cons_of_neg (by simp [h]), lastField?]

theorem lastField?_cons_self {field : Field} (h : field.isBookkeeping = false)
    (rest : List Field) :
    lastField? (field :: rest) field.name = some ((lastField? rest field.name).getD field) := by
  rw [lastField?, List.filter_cons_of_pos (by simp [h]), List.getLast?_cons, lastField?]

/-- Where a field with data is inserted before others are walked, its node stands under its name
until a later field replaces it. So if the nodes of the later fields are related to these fields,
and the inserted node to its field, every node is related to the last field of its name. -/
theorem exists_lastField?_cons {R : Field → Node → Prop} {schema : RecordSchema} {field : Field}
    {rest : List Field} {node m : Node} {key : String} (hb : field.isBookkeeping = false)
    (hnode : R field node)
    (h : (∃ later, lastField? rest key = some later ∧ R later m) ∨
      (lastField? rest key = none ∧ (Table.insert schema field.name node).get? key = some m)) :
    (∃ last, lastField? (field :: rest) key = some last ∧ R last m) ∨
      (lastField? (field :: rest) key = none ∧ schema.get? key = some m) := by
  by_cases he : field.name = key
  · subst he
    rw [lastField?_cons_self hb]
    rcases h with ⟨later, hl, hm⟩ | ⟨hl, hm⟩
    · exact .inl ⟨later, by rw [hl]; rfl, hm⟩
    · rw [Table.get?_insert, if_pos rfl] at hm
      cases hm
      exact .inl ⟨field, by rw [hl]; rfl, hnode⟩
  · rw [lastField?_cons_of_ne he]
    rcases h with hl | ⟨hl, hm⟩
    · exact .inl hl
    · rw [Table.get?_insert, if_neg (fun h => he h.symm)] at hm
      exact .inr ⟨hl, hm⟩

/-- Where a walk starts with nothing, every node is related to the last field of its name. -/
theorem exists_lastField?_of_empty {R : Field → Node → Prop} {fields : List Field} {node : Node}
    {key : String}
    (h : (∃ last, lastField? fields key = some last ∧ R last node) ∨
      (lastField? fields key = none ∧ (Table.empty : RecordSchema).get? key = some node)) :
    ∃ last, lastField? fields key = some last ∧ R last node := by
  rcases h with hlast | ⟨-, hempty⟩
  · exact hlast
  · cases hempty

/-- The descriptor from which a node at a place below a descriptor's node is made. -/
def Descriptor.below? (record : RecordSource) : Descriptor → Place → Option Descriptor
  | descriptor, [] => some descriptor
  | .sequence element _, .items :: rest => element.below? record rest
  | .record name, .field key :: rest =>
    match record name with
    | .error _ => none
    | .ok fields =>
      (lastField? fields key).bind fun field => field.descriptor.below? record rest
  | _, _ :: _ => none

namespace Descriptor

variable {record : RecordSource}

@[simp] theorem below?_nil (descriptor : Descriptor) :
    descriptor.below? record [] = some descriptor := by
  cases descriptor <;> rfl

theorem below?_field {name key : String} {fields : List Field} {field : Field}
    (h : record name = .ok fields) (hf : lastField? fields key = some field) (rest : Place) :
    (Descriptor.record name).below? record (.field key :: rest) =
      field.descriptor.below? record rest := by
  rw [below?, h]
  simp only [hf]
  rfl

end Descriptor

end RosInterface
