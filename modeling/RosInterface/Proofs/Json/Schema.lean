import Mathlib.Logic.Function.Basic
import Mathlib.Tactic.SplitIfs
import RosInterface.Schema.Interface
import RosInterface.Proofs.Json.Reading

/-!
# Schemas are determined by their text

A schema can be read back from the text that it is written as. By unique reading the text
determines the document, and the document determines the schema: each part of a node stands under a
key of its own, and a key is left out exactly if the node does not have the part.

The names of a record's fields are arbitrary, so a record schema may well have fields `type` and
`fields`, like a node, or `request` and `response`, like a service. It is told from them by the
kinds of the values. Under the key `type` a node has a string and a record schema has an object;
and every value of a record schema is the document of a node, which is never that of a record
schema.

## Main definitions

* `Json.member?`: the value under a key of an object.
* `Json.Decodes`: a function that finds the value that a text was written for.

## Main results

* `Node.member?_json`: what stands under the keys of a node.
* `RecordSchema.member?_json`: what stands under the keys of a record schema.
* `Node.json_inj`, `RecordSchema.json_inj`: the document determines nodes and record schemas.
* `Node.json_ne_recordSchema_json`: a node and a record schema are never written alike.
* `InterfaceSchema.json_inj`: the document determines schemas of interfaces, also across kinds.
* `schema_text_injective`: so does the text.
-/

namespace RosInterface

/-- The value under a key of an object. -/
def Json.member? (key : String) : Json → Option Json
  | object members => members.lookup key
  | _ => none

theorem Json.number_injective : Function.Injective Json.number :=
  fun _ _ => Json.number.inj

/-! ### The members of nodes and record schemas -/

namespace Node

variable (key : String)

/-- The step of a lookup, as a choice by the equality of the keys. -/
theorem lookup_cons {α : Type} (key' : String) (value : α) (entries : List (String × α)) :
    ((key', value) :: entries).lookup key =
      if key = key' then some value else entries.lookup key := by
  by_cases h : key = key'
  · simp [h]
  · simp [List.lookup_cons, beq_false_of_ne h, h]

theorem lookup_numberMember (key' : String) (value : Option Nat) :
    (numberMember key' value).lookup key = if key = key' then value.map Json.number else none := by
  cases value <;> simp [numberMember, lookup_cons]

theorem lookup_itemsMember (items : Option Node) :
    (itemsMember items).lookup key = if key = "items" then items.map json else none := by
  cases items <;> simp [itemsMember, lookup_cons]

theorem lookup_fieldsMember (fields : Option RecordSchema) :
    (fieldsMember fields).lookup key =
      if key = "fields" then fields.map RecordSchema.json else none := by
  cases fields <;> simp [fieldsMember, lookup_cons, RecordSchema.json]

/-- What stands under the keys of a node. -/
theorem member?_json (node : Node) : node.json.member? key =
    if key = "type" then some (.string node.typeName)
    else if key = "max_length" then node.maxLength.map Json.number
    else if key = "items" then node.items.map json
    else if key = "size" then node.size.map Json.number
    else if key = "max_size" then node.maxSize.map Json.number
    else if key = "fields" then node.fields.map RecordSchema.json
    else none := by
  cases node
  simp only [json, Json.member?, lookup_cons, List.lookup_append, lookup_numberMember,
    lookup_itemsMember, lookup_fieldsMember]
  split_ifs <;> simp_all

theorem lookup_entryMembers (entries : List (String × Node)) :
    (entryMembers entries).lookup key = (entries.lookup key).map json := by
  induction entries with
  | nil => rfl
  | cons entry rest ih =>
    obtain ⟨name, node⟩ := entry
    rw [entryMembers, lookup_cons, lookup_cons, ih]
    split <;> rfl

end Node

/-- What stands under the keys of a record schema. -/
theorem RecordSchema.member?_json (key : String) (schema : RecordSchema) :
    schema.json.member? key = (schema.entries.lookup key).map Node.json := by
  cases schema
  exact Node.lookup_entryMembers key _

/-! ### The document determines the schema -/

namespace Node

mutual

/-- The document of a node determines the node. -/
theorem json_inj : ∀ {a b : Node}, a.json = b.json → a = b
  | ⟨typeName, maxLength, items, size, maxSize, fields⟩,
    ⟨typeName', maxLength', items', size', maxSize', fields'⟩, h => by
    -- Both nodes have the same value, or none, under each key, and so the same part.
    have hmember (key : String) := congrArg (Json.member? key) h
    simp only [member?_json] at hmember
    have htypeName : typeName = typeName' := by simpa using hmember "type"
    have hmaxLength : maxLength = maxLength' :=
      Option.map_injective Json.number_injective (by simpa using hmember "max_length")
    have hitems : items = items' := items_json_inj (by simpa using hmember "items")
    have hsize : size = size' :=
      Option.map_injective Json.number_injective (by simpa using hmember "size")
    have hmaxSize : maxSize = maxSize' :=
      Option.map_injective Json.number_injective (by simpa using hmember "max_size")
    have hfields : fields = fields' := fields_json_inj (by simpa using hmember "fields")
    rw [htypeName, hmaxLength, hitems, hsize, hmaxSize, hfields]

theorem items_json_inj : ∀ {a b : Option Node}, a.map json = b.map json → a = b
  | none, none, _ => rfl
  | some a, some b, h => congrArg some (json_inj (Option.some.inj h))

theorem fields_json_inj :
    ∀ {a b : Option RecordSchema}, a.map RecordSchema.json = b.map RecordSchema.json → a = b
  | none, none, _ => rfl
  | some a, some b, h => congrArg some (tableJson_inj (Option.some.inj h))

theorem tableJson_inj : ∀ {a b : Table String Node}, tableJson a = tableJson b → a = b
  | ⟨entries⟩, ⟨entries'⟩, h => congrArg Table.mk (entryMembers_inj (Json.object.inj h))

theorem entryMembers_inj :
    ∀ {a b : List (String × Node)}, entryMembers a = entryMembers b → a = b
  | [], [], _ => rfl
  | [], (name, node) :: rest, h => by simp [entryMembers] at h
  | (name, node) :: rest, [], h => by simp [entryMembers] at h
  | (name, node) :: rest, (name', node') :: rest', h => by
    obtain ⟨hentry, hrest⟩ := List.cons.inj h
    obtain ⟨hname, hnode⟩ := Prod.mk.inj hentry
    rw [hname, json_inj hnode, entryMembers_inj hrest]

end

end Node

/-- The document of a record schema determines the schema. -/
theorem RecordSchema.json_inj {a b : RecordSchema} (h : a.json = b.json) : a = b :=
  Node.tableJson_inj h

/-! ### Record schemas are told from nodes, services and actions -/

/-- A node and a record schema are never written alike: under the key `type` one of them has a
string and the other one an object. -/
theorem Node.json_ne_recordSchema_json (node : Node) (schema : RecordSchema) :
    node.json ≠ schema.json := by
  intro h
  have htype : some (Json.string node.typeName) = (schema.entries.lookup "type").map Node.json := by
    rw [← RecordSchema.member?_json, ← h, Node.member?_json, if_pos rfl]
  obtain ⟨field, -, hfield⟩ := Option.map_eq_some_iff.mp htype.symm
  cases field
  simp [Node.json] at hfield

/-- The document of a record schema has the document of a record schema under no key. -/
theorem RecordSchema.member?_json_ne_json (key : String) (schema part : RecordSchema) :
    schema.json.member? key ≠ some part.json := by
  rw [RecordSchema.member?_json]
  intro h
  obtain ⟨field, -, hfield⟩ := Option.map_eq_some_iff.mp h
  exact field.json_ne_recordSchema_json part hfield

/-- A record schema is not written as an object whose first value is a record schema, as a service
and an action are. -/
theorem RecordSchema.json_ne_object (schema : RecordSchema) (key : String) (part : RecordSchema)
    (members : List (String × Json)) : schema.json ≠ .object ((key, part.json) :: members) := by
  intro h
  refine schema.member?_json_ne_json key part ?_
  rw [h, Json.member?, List.lookup_cons_self]

namespace InterfaceSchema

theorem json_service_ne_action (parts : ServiceParts RecordSchema)
    (parts' : ActionParts RecordSchema) : (service parts).json ≠ (action parts').json := by
  simp [json]

/-- The document of a schema determines the schema and its kind. -/
theorem json_inj {a b : InterfaceSchema} (h : a.json = b.json) : a = b := by
  cases a with
  | message record =>
    cases b with
    | message record' => exact congrArg message (RecordSchema.json_inj h)
    | service parts => exact absurd h (record.json_ne_object _ parts.request _)
    | action parts => exact absurd h (record.json_ne_object _ parts.goal _)
  | service parts =>
    cases b with
    | message record => exact absurd h.symm (record.json_ne_object _ parts.request _)
    | service parts' =>
      obtain ⟨request, response⟩ := parts
      obtain ⟨request', response'⟩ := parts'
      simp only [json, Json.object.injEq, List.cons.injEq, Prod.mk.injEq, true_and, and_true] at h
      rw [RecordSchema.json_inj h.1, RecordSchema.json_inj h.2]
    | action parts' => exact absurd h (json_service_ne_action parts parts')
  | action parts =>
    cases b with
    | message record => exact absurd h.symm (record.json_ne_object _ parts.goal _)
    | service parts' => exact absurd h.symm (json_service_ne_action parts' parts)
    | action parts' =>
      obtain ⟨goal, result, feedback⟩ := parts
      obtain ⟨goal', result', feedback'⟩ := parts'
      simp only [json, Json.object.injEq, List.cons.injEq, Prod.mk.injEq, true_and, and_true] at h
      rw [RecordSchema.json_inj h.1, RecordSchema.json_inj h.2.1, RecordSchema.json_inj h.2.2]

end InterfaceSchema

/-! ### The text determines the schema -/

/-- A function finds the value that was written in its text, and none in any other text. -/
def Json.Decodes {α : Type} (decode : String → Option α) (write : α → Json) : Prop :=
  ∀ text value, decode text = some value ↔ (write value).text = text

/-- If the documents determine the values, so do their texts, and the texts can be decoded. -/
theorem Json.text_injective_and_decodes {α : Type} {write : α → Json}
    (h : ∀ {a b}, write a = write b → a = b) :
    Function.Injective (fun value => (write value).text) ∧
      ∃ decode, Json.Decodes decode write := by
  have htext : Function.Injective fun value => (write value).text := fun _ _ he => h (text_inj he)
  exact ⟨htext, Function.partialInv _, fun text value => htext.isPartialInv value text⟩

/-- **The text determines the schema.** Nodes, record schemas and schemas of interfaces that are
written as the same text are the same, whatever names, lengths and sizes they hold; so messages,
services and actions are never written alike. In other words there are decoders for them. -/
theorem schema_text_injective :
    (Function.Injective (fun node : Node => node.json.text) ∧
      ∃ decode, Json.Decodes decode Node.json) ∧
    (Function.Injective (fun schema : RecordSchema => schema.json.text) ∧
      ∃ decode, Json.Decodes decode RecordSchema.json) ∧
    (Function.Injective (fun schema : InterfaceSchema => schema.json.text) ∧
      ∃ decode, Json.Decodes decode InterfaceSchema.json) :=
  ⟨Json.text_injective_and_decodes Node.json_inj,
    Json.text_injective_and_decodes RecordSchema.json_inj,
    Json.text_injective_and_decodes InterfaceSchema.json_inj⟩

end RosInterface
