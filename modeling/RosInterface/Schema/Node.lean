import RosInterface.Table
import RosInterface.Json
import RosInterface.Descriptor

/-!
# Schema nodes

A *schema node* describes one type in full. It has a type name and, depending on the type, a
greatest length, a node for the items with their number or greatest number, or the nodes of a
record's fields. A *record schema* is the table of these nodes under the names of the fields.

A node is written as a JSON object with the members `type`, `max_length`, `items`, `size`,
`max_size` and `fields`, in this order and without those that it does not have.

## Main definitions

* `Node`, `RecordSchema`: nodes and tables of nodes.
* `Node.named`, `Node.string`, `Node.array`, `Node.record`: the shapes of node in use.
* `Node.json`, `RecordSchema.json`: the documents that they are written as.
-/

namespace RosInterface

/-- The description of a type. -/
structure Node where
  /-- The name of the type. -/
  typeName : String
  /-- The greatest length of a string. -/
  maxLength : Option Nat := none
  /-- The description of the elements of an array or sequence. -/
  items : Option Node := none
  /-- The number of elements of an array. -/
  size : Option Nat := none
  /-- The greatest number of elements of a sequence. -/
  maxSize : Option Nat := none
  /-- The descriptions of the fields of a record. -/
  fields : Option (Table String Node) := none

/-- The descriptions of a record's fields. -/
abbrev RecordSchema :=
  Table String Node

namespace Node

/-- A type of which only the name is known. -/
def named (typeName : String) : Node :=
  { typeName }

instance : Inhabited Node :=
  ⟨named ""⟩

/-- A string, with its greatest length if it has one. -/
def string (maxLength : Option Nat) : Node :=
  { typeName := "string", maxLength }

/-- An array or a sequence of the given items. -/
def array (items : Node) (extent : Extent) : Node :=
  { typeName := "array", items := some items, size := extent.size?, maxSize := extent.maxSize? }

/-- A record with the descriptions of its fields. -/
def record (typeName : String) (fields : RecordSchema) : Node :=
  { typeName, fields := some fields }

/-- The member of an object for a number that may be absent. -/
def numberMember (key : String) : Option Nat → List (String × Json)
  | none => []
  | some value => [(key, .number value)]

mutual

/-- The document of a node. -/
def json : Node → Json
  | ⟨typeName, maxLength, items, size, maxSize, fields⟩ =>
    .object (("type", .string typeName) :: (numberMember "max_length" maxLength
      ++ itemsMember items ++ numberMember "size" size ++ numberMember "max_size" maxSize
      ++ fieldsMember fields))

/-- The member of an object for the description of the items, if there is one. -/
def itemsMember : Option Node → List (String × Json)
  | none => []
  | some items => [("items", items.json)]

/-- The member of an object for the descriptions of the fields, if there are any. -/
def fieldsMember : Option (Table String Node) → List (String × Json)
  | none => []
  | some fields => [("fields", tableJson fields)]

/-- The document of a table of nodes: an object with a member for each of them. -/
def tableJson : Table String Node → Json
  | ⟨entries⟩ => .object (entryMembers entries)

/-- The members of an object for named nodes. -/
def entryMembers : List (String × Node) → List (String × Json)
  | [] => []
  | (name, node) :: rest => (name, node.json) :: entryMembers rest

end

end Node

/-- The document of a record schema. -/
def RecordSchema.json (schema : RecordSchema) : Json :=
  Node.tableJson schema

end RosInterface
