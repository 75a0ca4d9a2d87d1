import RosInterface.Kind
import RosInterface.Schema.Node

/-!
# Schemas of interfaces

The schema of a message is a record schema; that of a service or an action has one record schema
for each part. A *resolved interface* is a name with the schema of the interface of that name.

## Main definitions

* `InterfaceSchema`: the schema of an interface of any kind.
* `ResolvedInterface`: a name with its schema.
* `InterfaceSchema.json`, `ResolvedInterface.json`: the documents that they are written as.
-/

namespace RosInterface

/-- The schema of an interface. -/
inductive InterfaceSchema where
  /-- The schema of a message. -/
  | message (record : RecordSchema)
  /-- The schemas of the records of a service. -/
  | service (parts : ServiceParts RecordSchema)
  /-- The schemas of the records of an action. -/
  | action (parts : ActionParts RecordSchema)

namespace InterfaceSchema

/-- The kind of the interface that a schema describes. -/
def kind : InterfaceSchema → Kind
  | message _ => .message
  | service _ => .service
  | action _ => .action

/-- The document of a schema: an object of fields for a message, an object of parts otherwise. -/
def json : InterfaceSchema → Json
  | message record => record.json
  | service parts =>
    .object [("request", parts.request.json), ("response", parts.response.json)]
  | action parts =>
    .object [("goal", parts.goal.json), ("result", parts.result.json),
      ("feedback", parts.feedback.json)]

end InterfaceSchema

/-- An interface with its schema. -/
structure ResolvedInterface where
  /-- The name that was asked for. -/
  name : String
  /-- The schema of the interface. -/
  schema : InterfaceSchema

namespace ResolvedInterface

/-- The kind of the interface. -/
def kind (resolved : ResolvedInterface) : Kind :=
  resolved.schema.kind

/-- The document of a resolved interface. -/
def json (resolved : ResolvedInterface) : Json :=
  .object [("name", .string resolved.name), ("category", .string resolved.kind.segment),
    ("schema", resolved.schema.json)]

end ResolvedInterface

end RosInterface
