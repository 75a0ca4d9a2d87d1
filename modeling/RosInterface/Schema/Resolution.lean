import RosInterface.Schema.Expansion
import RosInterface.Schema.Interface

/-!
# Resolution of interfaces

To *resolve* a name is to find the schema of the interface of that name. The interface itself must
be found: a record that the name stands for directly, or the records that a service or an action
is made of. What these refer to in turn never makes the resolution fail (`Schema.Expansion`).

## Main definitions

* `ResolutionError`: why a name could not be resolved.
* `interfaceOf`: the interface of a name, from what comes of the search for its schema.
* `recordSchema`: the schema of one record.
* `interfaceSchema`: the schema of an interface of a known kind.
* `resolveWith`: the interface of a name, with any way to expand fields.
* `resolve`: the interface of a name over a lookup.
-/

namespace RosInterface

/-- Why a name could not be resolved. -/
inductive ResolutionError where
  /-- The interface, or one of the records that it is made of, could not be looked up. -/
  | typeNotFound (typeName : String) (source : LookupError)
  /-- The name has no marker of a kind. -/
  | unrecognizedCategory (typeName : String)
deriving DecidableEq

namespace ResolutionError

/-- The name that was to be resolved. -/
def typeName : ResolutionError → String
  | typeNotFound typeName _ => typeName
  | unrecognizedCategory typeName => typeName

/-- The text that tells a user about the error. -/
def message : ResolutionError → String
  | typeNotFound typeName source =>
    "Failed to get schema for '" ++ typeName ++ "': " ++ source.message
  | unrecognizedCategory typeName =>
    "Unknown type category for '" ++ typeName
      ++ "'. Expected /msg/, /srv/, or /action/ in type name."

end ResolutionError

/-- The interface of a name, from what comes of the search for its schema. -/
def interfaceOf (name : String) :
    Except LookupError InterfaceSchema → Except ResolutionError ResolvedInterface
  | .error source => .error (.typeNotFound name source)
  | .ok schema => .ok ⟨name, schema⟩

section

variable (source : Source) (expand : String → List Field → Traced RecordSchema)

/-- The schema of the record of a name, which must be found. Its fields are expanded then. -/
def recordSchema (name : String) : Traced (Except LookupError RecordSchema) :=
  (Traced.ofCall (.record name) (source.record name)).bindOk fun fields =>
    (expand name fields).map .ok

/-- The schema of an interface, the records of which must be found, each before the next. -/
def interfaceSchema (name : String) : Kind → Traced (Except LookupError InterfaceSchema)
  | .message => (recordSchema source expand name).mapOk .message
  | .service =>
    (Traced.ofCall (.service name) (source.service name)).bindOk fun parts =>
      (recordSchema source expand parts.request).bindOk fun request =>
        (recordSchema source expand parts.response).mapOk fun response =>
          .service ⟨request, response⟩
  | .action =>
    (Traced.ofCall (.action name) (source.action name)).bindOk fun parts =>
      (recordSchema source expand parts.goal).bindOk fun goal =>
        (recordSchema source expand parts.result).bindOk fun result =>
          (recordSchema source expand parts.feedback).mapOk fun feedback =>
            .action ⟨goal, result, feedback⟩

/-- The interface of a name. A name without the marker of a kind takes no lookup. -/
def resolveWith (name : String) : Traced (Except ResolutionError ResolvedInterface) :=
  match Kind.classify? name with
  | none => .pure (.error (.unrecognizedCategory name))
  | some kind =>
    (interfaceSchema source expand name kind).map (interfaceOf name)

end

/-- The interface of a name over a lookup. The fields of each record that must be found are walked
with that record on the chain. -/
def resolve (lookup : Lookup) (name : String) :
    Traced (Except ResolutionError ResolvedInterface) :=
  resolveWith lookup.toSource (walkRecord lookup []) name

end RosInterface
