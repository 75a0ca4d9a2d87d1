/-!
# Declared types

A record is a list of fields, each with a *descriptor* of its declared type. A descriptor is one
level deep: a field that holds another record has only that record's name.

## Main definitions

* `Extent`: the size limit of an array or sequence.
* `Descriptor`: the declared type of a field.
* `Field`, `Record`: the fields of a record and the record.
* `Field.isBookkeeping`: the fields that hold no data.
-/

namespace RosInterface

/-- The size limit of an array or sequence. -/
inductive Extent where
  /-- Exactly `count` elements. -/
  | fixed (count : Nat)
  /-- At most `limit` elements. -/
  | bounded (limit : Nat)
  /-- Any number of elements. -/
  | unbounded
deriving DecidableEq

namespace Extent

/-- The element count of a fixed array. -/
def size? : Extent → Option Nat
  | fixed count => some count
  | _ => none

/-- The element limit of a bounded sequence. -/
def maxSize? : Extent → Option Nat
  | bounded limit => some limit
  | _ => none

end Extent

/-- The declared type of a field. -/
inductive Descriptor where
  /-- A number, a truth value, a byte or a character, under its canonical name. -/
  | primitive (name : String)
  /-- A string, with its greatest length if it has one. -/
  | string (maxLength : Option Nat)
  /-- An array or a sequence. -/
  | sequence (element : Descriptor) (extent : Extent)
  /-- A record, by its qualified name. -/
  | record (name : String)
  /-- A type outside the other cases, with a tag that says which. -/
  | unknown (tag : String)
deriving DecidableEq, Inhabited

/-- A field of a record. -/
structure Field where
  /-- The name of the field. -/
  name : String
  /-- The declared type of the field. -/
  descriptor : Descriptor
deriving DecidableEq

/-- The name of the member that stands in a structure which would have no member otherwise. -/
def emptyStructPlaceholder : String :=
  "structure_needs_at_least_one_member"

/-- A field that holds no data: its name begins with an underscore or is that of the placeholder
in an empty structure. -/
def Field.isBookkeeping (field : Field) : Bool :=
  ['_'].isPrefixOf field.name.toList || field.name == emptyStructPlaceholder

/-- A named record with its fields in the order of their declaration. -/
structure Record where
  /-- The qualified name of the record. -/
  name : String
  /-- The fields of the record. -/
  fields : List Field
deriving DecidableEq

end RosInterface
