import RosInterface.Install.Resolution

/-!
# Indexes with the reader of this library

The reader of message specifications of this library, in the place of the parameter of an index.

## Main definitions

* `Install.Index.lookup`: the index as a lookup.
* `Install.Index.givesUp`, `Install.Index.givesUpIn`: the lookups without an answer.
-/

namespace RosInterface.Install.Index

variable (index : Index) (files : Files)

/-- The index as a lookup. -/
def lookup : Lookup :=
  index.lookupWith Msg.reader files

/-- The lookup of a record has no answer. -/
def givesUp (name : String) : Bool :=
  !index.returns Msg.reader files (.record name)

/-- One of the lookups has no answer. -/
def givesUpIn (calls : List Call) : Bool :=
  !calls.all (index.returns Msg.reader files)

end RosInterface.Install.Index
