import RosInterface.Schema.Resolution
import RosInterface.Install.Index

/-!
# Resolution over an index

What is worked out over an index takes lookups, one after the other. One of them may have no answer,
as the reader of message specifications gives up at the file that was found. It is the last one
then, and nothing comes of the whole.

## Main definitions

* `Install.Index.returns`: a lookup has an answer.
* `Install.Index.outcome?`: what comes of a computation over an index.
* `Install.Index.resolve?`: what comes of the resolution of a name.
-/

namespace RosInterface.Install.Index

variable (index : Index) (read : Msg.Reader) (files : Files)

/-- The lookup has an answer, be it an error. Only records are read from files. -/
def returns : Call → Bool
  | .record name => (index.record? read files name).isSome
  | .service _ => true
  | .action _ => true

/-- What comes of a computation over the index: its value, if each of its lookups has an answer. -/
def outcome? {α : Type} (t : Traced α) : Option α :=
  if t.calls.all (index.returns read files) then some t.value else none

/-- The interface of a name, or the reason why it is not resolved. Nothing comes of the resolution
if the reader gives up at a file on the way. -/
def resolve? (name : String) : Option (Except ResolutionError ResolvedInterface) :=
  index.outcome? read files (resolve (index.lookupWith read files) name)

end RosInterface.Install.Index
