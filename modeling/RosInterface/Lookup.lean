import RosInterface.Kind
import RosInterface.Descriptor
import RosInterface.Table

/-!
# Lookups

A *source* answers which fields a record has and which records a service or an action is made of.
A *lookup* is a source that knows the fields of finitely many records only, which is why the
expansion of nested records ends (`Schema.Expansion`).

## Main definitions

* `LookupError`: why a name could not be looked up.
* `Source`, `Lookup`: what answers the questions.
* `Lookup.recordsOnly`: a lookup whose services and actions follow the naming convention.
* `Lookup.withFaults`: a lookup that fails for given names.
-/

namespace RosInterface

/-- Why a name could not be looked up. -/
inductive LookupError where
  /-- There is no definition of the name. -/
  | notFound (name : String)
  /-- There is a definition of the name, but it cannot be used for the given reason. -/
  | unavailable (name : String) (reason : String)
deriving DecidableEq

namespace LookupError

/-- The name that was looked up. -/
def name : LookupError → String
  | notFound name => name
  | unavailable name _ => name

/-- The text that tells a user about the error. -/
def message : LookupError → String
  | notFound name => "interface type '" ++ name ++ "' not found"
  | unavailable name reason =>
    "failed to load interface type '" ++ name ++ "': " ++ reason

end LookupError

/-- A source of definitions. -/
structure Source where
  /-- The fields of the record of a name. -/
  record : String → Except LookupError (List Field)
  /-- The names of the records of a service. -/
  service : String → Except LookupError (ServiceParts String)
  /-- The names of the records of an action. -/
  action : String → Except LookupError (ActionParts String)

/-- A source of definitions of finitely many records. -/
structure Lookup extends Source where
  /-- Only finitely many names are names of records. -/
  finite : ∃ names : List String, ∀ name fields, record name = .ok fields → name ∈ names

namespace Lookup

/-- The lookup with the records of another one. The records of a service or of an action are named
by the convention, whether they exist or not. -/
def recordsOnly (lookup : Lookup) : Lookup where
  record := lookup.record
  service name := .ok (ServiceParts.names name)
  action name := .ok (ActionParts.names name)
  finite := lookup.finite

/-- Fails with the reason given for the name in a table, and does otherwise what is asked. -/
def orFault {α : Type} (faults : Table String String) (name : String)
    (answer : Except LookupError α) : Except LookupError α :=
  match faults.get? name with
  | some reason => .error (.unavailable name reason)
  | none => answer

theorem eq_ok_of_orFault {α : Type} {faults : Table String String} {name : String}
    {answer : Except LookupError α} {value : α} (h : orFault faults name answer = .ok value) :
    answer = .ok value := by
  rw [orFault] at h
  split at h
  · cases h
  · exact h

/-- The lookup that fails for the names in a table, with the reasons given there. -/
def withFaults (lookup : Lookup) (faults : Table String String) : Lookup where
  record name := orFault faults name (lookup.record name)
  service name := orFault faults name (lookup.service name)
  action name := orFault faults name (lookup.action name)
  finite := by
    obtain ⟨names, h⟩ := lookup.finite
    exact ⟨names, fun name fields hf => h name fields (eq_ok_of_orFault hf)⟩

end Lookup

end RosInterface
