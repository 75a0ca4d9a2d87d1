import RosInterface.Registry

/-!
# Built-in records

The time and duration records are known even where no install prefix has their definitions, since
nearly all packages depend on them.

## Main definitions

* `Install.builtinRecords`, `Install.builtins`: the built-in records.
-/

namespace RosInterface.Install

/-- The record of a moment or a span of time: seconds and nanoseconds. -/
def timeRecord (name : String) : Record :=
  ⟨"builtin_interfaces/msg/" ++ name,
    [⟨"sec", .primitive "int32"⟩, ⟨"nanosec", .primitive "uint32"⟩]⟩

/-- The built-in records. -/
def builtinRecords : List Record :=
  ["Time", "Duration"].map timeRecord

/-- The built-in records as a registry. -/
def builtins : Registry :=
  .ofList builtinRecords

end RosInterface.Install
