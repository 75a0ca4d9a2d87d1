import RosInterface.Schema.Resolution

/-!
# Caches of resolved interfaces

A *cache* keeps every interface that was resolved through it until it is cleared. Failures are not
kept. Each resolution that is kept has a serial number of its own, which tells whether two answers
are the same entry or were resolved anew in between.

## Main definitions

* `Cache`, `Cache.Entry`: kept interfaces.
* `Cache.get`: the interface of a name, kept or resolved.
* `Cache.clear`, `Cache.contains`, `Cache.size`.
-/

namespace RosInterface

/-- An interface that is kept. -/
structure Cache.Entry where
  /-- The number of the resolution that gave the interface. -/
  serial : Nat
  /-- The interface. -/
  resolved : ResolvedInterface

/-- Interfaces that are kept under their names. -/
structure Cache where
  /-- The entries that are kept. -/
  entries : Table String Cache.Entry
  /-- The serial number of the next entry. -/
  nextSerial : Nat

namespace Cache

/-- The cache without entries. -/
def empty : Cache :=
  ⟨Table.empty, 0⟩

/-- The name has an entry. -/
def contains (cache : Cache) (name : String) : Bool :=
  cache.entries.contains name

/-- The number of entries. -/
def size (cache : Cache) : Nat :=
  cache.entries.size

/-- Drops all entries. Their serial numbers are not used again. -/
def clear (cache : Cache) : Cache :=
  ⟨Table.empty, cache.nextSerial⟩

/-- Keeps an interface under a name. -/
def keep (cache : Cache) (name : String) (resolved : ResolvedInterface) : Entry × Cache :=
  let entry := ⟨cache.nextSerial, resolved⟩
  (entry, ⟨cache.entries.insert name entry, cache.nextSerial + 1⟩)

/-- The entry of a name, with the cache after the answer. A name without an entry is resolved, and
kept if that succeeds. -/
def get (cache : Cache) (lookup : Lookup) (name : String) :
    Traced (Except ResolutionError Entry × Cache) :=
  match cache.entries.get? name with
  | some entry => .pure (.ok entry, cache)
  | none =>
    (resolve lookup name).map fun
      | .error e => (.error e, cache)
      | .ok resolved =>
        let (entry, cache) := cache.keep name resolved
        (.ok entry, cache)

variable {cache : Cache} {lookup : Lookup} {name : String}

/-- A name with an entry takes no lookup. -/
theorem get_of_entry {entry : Entry} (h : cache.entries.get? name = some entry) :
    cache.get lookup name = .pure (.ok entry, cache) := by
  rw [get, h]

/-- A name that cannot be resolved leaves the cache as it is. -/
theorem get_of_error (h : cache.entries.get? name = none) {e : ResolutionError}
    (hr : (resolve lookup name).value = .error e) :
    cache.get lookup name = ⟨(.error e, cache), (resolve lookup name).calls⟩ := by
  rw [get, h]
  simp only [Traced.map, hr]

/-- A name that is resolved is kept. -/
theorem get_of_ok (h : cache.entries.get? name = none) {resolved : ResolvedInterface}
    (hr : (resolve lookup name).value = .ok resolved) :
    cache.get lookup name =
      ⟨(.ok (cache.keep name resolved).1, (cache.keep name resolved).2),
        (resolve lookup name).calls⟩ := by
  rw [get, h]
  simp only [Traced.map, hr]

end Cache

end RosInterface
