import Mathlib.Data.List.DropRight
import RosInterface.Cache

/-!
# The history of a cache

A cache is used over and over while the definitions behind it change. What it answers is told by
the *history* of what was asked and answered before: a name keeps the entry of its first successful
`get` since the cache was last cleared, and nothing else is kept. A cache that keeps a name does
not resolve it again, whatever has become of the definitions. A name that it does not keep is
resolved over the definitions of the moment.

The invariant of a run says that the cache holds exactly what its history keeps, and that the
serial numbers of all entries given so far are used up.

## Main definitions

* `Cache.Session`: a cache with the definitions behind it, and what can be asked of it.
* `Cache.Exchange`: one request with the response to it.
* `Cache.kept?`: the entry that a history keeps under a name.
* `Cache.Follows`: how a session answers after a history.

## Main results

* `Cache.kept?_concat`: what one more exchange changes.
* `Cache.Reflects.step`, `Cache.Reflects.run`: a session goes on holding what its history keeps.
* `Cache.follows_run`: a session answers as its history tells.
-/

namespace RosInterface

namespace Cache

/-- What can be asked of a cache, or done to the definitions behind it. -/
inductive Request where
  /-- The kept interface of a name, which is resolved if there is none. -/
  | get (name : String)
  /-- The interface of a name, resolved past the cache. -/
  | resolve (name : String)
  /-- Whether a name has an entry. -/
  | contains (name : String)
  /-- The number of entries. -/
  | size
  /-- All entries are to be dropped. -/
  | clear
  /-- Other definitions take the place of those behind the cache. -/
  | redefine (lookup : Lookup)

/-- What a request is answered with. -/
inductive Response where
  | entry (answer : Except ResolutionError Entry)
  | interface (answer : Except ResolutionError ResolvedInterface)
  | truth (value : Bool)
  | number (value : Nat)
  | done

/-- A cache and the definitions behind it. -/
structure Session where
  /-- The definitions. -/
  lookup : Lookup
  /-- The cache. -/
  cache : Cache

/-- A request and the response to it, with the lookups that were made for it. -/
structure Exchange where
  /-- What was asked. -/
  request : Request
  /-- What was answered. -/
  response : Traced Response

namespace Session

/-- The response to a request, with the session afterwards. -/
def step (session : Session) : Request → Traced Response × Session
  | .get name =>
    let t := session.cache.get session.lookup name
    (⟨.entry t.value.1, t.calls⟩, { session with cache := t.value.2 })
  | .resolve name => ((RosInterface.resolve session.lookup name).map .interface, session)
  | .contains name => (.pure (.truth (session.cache.contains name)), session)
  | .size => (.pure (.number session.cache.size), session)
  | .clear => (.pure .done, { session with cache := session.cache.clear })
  | .redefine lookup => (.pure .done, { session with lookup })

/-- The exchanges for requests made one after the other, with the session afterwards. -/
def run (session : Session) : List Request → List Exchange × Session
  | [] => ([], session)
  | request :: rest =>
    let out := (session.step request).2.run rest
    (⟨request, (session.step request).1⟩ :: out.1, out.2)

end Session

/-! ### What a history keeps -/

/-- The definitions behind a cache after a request. -/
def Request.lookupAfter (lookup : Lookup) : Request → Lookup
  | .redefine lookup => lookup
  | _ => lookup

namespace Exchange

/-- All entries were dropped. -/
def isClear (exchange : Exchange) : Bool :=
  match exchange.request with
  | .clear => true
  | _ => false

/-- The entry that was given for a name. -/
def entry? (exchange : Exchange) (name : String) : Option Entry :=
  match exchange.request, exchange.response.value with
  | .get asked, .entry (.ok entry) => if asked = name then some entry else none
  | _, _ => none

end Exchange

/-- The entry that a history keeps under a name: the first one that was given for it since all
entries were dropped the last time. -/
def kept? (history : List Exchange) (name : String) : Option Entry :=
  (history.rtakeWhile fun exchange => !exchange.isClear).findSome? fun exchange =>
    exchange.entry? name

/-- An exchange drops what was kept, or adds to it where nothing was kept. -/
theorem kept?_concat (history : List Exchange) (exchange : Exchange) (name : String) :
    kept? (history ++ [exchange]) name =
      if exchange.isClear then none else (kept? history name).or (exchange.entry? name) := by
  by_cases h : exchange.isClear = true
  · rw [kept?, List.rtakeWhile_concat_neg _ _ _ (by simp [h]), if_pos h]
    rfl
  · rw [kept?, List.rtakeWhile_concat_pos _ _ _ (by simpa using h), if_neg h,
      List.findSome?_append, List.findSome?_singleton, kept?]

/-! ### The invariant -/

/-- A session holds what a history keeps, and the serial numbers of the entries given in the
history are used up. -/
structure Reflects (history : List Exchange) (session : Session) : Prop where
  get?_eq : ∀ name, session.cache.entries.get? name = kept? history name
  nodup_keys : session.cache.entries.keys.Nodup
  serial_lt : ∀ exchange ∈ history, ∀ name entry, exchange.entry? name = some entry →
    entry.serial < session.cache.nextSerial

/-- What a history keeps was given in it. -/
theorem exists_of_kept?_eq_some {history : List Exchange} {name : String} {entry : Entry}
    (h : kept? history name = some entry) :
    ∃ exchange ∈ history, exchange.entry? name = some entry := by
  obtain ⟨exchange, hmem, hentry⟩ := List.exists_of_findSome?_eq_some h
  exact ⟨exchange, (List.rtakeWhile_suffix _ _).subset hmem, hentry⟩

namespace Session

variable {session : Session} {name : String}

theorem step_get_of_entry {entry : Entry} (h : session.cache.entries.get? name = some entry) :
    session.step (.get name) = (.pure (.entry (.ok entry)), session) := by
  rw [step, get_of_entry h]
  rfl

theorem step_get_of_error (h : session.cache.entries.get? name = none) {e : ResolutionError}
    (hr : (resolve session.lookup name).value = .error e) :
    session.step (.get name)
      = (⟨.entry (.error e), (resolve session.lookup name).calls⟩, session) := by
  rw [step, get_of_error h hr]

theorem step_get_of_ok (h : session.cache.entries.get? name = none)
    {resolved : ResolvedInterface} (hr : (resolve session.lookup name).value = .ok resolved) :
    session.step (.get name) =
      (⟨.entry (.ok (session.cache.keep name resolved).1), (resolve session.lookup name).calls⟩,
        { session with cache := (session.cache.keep name resolved).2 }) := by
  rw [step, get_of_ok h hr]

end Session

namespace Reflects

variable {history : List Exchange} {session after : Session} {exchange : Exchange}

theorem opened (lookup : Lookup) : Reflects [] ⟨lookup, Cache.empty⟩ where
  get?_eq _ := rfl
  nodup_keys := List.nodup_nil
  serial_lt _ h := absurd h List.not_mem_nil

/-- An exchange that gives nothing but what is kept leaves the cache as it is. -/
theorem concat_of_kept (h : Reflects history session) (hclear : exchange.isClear = false)
    (hcache : after.cache = session.cache)
    (hkept : ∀ name entry, exchange.entry? name = some entry → kept? history name = some entry) :
    Reflects (history ++ [exchange]) after where
  get?_eq name := by
    rw [kept?_concat, hclear, if_neg Bool.false_ne_true, hcache, h.get?_eq]
    cases hentry : exchange.entry? name with
    | none => rw [Option.or_none]
    | some entry =>
      rw [hkept name entry hentry]
      rfl
  nodup_keys := hcache ▸ h.nodup_keys
  serial_lt earlier hmem name entry hentry := by
    rw [hcache]
    rcases List.mem_append.mp hmem with hold | hnew
    · exact h.serial_lt earlier hold name entry hentry
    · rw [List.mem_singleton.mp hnew] at hentry
      obtain ⟨first, hfirst, hgiven⟩ := exists_of_kept?_eq_some (hkept name entry hentry)
      exact h.serial_lt first hfirst name entry hgiven

/-- An exchange that gives no entry leaves the cache as it is. -/
theorem concat_of_none (h : Reflects history session) (hclear : exchange.isClear = false)
    (hcache : after.cache = session.cache) (hnone : ∀ name, exchange.entry? name = none) :
    Reflects (history ++ [exchange]) after :=
  h.concat_of_kept hclear hcache fun name entry hentry => by
    rw [hnone] at hentry
    cases hentry

/-- A name that is resolved and was not kept before is kept from now on. -/
theorem concat_of_keep (h : Reflects history session) {name : String}
    {resolved : ResolvedInterface} {calls : List Call} (hname : kept? history name = none)
    (hcache : after.cache = (session.cache.keep name resolved).2) :
    Reflects (history
      ++ [⟨.get name, ⟨.entry (.ok (session.cache.keep name resolved).1), calls⟩⟩]) after where
  get?_eq other := by
    rw [kept?_concat, hcache, keep, Table.get?_insert, h.get?_eq]
    by_cases he : other = name
    · subst he
      simp [Exchange.isClear, Exchange.entry?, hname]
    · have hne : ¬name = other := fun heq => he heq.symm
      simp [Exchange.isClear, Exchange.entry?, he, hne]
  nodup_keys := by
    rw [hcache]
    exact Table.nodup_keys_insert h.nodup_keys name _
  serial_lt earlier hmem other entry hentry := by
    have hnext : after.cache.nextSerial = session.cache.nextSerial + 1 := by rw [hcache, keep]
    rw [hnext]
    rcases List.mem_append.mp hmem with hold | hnew
    · exact Nat.lt_succ_of_lt (h.serial_lt earlier hold other entry hentry)
    · rw [List.mem_singleton.mp hnew] at hentry
      simp only [Exchange.entry?] at hentry
      split at hentry
      · cases hentry
        exact Nat.lt_succ_self _
      · cases hentry

/-- Nothing is kept once all entries are dropped. -/
theorem concat_of_clear (h : Reflects history session) (hclear : exchange.isClear = true)
    (hnone : ∀ name, exchange.entry? name = none)
    (hcache : after.cache = session.cache.clear) : Reflects (history ++ [exchange]) after where
  get?_eq name := by
    rw [kept?_concat, if_pos hclear, hcache]
    rfl
  nodup_keys := by
    rw [hcache]
    exact List.nodup_nil
  serial_lt earlier hmem name entry hentry := by
    rw [hcache]
    rcases List.mem_append.mp hmem with hold | hnew
    · exact h.serial_lt earlier hold name entry hentry
    · rw [List.mem_singleton.mp hnew, hnone] at hentry
      cases hentry

/-- **One step.** A session that holds what its history keeps still does so after a request. -/
theorem step (h : Reflects history session) (request : Request) :
    Reflects (history ++ [⟨request, (session.step request).1⟩]) (session.step request).2 := by
  cases request with
  | get name =>
    cases hget : session.cache.entries.get? name with
    | some entry =>
      rw [Session.step_get_of_entry hget]
      refine h.concat_of_kept rfl rfl fun other entry' hentry => ?_
      simp only [Exchange.entry?, Traced.pure] at hentry
      split at hentry
      · rename_i heq
        cases hentry
        rw [← heq, ← h.get?_eq, hget]
      · cases hentry
    | none =>
      cases hr : (resolve session.lookup name).value with
      | error e =>
        rw [Session.step_get_of_error hget hr]
        exact h.concat_of_none rfl rfl fun other => rfl
      | ok resolved =>
        rw [Session.step_get_of_ok hget hr]
        exact h.concat_of_keep (by rw [← h.get?_eq, hget]) rfl
  | resolve name => exact h.concat_of_none rfl rfl fun other => rfl
  | contains name => exact h.concat_of_none rfl rfl fun other => rfl
  | size => exact h.concat_of_none rfl rfl fun other => rfl
  | clear => exact h.concat_of_clear rfl (fun other => rfl) rfl
  | redefine lookup => exact h.concat_of_none rfl rfl fun other => rfl

/-- **A whole run.** A session goes on holding what its history keeps. -/
theorem run (requests : List Request) (h : Reflects history session) :
    Reflects (history ++ (session.run requests).1) (session.run requests).2 := by
  induction requests generalizing history session with
  | nil => simpa [Session.run] using h
  | cons request rest ih =>
    have hrest := ih (h.step request)
    rwa [List.append_assoc] at hrest

end Reflects

/-! ### What is answered after a history -/

/-- How a session answers after a history. -/
structure Follows (history : List Exchange) (lookup : Lookup) (session : Session) : Prop where
  /-- The definitions are those of the moment. -/
  lookup_eq : session.lookup = lookup
  /-- A name that is kept gives the entry that was first given for it, without a lookup. -/
  get_kept : ∀ name entry, kept? history name = some entry →
    session.step (.get name) = (.pure (.entry (.ok entry)), session)
  /-- Any other name is resolved, with the same result and the same lookups as past the cache. A
  failure leaves the session as it is. An interface becomes the entry of the name, and its serial
  number is not that of any entry given before. -/
  get_not_kept : ∀ name, kept? history name = none → ∃ answer after,
    session.step (.get name) = (⟨.entry answer, (resolve lookup name).calls⟩, after) ∧
      answer.map Entry.resolved = (resolve lookup name).value ∧
      (∀ e, answer = .error e → after = session) ∧
      ∀ entry, answer = .ok entry → after.lookup = lookup ∧
        after.cache.entries = session.cache.entries.insert name entry ∧
        ∀ exchange ∈ history, ∀ other earlier, exchange.entry? other = some earlier →
          earlier.serial ≠ entry.serial
  /-- Past the cache a name is resolved, whether it is kept or not. -/
  resolve : ∀ name, session.step (.resolve name) = ((resolve lookup name).map .interface, session)
  /-- The names that have an entry are those that are kept. -/
  contains : ∀ name, session.step (.contains name)
    = (.pure (.truth (kept? history name).isSome), session)
  /-- The entries are counted once for each name that is kept. -/
  size : ∃ names : List String, names.Nodup ∧ (∀ name, name ∈ names ↔ (kept? history name).isSome) ∧
    session.step .size = (.pure (.number names.length), session)

/-- A session answers by what it holds. -/
theorem Reflects.follows {history : List Exchange} {session : Session}
    (h : Reflects history session) : Follows history session.lookup session where
  lookup_eq := rfl
  get_kept name entry hname := Session.step_get_of_entry ((h.get?_eq name).trans hname)
  get_not_kept name hname := by
    have hget : session.cache.entries.get? name = none := (h.get?_eq name).trans hname
    cases hr : (RosInterface.resolve session.lookup name).value with
    | error e =>
      exact ⟨_, _, Session.step_get_of_error hget hr, rfl, fun _ _ => rfl,
        fun _ he => nomatch he⟩
    | ok resolved =>
      refine ⟨_, _, Session.step_get_of_ok hget hr, rfl, (fun _ he => nomatch he), ?_⟩
      rintro entry ⟨⟩
      exact ⟨rfl, rfl, fun exchange hmem other earlier hentry =>
        Nat.ne_of_lt (h.serial_lt exchange hmem other earlier hentry)⟩
  resolve name := rfl
  contains name := by
    rw [Session.step, Cache.contains, Table.contains, h.get?_eq]
  size := by
    refine ⟨session.cache.entries.keys, h.nodup_keys, fun name => ?_, ?_⟩
    · rw [← h.get?_eq, ← Table.contains, Table.contains_eq_decide, decide_eq_true_iff]
    · rw [Session.step, Cache.size, Table.size, Table.keys, List.length_map]

theorem lookup_run (requests : List Request) (session : Session) :
    (session.run requests).2.lookup = requests.foldl Request.lookupAfter session.lookup := by
  induction requests generalizing session with
  | nil => rfl
  | cons request rest ih =>
    have hstep : (session.step request).2.lookup = request.lookupAfter session.lookup := by
      cases request <;> rfl
    rw [Session.run, ih, hstep]
    rfl

/-- **A cache answers as its history tells.** Let a session begin with an empty cache, and let any
requests be made, changes of the definitions among them. Then each further request is answered by
what the history of these exchanges keeps and by the definitions of the moment: a name that is kept
gives the very entry that was first given for it since the cache was last cleared, and takes no
lookup, even if it could not be resolved any more; any other name is resolved as past the cache,
and is kept if that succeeds; nothing else changes what is kept. -/
theorem follows_run (lookup : Lookup) (requests : List Request) :
    Follows ((Session.mk lookup Cache.empty).run requests).1
      (requests.foldl Request.lookupAfter lookup)
      ((Session.mk lookup Cache.empty).run requests).2 := by
  have hreflects := (Reflects.opened lookup).run requests
  rw [List.nil_append] at hreflects
  have hfollows := hreflects.follows
  rwa [lookup_run] at hfollows

end Cache

end RosInterface
