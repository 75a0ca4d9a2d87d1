/-!
# Traced values

What is resolved depends on the names that were looked up on the way. A *traced* value carries
these lookups, in the order in which they were made.

## Main definitions

* `Call`: one lookup.
* `Traced`: a value with the lookups that led to it.
* `Traced.pure`, `Traced.bind`, `Traced.map`, `Traced.ofCall`: building traced values.
* `Traced.bindOk`, `Traced.mapOk`: the same for a value that may be an error.
-/

namespace RosInterface

/-- A lookup that was made. -/
inductive Call where
  /-- The fields of a record were asked for. -/
  | record (name : String)
  /-- The records of a service were asked for. -/
  | service (name : String)
  /-- The records of an action were asked for. -/
  | action (name : String)
deriving DecidableEq

namespace Call

/-- The name that was asked for. -/
def subject : Call → String
  | record name => name
  | service name => name
  | action name => name

/-- The call in words: what was asked for, and its name. -/
def text : Call → String
  | record name => "record " ++ name
  | service name => "service " ++ name
  | action name => "action " ++ name

end Call

/-- A value with the lookups that led to it. -/
structure Traced (α : Type) where
  /-- The value. -/
  value : α
  /-- The lookups, the earliest first. -/
  calls : List Call

namespace Traced

variable {α β : Type}

/-- A value that took no lookup. -/
def pure (value : α) : Traced α :=
  ⟨value, []⟩

/-- Goes on with a value and puts the later lookups after the earlier ones. -/
def bind (t : Traced α) (next : α → Traced β) : Traced β :=
  ⟨(next t.value).value, t.calls ++ (next t.value).calls⟩

/-- Changes the value and keeps the lookups. -/
def map (f : α → β) (t : Traced α) : Traced β :=
  ⟨f t.value, t.calls⟩

/-- The value that one lookup gives. -/
def ofCall (call : Call) (value : α) : Traced α :=
  ⟨value, [call]⟩

/-- Goes on with a value that was obtained, or stops with the error. -/
def bindOk {ε : Type} (t : Traced (Except ε α)) (next : α → Traced (Except ε β)) :
    Traced (Except ε β) :=
  t.bind fun
    | .error e => pure (.error e)
    | .ok value => next value

/-- Changes a value that was obtained. -/
def mapOk {ε : Type} (f : α → β) (t : Traced (Except ε α)) : Traced (Except ε β) :=
  t.map (Except.map f)

/-- Behind an error nothing is done. -/
theorem bindOk_error {ε : Type} (e : ε) (calls : List Call)
    (next : α → Traced (Except ε β)) :
    (⟨.error e, calls⟩ : Traced (Except ε α)).bindOk next = ⟨.error e, calls⟩ :=
  congrArg (Traced.mk _) (List.append_nil calls)

theorem bindOk_ok {ε : Type} (value : α) (calls : List Call) (next : α → Traced (Except ε β)) :
    (⟨.ok value, calls⟩ : Traced (Except ε α)).bindOk next
      = ⟨(next value).value, calls ++ (next value).calls⟩ :=
  rfl

/-- What is done in two parts succeeds if both parts do. -/
theorem value_bindOk_eq_ok_iff {ε : Type} {t : Traced (Except ε α)}
    {next : α → Traced (Except ε β)} {result : β} :
    (t.bindOk next).value = .ok result ↔
      ∃ value, t.value = .ok value ∧ (next value).value = .ok result := by
  obtain ⟨value, calls⟩ := t
  cases value with
  | error e => simp [bindOk, bind, pure]
  | ok value => simp [bindOk_ok]

theorem value_mapOk_eq_ok_iff {ε : Type} {t : Traced (Except ε α)} {f : α → β} {result : β} :
    (t.mapOk f).value = .ok result ↔ ∃ value, t.value = .ok value ∧ f value = result := by
  obtain ⟨value, calls⟩ := t
  cases value with
  | error e => simp [mapOk, map, Except.map]
  | ok value => simp [mapOk, map, Except.map]

end Traced

end RosInterface
