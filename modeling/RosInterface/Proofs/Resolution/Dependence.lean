import RosInterface.Schema.Resolution
import RosInterface.Proofs.Expansion.Dependence

/-!
# What a resolution depends on

A resolution goes by the answers to the lookups that it takes, and by nothing else. Over another
lookup that gives these answers, a name is resolved in the same way, after the same lookups.

The claim is carried from the parts of a resolution to the whole: a computation that takes more
lookups has to find more answers unchanged.

## Main definitions

* `Lookup.SameOn`: lookups that give the same answers to given questions.
* `Lookup.Settles`: answers to its own lookups settle a computation.

## Main results

* `resolve_eq_of_sameOn`: a lookup that gives the same answers resolves a name in the same way.
-/

namespace RosInterface

namespace Lookup

/-- The two lookups give the same answers to the questions that were asked. -/
structure SameOn (lookup other : Lookup) (calls : List Call) : Prop where
  /-- Records have the same fields or the same error. -/
  record : ∀ name, .record name ∈ calls → other.record name = lookup.record name
  /-- Services have the same records or the same error. -/
  service : ∀ name, .service name ∈ calls → other.service name = lookup.service name
  /-- Actions have the same records or the same error. -/
  action : ∀ name, .action name ∈ calls → other.action name = lookup.action name

variable {lookup other : Lookup} {calls later : List Call}

theorem SameOn.mono (h : lookup.SameOn other later) (hsub : calls ⊆ later) :
    lookup.SameOn other calls where
  record name hname := h.record name (hsub hname)
  service name hname := h.service name (hsub hname)
  action name hname := h.action name (hsub hname)

/-- Lookups with the same answers agree on records. -/
theorem SameOn.agreeOn (h : lookup.SameOn other calls) :
    RecordSource.AgreeOn lookup.record other.record calls := by
  intro name hname
  rw [h.record name hname]
  cases lookup.record name with
  | error e => exact .failed e e
  | ok fields => exact .found rfl

/-- The second computation is the same as the first one if the second lookup gives the same answers
to the questions of the first computation. -/
def Settles {α : Type} (lookup other : Lookup) (t t' : Traced α) : Prop :=
  lookup.SameOn other t.calls → t' = t

namespace Settles

variable {α β ε : Type} {t t' : Traced (Except ε α)}

/-- **What is done in two parts** is settled if both parts are. -/
theorem bindOk (h : lookup.Settles other t t') {next next' : α → Traced (Except ε β)}
    (hnext : ∀ value, t.value = .ok value → lookup.Settles other (next value) (next' value)) :
    lookup.Settles other (t.bindOk next) (t'.bindOk next') := by
  intro hsame
  obtain ⟨value, calls⟩ := t
  cases value with
  | error e =>
    rw [Traced.bindOk_error] at hsame ⊢
    rw [h hsame, Traced.bindOk_error]
  | ok value =>
    rw [Traced.bindOk_ok] at hsame ⊢
    rw [h (hsame.mono (List.subset_append_left _ _)), Traced.bindOk_ok,
      hnext value rfl (hsame.mono (List.subset_append_right _ _))]

/-- A value that is settled may be changed. -/
theorem mapOk (h : lookup.Settles other t t') (f : α → β) :
    lookup.Settles other (t.mapOk f) (t'.mapOk f) :=
  fun hsame => congrArg (Traced.mapOk f) (h hsame)

end Settles

/-- A record that is looked up and expanded is settled. -/
theorem settles_recordSchema (name : String) :
    lookup.Settles other (recordSchema lookup.toSource (walkRecord lookup []) name)
      (recordSchema other.toSource (walkRecord other []) name) := by
  refine Settles.bindOk (fun hsame => ?_) fun fields _ hsame => ?_
  · exact congrArg (Traced.ofCall _) (hsame.record name (List.mem_singleton_self _))
  · exact congrArg (Traced.map Except.ok) (walkRecord_eq_of_agreeOn hsame.agreeOn rfl)

/-- The records of an interface are settled, one after the other. -/
theorem settles_interfaceSchema (name : String) (kind : Kind) :
    lookup.Settles other (interfaceSchema lookup.toSource (walkRecord lookup []) name kind)
      (interfaceSchema other.toSource (walkRecord other []) name kind) := by
  cases kind with
  | message => exact (settles_recordSchema name).mapOk _
  | service =>
    refine Settles.bindOk (fun hsame => ?_) fun parts _ => ?_
    · exact congrArg (Traced.ofCall _) (hsame.service name (List.mem_singleton_self _))
    · exact (settles_recordSchema parts.request).bindOk fun request _ =>
        (settles_recordSchema parts.response).mapOk _
  | action =>
    refine Settles.bindOk (fun hsame => ?_) fun parts _ => ?_
    · exact congrArg (Traced.ofCall _) (hsame.action name (List.mem_singleton_self _))
    · exact (settles_recordSchema parts.goal).bindOk fun goal _ =>
        (settles_recordSchema parts.result).bindOk fun result _ =>
          (settles_recordSchema parts.feedback).mapOk _

end Lookup

/-- **A resolution depends only on what was looked up.** A lookup that gives the same answers to the
questions that were asked resolves the name in the same way, after the same questions. -/
theorem resolve_eq_of_sameOn {lookup other : Lookup} {name : String}
    (h : lookup.SameOn other (resolve lookup name).calls) :
    resolve other name = resolve lookup name := by
  rw [resolve, resolveWith] at h
  rw [resolve, resolve, resolveWith, resolveWith]
  cases hkind : Kind.classify? name with
  | none => rfl
  | some kind =>
    rw [hkind] at h
    exact congrArg (Traced.map (interfaceOf name)) (Lookup.settles_interfaceSchema name kind h)

end RosInterface
