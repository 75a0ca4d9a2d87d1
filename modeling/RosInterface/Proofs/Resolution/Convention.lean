import RosInterface.Registry
import RosInterface.Proofs.Resolution.Definition

/-!
# Interfaces whose records are named by the convention

A source may name the records of a service or of an action by the convention without knowing
whether they exist, or only after it has made sure that they do. Where the names follow the
convention, an interface is resolved exactly if each of its records is found, and otherwise one that
is not found gives the reason. So it makes no difference to what is resolved when the records are
missed: a registry, which makes sure first, agrees with a lookup that has the same records and finds
out when it fetches them. Only the reason for a failure may be another one.

## Main definitions

* `Source.NamesRecords`: the records of an interface are named by the convention.
* `Source.HasWholes`: a service or an action is there exactly if all of its records are.
* `SameOutcome`: outcomes of a resolution that differ at most in the reason for a failure.

## Main results

* `Source.exists_resolveWith_eq_ok_iff`: an interface is resolved if its records are found.
* `Source.exists_cause_of_resolveWith`: a record that is not found makes the resolution fail.
* `Registry.sameOutcome_recordsOnly`: a registry agrees with a lookup that has only its records.
-/

namespace RosInterface

namespace Source

variable {source : Source} {expand : String → List Field → Traced RecordSchema} {name : String}
  {kind : Kind}

/-- The source names the records of an interface of a kind by the convention. A message is the
record of its name anyway. -/
def NamesRecords (source : Source) (name : String) : Kind → Prop
  | .message => True
  | .service => source.service name = .ok (.names name)
  | .action => source.action name = .ok (.names name)

/-- Once the records of an interface are named, they are looked up one after the other. -/
theorem NamesRecords.exists_directCalls (h : source.NamesRecords name kind) :
    ∃ first, source.directCalls name kind = first ++ (kind.recordNames name).map .record ∧
      ∀ call ∈ first, source.failure? call = none := by
  cases kind with
  | message => exact ⟨[], rfl, fun _ hcall => nomatch hcall⟩
  | service =>
    have hservice : source.service name = .ok (.names name) := h
    refine ⟨[.service name], by rw [directCalls, hservice]; rfl, fun call hcall => ?_⟩
    rw [List.mem_singleton.mp hcall, failure?, hservice]
    rfl
  | action =>
    have haction : source.action name = .ok (.names name) := h
    refine ⟨[.action name], by rw [directCalls, haction]; rfl, fun call hcall => ?_⟩
    rw [List.mem_singleton.mp hcall, failure?, haction]
    rfl

/-- A record that cannot be looked up is the reason for a failure. -/
theorem failure?_record_eq_some_iff {part : String} {cause : LookupError} :
    source.failure? (.record part) = some cause ↔ source.record part = .error cause := by
  rw [failure?]
  cases source.record part with
  | error e => simp [errorOf?]
  | ok fields => simp [errorOf?]

/-- **A record that is not found makes the resolution fail,** with the reason for which it is not
found when it is looked up. -/
theorem exists_cause_of_resolveWith (h : source.NamesRecords name kind)
    (hkind : Kind.classify? name = some kind) {e : ResolutionError}
    (he : (resolveWith source expand name).value = .error e) :
    ∃ part ∈ kind.recordNames name, ∃ cause,
      .record part ∈ (resolveWith source expand name).calls ∧
        source.record part = .error cause ∧ e = .typeNotFound name cause := by
  obtain ⟨first, hcalls, hfirst⟩ := h.exists_directCalls
  have hresolution := isResolution_resolveWith source expand name
  obtain ⟨passed, call, rest, cause, hsplit, hpassed, hcall⟩ :=
    exists_first_failure ((hresolution.isError_iff kind hkind).mp ⟨e, he⟩)
  have hmem : call ∈ first ++ (kind.recordNames name).map Call.record := by
    rw [← hcalls, hsplit]
    exact List.mem_append_right _ List.mem_cons_self
  rcases List.mem_append.mp hmem with hmem | hmem
  · rw [hfirst call hmem] at hcall
    cases hcall
  · obtain ⟨part, hpart, rfl⟩ := List.mem_map.mp hmem
    have hfails := hresolution.fails kind hkind passed _ rest cause hsplit hpassed hcall
    rw [hfails] at he ⊢
    exact ⟨part, hpart, cause, List.mem_append_right _ (List.mem_singleton.mpr rfl),
      failure?_record_eq_some_iff.mp hcall, (Except.error.inj he).symm⟩

/-- **An interface is resolved if each of its records is found.** -/
theorem exists_resolveWith_eq_ok_iff (h : source.NamesRecords name kind)
    (hkind : Kind.classify? name = some kind) :
    (∃ resolved, (resolveWith source expand name).value = .ok resolved) ↔
      ∀ part ∈ kind.recordNames name, ∃ fields, source.record part = .ok fields := by
  obtain ⟨first, hcalls, hfirst⟩ := h.exists_directCalls
  have hresolution := isResolution_resolveWith source expand name
  constructor
  · rintro ⟨resolved, hok⟩ part hpart
    cases hrecord : source.record part with
    | ok fields => exact ⟨fields, rfl⟩
    | error cause =>
      have hmem : Call.record part ∈ source.directCalls name kind := by
        rw [hcalls]
        exact List.mem_append_right _ (List.mem_map_of_mem hpart)
      have hfails := failure?_record_eq_some_iff.mpr hrecord
      obtain ⟨e, he⟩ := (hresolution.isError_iff kind hkind).mpr
        ⟨_, hmem, by rw [hfails]; rfl⟩
      rw [hok] at he
      cases he
  · intro hfound
    cases hvalue : (resolveWith source expand name).value with
    | ok resolved => exact ⟨resolved, rfl⟩
    | error e =>
      obtain ⟨part, hpart, cause, -, hcause, -⟩ := exists_cause_of_resolveWith h hkind hvalue
      obtain ⟨fields, hfields⟩ := hfound part hpart
      rw [hfields] at hcause
      cases hcause

/-! ### Interfaces that are there if their records are -/

/-- The source has a service or an action exactly if it has all records of it, and these have their
conventional names. -/
structure HasWholes (source : Source) : Prop where
  /-- A service is there if its records are. -/
  service : ∀ name parts, source.service name = .ok parts ↔ parts = .names name ∧
    ∀ part ∈ (ServiceParts.names name).toList, ∃ fields, source.record part = .ok fields
  /-- An action is there if its records are. -/
  action : ∀ name parts, source.action name = .ok parts ↔ parts = .names name ∧
    ∀ part ∈ (ActionParts.names name).toList, ∃ fields, source.record part = .ok fields

end Source

namespace Lookup

variable {lookup : Lookup} {name : String}

/-- Over records only, an interface has the same schema as where it is there if its records are. -/
theorem isSchema_recordsOnly_iff (h : lookup.HasWholes) {schema : InterfaceSchema} :
    lookup.recordsOnly.IsSchema (walkRecord lookup.recordsOnly []) name schema ↔
      lookup.IsSchema (walkRecord lookup []) name schema := by
  cases schema with
  | message record => exact Iff.rfl
  | service schemas =>
    constructor
    · rintro ⟨parts, hparts, hrequest, hresponse⟩
      obtain rfl := Except.ok.inj hparts
      refine ⟨_, (h.service name _).mpr ⟨rfl, ?_⟩, hrequest, hresponse⟩
      simp only [ServiceParts.toList, List.forall_mem_cons]
      exact ⟨hrequest.imp fun _ => And.left, hresponse.imp fun _ => And.left,
        List.forall_mem_nil _⟩
    · rintro ⟨parts, hparts, hexpansions⟩
      obtain ⟨rfl, -⟩ := (h.service name parts).mp hparts
      exact ⟨_, rfl, hexpansions⟩
  | action schemas =>
    constructor
    · rintro ⟨parts, hparts, hgoal, hresult, hfeedback⟩
      obtain rfl := Except.ok.inj hparts
      refine ⟨_, (h.action name _).mpr ⟨rfl, ?_⟩, hgoal, hresult, hfeedback⟩
      simp only [ActionParts.toList, List.forall_mem_cons]
      exact ⟨hgoal.imp fun _ => And.left, hresult.imp fun _ => And.left,
        hfeedback.imp fun _ => And.left, List.forall_mem_nil _⟩
    · rintro ⟨parts, hparts, hexpansions⟩
      obtain ⟨rfl, -⟩ := (h.action name parts).mp hparts
      exact ⟨_, rfl, hexpansions⟩

/-- Over records only the same names are resolved, to the same interfaces. -/
theorem value_resolve_recordsOnly_eq_ok_iff (h : lookup.HasWholes)
    {resolved : ResolvedInterface} :
    (resolve lookup.recordsOnly name).value = .ok resolved ↔
      (resolve lookup name).value = .ok resolved := by
  rw [resolve, resolve, value_resolveWith_eq_ok_iff, value_resolveWith_eq_ok_iff,
    isSchema_recordsOnly_iff h]

end Lookup

/-- A registry has a service or an action if it has all records of it. -/
theorem Registry.hasWholes (registry : Registry) : registry.lookup.HasWholes := by
  have hcontains (part : String) : registry.contains part = true ↔
      ∃ fields, registry.record part = .ok fields := by
    rw [contains, Table.contains, Option.isSome_iff_exists]
    exact exists_congr fun fields => record_eq_ok_iff.symm
  constructor
  · intro name parts
    exact service_eq_ok_iff.trans (by simp only [hcontains]; rfl)
  · intro name parts
    exact action_eq_ok_iff.trans (by simp only [hcontains]; rfl)

/-! ### Outcomes -/

/-- Outcomes of the resolution of a name that are the same interface, or failures that are the same
but for the reason why a record or an interface was not found. -/
inductive SameOutcome (name : String) :
    Except ResolutionError ResolvedInterface → Except ResolutionError ResolvedInterface → Prop
  /-- The name is resolved to the same interface. -/
  | resolved (resolved : ResolvedInterface) : SameOutcome name (.ok resolved) (.ok resolved)
  /-- The name has no marker of a kind. -/
  | unrecognized :
    SameOutcome name (.error (.unrecognizedCategory name)) (.error (.unrecognizedCategory name))
  /-- The interface of the name is not found. -/
  | notFound (reason reason' : LookupError) :
    SameOutcome name (.error (.typeNotFound name reason)) (.error (.typeNotFound name reason'))

/-- A name with the marker of a kind fails only if something is not found, and any other name fails
as one that has none. -/
theorem error_of_resolveWith {source : Source}
    {expand : String → List Field → Traced RecordSchema} {name : String} {e : ResolutionError}
    (h : (resolveWith source expand name).value = .error e) :
    (Kind.classify? name = none ∧ e = .unrecognizedCategory name) ∨
      ((Kind.classify? name).isSome ∧ ∃ reason, e = .typeNotFound name reason) := by
  rw [resolveWith] at h
  cases hkind : Kind.classify? name with
  | none =>
    rw [hkind] at h
    exact .inl ⟨rfl, (Except.error.inj h).symm⟩
  | some kind =>
    rw [hkind] at h
    change interfaceOf name (interfaceSchema source expand name kind).value = .error e at h
    cases hvalue : (interfaceSchema source expand name kind).value with
    | error reason =>
      rw [hvalue] at h
      exact .inr ⟨rfl, reason, (Except.error.inj h).symm⟩
    | ok schema =>
      rw [hvalue] at h
      cases h

/-- **A registry agrees with a lookup that has only its records.** The registry makes sure that the
records of a service or of an action exist before it names them; the other lookup names them at
once, and one that is missing is found out when it is fetched. Every name has the same outcome over
both, up to the reason for which something is not found. -/
theorem Registry.sameOutcome_recordsOnly (registry : Registry) (name : String) :
    SameOutcome name (resolve registry.lookup name).value
      (resolve registry.lookup.recordsOnly name).value := by
  have hiff : ∀ resolved, (resolve registry.lookup.recordsOnly name).value = .ok resolved ↔
      (resolve registry.lookup name).value = .ok resolved :=
    fun _ => Lookup.value_resolve_recordsOnly_eq_ok_iff registry.hasWholes
  cases hfirst : (resolve registry.lookup name).value with
  | ok resolved =>
    rw [(hiff resolved).mpr hfirst]
    exact .resolved resolved
  | error e =>
    cases hsecond : (resolve registry.lookup.recordsOnly name).value with
    | ok resolved =>
      rw [(hiff resolved).mp hsecond] at hfirst
      cases hfirst
    | error e' =>
      -- both fail as the same name does that has, or has not, the marker of a kind
      rcases error_of_resolveWith hfirst with ⟨hkind, rfl⟩ | ⟨hkind, reason, rfl⟩
      · rcases error_of_resolveWith hsecond with ⟨-, rfl⟩ | ⟨hkind', -⟩
        · exact .unrecognized
        · rw [hkind] at hkind'
          cases hkind'
      · rcases error_of_resolveWith hsecond with ⟨hkind', -⟩ | ⟨-, reason', rfl⟩
        · rw [hkind'] at hkind
          cases hkind
        · exact .notFound reason reason'

end RosInterface
