import RosInterface.Schema.Resolution

/-!
# The direct calls of a resolution

The interface of a name is found by a few *direct calls*: a message by one for its record, a service
or an action by one for the names of its records and then one for each of them. These calls alone
decide whether a name is resolved. The first of them that fails ends the resolution with its error,
and no call of any kind comes after it. If none fails, the resolution succeeds, whatever the calls
inside the expansion of a record give; these come directly behind the call for that record.

What takes calls one after the other is composed of parts that do: the calls of the first part come
first, and those of the second part only if no call of the first one fails.

## Main definitions

* `Source.failure?`: the error with which a call fails.
* `Source.directCalls`: the direct calls for a name.
* `Source.callsOf`: a direct call with the calls that it leads to.
* `Source.Takes`: a value that takes direct calls.
* `IsResolution`: what comes of the resolution of a name.

## Main results

* `Source.Takes.bindOk`: the calls of what is done in two parts.
* `Source.takes_interfaceSchema`: an interface takes its direct calls.
* `value_resolveWith_eq_ok_iff`: when a name is resolved, and to what.
* `isResolution_resolve`: the direct calls decide what comes of a resolution.
-/

namespace RosInterface

namespace Source

/-- The error of an answer, if it is one. -/
def errorOf? {α : Type} : Except LookupError α → Option LookupError
  | .error e => some e
  | .ok _ => none

variable (source : Source) (expand : String → List Field → Traced RecordSchema)

/-- The error with which a call fails, if it does. -/
def failure? : Call → Option LookupError
  | .record name => errorOf? (source.record name)
  | .service name => errorOf? (source.service name)
  | .action name => errorOf? (source.action name)

/-- The direct calls for an interface of a known kind, in order. Where a service or an action is
not found, its records have no names. -/
def directCalls (name : String) : Kind → List Call
  | .message => [.record name]
  | .service =>
    match source.service name with
    | .error _ => [.service name]
    | .ok parts => .service name :: parts.toList.map .record
  | .action =>
    match source.action name with
    | .error _ => [.action name]
    | .ok parts => .action name :: parts.toList.map .record

/-- A direct call, and the calls for the expansion of the record that it found. -/
def callsOf : Call → List Call
  | .record name =>
    match source.record name with
    | .error _ => [.record name]
    | .ok fields => .record name :: (expand name fields).calls
  | call => [call]

/-- The record schema is the expansion of the fields that were looked up for a name. -/
def IsExpansion (name : String) (schema : RecordSchema) : Prop :=
  ∃ fields, source.record name = .ok fields ∧ schema = (expand name fields).value

/-- Each part of the schema is the expansion of the fields that were looked up for it. -/
def IsSchema (name : String) : InterfaceSchema → Prop
  | .message schema => source.IsExpansion expand name schema
  | .service schemas => ∃ parts, source.service name = .ok parts ∧
      source.IsExpansion expand parts.request schemas.request ∧
      source.IsExpansion expand parts.response schemas.response
  | .action schemas => ∃ parts, source.action name = .ok parts ∧
      source.IsExpansion expand parts.goal schemas.goal ∧
      source.IsExpansion expand parts.result schemas.result ∧
      source.IsExpansion expand parts.feedback schemas.feedback

/-! ### What takes direct calls -/

/-- A value that takes direct calls one after the other until one of them fails. If none fails, it
has a property. -/
structure Takes {α : Type} (calls : List Call) (P : α → Prop)
    (t : Traced (Except LookupError α)) : Prop where
  /-- The first call that fails is the last one. -/
  fails : ∀ passed call rest e, calls = passed ++ call :: rest →
    (∀ earlier ∈ passed, source.failure? earlier = none) → source.failure? call = some e →
      t = ⟨.error e, passed.flatMap (source.callsOf expand) ++ [call]⟩
  /-- Where no call fails, there is a value. -/
  succeeds : (∀ call ∈ calls, source.failure? call = none) →
    ∃ value, P value ∧ t = ⟨.ok value, calls.flatMap (source.callsOf expand)⟩

namespace Takes

variable {source : Source} {expand : String → List Field → Traced RecordSchema} {α β : Type}
  {P : α → Prop} {Q : β → Prop} {calls more : List Call} {t : Traced (Except LookupError α)}

/-- **What is done in two parts** takes the calls of the first part and then those of the second
one, which goes on with the value of the first. -/
theorem bindOk (ht : source.Takes expand calls P t) {next : α → Traced (Except LookupError β)}
    (hnext : ∀ value, P value → source.Takes expand more Q (next value)) :
    source.Takes expand (calls ++ more) Q (t.bindOk next) where
  fails passed call rest e hsplit hpassed hcall := by
    -- the call that fails is one of the first part, or one of the second part behind all of these
    have hcases : (∃ others, calls = passed ++ call :: others) ∨
        ∃ behind, passed = calls ++ behind ∧ more = behind ++ call :: rest := by
      rcases List.append_eq_append_iff.mp hsplit with hsecond | ⟨_ | ⟨first, others⟩, hfirst, hrest⟩
      · exact .inr hsecond
      · exact .inr ⟨[], by rw [hfirst, List.append_nil, List.append_nil], hrest.symm⟩
      · exact .inl ⟨others, by rw [hfirst, (List.cons.inj hrest).1]⟩
    rcases hcases with ⟨others, hfirst⟩ | ⟨behind, rfl, hsecond⟩
    · rw [ht.fails passed call others e hfirst hpassed hcall, Traced.bindOk_error]
    · rw [List.forall_mem_append] at hpassed
      obtain ⟨value, hvalue, rfl⟩ := ht.succeeds hpassed.1
      rw [Traced.bindOk_ok, (hnext value hvalue).fails behind call rest e hsecond hpassed.2 hcall,
        List.flatMap_append, List.append_assoc]
  succeeds h := by
    rw [List.forall_mem_append] at h
    obtain ⟨value, hvalue, rfl⟩ := ht.succeeds h.1
    obtain ⟨result, hresult, hdone⟩ := (hnext value hvalue).succeeds h.2
    exact ⟨result, hresult, by rw [Traced.bindOk_ok, hdone, List.flatMap_append]⟩

/-- A value that was obtained may be changed. -/
theorem mapOk (ht : source.Takes expand calls P t) {f : α → β}
    (hf : ∀ value, P value → Q (f value)) : source.Takes expand calls Q (t.mapOk f) where
  fails passed call rest e hsplit hpassed hcall := by
    rw [ht.fails passed call rest e hsplit hpassed hcall]
    rfl
  succeeds h := by
    obtain ⟨value, hvalue, rfl⟩ := ht.succeeds h
    exact ⟨f value, hf value hvalue, rfl⟩

/-- One call that fails. -/
theorem of_error {call : Call} {e : LookupError} (h : source.failure? call = some e) :
    source.Takes expand [call] P ⟨.error e, [call]⟩ where
  fails passed other rest e' hsplit _ hother := by
    cases passed with
    | nil =>
      obtain rfl : call = other := (List.cons.inj hsplit).1
      rw [Option.some.inj (h.symm.trans hother)]
      rfl
    | cons first passed => simp at hsplit
  succeeds hall := by
    rw [hall call List.mem_cons_self] at h
    cases h

/-- One call that does not fail. -/
theorem of_ok {call : Call} {value : α} (h : source.failure? call = none) (hvalue : P value) :
    source.Takes expand [call] P ⟨.ok value, source.callsOf expand call⟩ where
  fails passed other rest e hsplit _ hother := by
    cases passed with
    | nil =>
      obtain rfl : call = other := (List.cons.inj hsplit).1
      rw [h] at hother
      cases hother
    | cons first passed => simp at hsplit
  succeeds _ := ⟨value, hvalue, by rw [List.flatMap_singleton]⟩

end Takes

variable {source : Source} {expand : String → List Field → Traced RecordSchema}

/-- A record schema takes the call for the record. -/
theorem takes_recordSchema (name : String) :
    source.Takes expand [.record name] (source.IsExpansion expand name)
      (recordSchema source expand name) := by
  cases h : source.record name with
  | error e =>
    have hrun : recordSchema source expand name = ⟨.error e, [.record name]⟩ := by
      rw [recordSchema, h]
      rfl
    rw [hrun]
    exact .of_error (by rw [failure?, h]; rfl)
  | ok fields =>
    have hrun : recordSchema source expand name
        = ⟨.ok (expand name fields).value, source.callsOf expand (.record name)⟩ := by
      rw [recordSchema, h, callsOf, h]
      rfl
    rw [hrun]
    exact .of_ok (by rw [failure?, h]; rfl) ⟨fields, h, rfl⟩

/-- **An interface takes its direct calls,** and its schema is made of the records found. -/
theorem takes_interfaceSchema (source : Source)
    (expand : String → List Field → Traced RecordSchema) (name : String) (kind : Kind) :
    source.Takes expand (source.directCalls name kind)
      (fun schema => schema.kind = kind ∧ source.IsSchema expand name schema)
      (interfaceSchema source expand name kind) := by
  cases kind with
  | message => exact (takes_recordSchema name).mapOk fun schema hschema => ⟨rfl, hschema⟩
  | service =>
    cases h : source.service name with
    | error e =>
      have hrun : interfaceSchema source expand name .service = ⟨.error e, [.service name]⟩ := by
        rw [interfaceSchema, h]
        rfl
      rw [directCalls, h, hrun]
      exact .of_error (by rw [failure?, h]; rfl)
    | ok parts =>
      have hcall : source.Takes expand [.service name] (· = parts)
          (Traced.ofCall (.service name) (source.service name)) := by
        rw [h]
        exact .of_ok (by rw [failure?, h]; rfl) rfl
      rw [directCalls, h]
      refine hcall.bindOk ?_
      rintro _ rfl
      refine (takes_recordSchema _).bindOk fun request hrequest => ?_
      refine (takes_recordSchema _).mapOk fun response hresponse => ?_
      exact ⟨rfl, _, h, hrequest, hresponse⟩
  | action =>
    cases h : source.action name with
    | error e =>
      have hrun : interfaceSchema source expand name .action = ⟨.error e, [.action name]⟩ := by
        rw [interfaceSchema, h]
        rfl
      rw [directCalls, h, hrun]
      exact .of_error (by rw [failure?, h]; rfl)
    | ok parts =>
      have hcall : source.Takes expand [.action name] (· = parts)
          (Traced.ofCall (.action name) (source.action name)) := by
        rw [h]
        exact .of_ok (by rw [failure?, h]; rfl) rfl
      rw [directCalls, h]
      refine hcall.bindOk ?_
      rintro _ rfl
      refine (takes_recordSchema _).bindOk fun goal hgoal => ?_
      refine (takes_recordSchema _).bindOk fun result hresult => ?_
      refine (takes_recordSchema _).mapOk fun feedback hfeedback => ?_
      exact ⟨rfl, _, h, hgoal, hresult, hfeedback⟩

/-- A record schema is obtained if it is the expansion of the fields that were looked up. -/
theorem value_recordSchema_eq_ok_iff {name : String} {schema : RecordSchema} :
    (recordSchema source expand name).value = .ok schema ↔
      source.IsExpansion expand name schema := by
  rw [recordSchema, Traced.value_bindOk_eq_ok_iff]
  refine exists_congr fun fields => and_congr_right' ?_
  exact ⟨fun h => (Except.ok.inj h).symm, fun h => congrArg _ h.symm⟩

/-- A schema is obtained for an interface of a kind if it is of that kind and each of its parts is
the expansion of the fields that were looked up for it. -/
theorem value_interfaceSchema_eq_ok_iff {name : String} {kind : Kind}
    {schema : InterfaceSchema} :
    (interfaceSchema source expand name kind).value = .ok schema ↔
      schema.kind = kind ∧ source.IsSchema expand name schema := by
  constructor
  · intro h
    cases kind with
    | message =>
      obtain ⟨record, hrecord, rfl⟩ := Traced.value_mapOk_eq_ok_iff.mp h
      exact ⟨rfl, value_recordSchema_eq_ok_iff.mp hrecord⟩
    | service =>
      obtain ⟨parts, hparts, h⟩ := Traced.value_bindOk_eq_ok_iff.mp h
      obtain ⟨request, hrequest, h⟩ := Traced.value_bindOk_eq_ok_iff.mp h
      obtain ⟨response, hresponse, rfl⟩ := Traced.value_mapOk_eq_ok_iff.mp h
      exact ⟨rfl, parts, hparts, value_recordSchema_eq_ok_iff.mp hrequest,
        value_recordSchema_eq_ok_iff.mp hresponse⟩
    | action =>
      obtain ⟨parts, hparts, h⟩ := Traced.value_bindOk_eq_ok_iff.mp h
      obtain ⟨goal, hgoal, h⟩ := Traced.value_bindOk_eq_ok_iff.mp h
      obtain ⟨result, hresult, h⟩ := Traced.value_bindOk_eq_ok_iff.mp h
      obtain ⟨feedback, hfeedback, rfl⟩ := Traced.value_mapOk_eq_ok_iff.mp h
      exact ⟨rfl, parts, hparts, value_recordSchema_eq_ok_iff.mp hgoal,
        value_recordSchema_eq_ok_iff.mp hresult, value_recordSchema_eq_ok_iff.mp hfeedback⟩
  · rintro ⟨rfl, h⟩
    cases schema with
    | message record =>
      exact Traced.value_mapOk_eq_ok_iff.mpr ⟨record, value_recordSchema_eq_ok_iff.mpr h, rfl⟩
    | service schemas =>
      obtain ⟨parts, hparts, hrequest, hresponse⟩ := h
      refine Traced.value_bindOk_eq_ok_iff.mpr ⟨parts, hparts, ?_⟩
      refine Traced.value_bindOk_eq_ok_iff.mpr ⟨_, value_recordSchema_eq_ok_iff.mpr hrequest, ?_⟩
      exact Traced.value_mapOk_eq_ok_iff.mpr
        ⟨_, value_recordSchema_eq_ok_iff.mpr hresponse, rfl⟩
    | action schemas =>
      obtain ⟨parts, hparts, hgoal, hresult, hfeedback⟩ := h
      refine Traced.value_bindOk_eq_ok_iff.mpr ⟨parts, hparts, ?_⟩
      refine Traced.value_bindOk_eq_ok_iff.mpr ⟨_, value_recordSchema_eq_ok_iff.mpr hgoal, ?_⟩
      refine Traced.value_bindOk_eq_ok_iff.mpr ⟨_, value_recordSchema_eq_ok_iff.mpr hresult, ?_⟩
      exact Traced.value_mapOk_eq_ok_iff.mpr
        ⟨_, value_recordSchema_eq_ok_iff.mpr hfeedback, rfl⟩

end Source

/-- A name is resolved if its kind is known and each record of the interface is found. -/
theorem value_resolveWith_eq_ok_iff {source : Source}
    {expand : String → List Field → Traced RecordSchema} {name : String}
    {resolved : ResolvedInterface} :
    (resolveWith source expand name).value = .ok resolved ↔
      resolved.name = name ∧ Kind.classify? name = some resolved.kind ∧
        source.IsSchema expand name resolved.schema := by
  rw [resolveWith]
  cases Kind.classify? name with
  | none => simp [Traced.pure]
  | some kind =>
    constructor
    · intro h
      change interfaceOf name (interfaceSchema source expand name kind).value = .ok resolved at h
      cases hschema : (interfaceSchema source expand name kind).value with
      | error e =>
        rw [hschema] at h
        cases h
      | ok schema =>
        rw [hschema] at h
        cases h
        obtain ⟨rfl, hs⟩ := Source.value_interfaceSchema_eq_ok_iff.mp hschema
        exact ⟨rfl, rfl, hs⟩
    · rintro ⟨rfl, hkind, hs⟩
      have hschema := Source.value_interfaceSchema_eq_ok_iff.mpr ⟨(Option.some.inj hkind).symm, hs⟩
      exact congrArg (interfaceOf resolved.name) hschema

/-- A message is resolved to what a resolver comes to for its fields. Its own record is looked up
first. -/
theorem resolve_message {lookup : Lookup} {name : String} {fields : List Field}
    {schema : RecordSchema} {depth : Nat} {after : Resolver}
    (hkind : Kind.classify? name = some .message) (hr : lookup.record name = .ok fields)
    (hrun : Resolver.fresh.walkRecord? lookup.record depth name fields = some (schema, after)) :
    resolve lookup name = ⟨.ok ⟨name, .message schema⟩, .record name :: after.calls⟩ := by
  have hrecord : recordSchema lookup.toSource (walkRecord lookup []) name
      = ⟨.ok schema, .record name :: after.calls⟩ := by
    rw [recordSchema, hr, Traced.ofCall, Traced.bindOk_ok, walkRecord_eq_of_walkRecord? hrun]
    rfl
  rw [resolve, resolveWith, hkind]
  change ((recordSchema lookup.toSource (walkRecord lookup []) name).mapOk _).map _ = _
  rw [hrecord]
  rfl

/-! ### What comes of a resolution -/

/-- What comes of the resolution of a name over a source, where `expand` gives the record schemas
of fields that were looked up, with the calls inside the expansion. -/
structure IsResolution (source : Source) (expand : String → List Field → Traced RecordSchema)
    (name : String) (out : Traced (Except ResolutionError ResolvedInterface)) : Prop where
  /-- A name without the marker of a kind takes no call. -/
  unrecognized : Kind.classify? name = none → out = ⟨.error (.unrecognizedCategory name), []⟩
  /-- The resolution fails exactly if a direct call does. -/
  isError_iff : ∀ kind, Kind.classify? name = some kind →
    ((∃ e, out.value = .error e) ↔
      ∃ call ∈ source.directCalls name kind, (source.failure? call).isSome)
  /-- The first direct call that fails gives the error and is the last call. -/
  fails : ∀ kind, Kind.classify? name = some kind → ∀ passed call rest e,
    source.directCalls name kind = passed ++ call :: rest →
    (∀ earlier ∈ passed, source.failure? earlier = none) → source.failure? call = some e →
      out = ⟨.error (.typeNotFound name e), passed.flatMap (source.callsOf expand) ++ [call]⟩
  /-- If no direct call fails, the interface is of the kind of its name, and each part of its
  schema is the expansion of the record that was looked up for it. -/
  succeeds : ∀ kind, Kind.classify? name = some kind →
    (∀ call ∈ source.directCalls name kind, source.failure? call = none) →
      ∃ schema, out = ⟨.ok ⟨name, schema⟩,
          (source.directCalls name kind).flatMap (source.callsOf expand)⟩ ∧
        schema.kind = kind ∧ source.IsSchema expand name schema

/-- Of calls that do not all succeed, one is the first to fail. -/
theorem Source.exists_first_failure {source : Source} {calls : List Call}
    (h : ∃ call ∈ calls, (source.failure? call).isSome) : ∃ passed call rest e,
      calls = passed ++ call :: rest ∧ (∀ earlier ∈ passed, source.failure? earlier = none) ∧
        source.failure? call = some e := by
  induction calls with
  | nil =>
    obtain ⟨call, hcall, -⟩ := h
    exact absurd hcall List.not_mem_nil
  | cons first calls ih =>
    cases hfirst : source.failure? first with
    | some e => exact ⟨[], first, calls, e, rfl, fun _ hc => absurd hc List.not_mem_nil, hfirst⟩
    | none =>
      obtain ⟨call, hmem, hcall⟩ := h
      have hcalls : call ∈ calls := (List.mem_cons.mp hmem).resolve_left fun heq => by
        rw [heq, hfirst] at hcall
        cases hcall
      obtain ⟨passed, failing, rest, e, rfl, hpassed, hfails⟩ := ih ⟨call, hcalls, hcall⟩
      exact ⟨first :: passed, failing, rest, e, rfl, List.forall_mem_cons.mpr ⟨hfirst, hpassed⟩,
        hfails⟩

/-- The direct calls decide what comes of a resolution, whichever way records are expanded. -/
theorem isResolution_resolveWith (source : Source)
    (expand : String → List Field → Traced RecordSchema) (name : String) :
    IsResolution source expand name (resolveWith source expand name) := by
  have hrun : ∀ kind, Kind.classify? name = some kind → resolveWith source expand name
      = (interfaceSchema source expand name kind).map (interfaceOf name) := by
    intro kind hkind
    rw [resolveWith, hkind]
  have hfails : ∀ kind, Kind.classify? name = some kind → ∀ passed call rest e,
      source.directCalls name kind = passed ++ call :: rest →
      (∀ earlier ∈ passed, source.failure? earlier = none) → source.failure? call = some e →
        resolveWith source expand name
          = ⟨.error (.typeNotFound name e), passed.flatMap (source.callsOf expand) ++ [call]⟩ := by
    intro kind hkind passed call rest e hsplit hpassed hcall
    have htakes := Source.takes_interfaceSchema source expand name kind
    rw [hrun kind hkind, htakes.fails passed call rest e hsplit hpassed hcall]
    rfl
  have hsucceeds : ∀ kind, Kind.classify? name = some kind →
      (∀ call ∈ source.directCalls name kind, source.failure? call = none) →
        ∃ schema, resolveWith source expand name = ⟨.ok ⟨name, schema⟩,
            (source.directCalls name kind).flatMap (source.callsOf expand)⟩ ∧
          schema.kind = kind ∧ source.IsSchema expand name schema := by
    intro kind hkind hall
    have htakes := Source.takes_interfaceSchema source expand name kind
    obtain ⟨schema, hschema, hvalue⟩ := htakes.succeeds hall
    exact ⟨schema, by rw [hrun kind hkind, hvalue]; rfl, hschema⟩
  refine ⟨fun hnone => ?_, fun kind hkind => ⟨fun ⟨e, he⟩ => ?_, fun hcall => ?_⟩, hfails,
    hsucceeds⟩
  · rw [resolveWith, hnone]
    rfl
  · refine Classical.byContradiction fun hno => ?_
    have hall : ∀ call ∈ source.directCalls name kind, source.failure? call = none :=
      fun call hcall => Option.not_isSome_iff_eq_none.mp fun hsome => hno ⟨call, hcall, hsome⟩
    obtain ⟨schema, hvalue, -⟩ := hsucceeds kind hkind hall
    rw [hvalue] at he
    cases he
  · obtain ⟨passed, call, rest, e, hsplit, hpassed, hcall⟩ := Source.exists_first_failure hcall
    exact ⟨_, congrArg Traced.value (hfails kind hkind passed call rest e hsplit hpassed hcall)⟩

/-- **Only the direct calls of a resolution can make it fail.** A name without the marker of a kind
is refused without any call. For any other name the direct calls are made in order, with the calls
inside the expansion of each record that was found directly behind the call for it. If one of them
fails, its error is the reason given and no call comes after it. Otherwise the interface has the
name and its kind, and each part of its schema is the expansion of the record looked up for it.

This is so over any source and for any way to expand records, so what calls inside an expansion
give plays no part. Over a lookup a record is expanded by a walk of its fields with that record on
the chain. -/
theorem isResolution_resolve :
    (∀ (source : Source) (expand : String → List Field → Traced RecordSchema) (name : String),
      IsResolution source expand name (resolveWith source expand name)) ∧
    ∀ (lookup : Lookup) (name : String),
      IsResolution lookup.toSource (walkRecord lookup []) name (resolve lookup name) :=
  ⟨isResolution_resolveWith, fun lookup => isResolution_resolveWith lookup.toSource _⟩

/-- A lookup that has the request of one service, and no response. -/
def requestOnly : Lookup where
  record name := if name = "demo/srv/Echo_Request" then .ok [] else .error (.notFound name)
  service name := .ok (ServiceParts.names name)
  action name := .error (.notFound name)
  finite := by
    refine ⟨["demo/srv/Echo_Request"], fun name fields h => ?_⟩
    split at h
    · rename_i hname
      exact List.mem_singleton.mpr hname
    · cases h

theorem resolve_requestOnly : resolve requestOnly "demo/srv/Echo" =
    ⟨.error (.typeNotFound "demo/srv/Echo" (.notFound "demo/srv/Echo_Response")),
      [.service "demo/srv/Echo", .record "demo/srv/Echo_Request",
        .record "demo/srv/Echo_Response"]⟩ := by
  have hwalk? : (Resolver.under []).walkRecord? requestOnly.record 0 "demo/srv/Echo_Request" []
      = some (Table.empty, ((Resolver.under []).enter "demo/srv/Echo_Request").leave) := rfl
  have hcalls : (walkRecord requestOnly [] "demo/srv/Echo_Request" []).calls = [] := by
    rw [walkRecord_eq_of_walkRecord? hwalk?]
    rfl
  have hfails := (isResolution_resolve.2 requestOnly "demo/srv/Echo").fails .service (by decide)
    [.service "demo/srv/Echo", .record "demo/srv/Echo_Request"] (.record "demo/srv/Echo_Response")
    [] (.notFound "demo/srv/Echo_Response") (by decide) (by decide) (by decide)
  have hrequest : requestOnly.callsOf (walkRecord requestOnly []) (.record "demo/srv/Echo_Request")
      = [.record "demo/srv/Echo_Request"] :=
    congrArg (Call.record "demo/srv/Echo_Request" :: ·) hcalls
  rw [List.flatMap_cons, List.flatMap_cons, hrequest] at hfails
  exact hfails

end RosInterface
