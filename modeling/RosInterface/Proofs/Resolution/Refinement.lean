import RosInterface.Registry
import RosInterface.Proofs.Expansion.Refinement
import RosInterface.Proofs.Resolution.DirectCalls

/-!
# Resolution over more definitions

A source that answers all that another one answers, in the same way, resolves every name that the
other one resolves. The two schemas differ only in the fields of records that the larger source
knows and the smaller one does not. So definitions that come later never take anything away from a
schema and never change what is there. Putting records of new names into a registry is a case of
this, as it leaves every earlier answer as it is.

## Main definitions

* `Source.Within`: a source that answers all that another one answers.
* `Source.IsExpandedBy`: a way to expand a record that follows the run of a resolver.
* `Source.EndsOver`: the expansions of the records of an interface end.
* `InterfaceSchema.ExpandsTo`: the same schema with the fields of some records added.

## Main results

* `Registry.within_extend`: records of new names leave the answers of a registry as they are.
* `Source.IsSchema.exists_expandsTo`: the schema of an interface over more definitions.
* `expandsTo_of_within`: over more definitions only fields are added.
-/

namespace RosInterface

/-- What the first source answers the second one answers too, in the same way. -/
structure Source.Within (less more : Source) : Prop where
  record : RecordSource.Within less.record more.record
  service : ∀ name parts, less.service name = .ok parts → more.service name = .ok parts
  action : ∀ name parts, less.action name = .ok parts → more.action name = .ok parts

/-- The record is known to the second source and not to the first. -/
def Source.NewIn (less more : Source) : String → Prop :=
  RecordSource.NewIn less.record more.record

/-- If the record of a name is found, `expand` gives what a resolver that is describing no record
comes to for it, to whatever depth that takes. -/
def Source.IsExpandedBy (source : Source) (expand : String → List Field → Traced RecordSchema)
    (name : String) : Prop :=
  ∀ fields, source.record name = .ok fields → ∃ depth after,
    Resolver.fresh.walkRecord? source.record depth name fields
      = some ((expand name fields).value, after)

/-- The expansions of the records that an interface is made of end over both sources. -/
def Source.EndsOver (less more : Source)
    (expand expand' : String → List Field → Traced RecordSchema) (name : String) (kind : Kind) :
    Prop :=
  ∀ part, .record part ∈ less.directCalls name kind →
    less.IsExpandedBy expand part ∧ more.IsExpandedBy expand' part

theorem Lookup.isExpandedBy (lookup : Lookup) (name : String) :
    lookup.toSource.IsExpandedBy (walkRecord lookup []) name := by
  intro fields _
  obtain ⟨depth, after, h, -⟩ := exists_walkRecord?_of_lookup lookup [] name fields
  exact ⟨depth, after, h⟩

/-! ### Registries -/

/-- Records of new names leave every answer of a registry as it is. -/
theorem Registry.within_extend {registry : Registry} {records : List Record}
    (h : ∀ record ∈ records, registry.contains record.name = false) :
    registry.lookup.toSource.Within (registry.extend records).lookup.toSource := by
  have hkept : ∀ name, registry.contains name = true →
      (registry.extend records).records.get? name = registry.records.get? name := by
    intro name hname
    refine get?_extend (fun record hrecord he => ?_) registry
    rw [← he, h record hrecord] at hname
    cases hname
  have hcontains : ∀ name, registry.contains name = true →
      (registry.extend records).contains name = true := by
    intro name hname
    rw [contains, Table.contains, hkept name hname]
    exact hname
  constructor
  · intro name fields hrecord
    have hget : registry.records.get? name = some fields := record_eq_ok_iff.mp hrecord
    have hname : registry.contains name = true := by
      rw [contains, Table.contains, hget]
      rfl
    exact record_eq_ok_iff.mpr ((hkept name hname).trans hget)
  · intro name parts hservice
    obtain ⟨hparts, hall⟩ := service_eq_ok_iff.mp hservice
    exact service_eq_ok_iff.mpr ⟨hparts, fun part hpart => hcontains part (hall part hpart)⟩
  · intro name parts haction
    obtain ⟨hparts, hall⟩ := action_eq_ok_iff.mp haction
    exact action_eq_ok_iff.mpr ⟨hparts, fun part hpart => hcontains part (hall part hpart)⟩

/-! ### Schemas of interfaces -/

/-- The second schema is of the same kind as the first one and has the fields of some records
added in its parts. -/
inductive InterfaceSchema.ExpandsTo (new : String → Prop) :
    InterfaceSchema → InterfaceSchema → Prop
  | message {record record' : RecordSchema} (h : record.ExpandsTo new record') :
    ExpandsTo new (.message record) (.message record')
  | service {parts parts' : ServiceParts RecordSchema}
    (request : parts.request.ExpandsTo new parts'.request)
    (response : parts.response.ExpandsTo new parts'.response) :
    ExpandsTo new (.service parts) (.service parts')
  | action {parts parts' : ActionParts RecordSchema}
    (goal : parts.goal.ExpandsTo new parts'.goal)
    (result : parts.result.ExpandsTo new parts'.result)
    (feedback : parts.feedback.ExpandsTo new parts'.feedback) :
    ExpandsTo new (.action parts) (.action parts')

theorem InterfaceSchema.ExpandsTo.kind_eq {new : String → Prop}
    {schema schema' : InterfaceSchema} (h : schema.ExpandsTo new schema') :
    schema'.kind = schema.kind := by
  cases h <;> rfl

namespace Source

variable {less more : Source} {expand expand' : String → List Field → Traced RecordSchema}

/-- A record that the smaller source knows has the same fields over the larger one, in which fields
are added. -/
theorem IsExpansion.exists_expandsTo (h : less.Within more) {name : String}
    {schema : RecordSchema} (hs : less.IsExpansion expand name schema)
    (hless : less.IsExpandedBy expand name) (hmore : more.IsExpandedBy expand' name) :
    ∃ schema', more.IsExpansion expand' name schema' ∧
      schema.ExpandsTo (less.NewIn more) schema' := by
  obtain ⟨fields, hr, rfl⟩ := hs
  have hr' : more.record name = .ok fields := h.record name fields hr
  obtain ⟨depth, after, hrun⟩ := hless fields hr
  obtain ⟨depth', after', hrun'⟩ := hmore fields hr'
  exact ⟨_, ⟨fields, hr', rfl⟩, Resolver.expandsTo_of_walkRecord? h.record rfl hrun hrun'⟩

/-- An interface that the smaller source has is there in the larger one, with fields added. -/
theorem IsSchema.exists_expandsTo (h : less.Within more) {name : String}
    {schema : InterfaceSchema} (hs : less.IsSchema expand name schema)
    (hends : less.EndsOver more expand expand' name schema.kind) :
    ∃ schema', more.IsSchema expand' name schema' ∧
      schema.ExpandsTo (less.NewIn more) schema' := by
  have hpart : ∀ {part : String} {record : RecordSchema},
      .record part ∈ less.directCalls name schema.kind → less.IsExpansion expand part record →
        ∃ record', more.IsExpansion expand' part record' ∧
          record.ExpandsTo (less.NewIn more) record' :=
    fun hcall hrecord => hrecord.exists_expandsTo h (hends _ hcall).1 (hends _ hcall).2
  cases schema with
  | message record =>
    obtain ⟨record', hrecord', hx⟩ := hpart (List.mem_singleton_self _) hs
    exact ⟨.message record', hrecord', .message hx⟩
  | service schemas =>
    obtain ⟨parts, hparts, hrequest, hresponse⟩ := hs
    simp only [InterfaceSchema.kind, directCalls, hparts, ServiceParts.toList] at hpart
    obtain ⟨request, hrequest', hx₁⟩ := hpart (by simp) hrequest
    obtain ⟨response, hresponse', hx₂⟩ := hpart (by simp) hresponse
    exact ⟨.service ⟨request, response⟩,
      ⟨parts, h.service name parts hparts, hrequest', hresponse'⟩, .service hx₁ hx₂⟩
  | action schemas =>
    obtain ⟨parts, hparts, hgoal, hresult, hfeedback⟩ := hs
    simp only [InterfaceSchema.kind, directCalls, hparts, ActionParts.toList] at hpart
    obtain ⟨goal, hgoal', hx₁⟩ := hpart (by simp) hgoal
    obtain ⟨result, hresult', hx₂⟩ := hpart (by simp) hresult
    obtain ⟨feedback, hfeedback', hx₃⟩ := hpart (by simp) hfeedback
    exact ⟨.action ⟨goal, result, feedback⟩,
      ⟨parts, h.action name parts hparts, hgoal', hresult', hfeedback'⟩, .action hx₁ hx₂ hx₃⟩

/-- A name that is resolved over the smaller source is resolved over the larger one. -/
theorem exists_resolveWith_expandsTo (h : less.Within more) {name : String}
    {resolved : ResolvedInterface} (hends : less.EndsOver more expand expand' name resolved.kind)
    (hres : (resolveWith less expand name).value = .ok resolved) :
    ∃ resolved', (resolveWith more expand' name).value = .ok resolved' ∧
      resolved'.name = resolved.name ∧
        resolved.schema.ExpandsTo (less.NewIn more) resolved'.schema := by
  obtain ⟨hname, hkind, hs⟩ := value_resolveWith_eq_ok_iff.mp hres
  obtain ⟨schema', hs', hx⟩ := hs.exists_expandsTo h hends
  have hkind' : Kind.classify? name = some schema'.kind := by rw [hx.kind_eq]; exact hkind
  exact ⟨⟨name, schema'⟩, value_resolveWith_eq_ok_iff.mpr ⟨rfl, hkind', hs'⟩, hname.symm, hx⟩

end Source

/-- **Over more definitions only fields are added to a schema.** Let one source answer all that
another one answers, in the same way. Take a descriptor, a field list, or the fields of a record,
and runs over the two sources that begin on the same chain. Then the results are the same but for
nodes that have a name only over the smaller source, the name of a record that only the larger one
knows, and have the fields of this record over the larger one. Every name that the smaller source
resolves is resolved by the larger one, with the same name and kind and such a schema.

This is so over all sources, wherever the runs end; for a name these are the expansions of the
records that the interface is made of. Over lookups runs always end. Records of new names make a
registry such a larger source. -/
theorem expandsTo_of_within :
    (∀ less more : RecordSource, less.Within more → ∀ (depth depth' : Nat) (r r' : Resolver),
      r'.chain = r.chain →
        (∀ d node node' after after', r.convert? less depth d = some (node, after) →
          r'.convert? more depth' d = some (node', after') →
            node.ExpandsTo (less.NewIn more) node') ∧
        (∀ fields schema schema' after after',
          r.walk? less depth fields = some (schema, after) →
            r'.walk? more depth' fields = some (schema', after') →
              schema.ExpandsTo (less.NewIn more) schema') ∧
        ∀ name fields schema schema' after after',
          r.walkRecord? less depth name fields = some (schema, after) →
            r'.walkRecord? more depth' name fields = some (schema', after') →
              schema.ExpandsTo (less.NewIn more) schema') ∧
    (∀ (less more : Source) (expand expand' : String → List Field → Traced RecordSchema),
      less.Within more → ∀ name resolved, less.EndsOver more expand expand' name resolved.kind →
        (resolveWith less expand name).value = .ok resolved →
          ∃ resolved', (resolveWith more expand' name).value = .ok resolved' ∧
            resolved'.name = resolved.name ∧
              resolved.schema.ExpandsTo (less.NewIn more) resolved'.schema) ∧
    (∀ less more : Lookup, less.toSource.Within more.toSource →
      (∀ chain, (∀ d, (convert less chain d).value.ExpandsTo (less.NewIn more.toSource)
          (convert more chain d).value) ∧
        (∀ fields, (walk less chain fields).value.ExpandsTo (less.NewIn more.toSource)
          (walk more chain fields).value) ∧
        ∀ name fields, (walkRecord less chain name fields).value.ExpandsTo
          (less.NewIn more.toSource) (walkRecord more chain name fields).value) ∧
      ∀ name resolved, (resolve less name).value = .ok resolved →
        ∃ resolved', (resolve more name).value = .ok resolved' ∧
          resolved'.name = resolved.name ∧
            resolved.schema.ExpandsTo (less.NewIn more.toSource) resolved'.schema) ∧
    ∀ (registry : Registry) (records : List Record),
      (∀ record ∈ records, registry.contains record.name = false) →
        registry.lookup.toSource.Within (registry.extend records).lookup.toSource := by
  refine ⟨fun less more h depth depth' r r' hchain => ⟨?_, ?_, ?_⟩, ?_, ?_, ?_⟩
  · intro d node node' after after' hrun hrun'
    exact Resolver.expandsTo_of_convert? h hchain hrun hrun'
  · intro fields schema schema' after after' hrun hrun'
    exact Resolver.expandsTo_of_walk? h hchain hrun hrun'
  · intro name fields schema schema' after after' hrun hrun'
    exact Resolver.expandsTo_of_walkRecord? h hchain hrun hrun'
  · intro less more expand expand' h name resolved hends hres
    exact Source.exists_resolveWith_expandsTo h hends hres
  · intro less more h
    refine ⟨fun chain => ⟨convert_expandsTo chain h.record, walk_expandsTo chain h.record,
      walkRecord_expandsTo chain h.record⟩, fun name resolved hres => ?_⟩
    exact Source.exists_resolveWith_expandsTo h
      (fun part _ => ⟨less.isExpandedBy part, more.isExpandedBy part⟩) hres
  · exact fun registry records h => Registry.within_extend h

/-! ### A record that comes later -/

/-- The fields of a robot. -/
def robotFields : List Field :=
  [⟨"arms", .sequence (.record "demo/msg/Arm") (.fixed 2)⟩, ⟨"base", .record "demo/msg/Base"⟩]

/-- A registry of robots without their arms. -/
def armless : Registry :=
  .ofList [⟨"demo/msg/Robot", robotFields⟩, ⟨"demo/msg/Base", [⟨"x", .primitive "double"⟩]⟩]

/-- The arm of a robot, which refers to the robot and to its base. -/
def armRecord : Record :=
  ⟨"demo/msg/Arm", [⟨"owner", .record "demo/msg/Robot"⟩, ⟨"mount", .record "demo/msg/Base"⟩]⟩

/-- The schema of a robot with a node for its arms. -/
def robotSchema (arm : Node) : RecordSchema :=
  ⟨[("arms", .array arm (.fixed 2)),
    ("base", .record "demo/msg/Base" ⟨[("x", .named "double")]⟩)]⟩

/-- The node of an arm with its fields. The robot is not followed again in it. -/
def armNode : Node :=
  .record "demo/msg/Arm" ⟨[("owner", .named "demo/msg/Robot"),
    ("mount", .record "demo/msg/Base" ⟨[("x", .named "double")]⟩)]⟩

/-- The schema of a robot has the fields of its arms once these are in the registry. -/
theorem robotSchema_expandsTo :
    (∀ record ∈ [armRecord], armless.contains record.name = false) ∧
    (resolve armless.lookup "demo/msg/Robot").value
      = .ok ⟨"demo/msg/Robot", .message (robotSchema (.named "demo/msg/Arm"))⟩ ∧
    (resolve (armless.extend [armRecord]).lookup "demo/msg/Robot").value
      = .ok ⟨"demo/msg/Robot", .message (robotSchema armNode)⟩ ∧
    (InterfaceSchema.message (robotSchema (.named "demo/msg/Arm"))).ExpandsTo
      (armless.lookup.NewIn (armless.extend [armRecord]).lookup.toSource)
      (.message (robotSchema armNode)) := by
  have hnew : ∀ record ∈ [armRecord], armless.contains record.name = false := by decide
  obtain ⟨after, hrun⟩ : ∃ after, Resolver.fresh.walkRecord? armless.lookup.record 1
      "demo/msg/Robot" robotFields = some (robotSchema (.named "demo/msg/Arm"), after) :=
    ⟨_, rfl⟩
  obtain ⟨after', hrun'⟩ : ∃ after, Resolver.fresh.walkRecord?
      (armless.extend [armRecord]).lookup.record 2 "demo/msg/Robot" robotFields
        = some (robotSchema armNode, after) := ⟨_, rfl⟩
  have hless := congrArg Traced.value (resolve_message (by decide) rfl hrun)
  have hmore := congrArg Traced.value (resolve_message (by decide) rfl hrun')
  have hwithin := expandsTo_of_within.2.2.2 armless [armRecord] hnew
  obtain ⟨resolved, hresolved, -, hx⟩ :=
    (expandsTo_of_within.2.2.1 _ _ hwithin).2 "demo/msg/Robot" _ hless
  rw [hmore] at hresolved
  cases hresolved
  exact ⟨hnew, hless, hmore, hx⟩

end RosInterface
