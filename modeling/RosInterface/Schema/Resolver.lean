import RosInterface.Lookup
import RosInterface.Traced
import RosInterface.Schema.Node

/-!
# Resolvers

A descriptor becomes a node by looking up the records that it refers to and describing their
fields in turn. A *resolver* does so. Its *chain* holds the names of the records whose fields are
being described: a name is put on it before the fields are walked and taken off afterwards. A
reference to a record on the chain is not followed, and neither is one that cannot be looked up:
both become a node with the name only.

Nothing here asks where the fields of records come from. If ever more records can be looked up,
their expansion may have no end. So an expansion is given a *depth*, the number of records that
may be expanded inside one another, and has no result where that is not enough. A larger depth
changes nothing in a result, and `Schema.Expansion` says which depth is always enough.

## Main definitions

* `RecordSource`: what answers for the fields of records.
* `Resolver`: the chain, with what has been done so far.
* `Resolver.convert?`, `Resolver.walk?`, `Resolver.walkRecord?`: descriptors and field lists, each
  with the resolver afterwards.

## Main results

* `Resolver.convert?_record_of_mem`, `Resolver.convert?_record_of_error`,
  `Resolver.convert?_record_of_ok`: what becomes of a reference to a record.
* `Resolver.run_induction`: what every step keeps is kept by every expansion that ends.
* `Resolver.run_mono`: a larger depth gives the same result.
* `Resolver.run_frame`: a resolver goes by its chain only, and leaves the chain as it was.
-/

namespace RosInterface

/-- What answers for the fields of records. -/
abbrev RecordSource :=
  String → Except LookupError (List Field)

/-- What expands records. -/
structure Resolver where
  /-- The names of the records whose fields are being described, the innermost first. -/
  chain : List String
  /-- The lookups made so far, the earliest first. -/
  calls : List Call
  /-- The chains there have been so far, the latest first. -/
  chains : List (List String)

namespace Resolver

/-- A resolver that has done nothing yet, with a given chain. -/
def under (chain : List String) : Resolver :=
  ⟨chain, [], [chain]⟩

/-- A resolver that is describing no record. -/
def fresh : Resolver :=
  under []

/-- The resolver after a lookup of a record. -/
def asked (resolver : Resolver) (name : String) : Resolver :=
  { resolver with calls := resolver.calls ++ [.record name] }

/-- The resolver once a record is on the chain. -/
def enter (resolver : Resolver) (name : String) : Resolver :=
  let chain := name :: resolver.chain
  { resolver with chain, chains := chain :: resolver.chains }

/-- The resolver once the innermost record is off the chain. -/
def leave (resolver : Resolver) : Resolver :=
  let chain := resolver.chain.tail
  { resolver with chain, chains := chain :: resolver.chains }

/-- The resolver after further lookups and through further chains, with its chain as before. -/
def later (resolver : Resolver) (calls : List Call) (chains : List (List String)) : Resolver :=
  { resolver with calls := resolver.calls ++ calls, chains := chains ++ resolver.chains }

/-! ### Descriptors and field lists -/

section

variable (ofRecord? : Resolver → String → Option (Node × Resolver))

/-- The node of a descriptor, where `ofRecord?` gives the nodes of records. -/
def convertWith (resolver : Resolver) : Descriptor → Option (Node × Resolver)
  | .primitive name => some (.named name, resolver)
  | .string maxLength => some (.string maxLength, resolver)
  | .sequence element extent => do
    let (items, resolver) ← convertWith resolver element
    return (.array items extent, resolver)
  | .record name => ofRecord? resolver name
  | .unknown tag => some (.named tag, resolver)

/-- A record schema with the nodes of further fields put in, where `ofRecord?` gives the nodes of
records. Fields that hold no data are passed over. -/
def walkOntoWith (resolver : Resolver) (schema : RecordSchema) :
    List Field → Option (RecordSchema × Resolver)
  | [] => some (schema, resolver)
  | field :: rest =>
    if field.isBookkeeping then walkOntoWith resolver schema rest
    else do
      let (node, resolver) ← convertWith ofRecord? resolver field.descriptor
      walkOntoWith resolver (schema.insert field.name node) rest

/-- The record schema of the fields of a record, which is on the chain meanwhile. -/
def walkRecordWith (resolver : Resolver) (name : String) (fields : List Field) :
    Option (RecordSchema × Resolver) := do
  let (schema, resolver) ← walkOntoWith ofRecord? (resolver.enter name) Table.empty fields
  return (schema, resolver.leave)

end

variable (record : RecordSource)

/-- The node of a record: its name alone if it is on the chain or cannot be looked up, else also
the nodes of its fields, in which records are expanded to one depth less. -/
def expand? (depth : Nat) (resolver : Resolver) (name : String) : Option (Node × Resolver) :=
  if name ∈ resolver.chain then some (.named name, resolver)
  else
    match record name with
    | .error _ => some (.named name, resolver.asked name)
    | .ok fields =>
      match depth with
      | 0 => none
      | depth + 1 => do
        let (schema, resolver) ←
          walkRecordWith (expand? depth) (resolver.asked name) name fields
        return (.record name schema, resolver)

variable (depth : Nat)

/-- The node of a descriptor, with records expanded to a depth. -/
def convert? (resolver : Resolver) (descriptor : Descriptor) : Option (Node × Resolver) :=
  convertWith (expand? record depth) resolver descriptor

/-- A record schema with the nodes of further fields put in, with records expanded to a depth. -/
def walkOnto? (resolver : Resolver) (schema : RecordSchema) (fields : List Field) :
    Option (RecordSchema × Resolver) :=
  walkOntoWith (expand? record depth) resolver schema fields

/-- The record schema of a field list, with records expanded to a depth. -/
def walk? (resolver : Resolver) (fields : List Field) : Option (RecordSchema × Resolver) :=
  walkOnto? record depth resolver Table.empty fields

/-- The record schema of the fields of a record, which is on the chain meanwhile, with records in
them expanded to a depth. -/
def walkRecord? (resolver : Resolver) (name : String) (fields : List Field) :
    Option (RecordSchema × Resolver) :=
  walkRecordWith (expand? record depth) resolver name fields

/-! ### What single steps do -/

@[simp] theorem chain_asked (resolver : Resolver) (name : String) :
    (resolver.asked name).chain = resolver.chain :=
  rfl

@[simp] theorem chain_enter (resolver : Resolver) (name : String) :
    (resolver.enter name).chain = name :: resolver.chain :=
  rfl

@[simp] theorem chain_leave (resolver : Resolver) :
    resolver.leave.chain = resolver.chain.tail :=
  rfl

@[simp] theorem chain_under (chain : List String) : (under chain).chain = chain :=
  rfl

@[simp] theorem chain_later (resolver : Resolver) (calls : List Call)
    (chains : List (List String)) : (resolver.later calls chains).chain = resolver.chain :=
  rfl

@[simp] theorem later_nil (resolver : Resolver) : resolver.later [] [] = resolver := by
  simp [later]

theorem later_later (resolver : Resolver) (calls calls' : List Call)
    (chains chains' : List (List String)) :
    (resolver.later calls chains).later calls' chains'
      = resolver.later (calls ++ calls') (chains' ++ chains) := by
  simp [later]

variable {record depth} {resolver : Resolver}

theorem convert?_primitive (name : String) :
    resolver.convert? record depth (.primitive name) = some (.named name, resolver) :=
  rfl

theorem convert?_string (maxLength : Option Nat) :
    resolver.convert? record depth (.string maxLength) = some (.string maxLength, resolver) :=
  rfl

theorem convert?_unknown (tag : String) :
    resolver.convert? record depth (.unknown tag) = some (.named tag, resolver) :=
  rfl

theorem convert?_sequence_eq_some {element : Descriptor} {extent : Extent}
    {out : Node × Resolver} :
    resolver.convert? record depth (.sequence element extent) = some out ↔
      ∃ items after, resolver.convert? record depth element = some (items, after) ∧
        out = (.array items extent, after) := by
  simp only [convert?, convertWith]
  constructor
  · intro h
    obtain ⟨⟨items, after⟩, hc, he⟩ := Option.bind_eq_some_iff.mp h
    exact ⟨items, after, hc, (Option.some.inj he).symm⟩
  · rintro ⟨items, after, hc, rfl⟩
    rw [hc]
    rfl

theorem walkRecord?_eq_some {name : String} {fields : List Field}
    {out : RecordSchema × Resolver} :
    resolver.walkRecord? record depth name fields = some out ↔
      ∃ schema after, (resolver.enter name).walk? record depth fields = some (schema, after) ∧
        out = (schema, after.leave) := by
  rw [walkRecord?, walkRecordWith]
  constructor
  · intro h
    obtain ⟨⟨schema, after⟩, hc, he⟩ := Option.bind_eq_some_iff.mp h
    exact ⟨schema, after, hc, (Option.some.inj he).symm⟩
  · rintro ⟨schema, after, hc, rfl⟩
    rw [walk?, walkOnto?] at hc
    rw [hc]
    rfl

/-- A reference to a record on the chain is not followed, and no lookup is made. -/
theorem convert?_record_of_mem {name : String} (h : name ∈ resolver.chain) :
    resolver.convert? record depth (.record name) = some (.named name, resolver) := by
  rw [convert?, convertWith, expand?, if_pos h]

/-- A reference to a record that cannot be looked up is not followed. -/
theorem convert?_record_of_error {name : String} {e : LookupError} (h : name ∉ resolver.chain)
    (hr : record name = .error e) :
    resolver.convert? record depth (.record name) = some (.named name, resolver.asked name) := by
  rw [convert?, convertWith, expand?, if_neg h, hr]

/-- A reference to another record is followed, if the depth allows it. -/
theorem convert?_record_of_ok {name : String} {fields : List Field} {out : Node × Resolver}
    (h : name ∉ resolver.chain) (hr : record name = .ok fields) :
    resolver.convert? record depth (.record name) = some out ↔
      ∃ below schema after, depth = below + 1 ∧
        (resolver.asked name).walkRecord? record below name fields = some (schema, after) ∧
          out = (.record name schema, after) := by
  rw [convert?, convertWith, expand?, if_neg h, hr]
  constructor
  · intro h
    cases depth with
    | zero => cases h
    | succ below =>
      obtain ⟨⟨schema, after⟩, hc, he⟩ := Option.bind_eq_some_iff.mp h
      exact ⟨below, schema, after, rfl, hc, (Option.some.inj he).symm⟩
  · rintro ⟨below, schema, after, rfl, hc, rfl⟩
    rw [walkRecord?] at hc
    simp only [hc]
    rfl

theorem walkOnto?_nil (schema : RecordSchema) :
    resolver.walkOnto? record depth schema [] = some (schema, resolver) :=
  rfl

theorem walkOnto?_of_bookkeeping {field : Field} (h : field.isBookkeeping = true)
    (schema : RecordSchema) (rest : List Field) :
    resolver.walkOnto? record depth schema (field :: rest) =
      resolver.walkOnto? record depth schema rest := by
  rw [walkOnto?, walkOntoWith, if_pos h, walkOnto?]

theorem walkOnto?_cons_eq_some {field : Field} (h : field.isBookkeeping = false)
    {schema : RecordSchema} {rest : List Field} {out : RecordSchema × Resolver} :
    resolver.walkOnto? record depth schema (field :: rest) = some out ↔
      ∃ node after, resolver.convert? record depth field.descriptor = some (node, after) ∧
        after.walkOnto? record depth (schema.insert field.name node) rest = some out := by
  rw [walkOnto?, walkOntoWith, if_neg (by simp [h])]
  constructor
  · intro h
    obtain ⟨⟨node, after⟩, hc, hw⟩ := Option.bind_eq_some_iff.mp h
    exact ⟨node, after, hc, hw⟩
  · rintro ⟨node, after, hc, hw⟩
    rw [convert?] at hc
    rw [hc]
    exact hw

/-! ### Whole expansions -/

/-- **Induction over an expansion.** What holds of every single step, given that it holds of the
expansions which the step is made of, holds of every expansion that ends. -/
theorem run_induction {P : Nat → Resolver → Descriptor → Node × Resolver → Prop}
    {Q : Nat → Resolver → RecordSchema → List Field → RecordSchema × Resolver → Prop}
    (primitive : ∀ depth r name, P depth r (.primitive name) (.named name, r))
    (string : ∀ depth r maxLength, P depth r (.string maxLength) (.string maxLength, r))
    (unknown : ∀ depth r tag, P depth r (.unknown tag) (.named tag, r))
    (sequence : ∀ depth r element extent items after,
      r.convert? record depth element = some (items, after) →
        P depth r element (items, after) →
          P depth r (.sequence element extent) (.array items extent, after))
    (cycle : ∀ depth r name, name ∈ r.chain → P depth r (.record name) (.named name, r))
    (missing : ∀ depth r name e, name ∉ r.chain → record name = .error e →
      P depth r (.record name) (.named name, r.asked name))
    (found : ∀ depth r name fields schema after, name ∉ r.chain → record name = .ok fields →
      ((r.asked name).enter name).walk? record depth fields = some (schema, after) →
        Q depth ((r.asked name).enter name) Table.empty fields (schema, after) →
          P (depth + 1) r (.record name) (.record name schema, after.leave))
    (done : ∀ depth r schema, Q depth r schema [] (schema, r))
    (skip : ∀ depth r schema field rest out, field.isBookkeeping = true →
      Q depth r schema rest out → Q depth r schema (field :: rest) out)
    (put : ∀ depth r schema field rest node between out, field.isBookkeeping = false →
      r.convert? record depth field.descriptor = some (node, between) →
        P depth r field.descriptor (node, between) →
          between.walkOnto? record depth (schema.insert field.name node) rest = some out →
            Q depth between (schema.insert field.name node) rest out →
              Q depth r schema (field :: rest) out) (depth : Nat) :
    (∀ r d out, r.convert? record depth d = some out → P depth r d out) ∧
      ∀ r schema fields out, r.walkOnto? record depth schema fields = some out →
        Q depth r schema fields out := by
  -- References to records are where the depth goes down. At one depth everything else follows
  -- the descriptor and the field list.
  have ofReferences (depth : Nat)
      (reference : ∀ r name out, r.convert? record depth (.record name) = some out →
        P depth r (.record name) out) :
      (∀ r d out, r.convert? record depth d = some out → P depth r d out) ∧
        ∀ r schema fields out, r.walkOnto? record depth schema fields = some out →
          Q depth r schema fields out := by
    have convert : ∀ r d out, r.convert? record depth d = some out → P depth r d out := by
      intro r d
      induction d generalizing r with
      | primitive name =>
        rintro out ⟨⟩
        exact primitive depth r name
      | string maxLength =>
        rintro out ⟨⟩
        exact string depth r maxLength
      | sequence element extent ih =>
        intro out h
        obtain ⟨items, after, hc, rfl⟩ := convert?_sequence_eq_some.mp h
        exact sequence depth r element extent items after hc (ih r _ hc)
      | record name => exact reference r name
      | unknown tag =>
        rintro out ⟨⟩
        exact unknown depth r tag
    refine ⟨convert, fun r schema fields => ?_⟩
    induction fields generalizing r schema with
    | nil =>
      rintro out ⟨⟩
      exact done depth r schema
    | cons field rest ih =>
      intro out h
      by_cases hb : field.isBookkeeping = true
      · rw [walkOnto?_of_bookkeeping hb] at h
        exact skip depth r schema field rest out hb (ih r schema out h)
      · rw [Bool.not_eq_true] at hb
        obtain ⟨node, between, hc, hw⟩ := (walkOnto?_cons_eq_some hb).mp h
        exact put depth r schema field rest node between out hb hc (convert r _ _ hc) hw
          (ih between _ out hw)
  induction depth using Nat.strongRecOn with
  | ind depth ih =>
    refine ofReferences depth fun r name out h => ?_
    by_cases hn : name ∈ r.chain
    · rw [convert?_record_of_mem hn] at h
      cases h
      exact cycle depth r name hn
    · cases hr : record name with
      | error e =>
        rw [convert?_record_of_error hn hr] at h
        cases h
        exact missing depth r name e hn hr
      | ok fields =>
        obtain ⟨below, schema, last, rfl, hrun, rfl⟩ := (convert?_record_of_ok hn hr).mp h
        obtain ⟨schema, after, hwalk, he⟩ := walkRecord?_eq_some.mp hrun
        cases he
        exact found below r name fields schema after hn hr hwalk
          ((ih below below.lt_succ_self).2 _ _ _ _ hwalk)

/-- **A larger depth gives the same result.** -/
theorem run_mono (depth : Nat) :
    (∀ (r : Resolver) d out, r.convert? record depth d = some out →
      ∀ top, depth ≤ top → r.convert? record top d = some out) ∧
    ∀ (r : Resolver) schema fields out, r.walkOnto? record depth schema fields = some out →
      ∀ top, depth ≤ top → r.walkOnto? record top schema fields = some out := by
  apply run_induction
  case primitive => exact fun _ r name _ _ => convert?_primitive name
  case string => exact fun _ r maxLength _ _ => convert?_string maxLength
  case unknown => exact fun _ r tag _ _ => convert?_unknown tag
  case sequence =>
    intro depth r element extent items after _ ih top hle
    exact convert?_sequence_eq_some.mpr ⟨items, after, ih top hle, rfl⟩
  case cycle => exact fun _ r name hn _ _ => convert?_record_of_mem hn
  case missing => exact fun _ r name e hn hr _ _ => convert?_record_of_error hn hr
  case found =>
    intro depth r name fields schema after hn hr _ ih top hle
    obtain ⟨below, rfl⟩ := Nat.exists_eq_add_of_lt (Nat.lt_of_succ_le hle)
    refine (convert?_record_of_ok hn hr).mpr ⟨depth + below, schema, after.leave, rfl, ?_, rfl⟩
    exact walkRecord?_eq_some.mpr ⟨schema, after, ih _ (Nat.le_add_right _ _), rfl⟩
  case done => exact fun _ r schema _ _ => walkOnto?_nil schema
  case skip =>
    intro depth r schema field rest out hb ih top hle
    rw [walkOnto?_of_bookkeeping hb, ih top hle]
  case put =>
    intro depth r schema field rest node between out hb _ ihNode _ ihRest top hle
    exact (walkOnto?_cons_eq_some hb).mpr ⟨node, between, ihNode top hle, ihRest top hle⟩

/-- A larger depth gives the same record schema for the fields of a record. -/
theorem walkRecord?_mono {name : String} {fields : List Field} {out : RecordSchema × Resolver}
    (h : resolver.walkRecord? record depth name fields = some out) (top : Nat)
    (hle : depth ≤ top) : resolver.walkRecord? record top name fields = some out := by
  obtain ⟨schema, after, hw, rfl⟩ := walkRecord?_eq_some.mp h
  exact walkRecord?_eq_some.mpr ⟨schema, after, (run_mono depth).2 _ _ _ _ hw top hle, rfl⟩

/-- **A resolver goes by its chain only.** Whatever was done before, the result is the same on the
same chain, with the same further lookups, and the chain is in the end what it was. -/
theorem run_frame (depth : Nat) :
    (∀ (r : Resolver) d out, r.convert? record depth d = some out → ∃ calls chains,
      ∀ r' : Resolver, r'.chain = r.chain →
        r'.convert? record depth d = some (out.1, r'.later calls chains)) ∧
      ∀ (r : Resolver) schema fields out, r.walkOnto? record depth schema fields = some out →
        ∃ calls chains, ∀ r' : Resolver, r'.chain = r.chain →
          r'.walkOnto? record depth schema fields = some (out.1, r'.later calls chains) := by
  apply run_induction
  case primitive =>
    exact fun _ r name => ⟨[], [], fun r' _ => by rw [convert?_primitive, later_nil]⟩
  case string =>
    exact fun _ r maxLength => ⟨[], [], fun r' _ => by rw [convert?_string, later_nil]⟩
  case unknown =>
    exact fun _ r tag => ⟨[], [], fun r' _ => by rw [convert?_unknown, later_nil]⟩
  case sequence =>
    rintro depth r element extent items after - ⟨calls, chains, ih⟩
    exact ⟨calls, chains, fun r' hr' =>
      convert?_sequence_eq_some.mpr ⟨items, _, ih r' hr', rfl⟩⟩
  case cycle =>
    intro depth r name hn
    exact ⟨[], [], fun r' hr' => by
      rw [convert?_record_of_mem (hr' ▸ hn), later_nil]⟩
  case missing =>
    intro depth r name e hn hr
    refine ⟨[.record name], [], fun r' hr' => ?_⟩
    rw [convert?_record_of_error (hr' ▸ hn) hr]
    rfl
  case found =>
    rintro depth r name fields schema after hn hr - ⟨calls, chains, ih⟩
    refine ⟨.record name :: calls, r.chain :: (chains ++ [name :: r.chain]), fun r' hr' => ?_⟩
    have hw := ih ((r'.asked name).enter name) (by simp [hr'])
    refine (convert?_record_of_ok (hr' ▸ hn) hr).mpr ⟨depth, schema, _, rfl,
      walkRecord?_eq_some.mpr ⟨schema, _, hw, rfl⟩, ?_⟩
    simp [later, leave, enter, asked, hr']
  case done =>
    exact fun _ r schema => ⟨[], [], fun r' _ => by rw [walkOnto?_nil, later_nil]⟩
  case skip =>
    rintro depth r schema field rest out hb ⟨calls, chains, ih⟩
    exact ⟨calls, chains, fun r' hr' => by rw [walkOnto?_of_bookkeeping hb, ih r' hr']⟩
  case put =>
    rintro depth r schema field rest node between out hb hnode ⟨calls₁, chains₁, ih₁⟩ -
      ⟨calls₂, chains₂, ih₂⟩
    -- The chain between the field and the rest is the chain before the field.
    have hbetween : between = r.later calls₁ chains₁ := by
      have hr := ih₁ r rfl
      rw [hnode] at hr
      exact congrArg Prod.snd (Option.some.inj hr)
    refine ⟨calls₁ ++ calls₂, chains₂ ++ chains₁, fun r' hr' => ?_⟩
    have hrest := ih₂ (r'.later calls₁ chains₁) (by rw [hbetween]; exact hr')
    refine (walkOnto?_cons_eq_some hb).mpr ⟨node, _, ih₁ r' hr', ?_⟩
    rw [hrest, later_later]

/-- A run only adds to what a resolver has done. -/
theorem exists_later_of_run (depth : Nat) :
    (∀ (r : Resolver) d out, r.convert? record depth d = some out →
      ∃ calls chains, out.2 = r.later calls chains) ∧
    ∀ (r : Resolver) schema fields out, r.walkOnto? record depth schema fields = some out →
      ∃ calls chains, out.2 = r.later calls chains := by
  constructor
  · intro r d out h
    obtain ⟨calls, chains, hframe⟩ := (run_frame depth).1 _ _ _ h
    exact ⟨calls, chains, congrArg Prod.snd (Option.some.inj (h.symm.trans (hframe r rfl)))⟩
  · intro r schema fields out h
    obtain ⟨calls, chains, hframe⟩ := (run_frame depth).2 _ _ _ _ h
    exact ⟨calls, chains, congrArg Prod.snd (Option.some.inj (h.symm.trans (hframe r rfl)))⟩

/-- Describing a descriptor leaves the chain as it was. -/
theorem chain_of_convert? {d : Descriptor} {node : Node} {after : Resolver}
    (h : resolver.convert? record depth d = some (node, after)) :
    after.chain = resolver.chain := by
  obtain ⟨calls, chains, hafter⟩ := (exists_later_of_run depth).1 _ _ _ h
  exact (congrArg Resolver.chain hafter).trans (chain_later resolver calls chains)

end Resolver

end RosInterface
