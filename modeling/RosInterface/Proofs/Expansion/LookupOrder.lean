import Mathlib.Data.List.Perm.Basic
import RosInterface.Proofs.Expansion.Dependence

/-!
# The order of lookups

The records of an expansion form a tree. Its root is what is expanded. Below a record stand the
references of its fields that hold data, in the order of declaration and each as often as it
occurs, if the record can be looked up and is not being described already. An expansion looks each
of these references up once, in the order of a walk through the tree that goes down before it goes
on. It looks nothing else up, and no record while that record is being described.

A reference in the tree is told by its *position*: the numbers of the references on the way to it.
The walk goes through the positions in the order of a dictionary, in which a way comes before its
continuations. As no two references have one position, the positions fix the lookups.

What becomes of the nodes plays no part. So a field counts even if a later one of the same name
takes its place, and so does a record that cannot be looked up.

## Main definitions

* `Descriptor.reference?`, `references`: the records that descriptors and field lists refer to.
* `Visit`, `Meets`: the references that are met, with their positions and the records around them.
* `IsDepthFirst`: the lookups of what is met, in the order of positions.

## Main results

* `IsDepthFirst.eq`: there is one such order.
* `IsDepthFirst.of_ok`, `IsDepthFirst.cons`: the lookups for one reference and for several.
* `Resolver.isDepthFirst_of_run`: every run looks up what it meets, depth first.
* `isDepthFirst_iff_eq_calls`: the same for descriptors, field lists and records.
-/

namespace RosInterface

/-- The record that a descriptor refers to. An array or a sequence refers to what its elements
refer to. -/
def Descriptor.reference? : Descriptor → Option String
  | .record name => some name
  | .sequence element _ => element.reference?
  | _ => none

/-- The records that the fields with data refer to, in the order of declaration and each as often
as it is referred to. -/
def references (fields : List Field) : List String :=
  (dataFields fields).filterMap fun field => field.descriptor.reference?

/-- A reference to a record that is met in an expansion. -/
structure Visit where
  /-- The numbers of the references on the way to this one, the outermost first, and its own. -/
  position : List Nat
  /-- The records that are being described around the reference, the innermost first. -/
  chain : List String
  /-- The record that is referred to. -/
  name : String

namespace Visit

/-- The visit as it is seen from outside, where the way to it goes through a reference of the given
number. -/
def below (number : Nat) (visit : Visit) : Visit :=
  { visit with position := number :: visit.position }

/-- The lookup of the record that is referred to. -/
def call (visit : Visit) : Call :=
  .record visit.name

end Visit

/-- What is met at a reference to a record. A record that is on the chain is not met. Any other one
is, and if it can be looked up, so is what its references lead to with the record on the chain. -/
inductive Meets (record : RecordSource) : List String → String → Visit → Prop
  /-- The reference itself. -/
  | here {chain : List String} {name : String} (hn : name ∉ chain) :
    Meets record chain name ⟨[], chain, name⟩
  /-- What is met at a reference of the record. -/
  | inside {chain : List String} {name inner : String} {fields : List Field} {number : Nat}
    {visit : Visit} (hn : name ∉ chain) (hr : record name = .ok fields)
    (hi : (references fields)[number]? = some inner)
    (h : Meets record (name :: chain) inner visit) : Meets record chain name (visit.below number)

/-- What is met at several references, which are numbered from `first` on. -/
def MeetsFrom (record : RecordSource) (chain : List String) (first : Nat) (names : List String)
    (visit : Visit) : Prop :=
  ∃ number name inner, names[number]? = some name ∧ Meets record chain name inner ∧
    visit = inner.below (first + number)

/-- What is met in the expansion of a descriptor. -/
def Descriptor.Meets (record : RecordSource) (chain : List String) (descriptor : Descriptor)
    (visit : Visit) : Prop :=
  ∃ name, descriptor.reference? = some name ∧ RosInterface.Meets record chain name visit

/-- What is met in the expansion of a field list. -/
def FieldsMeet (record : RecordSource) (chain : List String) (fields : List Field)
    (visit : Visit) : Prop :=
  MeetsFrom record chain 0 (references fields) visit

/-- The lookups of all that is met, one for each position, in the order of a dictionary. -/
def IsDepthFirst (met : Visit → Prop) (calls : List Call) : Prop :=
  ∃ visits : List Visit, visits.Pairwise (fun v w => v.position < w.position) ∧
    (∀ visit, visit ∈ visits ↔ met visit) ∧ calls = visits.map Visit.call

variable {record : RecordSource} {chain : List String} {name : String}

/-! ### What is referred to -/

theorem references_cons_of_bookkeeping {field : Field} (hb : field.isBookkeeping = true)
    (rest : List Field) : references (field :: rest) = references rest := by
  have hdata : dataFields (field :: rest) = dataFields rest :=
    List.filter_cons_of_neg (by simp [hb])
  rw [references, hdata, references]

theorem references_cons {field : Field} (hb : field.isBookkeeping = false) (rest : List Field) :
    references (field :: rest) = field.descriptor.reference?.toList ++ references rest := by
  have hdata : dataFields (field :: rest) = field :: dataFields rest :=
    List.filter_cons_of_pos (by simp [hb])
  rw [references, hdata, references, List.filterMap_cons]
  cases field.descriptor.reference? <;> rfl

/-! ### What is met -/

theorem not_meets_of_mem (hn : name ∈ chain) (visit : Visit) : ¬Meets record chain name visit := by
  intro h
  cases h with
  | here hn' => exact hn' hn
  | inside hn' => exact hn' hn

/-- Behind a record that cannot be looked up nothing is met. -/
theorem meets_iff_of_error (hn : name ∉ chain) {e : LookupError} (hr : record name = .error e)
    {visit : Visit} : Meets record chain name visit ↔ visit = ⟨[], chain, name⟩ := by
  constructor
  · intro h
    cases h with
    | here => rfl
    | inside _ hr' =>
      rw [hr] at hr'
      cases hr'
  · rintro rfl
    exact .here hn

/-- At a record that can be looked up, the record is met and what its references lead to. -/
theorem meets_iff_of_ok (hn : name ∉ chain) {fields : List Field} (hr : record name = .ok fields)
    {visit : Visit} : Meets record chain name visit ↔
      visit = ⟨[], chain, name⟩ ∨ FieldsMeet record (name :: chain) fields visit := by
  constructor
  · intro h
    cases h with
    | here => exact .inl rfl
    | inside _ hr' hi h =>
      rw [hr] at hr'
      cases hr'
      exact .inr ⟨_, _, _, hi, h, by rw [Nat.zero_add]⟩
  · rintro (rfl | ⟨number, inner, visit, hi, h, rfl⟩)
    · exact .here hn
    · rw [Nat.zero_add]
      exact .inside hn hr hi h

/-- At the first of several references its own visits are met, and then those at the others. -/
theorem meetsFrom_cons_iff {first : Nat} {names : List String} {visit : Visit} :
    MeetsFrom record chain first (name :: names) visit ↔
      (∃ inner, Meets record chain name inner ∧ visit = inner.below first) ∨
        MeetsFrom record chain (first + 1) names visit := by
  constructor
  · rintro ⟨_ | number, other, inner, hi, h, rfl⟩
    · cases hi
      exact .inl ⟨inner, h, rfl⟩
    · exact .inr ⟨number, other, inner, hi, h, by rw [Nat.add_right_comm, Nat.add_assoc]⟩
  · rintro (⟨inner, h, rfl⟩ | ⟨number, other, inner, hi, h, rfl⟩)
    · exact ⟨0, name, inner, rfl, h, rfl⟩
    · exact ⟨number + 1, other, inner, hi, h, by rw [Nat.add_right_comm, Nat.add_assoc]⟩

/-- A record that is met is not being described, and the records that are being described around it
are those that were on the chain and others, none of them twice. -/
theorem Meets.exists_chain_eq {visit : Visit} (h : Meets record chain name visit) :
    ∃ outer, visit.chain = outer ++ chain ∧ (visit.name :: outer).Nodup ∧
      ∀ other ∈ visit.name :: outer, other ∉ chain := by
  induction h with
  | here hn => exact ⟨[], rfl, by simp, by simpa using hn⟩
  | @inside chain name _ _ _ visit hn _ _ _ ih =>
    obtain ⟨outer, hchain, hnodup, hnew⟩ := ih
    have hname : name ∉ visit.name :: outer := fun hmem => hnew name hmem List.mem_cons_self
    refine ⟨outer ++ [name], by simp [Visit.below, hchain], ?_, fun other hother => ?_⟩
    · refine List.nodup_append.mpr ⟨hnodup, by simp, fun other hother outermost houtermost => ?_⟩
      rw [List.mem_singleton.mp houtermost]
      exact fun heq => hname (heq ▸ hother)
    · rw [← List.cons_append, List.mem_append, List.mem_singleton] at hother
      rcases hother with hother | rfl
      · exact fun hmem => hnew other hother (List.mem_cons_of_mem _ hmem)
      · exact hn

/-! ### The lookups of what is met -/

namespace IsDepthFirst

variable {met : Visit → Prop} {calls calls' : List Call}

/-- **What is met has one order.** -/
theorem eq (h : IsDepthFirst met calls) (h' : IsDepthFirst met calls') : calls = calls' := by
  obtain ⟨visits, hsorted, hmem, rfl⟩ := h
  obtain ⟨visits', hsorted', hmem', rfl⟩ := h'
  have hnodup {visits : List Visit}
      (hsorted : visits.Pairwise fun v w => v.position < w.position) : visits.Nodup := by
    refine hsorted.imp fun {v w} hlt heq => ?_
    exact List.lt_irrefl v.position (heq ▸ hlt)
  have hperm : visits.Perm visits' :=
    (List.perm_ext_iff_of_nodup (hnodup hsorted) (hnodup hsorted')).mpr fun visit =>
      (hmem visit).trans (hmem' visit).symm
  rw [hperm.eq_of_pairwise (fun v w _ _ hlt hgt => absurd hgt (List.lt_asymm hlt)) hsorted
    hsorted']

theorem congr {met' : Visit → Prop} (h : IsDepthFirst met calls)
    (hiff : ∀ visit, met' visit ↔ met visit) : IsDepthFirst met' calls := by
  rwa [show met' = met from funext fun visit => propext (hiff visit)]

/-- Where nothing is met, nothing is looked up. -/
theorem nil (h : ∀ visit, ¬met visit) : IsDepthFirst met [] :=
  ⟨[], .nil, fun visit => iff_of_false List.not_mem_nil (h visit), rfl⟩

/-- A record that cannot be looked up takes one lookup. -/
theorem of_error (hn : name ∉ chain) {e : LookupError} (hr : record name = .error e) :
    IsDepthFirst (Meets record chain name) [.record name] :=
  ⟨[⟨[], chain, name⟩], List.pairwise_singleton _ _,
    fun _ => List.mem_singleton.trans (meets_iff_of_error hn hr).symm, rfl⟩

/-- **A record that can be looked up** is looked up before all that its references lead to. -/
theorem of_ok (hn : name ∉ chain) {fields : List Field} (hr : record name = .ok fields)
    (h : IsDepthFirst (FieldsMeet record (name :: chain) fields) calls) :
    IsDepthFirst (Meets record chain name) (.record name :: calls) := by
  obtain ⟨visits, hsorted, hmem, rfl⟩ := h
  refine ⟨⟨[], chain, name⟩ :: visits, List.pairwise_cons.mpr ⟨fun _ hvisit => ?_, hsorted⟩,
    fun _ => ?_, rfl⟩
  · obtain ⟨number, other, inner, -, -, rfl⟩ := (hmem _).mp hvisit
    exact List.nil_lt_cons _ _
  · rw [meets_iff_of_ok hn hr, List.mem_cons, hmem]

/-- **Several references** are looked up one after the other, each with all that it leads to. -/
theorem cons {first : Nat} {names : List String} (h : IsDepthFirst (Meets record chain name) calls)
    (h' : IsDepthFirst (MeetsFrom record chain (first + 1) names) calls') :
    IsDepthFirst (MeetsFrom record chain first (name :: names)) (calls ++ calls') := by
  obtain ⟨visits, hsorted, hmem, rfl⟩ := h
  obtain ⟨visits', hsorted', hmem', rfl⟩ := h'
  refine ⟨visits.map (Visit.below first) ++ visits', ?_, fun visit => ?_, by
    rw [List.map_append, List.map_map]; rfl⟩
  · refine List.pairwise_append.mpr ⟨?_, hsorted', fun v hv w hw => ?_⟩
    · exact List.pairwise_map.mpr (hsorted.imp fun hlt =>
        List.cons_lt_cons_iff.mpr (.inr ⟨rfl, hlt⟩))
    · obtain ⟨inner, -, rfl⟩ := List.mem_map.mp hv
      obtain ⟨number, other, later, -, -, rfl⟩ := (hmem' w).mp hw
      exact List.cons_lt_cons_iff.mpr (.inl (by omega))
  · rw [meetsFrom_cons_iff, List.mem_append, List.mem_map, hmem']
    simp only [hmem, eq_comm]

end IsDepthFirst

/-! ### Runs -/

namespace Resolver

/-- **Every run looks up what it meets, depth first.** -/
theorem isDepthFirst_of_run (record : RecordSource) (depth : Nat) :
    (∀ (r : Resolver) d out, r.convert? record depth d = some out →
      ∃ calls, out.2.calls = r.calls ++ calls ∧ IsDepthFirst (d.Meets record r.chain) calls) ∧
    ∀ (r : Resolver) schema fields out, r.walkOnto? record depth schema fields = some out →
      ∀ first, ∃ calls, out.2.calls = r.calls ++ calls ∧
        IsDepthFirst (MeetsFrom record r.chain first (references fields)) calls := by
  have hnone {r : Resolver} {d : Descriptor} (hd : d.reference? = none) :
      ∃ calls, r.calls = r.calls ++ calls ∧ IsDepthFirst (d.Meets record r.chain) calls := by
    refine ⟨[], (List.append_nil _).symm, .nil ?_⟩
    rintro visit ⟨name, hname, -⟩
    rw [hd] at hname
    cases hname
  have hreference {r : Resolver} {name : String} (visit : Visit) :
      (Descriptor.record name).Meets record r.chain visit ↔
        Meets record r.chain name visit := by
    simp [Descriptor.Meets, Descriptor.reference?]
  apply run_induction
  case primitive => exact fun depth r name => hnone rfl
  case string => exact fun depth r maxLength => hnone rfl
  case unknown => exact fun depth r tag => hnone rfl
  case sequence => exact fun depth r element extent items after _ ih => ih
  case cycle =>
    intro depth r name hn
    exact ⟨[], (List.append_nil _).symm,
      .nil fun visit h => not_meets_of_mem hn visit ((hreference visit).mp h)⟩
  case missing =>
    intro depth r name e hn he
    exact ⟨[.record name], rfl, (IsDepthFirst.of_error hn he).congr hreference⟩
  case found =>
    intro depth r name fields schema after hn hr _ ih
    obtain ⟨calls, hcalls, hvisits⟩ := ih 0
    refine ⟨.record name :: calls, ?_, (hvisits.of_ok hn hr).congr hreference⟩
    exact hcalls.trans (List.append_assoc _ _ _)
  case done =>
    intro depth r schema first
    refine ⟨[], (List.append_nil _).symm, .nil ?_⟩
    rintro visit ⟨number, name, inner, hi, -⟩
    cases hi
  case skip =>
    intro depth r schema field rest out hb ih first
    rw [references_cons_of_bookkeeping hb]
    exact ih first
  case put =>
    intro depth r schema field rest node between out hb hnode ihNode _ ihRest first
    obtain ⟨calls, hcalls, hvisits⟩ := ihNode
    rw [chain_of_convert? hnode] at ihRest
    rw [references_cons hb]
    cases hd : field.descriptor.reference? with
    | none =>
      -- Without a reference the field takes no lookup.
      have hempty : calls = [] := hvisits.eq (.nil (by simp [Descriptor.Meets, hd]))
      obtain ⟨calls', hcalls', hvisits'⟩ := ihRest first
      refine ⟨calls', ?_, hvisits'⟩
      rw [hcalls', hcalls, hempty, List.append_nil]
    | some name =>
      obtain ⟨calls', hcalls', hvisits'⟩ := ihRest (first + 1)
      refine ⟨calls ++ calls', by rw [hcalls', hcalls, List.append_assoc], ?_⟩
      exact (hvisits.congr fun visit => by simp [Descriptor.Meets, hd]).cons hvisits'

/-- The lookups of a resolver that has done nothing before are those of its run. -/
theorem isDepthFirst_of_convert? {depth : Nat} {d : Descriptor} {node : Node} {after : Resolver}
    (h : (under chain).convert? record depth d = some (node, after)) :
    IsDepthFirst (d.Meets record chain) after.calls := by
  obtain ⟨calls, hcalls, hvisits⟩ := (isDepthFirst_of_run record depth).1 _ _ _ h
  rwa [show after.calls = calls from hcalls]

theorem isDepthFirst_of_walk? {depth : Nat} {fields : List Field} {schema : RecordSchema}
    {after : Resolver} (h : (under chain).walk? record depth fields = some (schema, after)) :
    IsDepthFirst (FieldsMeet record chain fields) after.calls := by
  obtain ⟨calls, hcalls, hvisits⟩ := (isDepthFirst_of_run record depth).2 _ _ _ _ h 0
  rwa [show after.calls = calls from hcalls]

theorem isDepthFirst_of_walkRecord? {depth : Nat} {fields : List Field} {schema : RecordSchema}
    {after : Resolver}
    (h : (under chain).walkRecord? record depth name fields = some (schema, after)) :
    IsDepthFirst (FieldsMeet record (name :: chain) fields) after.calls := by
  obtain ⟨schema, last, hwalk, he⟩ := walkRecord?_eq_some.mp h
  cases he
  obtain ⟨calls, hcalls, hvisits⟩ := (isDepthFirst_of_run record depth).2 _ _ _ _ hwalk 0
  rwa [show last.leave.calls = calls from hcalls]

end Resolver

/-- **Which records are looked up, and when.** Take an expansion of a descriptor, of a field list or
of the fields of a record, on any chain. Its lookups are those of the references that are met, each
of them once, in the order of a walk that goes down before it goes on; and no other list is. What
is met are the references of fields that hold data, below every record that can be looked up, but
for those to a record that is on the chain at that point. So a record that is looked up is not
being described: around it stand the records that were on the chain before and others, none of
them twice.

This is so over all sources where the expansion ends, to whatever depth, and over lookups, where it
always does. -/
theorem isDepthFirst_iff_eq_calls :
    (∀ (record : RecordSource) (chain : List String) (depth : Nat),
      (∀ d node after, (Resolver.under chain).convert? record depth d = some (node, after) →
        ∀ calls, IsDepthFirst (d.Meets record chain) calls ↔ calls = after.calls) ∧
      (∀ fields schema after,
        (Resolver.under chain).walk? record depth fields = some (schema, after) →
          ∀ calls, IsDepthFirst (FieldsMeet record chain fields) calls ↔ calls = after.calls) ∧
      ∀ name fields schema after,
        (Resolver.under chain).walkRecord? record depth name fields = some (schema, after) →
          ∀ calls, IsDepthFirst (FieldsMeet record (name :: chain) fields) calls ↔
            calls = after.calls) ∧
    (∀ (lookup : Lookup) (chain : List String) (calls : List Call),
      (∀ d, IsDepthFirst (d.Meets lookup.record chain) calls ↔
        calls = (convert lookup chain d).calls) ∧
      (∀ fields, IsDepthFirst (FieldsMeet lookup.record chain fields) calls ↔
        calls = (walk lookup chain fields).calls) ∧
      ∀ name fields, IsDepthFirst (FieldsMeet lookup.record (name :: chain) fields) calls ↔
        calls = (walkRecord lookup chain name fields).calls) ∧
    ∀ (record : RecordSource) (chain : List String) (name : String) (visit : Visit),
      Meets record chain name visit → ∃ outer, visit.chain = outer ++ chain ∧
        (visit.name :: outer).Nodup ∧ ∀ other ∈ visit.name :: outer, other ∉ chain := by
  -- The lookups of a run are in the one order there is.
  have unique {met : Visit → Prop} {made : List Call} (hmade : IsDepthFirst met made)
      (calls : List Call) : IsDepthFirst met calls ↔ calls = made :=
    ⟨fun h => h.eq hmade, fun h => h ▸ hmade⟩
  refine ⟨fun record chain depth => ⟨?_, ?_, ?_⟩, fun lookup chain calls => ⟨?_, ?_, ?_⟩,
    fun _ _ _ _ h => h.exists_chain_eq⟩
  · exact fun d node after hrun => unique (Resolver.isDepthFirst_of_convert? hrun)
  · exact fun fields schema after hrun => unique (Resolver.isDepthFirst_of_walk? hrun)
  · exact fun name fields schema after hrun =>
      unique (Resolver.isDepthFirst_of_walkRecord? hrun)
  · intro d
    obtain ⟨depth, after, hrun, hcalls⟩ := exists_convert?_of_lookup lookup chain d
    rw [hcalls]
    exact unique (Resolver.isDepthFirst_of_convert? hrun) calls
  · intro fields
    obtain ⟨depth, after, hrun, hcalls⟩ := exists_walk?_of_lookup lookup chain fields
    rw [hcalls]
    exact unique (Resolver.isDepthFirst_of_walk? hrun) calls
  · intro name fields
    obtain ⟨depth, after, hrun, hcalls⟩ := exists_walkRecord?_of_lookup lookup chain name fields
    rw [hcalls]
    exact unique (Resolver.isDepthFirst_of_walkRecord? hrun) calls

/-! ### Records that are referred to more than once -/

/-- A machine whose arm is declared twice. The arm refers to a joint that is missing and back to
the machine, and the machine to it once more where it holds no data. -/
def machineSource : RecordSource := fun name =>
  if name = "demo/msg/Machine" then
    .ok [⟨"arm", .sequence (.record "demo/msg/Arm") .unbounded⟩, ⟨"_arm", .record "demo/msg/Arm"⟩,
      ⟨"arm", .record "demo/msg/Arm"⟩]
  else if name = "demo/msg/Arm" then
    .ok [⟨"joint", .record "demo/msg/Joint"⟩, ⟨"owner", .record "demo/msg/Machine"⟩]
  else .error (.notFound name)

/-- Both arms of the machine are looked up, and the joint of each of them. -/
theorem isDepthFirst_machine :
    ∃ node after,
      Resolver.fresh.convert? machineSource 2 (.record "demo/msg/Machine") = some (node, after) ∧
      after.calls = [.record "demo/msg/Machine", .record "demo/msg/Arm", .record "demo/msg/Joint",
        .record "demo/msg/Arm", .record "demo/msg/Joint"] ∧
      IsDepthFirst ((Descriptor.record "demo/msg/Machine").Meets machineSource [])
        [.record "demo/msg/Machine", .record "demo/msg/Arm", .record "demo/msg/Joint",
          .record "demo/msg/Arm", .record "demo/msg/Joint"] := by
  obtain ⟨node, after, hrun, hcalls⟩ : ∃ node after,
      Resolver.fresh.convert? machineSource 2 (.record "demo/msg/Machine") = some (node, after) ∧
      after.calls = [.record "demo/msg/Machine", .record "demo/msg/Arm", .record "demo/msg/Joint",
        .record "demo/msg/Arm", .record "demo/msg/Joint"] := ⟨_, _, rfl, rfl⟩
  exact ⟨node, after, hrun, hcalls,
    ((isDepthFirst_iff_eq_calls.1 machineSource [] 2).1 _ _ _ hrun _).mpr hcalls.symm⟩

end RosInterface
