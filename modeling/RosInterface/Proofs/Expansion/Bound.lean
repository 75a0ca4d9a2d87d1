import Mathlib.Data.Set.Card
import RosInterface.Schema.Expansion
import RosInterface.Install.Index
import RosInterface.Proofs.Expansion.Cut

/-!
# How far the expansion of records goes

Every name on the chain of a resolver is that of a record that was looked up, and no name is there
twice. So the chain is never longer than the number of records that can be looked up, and neither
is the nesting of fields in a node. Over finitely many records the expansion therefore ends, with
this number as a bound. A registry holds finitely many records. So does an index over finitely
many files, although the prefixes and the ways to a file can be written in any number of ways,
since a file must define the very name that was asked for.

## Main definitions

* `RecordSource.known`: the names of the records that can be looked up.
* `Resolver.IsBounded`: all chains so far are made of such names, without repetition.
* `Node.nestingAt`: the number of field lists around and at a place.

## Main results

* `Resolver.isBounded_of_run`: a resolver stays bounded.
* `Node.nestingAt_le`: the nesting of fields is bounded too.
* `expansion_ends_within_known`: the expansion ends, within the bound.
-/

namespace RosInterface

variable {record : RecordSource} {depth : Nat}

/-- The names of the records that can be looked up. -/
def RecordSource.known (record : RecordSource) : Set String :=
  {name | ∃ fields, record name = .ok fields}

/-- A list of known names without repetition is no longer than the number of known names. -/
theorem RecordSource.length_le_ncard_known (hfin : record.known.Finite) {names : List String}
    (hnodup : names.Nodup) (hknown : ∀ name ∈ names, name ∈ record.known) :
    names.length ≤ record.known.ncard := by
  classical
  have hsub : (names.toFinset : Set String) ⊆ record.known := fun name h =>
    hknown name (List.mem_toFinset.mp h)
  have hcard := Set.ncard_le_ncard hsub hfin
  rwa [Set.ncard_coe_finset, List.toFinset_card_of_nodup hnodup] at hcard

/-- As many names as there are known records are enough to have all of them. -/
theorem RecordSource.exists_names (hfin : record.known.Finite) :
    ∃ names : List String, (∀ name fields, record name = .ok fields → name ∈ names) ∧
      names.length ≤ record.known.ncard := by
  refine ⟨hfin.toFinset.toList, fun name fields hr => ?_, ?_⟩
  · exact Finset.mem_toList.mpr (hfin.mem_toFinset.mpr ⟨fields, hr⟩)
  · rw [Finset.length_toList, Set.ncard_eq_toFinset_card _ hfin]

/-! ### The chains of a resolver -/

namespace Resolver

/-- A chain lists records that can be looked up, and none of them twice. -/
def IsProper (record : RecordSource) (chain : List String) : Prop :=
  chain.Nodup ∧ ∀ name ∈ chain, name ∈ record.known

/-- The chain of a resolver and all its earlier chains are proper. -/
def IsBounded (record : RecordSource) (resolver : Resolver) : Prop :=
  IsProper record resolver.chain ∧ ∀ chain ∈ resolver.chains, IsProper record chain

theorem isBounded_fresh : fresh.IsBounded record := by
  have hnil : IsProper record [] := ⟨List.nodup_nil, by simp⟩
  exact ⟨hnil, fun chain h => List.mem_singleton.mp h ▸ hnil⟩

/-- Going into a record that is looked up off the chain keeps a resolver bounded. -/
theorem IsBounded.enter {r : Resolver} {name : String} {fields : List Field}
    (h : r.IsBounded record) (hn : name ∉ r.chain) (hr : record name = .ok fields) :
    ((r.asked name).enter name).IsBounded record := by
  have hcons : IsProper record (name :: r.chain) :=
    ⟨List.nodup_cons.mpr ⟨hn, h.1.1⟩, List.forall_mem_cons.mpr ⟨⟨fields, hr⟩, h.1.2⟩⟩
  exact ⟨hcons, List.forall_mem_cons.mpr ⟨hcons, h.2⟩⟩

/-- Leaving a record keeps a resolver bounded. -/
theorem IsBounded.leave {r : Resolver} (h : r.IsBounded record) : r.leave.IsBounded record := by
  have htail : IsProper record r.chain.tail :=
    ⟨h.1.1.tail, fun name hm => h.1.2 name (List.mem_of_mem_tail hm)⟩
  exact ⟨htail, List.forall_mem_cons.mpr ⟨htail, h.2⟩⟩

/-- **A bounded resolver stays bounded**, through all chains of an expansion. -/
theorem isBounded_of_run (depth : Nat) :
    (∀ (r : Resolver) d out, r.convert? record depth d = some out →
      r.IsBounded record → out.2.IsBounded record) ∧
    ∀ (r : Resolver) schema fields out, r.walkOnto? record depth schema fields = some out →
      r.IsBounded record → out.2.IsBounded record := by
  apply run_induction
  case sequence => exact fun _ r element extent items after _ ih => ih
  case found =>
    intro depth r name fields schema after hn hr _ ih h
    exact (ih (h.enter hn hr)).leave
  case skip => exact fun _ r schema field rest out _ ih => ih
  case put =>
    intro depth r schema field rest node between out _ _ ihNode _ ihRest h
    exact ihRest (ihNode h)
  all_goals
    intros
    assumption

/-- Every chain of a bounded resolver is within the number of known records. -/
theorem IsBounded.length_le {r : Resolver} (h : r.IsBounded record)
    (hfin : record.known.Finite) :
    ∀ chain ∈ r.chains, chain.Nodup ∧ chain.length ≤ record.known.ncard := by
  intro chain hchain
  obtain ⟨hnodup, hknown⟩ := h.2 chain hchain
  exact ⟨hnodup, RecordSource.length_le_ncard_known hfin hnodup hknown⟩

end Resolver

/-! ### The nesting of fields -/

/-- The number of field lists on the way to a place, with that of the node at the place if it has
one. -/
def Node.nestingAt (node : Node) (place : Place) : Nat :=
  (node.chainTo [] place).length +
    if (node.at? place).any fun m => m.fields.isSome then 1 else 0

/-- An expanded node that is made from its descriptor is that of a known record. -/
theorem MadeFrom.typeName_mem_known {chain : List String} {d : Descriptor} {node : Node}
    (h : MadeFrom record depth chain d node) (hx : node.IsExpanded) :
    node.typeName ∈ record.known := by
  cases d with
  | record name =>
    have href : ReferenceNode record depth chain name node := h
    rw [href.typeName_eq]
    exact (href.isExpanded_iff.mp hx).2
  | _ => exact absurd hx h

section

variable {d : Descriptor} {node m : Node} {place : Place}

/-- An expanded node in a traceable node is that of a known record that is not expanded around
it. -/
theorem Traceable.typeName_notMem_and_mem_known (h : Traceable record depth [] d node)
    (hm : node.at? place = some m) (hx : m.IsExpanded) :
    m.typeName ∉ node.chainTo [] place ∧ m.typeName ∈ record.known := by
  obtain ⟨d', -, hmade⟩ := h place m hm
  exact ⟨hmade.typeName_notMem hx, hmade.typeName_mem_known hx⟩

/-- The records that are expanded around a place in a traceable node are known, and none of them is
expanded twice. -/
theorem Traceable.isProper_chainTo (h : Traceable record depth [] d node)
    (hm : node.at? place = some m) : Resolver.IsProper record (node.chainTo [] place) := by
  refine ⟨Node.nodup_chainTo place
    (fun p m' hp hx => (h.typeName_notMem_and_mem_known hp hx).1) List.nodup_nil hm,
    fun name hname => ?_⟩
  obtain ⟨outer, -, m', -, -, hm', hx, ht⟩ := Node.mem_chainTo place hname List.not_mem_nil
  exact ht ▸ (h.typeName_notMem_and_mem_known hm' hx).2

/-- If the node at the place is expanded itself, its record is another known one. -/
theorem Traceable.isProper_cons (h : Traceable record depth [] d node)
    (hm : node.at? place = some m) (hx : m.IsExpanded) :
    Resolver.IsProper record (m.typeName :: node.chainTo [] place) := by
  obtain ⟨hnodup, hknown⟩ := h.isProper_chainTo hm
  obtain ⟨hnew, hname⟩ := h.typeName_notMem_and_mem_known hm hx
  exact ⟨List.nodup_cons.mpr ⟨hnew, hnodup⟩, List.forall_mem_cons.mpr ⟨hname, hknown⟩⟩

/-- The nesting of fields in a traceable node is within the number of known records. -/
theorem Node.nestingAt_le (hfin : record.known.Finite) (h : Traceable record depth [] d node)
    (hm : node.at? place = some m) : node.nestingAt place ≤ record.known.ncard := by
  rw [nestingAt, hm, Option.any_some]
  split
  · rename_i hx
    obtain ⟨hnodup, hknown⟩ := h.isProper_cons hm hx
    exact RecordSource.length_le_ncard_known hfin hnodup hknown
  · obtain ⟨hnodup, hknown⟩ := h.isProper_chainTo hm
    exact RecordSource.length_le_ncard_known hfin hnodup hknown

end

/-! ### Where finitely many records are known -/

/-- Finitely many records are known where a list has all their names. -/
theorem RecordSource.finite_known (names : List String)
    (h : ∀ name fields, record name = .ok fields → name ∈ names) : record.known.Finite :=
  names.finite_toSet.subset fun name ⟨fields, hr⟩ => h name fields hr

/-- A lookup knows finitely many records. -/
theorem Lookup.finite_known (lookup : Lookup) : RecordSource.known lookup.record |>.Finite := by
  obtain ⟨names, h⟩ := lookup.finite
  exact RecordSource.finite_known names h

/-- **The expansion ends within a bound.** Let finitely many records be known. Then a resolver
that is describing no record has a node for every descriptor and a record schema for every field
list, the same for every depth from the number of known records on. Through all of the expansion
no name is on its chain twice, and the chain is no longer than this number. The nesting of fields
in the result is within the same number.

This is so over every registry and over every index of the files below install prefixes, as these
know finitely many records. -/
theorem expansion_ends_within_known :
    (∀ record : RecordSource, record.known.Finite →
      (∀ d, ∃ node after,
        (∀ depth, record.known.ncard ≤ depth →
          Resolver.fresh.convert? record depth d = some (node, after)) ∧
        (∀ chain ∈ after.chains, chain.Nodup ∧ chain.length ≤ record.known.ncard) ∧
        ∀ place, (node.at? place).isSome → node.nestingAt place ≤ record.known.ncard) ∧
      ∀ fields, ∃ schema after,
        (∀ depth, record.known.ncard ≤ depth →
          Resolver.fresh.walk? record depth fields = some (schema, after)) ∧
        (∀ chain ∈ after.chains, chain.Nodup ∧ chain.length ≤ record.known.ncard) ∧
        ∀ key node, schema.get? key = some node → ∀ place, (node.at? place).isSome →
          node.nestingAt place ≤ record.known.ncard) ∧
    (∀ registry : Registry, (RecordSource.known registry.record).Finite) ∧
    ∀ (index : Install.Index) (read : Msg.Reader) (files : Install.Files),
      (RecordSource.known (index.recordWith read files)).Finite := by
  refine ⟨fun record hfin => ?_, fun registry => registry.lookup.finite_known,
    fun index read files => (index.lookupWith read files).finite_known⟩
  obtain ⟨names, hnames, hlength⟩ := RecordSource.exists_names hfin
  have henough : Resolver.unvisited names Resolver.fresh.chain ≤ record.known.ncard :=
    Nat.le_trans (List.length_filter_le _ _) hlength
  constructor
  · intro d
    obtain ⟨⟨node, after⟩, h⟩ :=
      Resolver.exists_convert? hnames record.known.ncard .fresh henough d
    refine ⟨node, after, (Resolver.run_mono _).1 _ _ _ h, ?_, fun place hplace => ?_⟩
    · exact ((Resolver.isBounded_of_run _).1 _ _ _ h Resolver.isBounded_fresh).length_le hfin
    · obtain ⟨m, hm⟩ := Option.isSome_iff_exists.mp hplace
      exact Node.nestingAt_le hfin ((Resolver.madeFrom_at? _).1 _ _ _ h _ (Nat.le_refl _)) hm
  · intro fields
    obtain ⟨⟨schema, after⟩, h⟩ :=
      Resolver.exists_walk? hnames record.known.ncard .fresh henough fields
    refine ⟨schema, after, (Resolver.run_mono _).2 _ _ _ _ h, ?_,
      fun key node hkey place hplace => ?_⟩
    · exact ((Resolver.isBounded_of_run _).2 _ _ _ _ h Resolver.isBounded_fresh).length_le hfin
    · obtain ⟨m, hm⟩ := Option.isSome_iff_exists.mp hplace
      rcases (Resolver.madeFrom_at? _).2 _ _ _ _ h _ (Nat.le_refl _) key node hkey with
        ⟨field, -, ht⟩ | ⟨-, hempty⟩
      · exact Node.nestingAt_le hfin ht hm
      · cases hempty

/-- The expansion of two records that refer to each other ends. -/
theorem expansion_ends_in_loop :
    (RecordSource.known loopSource).Finite ∧
    ∃ node after, ∀ depth, (RecordSource.known loopSource).ncard ≤ depth →
      Resolver.fresh.convert? loopSource depth (.record "a") = some (node, after) := by
  have hfin : (RecordSource.known loopSource).Finite := by
    refine RecordSource.finite_known ["a", "b"] fun name fields hr => ?_
    by_contra hn
    simp only [List.mem_cons, List.not_mem_nil, or_false, not_or] at hn
    rw [loopSource, if_neg hn.1, if_neg hn.2] at hr
    cases hr
  obtain ⟨node, after, hrun, -⟩ :=
    (expansion_ends_within_known.1 loopSource hfin).1 (.record "a")
  exact ⟨hfin, node, after, hrun⟩

end RosInterface
