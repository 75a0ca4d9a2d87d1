import RosInterface.Schema.Resolver

/-!
# Expansion of records

A record that is followed joins the chain and is not followed again below. So where finitely many
records can be looked up, a depth of their number is enough for every expansion. A `Lookup` knows
finitely many records, so over one every descriptor has its node and every field list its record
schema. How many records it knows is not at hand, so larger and larger depths are attempted.

## Main definitions

* `Attempts`: expansions to all depths, of which some depth is enough.
* `convert`, `walk`, `walkRecord`: descriptors and field lists over a lookup.

## Main results

* `Resolver.unvisited_cons_lt`: following a record brings the end nearer.
* `Resolver.exists_convert?`, `Resolver.exists_walk?`: the expansion ends.
* `convert_eq_of_convert?`, `walk_eq_of_walk?`, `walkRecord_eq_of_walkRecord?`: every depth that is
  enough leads to the same result.
* `exists_convert?_of_lookup`, `exists_walk?_of_lookup`, `exists_walkRecord?_of_lookup`: over a
  lookup some depth is enough.
-/

namespace RosInterface

namespace Resolver

variable {record : RecordSource}

/-- The number of names that are not on a chain. A record that is followed joins the chain. -/
def unvisited (names chain : List String) : Nat :=
  (names.filter fun name => name ∉ chain).length

/-- Following a record leaves fewer records to follow. -/
theorem unvisited_cons_lt {names chain : List String} {name : String} (hn : name ∉ chain)
    (hm : name ∈ names) : unvisited names (name :: chain) < unvisited names chain := by
  have hsplit : names.filter (fun x => x ∉ name :: chain)
      = (names.filter fun x => x ∉ chain).filter fun x => x ≠ name := by
    rw [List.filter_filter]
    exact List.filter_congr fun x _ => by simp
  rw [unvisited, unvisited, hsplit]
  refine Nat.lt_of_le_of_ne (List.length_filter_le _ _) fun he => ?_
  have hall := List.length_filter_eq_length_iff.mp he name
    (List.mem_filter.mpr ⟨hm, by simpa using hn⟩)
  simp at hall

/-- A field list is walked to its end if all descriptors can be described below the chain. -/
theorem exists_walkOnto? {depth : Nat} {chain : List String}
    (h : ∀ (r : Resolver) d, r.chain = chain → ∃ out, r.convert? record depth d = some out)
    (fields : List Field) : ∀ (r : Resolver) schema, r.chain = chain →
      ∃ out, r.walkOnto? record depth schema fields = some out := by
  induction fields with
  | nil => exact fun r schema _ => ⟨_, walkOnto?_nil schema⟩
  | cons field rest ih =>
    intro r schema hr
    by_cases hb : field.isBookkeeping = true
    · rw [walkOnto?_of_bookkeeping hb]
      exact ih r schema hr
    · rw [Bool.not_eq_true] at hb
      obtain ⟨⟨node, after⟩, hc⟩ := h r field.descriptor hr
      obtain ⟨out, hout⟩ := ih after (schema.insert field.name node)
        ((chain_of_convert? hc).trans hr)
      exact ⟨out, (walkOnto?_cons_eq_some hb).mpr ⟨node, after, hc, hout⟩⟩

/-- A depth of the number of unvisited names is enough for every descriptor. -/
theorem exists_convert? {names : List String}
    (hnames : ∀ name fields, record name = .ok fields → name ∈ names) (depth : Nat)
    (r : Resolver) (hdepth : unvisited names r.chain ≤ depth) (d : Descriptor) :
    ∃ out, r.convert? record depth d = some out := by
  induction depth using Nat.strongRecOn generalizing r d with
  | ind depth ih =>
    induction d generalizing r with
    | primitive name => exact ⟨_, convert?_primitive name⟩
    | string maxLength => exact ⟨_, convert?_string maxLength⟩
    | unknown tag => exact ⟨_, convert?_unknown tag⟩
    | sequence element extent ihElement =>
      obtain ⟨⟨items, after⟩, h⟩ := ihElement r hdepth
      exact ⟨_, convert?_sequence_eq_some.mpr ⟨items, after, h, rfl⟩⟩
    | record name =>
      by_cases hm : name ∈ r.chain
      · exact ⟨_, convert?_record_of_mem hm⟩
      · cases hr : record name with
        | error e => exact ⟨_, convert?_record_of_error hm hr⟩
        | ok fields =>
          have hlt : unvisited names (name :: r.chain) < depth :=
            Nat.lt_of_lt_of_le (unvisited_cons_lt hm (hnames name fields hr)) hdepth
          obtain ⟨below, rfl⟩ := Nat.exists_eq_add_of_lt hlt
          have hall : ∀ (r' : Resolver) d', r'.chain = name :: r.chain →
              ∃ out, r'.convert? record (unvisited names (name :: r.chain) + below) d'
                = some out := fun r' d' hr' =>
            ih _ (Nat.lt_succ_self _) r' (hr' ▸ Nat.le_add_right _ _) d'
          obtain ⟨⟨schema, after⟩, hw⟩ :=
            exists_walkOnto? hall fields ((r.asked name).enter name) Table.empty rfl
          exact ⟨_, (convert?_record_of_ok hm hr).mpr ⟨_, schema, after.leave, rfl,
            walkRecord?_eq_some.mpr ⟨schema, after, hw, rfl⟩, rfl⟩⟩

/-- A depth of the number of unvisited names is enough for every field list. -/
theorem exists_walk? {names : List String}
    (hnames : ∀ name fields, record name = .ok fields → name ∈ names) (depth : Nat)
    (r : Resolver) (hdepth : unvisited names r.chain ≤ depth) (fields : List Field) :
    ∃ out, r.walk? record depth fields = some out :=
  exists_walkOnto? (fun r' d hr' => exists_convert? hnames depth r' (hr' ▸ hdepth) d) fields r
    Table.empty rfl

end Resolver

/-! ### Finding a depth that is enough -/

/-- Attempts at an expansion, one for every depth. -/
structure Attempts (α : Type) where
  /-- The result of an attempt, with the resolver afterwards. -/
  result? : Nat → Option (α × Resolver)
  /-- A larger depth gives the same result. -/
  mono : ∀ depth out, result? depth = some out → ∀ top, depth ≤ top → result? top = some out
  /-- Some depth is enough. -/
  ends : ∃ depth, (result? depth).isSome

namespace Attempts

variable {α : Type} (attempts : Attempts α)

/-- A depth with no result is below every depth that is enough. -/
theorem lt_of_result?_eq_none {attempts : Attempts α} {depth enough : Nat}
    (h : attempts.result? depth = none) (he : (attempts.result? enough).isSome) :
    depth < enough := by
  refine Nat.lt_of_not_le fun hle => ?_
  obtain ⟨out, hout⟩ := Option.isSome_iff_exists.mp he
  rw [attempts.mono enough out hout depth hle] at h
  cases h

/-- The result that is found from some depth on. Where one depth is not enough, about twice that
depth comes next. -/
def resultFrom (depth : Nat) : α × Resolver :=
  match _h : attempts.result? depth with
  | some out => out
  | none => resultFrom (2 * depth + 1)
termination_by Classical.choose attempts.ends - depth
decreasing_by
  have hlt := lt_of_result?_eq_none _h (Classical.choose_spec attempts.ends)
  omega

/-- The result of the attempts, with the lookups that led to it. -/
def traced : Traced α :=
  let out := attempts.resultFrom 0
  ⟨out.1, out.2.calls⟩

variable {attempts}

theorem resultFrom_eq {depth : Nat} {out : α × Resolver}
    (h : attempts.result? depth = some out) (start : Nat) : attempts.resultFrom start = out := by
  fun_induction attempts.resultFrom start with
  | case1 start found hfound =>
    have hsame := attempts.mono start found hfound _ (Nat.le_max_left start depth)
    rw [attempts.mono depth out h _ (Nat.le_max_right start depth)] at hsame
    exact (Option.some.inj hsame).symm
  | case2 start _ ih => exact ih

/-- Every depth that is enough has the result of the attempts. -/
theorem traced_eq {depth : Nat} {value : α} {after : Resolver}
    (h : attempts.result? depth = some (value, after)) :
    attempts.traced = ⟨value, after.calls⟩ := by
  rw [traced, resultFrom_eq h]

end Attempts

/-! ### Expansion over a lookup -/

section

variable (lookup : Lookup) (chain : List String)

/-- The node of a descriptor below a chain. -/
def convert (descriptor : Descriptor) : Traced Node :=
  Attempts.traced
    { result? := fun depth =>
        (Resolver.under chain).convert? lookup.record depth descriptor
      mono := fun depth => (Resolver.run_mono depth).1 _ descriptor
      ends := by
        obtain ⟨names, hnames⟩ := lookup.finite
        exact ⟨_, Option.isSome_iff_exists.mpr
          (Resolver.exists_convert? hnames _ _ (Nat.le_refl _) descriptor)⟩ }

/-- The record schema of a field list below a chain. -/
def walk (fields : List Field) : Traced RecordSchema :=
  Attempts.traced
    { result? := fun depth => (Resolver.under chain).walk? lookup.record depth fields
      mono := fun depth => (Resolver.run_mono depth).2 _ _ fields
      ends := by
        obtain ⟨names, hnames⟩ := lookup.finite
        exact ⟨_, Option.isSome_iff_exists.mpr
          (Resolver.exists_walk? hnames _ _ (Nat.le_refl _) fields)⟩ }

/-- The record schema of the fields of a record, which joins the chain. -/
def walkRecord (name : String) (fields : List Field) : Traced RecordSchema :=
  Attempts.traced
    { result? := fun depth =>
        (Resolver.under chain).walkRecord? lookup.record depth name fields
      mono := fun _ _ h => Resolver.walkRecord?_mono h
      ends := by
        obtain ⟨names, hnames⟩ := lookup.finite
        obtain ⟨⟨schema, after⟩, h⟩ := Resolver.exists_walk? hnames _
          ((Resolver.under chain).enter name) (Nat.le_refl _) fields
        exact ⟨_, Option.isSome_iff_exists.mpr
          ⟨_, Resolver.walkRecord?_eq_some.mpr ⟨schema, after, h, rfl⟩⟩⟩ }

end

variable {lookup : Lookup} {chain : List String} {depth : Nat} {after : Resolver}

theorem convert_eq_of_convert? {d : Descriptor} {node : Node}
    (h : (Resolver.under chain).convert? lookup.record depth d = some (node, after)) :
    convert lookup chain d = ⟨node, after.calls⟩ :=
  Attempts.traced_eq h

theorem walk_eq_of_walk? {fields : List Field} {schema : RecordSchema}
    (h : (Resolver.under chain).walk? lookup.record depth fields = some (schema, after)) :
    walk lookup chain fields = ⟨schema, after.calls⟩ :=
  Attempts.traced_eq h

theorem walkRecord_eq_of_walkRecord? {name : String} {fields : List Field}
    {schema : RecordSchema}
    (h : (Resolver.under chain).walkRecord? lookup.record depth name fields
      = some (schema, after)) :
    walkRecord lookup chain name fields = ⟨schema, after.calls⟩ :=
  Attempts.traced_eq h

variable (lookup chain)

/-- The node of a descriptor is that of a run to some depth, with the same lookups. -/
theorem exists_convert?_of_lookup (d : Descriptor) : ∃ depth after,
    (Resolver.under chain).convert? lookup.record depth d
        = some ((convert lookup chain d).value, after) ∧
      (convert lookup chain d).calls = after.calls := by
  obtain ⟨names, hnames⟩ := lookup.finite
  obtain ⟨⟨node, after⟩, h⟩ := Resolver.exists_convert? hnames _ _ (Nat.le_refl _) d
  rw [convert_eq_of_convert? h]
  exact ⟨_, after, h, rfl⟩

/-- The record schema of a field list is that of a run to some depth, with the same lookups. -/
theorem exists_walk?_of_lookup (fields : List Field) : ∃ depth after,
    (Resolver.under chain).walk? lookup.record depth fields
        = some ((walk lookup chain fields).value, after) ∧
      (walk lookup chain fields).calls = after.calls := by
  obtain ⟨names, hnames⟩ := lookup.finite
  obtain ⟨⟨schema, after⟩, h⟩ := Resolver.exists_walk? hnames _ _ (Nat.le_refl _) fields
  rw [walk_eq_of_walk? h]
  exact ⟨_, after, h, rfl⟩

/-- The record schema of the fields of a record is that of a run to some depth, with the same
lookups. -/
theorem exists_walkRecord?_of_lookup (name : String) (fields : List Field) : ∃ depth after,
    (Resolver.under chain).walkRecord? lookup.record depth name fields
        = some ((walkRecord lookup chain name fields).value, after) ∧
      (walkRecord lookup chain name fields).calls = after.calls := by
  obtain ⟨names, hnames⟩ := lookup.finite
  obtain ⟨⟨schema, after⟩, h⟩ := Resolver.exists_walk? hnames _
    ((Resolver.under chain).enter name) (Nat.le_refl _) fields
  have hrun := Resolver.walkRecord?_eq_some.mpr ⟨schema, after, h, rfl⟩
  rw [walkRecord_eq_of_walkRecord? hrun]
  exact ⟨_, after.leave, hrun, rfl⟩

end RosInterface
