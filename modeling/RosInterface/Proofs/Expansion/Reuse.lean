import RosInterface.Schema.Expansion

/-!
# Using a resolver again

A resolver keeps its chain in one place, for all levels of an expansion. Every way out of a level
puts back what the way in changed, so the chain is after a query what it was before. As a resolver
goes by its chain only, a resolver that has been used answers as one that has done nothing yet, and
makes the same lookups, whatever it was asked before.

A step lemma says what one query leaves behind and what its answer depends on. The run lemma takes
it along a list of queries.

## Main definitions

* `Resolver.Query`, `Resolver.Answer`: what a resolver can be asked, and what it answers.
* `Resolver.Exchange`: a query with its answer and lookups, and the chains around it.
* `Resolver.serve?`: the exchanges for queries put to one resolver one after the other.
* `Resolver.Query.alone`: what a query comes to by itself, over a lookup.

## Main results

* `Resolver.exists_later_of_answer?`: what a query does to a resolver.
* `Resolver.exchange?_congr`, `Resolver.chains_of_exchange?`: one query.
* `Resolver.serve?_eq_each_alone`: any number of queries.
-/

namespace RosInterface

namespace Resolver

/-- What a resolver can be asked. -/
inductive Query where
  /-- The node of a descriptor. -/
  | convert (descriptor : Descriptor)
  /-- The record schema of a field list. -/
  | walk (fields : List Field)
  /-- The record schema of the fields of a record, which is on the chain meanwhile. -/
  | walkRecord (name : String) (fields : List Field)

/-- What a resolver answers. -/
inductive Answer where
  | node (node : Node)
  | schema (schema : RecordSchema)

/-- A query and what came of it. -/
structure Exchange where
  /-- What was asked. -/
  query : Query
  /-- What was answered, with the lookups made for it. -/
  answer : Traced Answer
  /-- The chain before the query. -/
  before : List String
  /-- The chain after the query. -/
  after : List String

section

variable (record : RecordSource) (depth : Nat)

/-- The answer to a query, with the resolver afterwards. -/
def answer? (resolver : Resolver) : Query → Option (Answer × Resolver)
  | .convert descriptor =>
    (resolver.convert? record depth descriptor).map fun out => (.node out.1, out.2)
  | .walk fields => (resolver.walk? record depth fields).map fun out => (.schema out.1, out.2)
  | .walkRecord name fields =>
    (resolver.walkRecord? record depth name fields).map fun out => (.schema out.1, out.2)

/-- The exchange for a query, with the resolver afterwards. The lookups made for the query are
those that were not made before. -/
def exchange? (resolver : Resolver) (query : Query) : Option (Exchange × Resolver) :=
  (resolver.answer? record depth query).map fun out =>
    (⟨query, ⟨out.1, out.2.calls.drop resolver.calls.length⟩, resolver.chain, out.2.chain⟩, out.2)

/-- The exchanges for queries put to one resolver one after the other, with the resolver
afterwards. -/
def serve? (resolver : Resolver) : List Query → Option (List Exchange × Resolver)
  | [] => some ([], resolver)
  | query :: rest => do
    let (exchange, between) ← resolver.exchange? record depth query
    let (exchanges, last) ← between.serve? rest
    return (exchange :: exchanges, last)

end

variable {record : RecordSource} {depth : Nat} {r r' : Resolver}

/-! ### One query -/

/-- The fields of a record are walked in the same way on the same chain, and the chain is in the
end what it was. -/
theorem exists_later_of_walkRecord? {name : String} {fields : List Field} {schema : RecordSchema}
    {last : Resolver} (h : r.walkRecord? record depth name fields = some (schema, last)) :
    ∃ calls chains, ∀ r' : Resolver, r'.chain = r.chain →
      r'.walkRecord? record depth name fields = some (schema, r'.later calls chains) := by
  obtain ⟨schema, after, hwalk, he⟩ := walkRecord?_eq_some.mp h
  cases he
  obtain ⟨calls, chains, hframe⟩ := (run_frame depth).2 _ _ _ _ hwalk
  refine ⟨calls, r.chain :: (chains ++ [name :: r.chain]), fun r' hr' => ?_⟩
  refine walkRecord?_eq_some.mpr ⟨schema, _, hframe (r'.enter name) (by simp [hr']), ?_⟩
  simp [later, leave, enter, hr']

/-- **What a query does to a resolver.** It adds lookups and chains to what was done before. These
and the answer are the same for every resolver on the same chain. -/
theorem exists_later_of_answer? {query : Query} {answer : Answer} {last : Resolver}
    (h : r.answer? record depth query = some (answer, last)) :
    ∃ calls chains, ∀ r' : Resolver, r'.chain = r.chain →
      r'.answer? record depth query = some (answer, r'.later calls chains) := by
  cases query with
  | convert d =>
    obtain ⟨out, hrun, he⟩ := Option.map_eq_some_iff.mp h
    cases he
    obtain ⟨calls, chains, hframe⟩ := (run_frame depth).1 _ _ _ hrun
    exact ⟨calls, chains, fun r' hr' => by rw [answer?, hframe r' hr']; rfl⟩
  | walk fields =>
    obtain ⟨out, hrun, he⟩ := Option.map_eq_some_iff.mp h
    cases he
    obtain ⟨calls, chains, hframe⟩ := (run_frame depth).2 _ _ _ _ hrun
    exact ⟨calls, chains, fun r' hr' => by rw [answer?, walk?, hframe r' hr']; rfl⟩
  | walkRecord name fields =>
    obtain ⟨out, hrun, he⟩ := Option.map_eq_some_iff.mp h
    cases he
    obtain ⟨calls, chains, hframe⟩ := exists_later_of_walkRecord? hrun
    exact ⟨calls, chains, fun r' hr' => by rw [answer?, hframe r' hr']; rfl⟩

theorem exchange?_of_answer? {query : Query} {answer : Answer} {calls : List Call}
    {chains : List (List String)}
    (h : r.answer? record depth query = some (answer, r.later calls chains)) :
    r.exchange? record depth query =
      some (⟨query, ⟨answer, calls⟩, r.chain, r.chain⟩, r.later calls chains) := by
  rw [exchange?, h]
  simp [later]

/-- An exchange leaves the chain as it was, and is the same for every resolver on that chain. -/
theorem exists_exchange?_eq {query : Query} {exchange : Exchange} {last : Resolver}
    (h : r.exchange? record depth query = some (exchange, last)) :
    last.chain = r.chain ∧ exchange.before = r.chain ∧ exchange.after = r.chain ∧
      ∀ r' : Resolver, r'.chain = r.chain →
        ∃ last', r'.exchange? record depth query = some (exchange, last') := by
  obtain ⟨⟨answer, after⟩, hanswer, he⟩ := Option.map_eq_some_iff.mp h
  obtain ⟨calls, chains, hframe⟩ := exists_later_of_answer? hanswer
  have hself := exchange?_of_answer? (hframe r rfl)
  rw [h] at hself
  cases hself
  refine ⟨rfl, rfl, rfl, fun r' hr' => ⟨r'.later calls chains, ?_⟩⟩
  rw [exchange?_of_answer? (hframe r' hr'), hr']

/-- **Only the chain counts** for an exchange. -/
theorem exchange?_congr (hchain : r'.chain = r.chain) (query : Query) :
    (r'.exchange? record depth query).map Prod.fst =
      (r.exchange? record depth query).map Prod.fst := by
  cases h : r.exchange? record depth query with
  | some out =>
    obtain ⟨-, -, -, hsame⟩ := exists_exchange?_eq h
    obtain ⟨last', h'⟩ := hsame r' hchain
    rw [h']
    rfl
  | none =>
    cases h' : r'.exchange? record depth query with
    | none => rfl
    | some out =>
      obtain ⟨-, -, -, hsame⟩ := exists_exchange?_eq h'
      obtain ⟨last, hr⟩ := hsame r hchain.symm
      rw [h] at hr
      cases hr

/-! ### Any number of queries -/

theorem serve?_cons_eq_some {query : Query} {rest : List Query}
    {out : List Exchange × Resolver} :
    r.serve? record depth (query :: rest) = some out ↔ ∃ exchange between exchanges last,
      r.exchange? record depth query = some (exchange, between) ∧
        between.serve? record depth rest = some (exchanges, last) ∧
          out = (exchange :: exchanges, last) := by
  rw [serve?]
  constructor
  · intro h
    obtain ⟨⟨exchange, between⟩, hquery, h⟩ := Option.bind_eq_some_iff.mp h
    obtain ⟨⟨exchanges, last⟩, hrest, he⟩ := Option.bind_eq_some_iff.mp h
    exact ⟨exchange, between, exchanges, last, hquery, hrest, (Option.some.inj he).symm⟩
  · rintro ⟨exchange, between, exchanges, last, hquery, hrest, rfl⟩
    simp [hquery, hrest]

/-- The chain is the same before, between and after all queries. -/
theorem chain_of_serve? {queries : List Query} {exchanges : List Exchange} {last : Resolver}
    (h : r.serve? record depth queries = some (exchanges, last)) :
    last.chain = r.chain ∧
      ∀ exchange ∈ exchanges, exchange.before = r.chain ∧ exchange.after = r.chain := by
  induction queries generalizing r exchanges with
  | nil =>
    cases h
    exact ⟨rfl, fun _ hmem => absurd hmem List.not_mem_nil⟩
  | cons query rest ih =>
    obtain ⟨exchange, between, more, last, hquery, hrest, he⟩ := serve?_cons_eq_some.mp h
    cases he
    obtain ⟨hbetween, hbefore, hafter, -⟩ := exists_exchange?_eq hquery
    obtain ⟨hlast, hmore⟩ := ih hrest
    rw [hbetween] at hlast hmore
    exact ⟨hlast, List.forall_mem_cons.mpr ⟨⟨hbefore, hafter⟩, hmore⟩⟩

/-- What was asked before plays no part in the exchange for a query. -/
theorem map_serve?_eq_mapM (queries : List Query) (r : Resolver) :
    (r.serve? record depth queries).map Prod.fst =
      queries.mapM fun query => ((under r.chain).exchange? record depth query).map Prod.fst := by
  induction queries generalizing r with
  | nil => rfl
  | cons query rest ih =>
    have hchain : r.chain = (under r.chain).chain := rfl
    have hfirst : (r.exchange? record depth query).map Prod.fst =
        ((under r.chain).exchange? record depth query).map Prod.fst := exchange?_congr hchain query
    rw [List.mapM_cons, ← hfirst, serve?]
    cases hquery : r.exchange? record depth query with
    | none => rfl
    | some out =>
      obtain ⟨exchange, between⟩ := out
      obtain ⟨hbetween, -⟩ := exists_exchange?_eq hquery
      have hrest := ih between
      rw [hbetween] at hrest
      -- The rest is served on the same chain, so it too is served as by resolvers of its own.
      rw [← hrest, Option.map_some]
      cases hmore : between.serve? record depth rest <;> simp [hmore]

end Resolver

/-! ### Over a lookup -/

/-- What a query comes to by itself below a chain. -/
def Resolver.Query.alone (lookup : Lookup) (chain : List String) : Query → Traced Answer
  | .convert descriptor => (RosInterface.convert lookup chain descriptor).map .node
  | .walk fields => (RosInterface.walk lookup chain fields).map .schema
  | .walkRecord name fields => (RosInterface.walkRecord lookup chain name fields).map .schema

namespace Resolver

variable {lookup : Lookup}

/-- An answer of a resolver is what the query comes to by itself. -/
theorem alone_eq_of_answer? {depth : Nat} {chain : List String} {query : Query} {answer : Answer}
    {after : Resolver}
    (h : (under chain).answer? lookup.record depth query = some (answer, after)) :
    query.alone lookup chain = ⟨answer, after.calls⟩ := by
  cases query with
  | convert d =>
    obtain ⟨⟨node, last⟩, hrun, he⟩ := Option.map_eq_some_iff.mp h
    cases he
    rw [Query.alone, convert_eq_of_convert? hrun]
    rfl
  | walk fields =>
    obtain ⟨⟨schema, last⟩, hrun, he⟩ := Option.map_eq_some_iff.mp h
    cases he
    rw [Query.alone, walk_eq_of_walk? hrun]
    rfl
  | walkRecord name fields =>
    obtain ⟨⟨schema, last⟩, hrun, he⟩ := Option.map_eq_some_iff.mp h
    cases he
    rw [Query.alone, walkRecord_eq_of_walkRecord? hrun]
    rfl

/-- A depth of the number of names that can be looked up is enough for every query. -/
theorem exists_answer? {names : List String}
    (hnames : ∀ name fields, lookup.record name = .ok fields → name ∈ names) {depth : Nat}
    (hdepth : names.length ≤ depth) (r : Resolver) (query : Query) :
    ∃ out, r.answer? lookup.record depth query = some out := by
  have henough (r : Resolver) : unvisited names r.chain ≤ depth :=
    Nat.le_trans (List.length_filter_le _ _) hdepth
  cases query with
  | convert d =>
    obtain ⟨out, hrun⟩ := exists_convert? hnames depth r (henough r) d
    exact ⟨_, Option.map_eq_some_iff.mpr ⟨out, hrun, rfl⟩⟩
  | walk fields =>
    obtain ⟨out, hrun⟩ := exists_walk? hnames depth r (henough r) fields
    exact ⟨_, Option.map_eq_some_iff.mpr ⟨out, hrun, rfl⟩⟩
  | walkRecord name fields =>
    obtain ⟨⟨schema, after⟩, hrun⟩ :=
      exists_walk? hnames depth (r.enter name) (henough (r.enter name)) fields
    exact ⟨_, Option.map_eq_some_iff.mpr
      ⟨_, walkRecord?_eq_some.mpr ⟨schema, after, hrun, rfl⟩, rfl⟩⟩

/-- Over a lookup every query is answered, and the exchange is what it comes to by itself. -/
theorem exists_exchange?_eq_alone {names : List String}
    (hnames : ∀ name fields, lookup.record name = .ok fields → name ∈ names) {depth : Nat}
    (hdepth : names.length ≤ depth) (r : Resolver) (query : Query) : ∃ after,
      r.exchange? lookup.record depth query
        = some (⟨query, query.alone lookup r.chain, r.chain, r.chain⟩, after) := by
  obtain ⟨⟨answer, last⟩, hanswer⟩ := exists_answer? hnames hdepth r query
  obtain ⟨calls, chains, hframe⟩ := exists_later_of_answer? hanswer
  refine ⟨r.later calls chains, ?_⟩
  rw [exchange?_of_answer? (hframe r rfl), alone_eq_of_answer? (hframe (under r.chain) rfl)]
  rfl

/-- Over a lookup any number of queries is served. -/
theorem exists_serve?_eq_alone {names : List String}
    (hnames : ∀ name fields, lookup.record name = .ok fields → name ∈ names) {depth : Nat}
    (hdepth : names.length ≤ depth) (queries : List Query) (r : Resolver) : ∃ last,
      r.serve? lookup.record depth queries
        = some (queries.map fun query => ⟨query, query.alone lookup r.chain, r.chain, r.chain⟩,
            last) := by
  induction queries generalizing r with
  | nil => exact ⟨r, rfl⟩
  | cons query rest ih =>
    obtain ⟨between, hquery⟩ := exists_exchange?_eq_alone hnames hdepth r query
    obtain ⟨hbetween, -⟩ := exists_exchange?_eq hquery
    obtain ⟨last, hrest⟩ := ih between
    rw [hbetween] at hrest
    exact ⟨last, serve?_cons_eq_some.mpr ⟨_, between, _, last, hquery, hrest, rfl⟩⟩

/-- **A resolver can be used again.** Put any queries to one resolver, one after the other, whatever
it has done before. The chain is the same before and after each of them. The answer to each and the
lookups made for it are those of a resolver that has done nothing yet, on the same chain, and one
query ends exactly if it would end there. A new resolver has an empty chain, so each query is then
answered as by a new resolver.

This is so over all sources, to whatever depth. Over a lookup every query is answered, from some
depth on, with what it comes to by itself. -/
theorem serve?_eq_each_alone :
    (∀ (record : RecordSource) (depth : Nat) (resolver : Resolver) (queries : List Query),
      (resolver.serve? record depth queries).map Prod.fst =
        (queries.mapM fun query =>
          ((under resolver.chain).exchange? record depth query).map Prod.fst) ∧
      ∀ exchanges last, resolver.serve? record depth queries = some (exchanges, last) →
        last.chain = resolver.chain ∧ ∀ exchange ∈ exchanges,
          exchange.before = resolver.chain ∧ exchange.after = resolver.chain) ∧
    ∀ lookup : Lookup, ∃ enough, ∀ depth, enough ≤ depth →
      ∀ (resolver : Resolver) (queries : List Query), ∃ last,
        resolver.serve? lookup.record depth queries = some (queries.map fun query =>
          ⟨query, query.alone lookup resolver.chain, resolver.chain, resolver.chain⟩, last) ∧
        last.chain = resolver.chain := by
  constructor
  · exact fun record depth resolver queries =>
      ⟨map_serve?_eq_mapM queries resolver, fun exchanges last h => chain_of_serve? h⟩
  · intro lookup
    obtain ⟨names, hnames⟩ := lookup.finite
    refine ⟨names.length, fun depth hdepth resolver queries => ?_⟩
    obtain ⟨last, hserve⟩ := exists_serve?_eq_alone hnames hdepth queries resolver
    exact ⟨last, hserve, (chain_of_serve? hserve).1⟩

/-! ### A resolver that is used three times -/

/-- A record that holds itself, and one that is missing. -/
def selfSource : RecordSource := fun name =>
  if name = "demo/msg/List" then
    .ok [⟨"next", .record "demo/msg/List"⟩, ⟨"value", .record "demo/msg/Value"⟩]
  else .error (.notFound name)

/-- Between two equal queries, which are cut at a cycle and at a missing record, fields are
described for the record that is missing. The two exchanges are equal. -/
theorem serve?_selfSource : ∃ exchanges last,
    fresh.serve? selfSource 1 [.convert (.record "demo/msg/List"),
      .walkRecord "demo/msg/Value" [⟨"list", .record "demo/msg/List"⟩],
      .convert (.record "demo/msg/List")] = some (exchanges, last) ∧
    last.chain = [] ∧ (∀ exchange ∈ exchanges, exchange.before = [] ∧ exchange.after = []) ∧
    exchanges[2]? = exchanges[0]? ∧ exchanges.map (fun exchange => exchange.answer.calls) =
      [[.record "demo/msg/List", .record "demo/msg/Value"], [.record "demo/msg/List"],
        [.record "demo/msg/List", .record "demo/msg/Value"]] := by
  obtain ⟨exchanges, last, hserve, hequal, hcalls⟩ : ∃ exchanges last,
      fresh.serve? selfSource 1 [.convert (.record "demo/msg/List"),
        .walkRecord "demo/msg/Value" [⟨"list", .record "demo/msg/List"⟩],
        .convert (.record "demo/msg/List")] = some (exchanges, last) ∧
      exchanges[2]? = exchanges[0]? ∧ exchanges.map (fun exchange => exchange.answer.calls) =
        [[.record "demo/msg/List", .record "demo/msg/Value"], [.record "demo/msg/List"],
          [.record "demo/msg/List", .record "demo/msg/Value"]] := ⟨_, _, rfl, rfl, rfl⟩
  obtain ⟨hlast, hchains⟩ := (serve?_eq_each_alone.1 selfSource 1 fresh _).2 _ _ hserve
  exact ⟨exchanges, last, hserve, hlast, hchains, hequal, hcalls⟩

end Resolver

end RosInterface
