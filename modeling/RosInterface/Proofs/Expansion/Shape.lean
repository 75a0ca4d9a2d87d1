import Mathlib.Logic.ExistsUnique
import RosInterface.Proofs.Expansion.Place
import RosInterface.Schema.Expansion

/-!
# The shape of nodes

The six parts of a node can be put together in any way. In an expansion they are not. Every node has
its type name alone, or is a string with a greatest length, or an array whose items have at most one
limit, or a record with fields. The names of fields are different from each other, and none is that
of a field without data. Numbers and levels of nesting are those of the declared types.

A node *conforms* to a descriptor if it is made as the descriptor says, below records that can be
looked up. Every node of an expansion conforms to its descriptor, and all that a node holds conforms
to the descriptor at its place.

## Main definitions

* `Shape`, `Node.HasShape`: the shapes of nodes.
* `RecordSchema.IsProper`: what is said of the names of fields.
* `Node.Holds`: what stands at a place in a node, with every entry of its tables.
* `Node.levels`, `Descriptor.extents`: levels of items, and of declared arrays and sequences.
* `Node.Measures`: the limits of a node are those of a declared type.
* `Node.IsFaithful`, `RecordSchema.IsFaithful`: all of this, at every place.
* `Node.Conforms`: a node is made as a descriptor says.

## Main results

* `RecordSchema.IsProper.insert`: insertion keeps a schema proper.
* `Resolver.conforms_of_run`: every node of an expansion conforms to its descriptor.
* `Node.Conforms.exists_below?`: what a conforming node holds conforms too.
* `isFaithful_of_expansion`: every node of an expansion has one shape and the declared limits.
-/

namespace RosInterface

/-! ### Shapes -/

/-- The shapes of nodes. -/
inductive Shape where
  /-- The name of a type alone. -/
  | name
  /-- A string with a greatest length. -/
  | boundedString
  /-- An array or a sequence. -/
  | array
  /-- A record with its fields. -/
  | record

/-- The parts that a node of a shape has and those that it does not have. -/
def Node.HasShape (node : Node) : Shape → Prop
  | .name => node.maxLength = none ∧ node.items = none ∧ node.size = none ∧ node.maxSize = none ∧
      node.fields = none
  | .boundedString => node.typeName = "string" ∧ node.maxLength.isSome ∧ node.items = none ∧
      node.size = none ∧ node.maxSize = none ∧ node.fields = none
  | .array => node.typeName = "array" ∧ node.maxLength = none ∧ node.items.isSome ∧
      (node.size = none ∨ node.maxSize = none) ∧ node.fields = none
  | .record => node.maxLength = none ∧ node.items = none ∧ node.size = none ∧
      node.maxSize = none ∧ node.fields.isSome

/-- No node has two shapes. -/
theorem Node.HasShape.eq {node : Node} {shape shape' : Shape} (h : node.HasShape shape)
    (h' : node.HasShape shape') : shape = shape' := by
  cases shape <;> cases shape' <;> simp_all [HasShape]

/-- The names in a record schema are different from each other, and they are names of fields that
hold data. -/
structure RecordSchema.IsProper (schema : RecordSchema) : Prop where
  nodup_keys : schema.keys.Nodup
  head?_ne : ∀ key ∈ schema.keys, key.toList.head? ≠ some '_'
  placeholder_notMem : emptyStructPlaceholder ∉ schema.keys

/-- A node has one shape, and its fields have proper names if it has any. -/
structure Node.IsWellFormed (node : Node) : Prop where
  existsUnique_shape : ∃! shape, node.HasShape shape
  isProper_fields : ∀ schema, node.fields = some schema → RecordSchema.IsProper schema

/-- A node holds another one at a place. All entries of a record's fields count. -/
inductive Node.Holds : Node → Place → Node → Prop
  | here (node : Node) : Holds node [] node
  | items {node items m : Node} {place : Place} (hi : node.items = some items)
    (h : Holds items place m) : Holds node (.items :: place) m
  | field {node child m : Node} {schema : RecordSchema} {key : String} {place : Place}
    (hf : node.fields = some schema) (he : (key, child) ∈ schema.entries)
    (h : Holds child place m) : Holds node (.field key :: place) m

/-! ### Limits -/

/-- The number and the greatest number of elements that a size limit says. -/
def Extent.limits : Extent → Option Nat × Option Nat
  | fixed count => (some count, none)
  | bounded limit => (none, some limit)
  | unbounded => (none, none)

/-- The size limits of the arrays and sequences that stand inside one another in a declared type,
the outermost first. -/
def Descriptor.extents : Descriptor → List Extent
  | .sequence element extent => extent :: element.extents
  | _ => []

/-- The greatest length that a declared type says. -/
def Descriptor.maxLength? : Descriptor → Option Nat
  | .string maxLength => maxLength
  | _ => none

/-- The numbers and greatest numbers of elements at the levels of items that stand inside one
another, the outermost first. -/
def Node.levels : Node → List (Option Nat × Option Nat)
  | ⟨_, _, none, _, _, _⟩ => []
  | ⟨_, _, some items, size, maxSize, _⟩ => (size, maxSize) :: items.levels

/-- A node has as many levels of items as the declared type has arrays and sequences inside one
another, with their limits, and the greatest length that the type says. -/
structure Node.Measures (node : Node) (descriptor : Descriptor) : Prop where
  levels_eq : node.levels = descriptor.extents.map Extent.limits
  maxLength_eq : node.maxLength = descriptor.maxLength?

/-- All that the node of a descriptor holds is well formed and has the limits that the type declared
at its place says. -/
def Node.IsFaithful (record : RecordSource) (descriptor : Descriptor) (node : Node) : Prop :=
  ∀ place m, node.Holds place m → m.IsWellFormed ∧
    ∃ d, descriptor.below? record place = some d ∧ m.Measures d

/-- The names in the schema of a field list are proper, and each stands for the last field with data
that has it. -/
structure RecordSchema.IsFaithful (record : RecordSource) (fields : List Field)
    (schema : RecordSchema) : Prop where
  isProper : schema.IsProper
  exists_lastField? : ∀ key node, (key, node) ∈ schema.entries →
    ∃ field, lastField? fields key = some field ∧ node.IsFaithful record field.descriptor

/-! ### Nodes that conform to descriptors -/

/-- A node is made as a descriptor says. The fields of a record conform to those that were looked
up for it, each to the last one with data that has its name. -/
inductive Node.Conforms (record : RecordSource) : Descriptor → Node → Prop
  | primitive (name : String) : Conforms record (.primitive name) (.named name)
  | string (maxLength : Option Nat) : Conforms record (.string maxLength) (.string maxLength)
  | unknown (tag : String) : Conforms record (.unknown tag) (.named tag)
  | sequence {element : Descriptor} {items : Node} (extent : Extent)
    (h : Conforms record element items) :
    Conforms record (.sequence element extent) (.array items extent)
  | cut (name : String) : Conforms record (.record name) (.named name)
  | record {name : String} {fields : List Field} {schema : RecordSchema}
    (hr : record name = .ok fields) (hproper : schema.IsProper)
    (hkeys : ∀ key node, (key, node) ∈ schema.entries → (lastField? fields key).isSome)
    (h : ∀ key node field, (key, node) ∈ schema.entries → lastField? fields key = some field →
      Conforms record field.descriptor node) :
    Conforms record (.record name) (.record name schema)

variable {record : RecordSource}

namespace RecordSchema

theorem isProper_empty : IsProper Table.empty where
  nodup_keys := List.nodup_nil
  head?_ne _ h := absurd h List.not_mem_nil
  placeholder_notMem := List.not_mem_nil

/-- The name of a field with data is proper. -/
theorem name_of_isBookkeeping_eq_false {field : Field} (h : field.isBookkeeping = false) :
    field.name.toList.head? ≠ some '_' ∧ field.name ≠ emptyStructPlaceholder := by
  rw [Field.isBookkeeping, Bool.or_eq_false_iff] at h
  refine ⟨fun hhead => ?_, by simpa using h.2⟩
  obtain ⟨rest, hrest⟩ := List.head?_eq_some_iff.mp hhead
  rw [hrest] at h
  simp at h

/-- **Insertion keeps a schema proper** where a field with data is inserted. -/
theorem IsProper.insert {schema : RecordSchema} (h : schema.IsProper) {field : Field}
    (hb : field.isBookkeeping = false) (node : Node) :
    IsProper (Table.insert schema field.name node) := by
  obtain ⟨hhead, hplaceholder⟩ := name_of_isBookkeeping_eq_false hb
  have hmem {key : String} (hkey : key ∈ (Table.insert schema field.name node).keys) :
      key = field.name ∨ key ∈ schema.keys := by
    rw [Table.keys_insert] at hkey
    split at hkey
    · exact .inr hkey
    · rwa [List.mem_append, List.mem_singleton, or_comm] at hkey
  refine ⟨Table.nodup_keys_insert h.nodup_keys _ _, fun key hkey => ?_, fun hkey => ?_⟩
  · rcases hmem hkey with rfl | hold
    · exact hhead
    · exact h.head?_ne key hold
  · rcases hmem hkey with heq | hold
    · exact hplaceholder heq.symm
    · exact h.placeholder_notMem hold

end RecordSchema

namespace Node.Conforms

variable {d : Descriptor} {node m : Node}

/-- A record conforms to a reference if its fields conform to those that were looked up. -/
theorem of_fields {name : String} {fields : List Field} {schema : RecordSchema}
    (hr : record name = .ok fields) (hproper : schema.IsProper)
    (h : ∀ key node, (key, node) ∈ schema.entries → ∃ field,
      lastField? fields key = some field ∧ Conforms record field.descriptor node) :
    Conforms record (.record name) (.record name schema) := by
  refine .record hr hproper (fun key node hmem => ?_) fun key node field hmem hfield => ?_
  · obtain ⟨field, hfield, -⟩ := h key node hmem
    rw [hfield]
    rfl
  · obtain ⟨field', hfield', hconforms⟩ := h key node hmem
    obtain rfl := Option.some.inj (hfield'.symm.trans hfield)
    exact hconforms

/-- **What a conforming node holds conforms too**, to the descriptor at its place. -/
theorem exists_below? {place : Place} (h : Conforms record d node) (hm : node.Holds place m) :
    ∃ d', d.below? record place = some d' ∧ Conforms record d' m := by
  induction hm generalizing d with
  | here => exact ⟨d, Descriptor.below?_nil d, h⟩
  | items hi _ ih =>
    cases h with
    | sequence extent h =>
      cases hi
      obtain ⟨d', hd', hconforms⟩ := ih h
      exact ⟨d', by rw [Descriptor.below?, hd'], hconforms⟩
    | _ => cases hi
  | @field _ child _ _ key _ hf he _ ih =>
    cases h with
    | record hr _ hkeys h =>
      cases hf
      obtain ⟨field, hfield⟩ := Option.isSome_iff_exists.mp (hkeys key child he)
      obtain ⟨d', hd', hconforms⟩ := ih (h key child field he hfield)
      exact ⟨d', (Descriptor.below?_field hr hfield _).trans hd', hconforms⟩
    | _ => cases hf

/-- A conforming node has a shape. -/
theorem exists_hasShape (h : Conforms record d node) : ∃ shape, node.HasShape shape := by
  have named (name : String) : (Node.named name).HasShape .name := ⟨rfl, rfl, rfl, rfl, rfl⟩
  cases h with
  | primitive name => exact ⟨.name, named name⟩
  | string maxLength =>
    cases maxLength with
    | none => exact ⟨.name, named "string"⟩
    | some length => exact ⟨.boundedString, rfl, rfl, rfl, rfl, rfl, rfl⟩
  | unknown tag => exact ⟨.name, named tag⟩
  | sequence extent h =>
    refine ⟨.array, rfl, rfl, rfl, ?_, rfl⟩
    cases extent with
    | fixed count => exact .inr rfl
    | bounded limit => exact .inl rfl
    | unbounded => exact .inl rfl
  | cut name => exact ⟨.name, named name⟩
  | record hr hproper => exact ⟨.record, rfl, rfl, rfl, rfl, rfl⟩

theorem isWellFormed (h : Conforms record d node) : node.IsWellFormed where
  existsUnique_shape := by
    obtain ⟨shape, hshape⟩ := h.exists_hasShape
    exact ⟨shape, hshape, fun other hother => hother.eq hshape⟩
  isProper_fields schema hf := by
    cases h with
    | record hr hproper =>
      cases hf
      exact hproper
    | _ => cases hf

/-- A conforming node has the limits that its descriptor says. -/
theorem measures (h : Conforms record d node) : node.Measures d := by
  induction h with
  | primitive name => exact ⟨rfl, rfl⟩
  | string maxLength => exact ⟨rfl, rfl⟩
  | unknown tag => exact ⟨rfl, rfl⟩
  | sequence extent h ih =>
    refine ⟨?_, rfl⟩
    rw [Descriptor.extents, List.map_cons, ← ih.levels_eq, Node.array, Node.levels]
    cases extent <;> rfl
  | cut name => exact ⟨rfl, rfl⟩
  | record => exact ⟨rfl, rfl⟩

/-- A node that conforms to its descriptor is faithful to it, with all that it holds. -/
theorem isFaithful (h : Conforms record d node) : node.IsFaithful record d := by
  intro place m hm
  obtain ⟨d', hd', hconforms⟩ := h.exists_below? hm
  exact ⟨hconforms.isWellFormed, d', hd', hconforms.measures⟩

end Node.Conforms

/-! ### Runs -/

namespace Resolver

/-- **Every node of an expansion conforms to its descriptor.** The schema of a field list is proper,
and each node in it conforms to the last field of its name, or it was there before. -/
theorem conforms_of_run (record : RecordSource) (depth : Nat) :
    (∀ (r : Resolver) d out, r.convert? record depth d = some out →
      Node.Conforms record d out.1) ∧
    ∀ (r : Resolver) schema fields out, r.walkOnto? record depth schema fields = some out →
      schema.IsProper → RecordSchema.IsProper out.1 ∧
        ∀ key node, out.1.get? key = some node →
          (∃ field, lastField? fields key = some field ∧
            Node.Conforms record field.descriptor node) ∨
          (lastField? fields key = none ∧ schema.get? key = some node) := by
  apply run_induction
  case primitive => exact fun depth r name => .primitive name
  case string => exact fun depth r maxLength => .string maxLength
  case unknown => exact fun depth r tag => .unknown tag
  case sequence => exact fun depth r element extent items after _ ih => .sequence extent ih
  case cycle => exact fun depth r name _ => .cut name
  case missing => exact fun depth r name e _ _ => .cut name
  case found =>
    intro depth r name fields schema after hn hr _ ih
    obtain ⟨hproper, hfields⟩ := ih RecordSchema.isProper_empty
    refine .of_fields hr hproper fun key node hmem => ?_
    have hkey := (Table.get?_eq_some_iff hproper.nodup_keys).mpr hmem
    exact exists_lastField?_of_empty (hfields key node hkey)
  case done => exact fun depth r schema hschema => ⟨hschema, fun key node hkey => .inr ⟨rfl, hkey⟩⟩
  case skip =>
    intro depth r schema field rest out hb ih hschema
    refine ⟨(ih hschema).1, fun key node hkey => ?_⟩
    rw [lastField?_cons_of_bookkeeping hb]
    exact (ih hschema).2 key node hkey
  case put =>
    intro depth r schema field rest node between out hb _ ihNode _ ihRest hschema
    obtain ⟨hproper, hfields⟩ := ihRest (hschema.insert hb node)
    exact ⟨hproper, fun key m hkey => exists_lastField?_cons hb ihNode (hfields key m hkey)⟩

variable {depth : Nat} {r : Resolver}

theorem isFaithful_of_walk? {fields : List Field} {schema : RecordSchema} {after : Resolver}
    (h : r.walk? record depth fields = some (schema, after)) :
    RecordSchema.IsFaithful record fields schema := by
  obtain ⟨hproper, hfields⟩ :=
    (conforms_of_run record depth).2 _ _ _ _ h RecordSchema.isProper_empty
  refine ⟨hproper, fun key node hmem => ?_⟩
  have hkey := (Table.get?_eq_some_iff hproper.nodup_keys).mpr hmem
  obtain ⟨field, hfield, hconforms⟩ := exists_lastField?_of_empty (hfields key node hkey)
  exact ⟨field, hfield, hconforms.isFaithful⟩

theorem isFaithful_of_walkRecord? {name : String} {fields : List Field} {schema : RecordSchema}
    {after : Resolver} (h : r.walkRecord? record depth name fields = some (schema, after)) :
    RecordSchema.IsFaithful record fields schema := by
  obtain ⟨schema, between, hwalk, he⟩ := walkRecord?_eq_some.mp h
  cases he
  exact isFaithful_of_walk? hwalk

end Resolver

/-- **Expansions are well formed at every depth and say what is declared.** Describe a descriptor or
a field list, with any records on the chain. Every node of the result, at whatever place, has one of
the four shapes and no other. The names in the result, and in every record in it, are different from
each other, and none starts with an underscore or is the placeholder of an empty structure. A node
has as many levels of items as the type that is declared at its place has arrays and sequences
inside one another, with their sizes and greatest sizes, and the greatest length of that type.

This is so over all sources where the expansion ends, to whatever depth; and over lookups, where it
always ends. -/
theorem isFaithful_of_expansion :
    (∀ (record : RecordSource) (depth : Nat) (r after : Resolver),
      (∀ (d : Descriptor) (node : Node), r.convert? record depth d = some (node, after) →
        node.IsFaithful record d) ∧
      (∀ (fields : List Field) (schema : RecordSchema),
        r.walk? record depth fields = some (schema, after) →
          schema.IsFaithful record fields) ∧
      ∀ (name : String) (fields : List Field) (schema : RecordSchema),
        r.walkRecord? record depth name fields = some (schema, after) →
          schema.IsFaithful record fields) ∧
    ∀ (lookup : Lookup) (chain : List String),
      (∀ d : Descriptor, (convert lookup chain d).value.IsFaithful lookup.record d) ∧
      (∀ fields : List Field,
        RecordSchema.IsFaithful lookup.record fields (walk lookup chain fields).value) ∧
      ∀ (name : String) (fields : List Field),
        RecordSchema.IsFaithful lookup.record fields
          (walkRecord lookup chain name fields).value := by
  have ofConvert {record : RecordSource} {depth : Nat} {r after : Resolver} {d : Descriptor}
      {node : Node} (h : r.convert? record depth d = some (node, after)) :
      node.IsFaithful record d :=
    ((Resolver.conforms_of_run record depth).1 _ _ _ h).isFaithful
  refine ⟨fun record depth r after => ⟨fun d node => ofConvert, fun fields schema =>
    Resolver.isFaithful_of_walk?, fun name fields schema => Resolver.isFaithful_of_walkRecord?⟩,
    fun lookup chain => ⟨fun d => ?_, fun fields => ?_, fun name fields => ?_⟩⟩
  · obtain ⟨depth, after, hrun, -⟩ := exists_convert?_of_lookup lookup chain d
    exact ofConvert hrun
  · obtain ⟨depth, after, hrun, -⟩ := exists_walk?_of_lookup lookup chain fields
    exact Resolver.isFaithful_of_walk? hrun
  · obtain ⟨depth, after, hrun, -⟩ := exists_walkRecord?_of_lookup lookup chain name fields
    exact Resolver.isFaithful_of_walkRecord? hrun

/-! ### Labels in a record -/

/-- A list of two rows of at most four labels, declared again after a field without data. -/
def labelFields : List Field :=
  [⟨"rows", .primitive "octet"⟩, ⟨"_pad", .primitive "octet"⟩,
    ⟨"rows", .sequence (.sequence (.string (some 8)) (.bounded 4)) (.fixed 2)⟩]

/-- A source of the record with these fields. -/
def labelSource : RecordSource := fun name =>
  if name = "demo/msg/Labels" then .ok labelFields else .error (.notFound name)

/-- The rows of labels. -/
def labelRows : Node :=
  .array (.array (.string (some 8)) (.bounded 4)) (.fixed 2)

/-- A sequence of these records has two levels of items, with the sizes declared, at the place of
the rows, and a label there has its greatest length only. -/
theorem labelRows_isFaithful : ∃ node after,
    Resolver.fresh.convert? labelSource 1 (.sequence (.record "demo/msg/Labels") .unbounded)
      = some (node, after) ∧
    node.Holds [.items, .field "rows"] labelRows ∧
    (∃! shape, labelRows.HasShape shape) ∧
    labelRows.levels = [(some 2, none), (none, some 4)] := by
  obtain ⟨after, hrun⟩ : ∃ after,
      Resolver.fresh.convert? labelSource 1 (.sequence (.record "demo/msg/Labels") .unbounded)
        = some (.array (.record "demo/msg/Labels" ⟨[("rows", labelRows)]⟩) .unbounded, after) :=
    ⟨_, rfl⟩
  have hholds : Node.Holds (.array (.record "demo/msg/Labels" ⟨[("rows", labelRows)]⟩) .unbounded)
      [.items, .field "rows"] labelRows :=
    .items rfl (.field rfl (List.mem_singleton.mpr rfl) (.here labelRows))
  obtain ⟨hwell, d, hd, hmeasures⟩ :=
    (isFaithful_of_expansion.1 labelSource 1 _ after).1 _ _ hrun _ _ hholds
  refine ⟨_, after, hrun, hholds, hwell.existsUnique_shape, ?_⟩
  cases hd
  exact hmeasures.levels_eq

end RosInterface
