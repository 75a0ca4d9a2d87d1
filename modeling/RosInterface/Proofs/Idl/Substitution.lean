import RosInterface.Proofs.Idl.Referent

/-!
# Typedefs that are replaced by what they stand for

A type is written as an innermost type with arrays and sequences around it, its *layers*. If the
innermost type refers to a typedef, the target of the typedef stands in its place, with layers of
its own, and is read in the modules of the typedef. In its *full substitution* this goes on until
the innermost type is no typedef. There may be no end to it, where a typedef comes back to itself.

A descriptor follows typedefs up to a limit. Within the limit it is the full substitution. Otherwise
it has the layers of all typedefs up to the limit, around an unknown type with the path of the next
typedef. Both are inductions on the typedefs that are followed, since each of them takes one step
and starts again in other modules.

## Main definitions

* `Idl.Member.layers`, `Idl.TypeExpr.innermost`: the parts of what is written.
* `Idl.Declarations.Follows`: typedefs that are followed one after the other.
* `Idl.Declarations.Substitutes`: the full substitution, with the typedefs that are followed.

## Main results

* `Idl.Declarations.Substitutes.descriptorWith_eq`: the descriptor within the limit.
* `Idl.Declarations.Follows.descriptorWith_eq`: the descriptor beyond the limit.
* `Idl.Declarations.not_substitutes_of_mem`: a typedef that comes back has no end.
* `Idl.Declarations.field_eq_substitution`: the three together.
-/

namespace RosInterface

/-- A descriptor with arrays and sequences around it, the outermost first. -/
def Descriptor.within (layers : List Extent) (descriptor : Descriptor) : Descriptor :=
  layers.foldr (fun extent element => .sequence element extent) descriptor

theorem Descriptor.within_append (outer inner : List Extent) (descriptor : Descriptor) :
    descriptor.within (outer ++ inner) = (descriptor.within inner).within outer :=
  List.foldr_append

namespace Idl

/-! ### Layers -/

/-- The extent of a sequence with a limit, if it has one. -/
def extentOf : Option Nat → Extent
  | none => .unbounded
  | some limit => .bounded limit

/-- The sequences around the innermost part of a type, the outermost first. -/
def TypeExpr.layers : TypeExpr → List Extent
  | sequence element limit => extentOf limit :: element.layers
  | _ => []

/-- The innermost part of a type, which is no sequence. -/
def TypeExpr.innermost : TypeExpr → TypeExpr
  | sequence element _ => element.innermost
  | type => type

/-- The array of a member and the sequences in its type, the outermost first. -/
def Member.layers (member : Member) : List Extent :=
  (member.length.map Extent.fixed).toList ++ member.type.layers

/-- The innermost part of the type of a member. -/
def Member.innermost (member : Member) : TypeExpr :=
  member.type.innermost

theorem TypeExpr.descriptorWith_eq (ofPath : Path → Descriptor) (type : TypeExpr) :
    type.descriptorWith ofPath = (type.innermost.descriptorWith ofPath).within type.layers := by
  induction type with
  | sequence element limit ih =>
    cases limit with
    | none => exact congrArg (Descriptor.sequence · .unbounded) ih
    | some limit => exact congrArg (Descriptor.sequence · (.bounded limit)) ih
  | _ => rfl

/-- The descriptor of a member is that of the innermost type within its layers. -/
theorem Member.descriptorWith_eq (ofPath : Path → Descriptor) (member : Member) :
    member.descriptorWith ofPath
      = (member.innermost.descriptorWith ofPath).within member.layers := by
  obtain ⟨name, type, length⟩ := member
  rw [layers, Descriptor.within_append, innermost, ← TypeExpr.descriptorWith_eq]
  cases length <;> rfl

theorem TypeExpr.innermost_ne_sequence (type element : TypeExpr) (limit : Option Nat) :
    type.innermost ≠ sequence element limit := by
  induction type with
  | sequence inner _ ih => exact ih
  | _ => exact TypeExpr.noConfusion

namespace Declarations

variable (declarations : Declarations)

/-! ### Following typedefs -/

/-- The innermost type of a member in a module refers to a typedef. -/
def RefersToTypedef (module : Path) (member : Member) (typedef : Path × Member) : Prop :=
  ∃ path, member.innermost = .named path ∧
    declarations.referent module path = .typedef typedef.1 typedef.2

/-- The descriptor of an innermost type in a module, where it refers to no typedef. -/
inductive Ends (module : Path) : TypeExpr → Descriptor → Prop
  /-- A basic type. -/
  | basic (type : BasicType) : Ends module (.basic type) (.primitive type.name)
  /-- A string. -/
  | string (limit : Option Nat) : Ends module (.string limit) (.string limit)
  /-- A string of wide characters of any length. -/
  | unboundedWideString : Ends module (.wideString none) (.unknown "UnboundedWString")
  /-- A string of wide characters with a greatest length. -/
  | boundedWideString (limit : Nat) :
    Ends module (.wideString (some limit)) (.unknown "BoundedWString")
  /-- A struct. -/
  | struct {path found : Path} (h : declarations.referent module path = .struct found) :
    Ends module (.named path) (.record ("/".intercalate found))
  /-- An enum. -/
  | enum {path found : Path} (h : declarations.referent module path = .enum found) :
    Ends module (.named path) (.primitive ("/".intercalate found))
  /-- A record of another file. -/
  | foreign {path found : Path} (h : declarations.referent module path = .foreign found) :
    Ends module (.named path) (.record ("/".intercalate found))

/-- Typedefs that are followed one after the other from a member in a module. The innermost type of
each refers to the next one, in the modules of the typedef in which it stands. -/
inductive Follows : Path → Member → List (Path × Member) → Prop
  /-- None is followed. -/
  | nil (module : Path) (member : Member) : Follows module member []
  /-- One is followed, and others from there on. -/
  | cons {module path : Path} {member target : Member} {more : List (Path × Member)}
    (hrefers : declarations.RefersToTypedef module member (path, target))
    (h : Follows path.dropLast target more) : Follows module member ((path, target) :: more)

/-- The full substitution of a member in a module: the innermost type, if it refers to a typedef, is
replaced by the full substitution of what the typedef stands for, in the modules of the typedef.
Nothing limits the number of typedefs that are followed. -/
inductive Substitutes : Path → Member → List (Path × Member) → Descriptor → Prop
  /-- The innermost type refers to no typedef. -/
  | ends {module : Path} {member : Member} {innermost : Descriptor}
    (h : declarations.Ends module member.innermost innermost) :
    Substitutes module member [] (innermost.within member.layers)
  /-- The innermost type refers to a typedef. -/
  | typedef {module path : Path} {member target : Member} {more : List (Path × Member)}
    {full : Descriptor} (hrefers : declarations.RefersToTypedef module member (path, target))
    (h : Substitutes path.dropLast target more full) :
    Substitutes module member ((path, target) :: more) (full.within member.layers)

variable {declarations} {module : Path} {member : Member} {typedef : Path × Member}
  {innermost full full' : Descriptor} {chain chain' : List (Path × Member)}

/-- The innermost type of a member refers to one typedef at most. -/
theorem RefersToTypedef.eq {typedef' : Path × Member}
    (h : declarations.RefersToTypedef module member typedef)
    (h' : declarations.RefersToTypedef module member typedef') : typedef' = typedef := by
  obtain ⟨path, hpath, hreferent⟩ := h
  obtain ⟨path', hpath', hreferent'⟩ := h'
  obtain rfl := TypeExpr.named.inj (hpath'.symm.trans hpath)
  obtain ⟨hfst, hsnd⟩ := Referent.typedef.inj (hreferent'.symm.trans hreferent)
  exact Prod.ext hfst hsnd

/-- An innermost type that ends a chain refers to no typedef. -/
theorem Ends.not_refersToTypedef (h : declarations.Ends module member.innermost innermost) :
    ¬declarations.RefersToTypedef module member typedef := by
  rintro ⟨path, hpath, hreferent⟩
  rw [hpath] at h
  cases h with
  | struct hfound => cases hfound.symm.trans hreferent
  | enum hfound => cases hfound.symm.trans hreferent
  | foreign hfound => cases hfound.symm.trans hreferent

/-- The innermost type of a member ends a chain, or it refers to a typedef. -/
theorem exists_ends_or_refersToTypedef (declarations : Declarations) (module : Path)
    (member : Member) : (∃ innermost, declarations.Ends module member.innermost innermost) ∨
      ∃ typedef, declarations.RefersToTypedef module member typedef := by
  cases htype : member.innermost with
  | basic type => exact .inl ⟨_, .basic type⟩
  | sequence element limit => exact absurd htype (TypeExpr.innermost_ne_sequence _ _ _)
  | string limit => exact .inl ⟨_, .string limit⟩
  | wideString limit =>
    cases limit with
    | none => exact .inl ⟨_, .unboundedWideString⟩
    | some limit => exact .inl ⟨_, .boundedWideString limit⟩
  | named path =>
    cases hreferent : declarations.referent module path with
    | typedef found target => exact .inr ⟨(found, target), path, htype, hreferent⟩
    | struct found => exact .inl ⟨_, .struct hreferent⟩
    | enum found => exact .inl ⟨_, .enum hreferent⟩
    | foreign found => exact .inl ⟨_, .foreign hreferent⟩

/-! ### Descriptors within the limit and beyond it -/

variable {steps : Nat}

/-- The descriptor of a type that ends a chain, for any limit. -/
theorem Ends.descriptorWith_eq {type : TypeExpr} (h : declarations.Ends module type innermost) :
    type.descriptorWith (declarations.descriptor steps module) = innermost := by
  cases h with
  | struct hreferent => exact descriptor_of_struct hreferent
  | enum hreferent => exact descriptor_of_enum hreferent
  | foreign hreferent => exact descriptor_of_foreign hreferent
  | _ => rfl

/-- A typedef is followed as long as a step is left. -/
theorem RefersToTypedef.descriptorWith_succ
    (h : declarations.RefersToTypedef module member typedef) (steps : Nat) :
    member.descriptorWith (declarations.descriptor (steps + 1) module)
      = (typedef.2.descriptorWith
          (declarations.descriptor steps typedef.1.dropLast)).within member.layers := by
  obtain ⟨path, hpath, hreferent⟩ := h
  rw [Member.descriptorWith_eq, hpath, TypeExpr.descriptorWith,
    descriptor_succ_of_typedef hreferent]

/-- Where no step is left, the path of the typedef stands in the descriptor. -/
theorem RefersToTypedef.descriptorWith_zero
    (h : declarations.RefersToTypedef module member typedef) :
    member.descriptorWith (declarations.descriptor 0 module)
      = (Descriptor.unknown ("::".intercalate typedef.1)).within member.layers := by
  obtain ⟨path, hpath, hreferent⟩ := h
  rw [Member.descriptorWith_eq, hpath, TypeExpr.descriptorWith,
    descriptor_zero_of_typedef hreferent]

/-- **Within the limit the descriptor is the full substitution.** -/
theorem Substitutes.descriptorWith_eq (h : declarations.Substitutes module member chain full)
    (hsteps : chain.length ≤ steps) :
    member.descriptorWith (declarations.descriptor steps module) = full := by
  induction h generalizing steps with
  | ends hends => rw [Member.descriptorWith_eq, hends.descriptorWith_eq]
  | typedef hrefers _ ih =>
    cases steps with
    | zero => exact absurd hsteps (Nat.not_succ_le_zero _)
    | succ steps =>
      rw [hrefers.descriptorWith_succ, ih (Nat.le_of_succ_le_succ hsteps)]

/-- **Beyond the limit the descriptor has the layers of the typedefs up to the limit.** Around them
are those of the member, and inside them stands the path of the next typedef. -/
theorem Follows.descriptorWith_eq {followed : List (Path × Member)}
    (h : declarations.Follows module member (followed ++ [typedef])) :
    member.descriptorWith (declarations.descriptor followed.length module)
      = (Descriptor.unknown ("::".intercalate typedef.1)).within
          (member.layers ++ followed.flatMap fun typedef => typedef.2.layers) := by
  induction followed generalizing module member with
  | nil =>
    cases h with
    | cons hrefers _ =>
      rw [List.flatMap_nil, List.append_nil]
      exact hrefers.descriptorWith_zero
  | cons first followed ih =>
    cases h with
    | cons hrefers hmore =>
      rw [List.length_cons, hrefers.descriptorWith_succ, ih hmore, List.flatMap_cons,
        Descriptor.within_append member.layers]

/-- The typedefs come to an end within a limit, or they go on beyond it. -/
theorem exists_substitutes_or_follows (declarations : Declarations) (steps : Nat) (module : Path)
    (member : Member) :
    (∃ chain full, declarations.Substitutes module member chain full ∧ chain.length ≤ steps) ∨
      ∃ followed typedef, declarations.Follows module member (followed ++ [typedef]) ∧
        followed.length = steps := by
  induction steps generalizing module member with
  | zero =>
    rcases declarations.exists_ends_or_refersToTypedef module member with
      ⟨innermost, hends⟩ | ⟨typedef, hrefers⟩
    · exact .inl ⟨[], _, .ends hends, Nat.le_refl 0⟩
    · exact .inr ⟨[], typedef, .cons hrefers (.nil _ _), rfl⟩
  | succ steps ih =>
    rcases declarations.exists_ends_or_refersToTypedef module member with
      ⟨innermost, hends⟩ | ⟨⟨path, target⟩, hrefers⟩
    · exact .inl ⟨[], _, .ends hends, Nat.zero_le _⟩
    · rcases ih path.dropLast target with
        ⟨chain, full, hfull, hlength⟩ | ⟨followed, typedef, hfollows, hlength⟩
      · exact .inl ⟨_, _, .typedef hrefers hfull, Nat.succ_le_succ hlength⟩
      · exact .inr ⟨(path, target) :: followed, typedef, .cons hrefers hfollows,
          congrArg Nat.succ hlength⟩

/-! ### Typedefs that come back to themselves -/

/-- The typedefs that a full substitution follows are determined. -/
theorem Substitutes.chain_eq (h : declarations.Substitutes module member chain full)
    (h' : declarations.Substitutes module member chain' full') : chain' = chain := by
  induction h generalizing chain' full' with
  | ends hends =>
    cases h' with
    | ends => rfl
    | typedef hrefers => exact absurd hrefers hends.not_refersToTypedef
  | typedef hrefers _ ih =>
    cases h' with
    | ends hends => exact absurd hrefers hends.not_refersToTypedef
    | typedef hrefers' h' =>
      cases hrefers.eq hrefers'
      rw [ih h']

/-- A full substitution goes on from every typedef that can be followed. -/
theorem Substitutes.exists_of_follows {before : List (Path × Member)}
    (h : declarations.Substitutes module member chain full)
    (hfollows : declarations.Follows module member (before ++ [typedef])) :
    ∃ rest inner, chain = before ++ typedef :: rest ∧
      declarations.Substitutes typedef.1.dropLast typedef.2 rest inner := by
  induction before generalizing module member chain full with
  | nil =>
    cases hfollows with
    | cons hrefers _ =>
      cases h with
      | ends hends => exact absurd hrefers hends.not_refersToTypedef
      | typedef hrefers' hfull =>
        cases hrefers.eq hrefers'
        exact ⟨_, _, rfl, hfull⟩
  | cons first before ih =>
    cases hfollows with
    | cons hrefers hmore =>
      cases h with
      | ends hends => exact absurd hrefers hends.not_refersToTypedef
      | typedef hrefers' hfull =>
        cases hrefers.eq hrefers'
        obtain ⟨rest, inner, rfl, hinner⟩ := ih hfull hmore
        exact ⟨rest, inner, rfl, hinner⟩

/-- Of typedefs that can be followed, the first ones can be followed. -/
theorem Follows.of_append {before after : List (Path × Member)}
    (h : declarations.Follows module member (before ++ after)) :
    declarations.Follows module member before := by
  induction before generalizing module member with
  | nil => exact .nil module member
  | cons first before ih =>
    cases h with
    | cons hrefers hmore => exact .cons hrefers (ih hmore)

/-- **A typedef that comes back has no full substitution**, and neither has what leads to it. The
typedefs from its first place to the end would be those from its second place to the end. -/
theorem not_substitutes_of_mem {before : List (Path × Member)}
    (hfollows : declarations.Follows module member (before ++ [typedef]))
    (hmem : typedef ∈ before) : ¬declarations.Substitutes module member chain full := by
  intro h
  obtain ⟨first, between, rfl⟩ := List.append_of_mem hmem
  have hall : declarations.Follows module member
      ((first ++ [typedef]) ++ (between ++ [typedef])) := by
    simpa only [List.append_assoc, List.cons_append, List.nil_append] using hfollows
  obtain ⟨rest, _, hrest, hinner⟩ := h.exists_of_follows hfollows
  obtain ⟨rest', _, hrest', hinner'⟩ := h.exists_of_follows hall.of_append
  obtain rfl := hinner.chain_eq hinner'
  have hlength := congrArg List.length (hrest.symm.trans hrest')
  simp only [List.length_append, List.length_cons] at hlength
  omega

/-! ### Layers of a full substitution -/

/-- A type that is unknown at the end of a chain is a string of wide characters. -/
theorem Ends.exists_wideString {type : TypeExpr} {tag : String}
    (h : declarations.Ends module type (.unknown tag)) : ∃ limit, type = .wideString limit := by
  cases h with
  | unboundedWideString => exact ⟨none, rfl⟩
  | boundedWideString limit => exact ⟨some limit, rfl⟩

/-- A full substitution has the layers of the member and of the typedefs, around the end of the
chain. -/
theorem Substitutes.exists_ends (h : declarations.Substitutes module member chain full) :
    ∃ module' innermost,
      declarations.Ends module' ((chain.map Prod.snd).getLastD member).innermost innermost ∧
        full = innermost.within
          (member.layers ++ chain.flatMap fun typedef => typedef.2.layers) := by
  induction h with
  | ends hends => exact ⟨_, _, hends, by rw [List.flatMap_nil, List.append_nil]⟩
  | typedef _ _ ih =>
    obtain ⟨module', innermost, hends, hfull⟩ := ih
    refine ⟨module', innermost, ?_, ?_⟩
    · rwa [List.map_cons, List.getLastD_cons]
    · rw [hfull, List.flatMap_cons, ← Descriptor.within_append]

/-- **The descriptor of a member** in a module. If its typedefs come to an end within the limit, it
is the full substitution: the layers of the member, then those of the typedefs, around the end of
the chain, which is unknown for strings of wide characters only. Otherwise the same layers, as far
as the limit goes, are around an unknown type with the path of the typedef behind the limit. That is
so for every typedef that comes back. A type by itself is like a member that is no array. -/
theorem field_eq_substitution (declarations : Declarations) (module : Path) (member : Member) :
    (∀ chain full, declarations.Substitutes module member chain full →
      chain.length ≤ typedefLimit →
        (declarations.field module member).descriptor = full ∧
          ∃ module' innermost,
            declarations.Ends module' ((chain.map Prod.snd).getLastD member).innermost innermost ∧
              full = innermost.within
                (member.layers ++ chain.flatMap fun typedef => typedef.2.layers) ∧
              ∀ tag, innermost = .unknown tag →
                ∃ limit, ((chain.map Prod.snd).getLastD member).innermost = .wideString limit) ∧
    ((¬∃ chain full, declarations.Substitutes module member chain full ∧
      chain.length ≤ typedefLimit) →
        ∃ followed typedef, declarations.Follows module member (followed ++ [typedef]) ∧
          followed.length = typedefLimit ∧
          (declarations.field module member).descriptor
            = (Descriptor.unknown ("::".intercalate typedef.1)).within
                (member.layers ++ followed.flatMap fun typedef => typedef.2.layers)) ∧
    (∀ before typedef, declarations.Follows module member (before ++ [typedef]) →
      typedef ∈ before → ¬∃ chain full, declarations.Substitutes module member chain full) ∧
    ∀ name type, type.descriptorWith (declarations.descriptor typedefLimit module)
      = (declarations.field module ⟨name, type, none⟩).descriptor := by
  refine ⟨fun chain full hfull hlength => ?within, fun hnone => ?beyond,
    fun before typedef hfollows hmem => ?cyclic, fun _ _ => rfl⟩
  case within =>
    obtain ⟨module', innermost, hends, hlayers⟩ := hfull.exists_ends
    refine ⟨hfull.descriptorWith_eq hlength, module', innermost, hends, hlayers, fun tag htag => ?_⟩
    subst htag
    exact hends.exists_wideString
  case beyond =>
    obtain hfull | ⟨followed, typedef, hfollows, hlength⟩ :=
      declarations.exists_substitutes_or_follows typedefLimit module member
    · exact absurd hfull hnone
    · refine ⟨followed, typedef, hfollows, hlength, ?_⟩
      rw [← hfollows.descriptorWith_eq, hlength]
      rfl
  case cyclic =>
    rintro ⟨chain, full, hfull⟩
    exact not_substitutes_of_mem hfollows hmem hfull

end Declarations

/-- A file with an array of a typedef of another module, and a typedef that comes back to itself. -/
def loopText : List Char :=
  "module a \x7b
typedef double C[2];
typedef sequence<C, 4> B[3];
\x7d;
typedef sequence<Loop> Loop;
struct S \x7b
B x[5];
Loop y;
\x7d;".toList

/-- What the file declares. -/
def loopDeclarations : Declarations where
  structs := [(["S"], [⟨"x", .named ["B"], some 5⟩, ⟨"y", .named ["Loop"], none⟩])]
  enums := .empty
  typedefs := ⟨[(["a", "C"], ⟨"C", .basic .double, some 2⟩),
    (["a", "B"], ⟨"B", .sequence (.named ["C"]) (some 4), some 3⟩),
    (["Loop"], ⟨"Loop", .sequence (.named ["Loop"]) none, none⟩)]⟩

/-- The layers of the first typedef come before those of the second. The typedef that comes back to
itself is followed up to the limit. -/
theorem field_of_loopText : declarations loopText = .ok loopDeclarations ∧
    (loopDeclarations.field [] ⟨"x", .named ["B"], some 5⟩).descriptor
      = (Descriptor.primitive "double").within [.fixed 5, .fixed 3, .bounded 4, .fixed 2] ∧
    (¬∃ chain full, loopDeclarations.Substitutes [] ⟨"y", .named ["Loop"], none⟩ chain full) ∧
    ∃ (followed : List (Path × Member)) (typedef : Path × Member), followed.length = 16 ∧
      (loopDeclarations.field [] ⟨"y", .named ["Loop"], none⟩).descriptor
        = (Descriptor.unknown ("::".intercalate typedef.1)).within
            (followed.flatMap fun typedef => typedef.2.layers) := by
  obtain ⟨hwithin, -, -, -⟩ :=
    loopDeclarations.field_eq_substitution [] ⟨"x", .named ["B"], some 5⟩
  obtain ⟨-, hbeyond, hcyclic, -⟩ :=
    loopDeclarations.field_eq_substitution [] ⟨"y", .named ["Loop"], none⟩
  let b : Member := ⟨"B", .sequence (.named ["C"]) (some 4), some 3⟩
  let c : Member := ⟨"C", .basic .double, some 2⟩
  let loop : Member := ⟨"Loop", .sequence (.named ["Loop"]) none, none⟩
  have hb : loopDeclarations.RefersToTypedef [] ⟨"x", .named ["B"], some 5⟩ (["a", "B"], b) :=
    ⟨["B"], rfl, by decide⟩
  have hc : loopDeclarations.RefersToTypedef ["a"] b (["a", "C"], c) := ⟨["C"], rfl, by decide⟩
  have hy : loopDeclarations.RefersToTypedef [] ⟨"y", .named ["Loop"], none⟩ (["Loop"], loop) :=
    ⟨["Loop"], rfl, by decide⟩
  have hloop : loopDeclarations.RefersToTypedef [] loop (["Loop"], loop) :=
    ⟨["Loop"], rfl, by decide⟩
  have hnone := hcyclic [(["Loop"], loop)] (["Loop"], loop) (.cons hy (.cons hloop (.nil _ _)))
    (List.mem_singleton_self _)
  obtain ⟨followed, typedef, -, hlength, hdescriptor⟩ :=
    hbeyond fun ⟨chain, full, hfull, _⟩ => hnone ⟨chain, full, hfull⟩
  refine ⟨by decide +kernel, ?_, hnone, followed, typedef, hlength, hdescriptor⟩
  exact (hwithin _ _ (.typedef hb (.typedef hc (.ends (.basic .double)))) (by decide)).1

end Idl

end RosInterface
