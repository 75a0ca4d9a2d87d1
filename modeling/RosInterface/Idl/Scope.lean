import RosInterface.Descriptor
import RosInterface.Idl.Declaration

/-!
# Scoped names

A type that is written as a path of names refers to a declaration of the same file, or of the same
bundle, if there is one that fits; else it refers to a record of that name. A single name is
*qualified* with the modules of the declaration in which it stands. A declaration fits if its path
is the qualified path or the path as written, or, where there is no such declaration, if it is the
only one of its kind whose path ends with the qualified path. Typedefs are tried before structs,
and structs before enums.

A struct becomes a reference to a record, an enum a primitive type with the enum's name. A typedef
is replaced by what it stands for, read in the modules of the typedef. Typedefs are followed for at
most `typedefLimit` steps, and the one after that is an unknown type.

## Main definitions

* `Idl.Referent`: what a path refers to.
* `Idl.Declarations.referent`: what a path refers to in a module.
* `Idl.Declarations.descriptor`: the descriptor of a path.
* `Idl.Declarations.records`: the records that a file declares.

## Main results

* `Idl.Declarations.field_congr`: where paths refer to the same, members become the same fields.
-/

namespace RosInterface.Idl

/-- What a path refers to. -/
inductive Referent where
  /-- A typedef, with what it stands for. -/
  | typedef (path : Path) (target : Member)
  /-- A struct. -/
  | struct (path : Path)
  /-- An enum. -/
  | enum (path : Path)
  /-- Nothing that is declared here: a record of another file. -/
  | foreign (path : Path)
deriving DecidableEq

/-- The greatest number of typedefs that are followed one after the other. -/
def typedefLimit : Nat :=
  16

/-- The only path of a list that ends with a given path. -/
def uniqueSuffix? (paths : List Path) (suffix : Path) : Option Path :=
  match paths.filter (suffix.isSuffixOf ·) with
  | [path] => some path
  | _ => none

/-- The path qualified with a module, if it is a single name. -/
def qualify (module path : Path) : Path :=
  if path.length = 1 then module ++ path else path

namespace Declarations

variable (declarations : Declarations)

/-- The declaration of a path: a typedef, else a struct, else an enum. -/
def declared? (path : Path) : Option Referent :=
  match declarations.typedefs.get? path with
  | some target => some (.typedef path target)
  | none =>
    if declarations.hasStruct path then some (.struct path)
    else if declarations.enums.contains path then some (.enum path)
    else none

/-- The path of the only typedef that ends with a path, else of the only such struct, else of the
only such enum. -/
def suffixed? (path : Path) : Option Path :=
  (uniqueSuffix? declarations.typedefs.keys path).or <|
    (uniqueSuffix? (declarations.structs.map Prod.fst) path).or <|
      uniqueSuffix? declarations.enums.keys path

/-- What a path refers to in a module. -/
def referent (module path : Path) : Referent :=
  let qualified := qualify module path
  let found := (declarations.declared? qualified).or <|
    (declarations.declared? path).or <|
      (declarations.suffixed? qualified).bind declarations.declared?
  found.getD (.foreign qualified)

end Declarations

/-! ### Descriptors -/

/-- The descriptor of a type as it is written, where `ofPath` gives the descriptors of paths. -/
def TypeExpr.descriptorWith (ofPath : Path → Descriptor) : TypeExpr → Descriptor
  | basic type => .primitive type.name
  | named path => ofPath path
  | sequence element none => .sequence (element.descriptorWith ofPath) .unbounded
  | sequence element (some limit) => .sequence (element.descriptorWith ofPath) (.bounded limit)
  | string limit => .string limit
  | wideString none => .unknown "UnboundedWString"
  | wideString (some _) => .unknown "BoundedWString"

/-- The descriptor of a member, where `ofPath` gives the descriptors of paths. -/
def Member.descriptorWith (ofPath : Path → Descriptor) (member : Member) : Descriptor :=
  let element := member.type.descriptorWith ofPath
  match member.length with
  | some length => .sequence element (.fixed length)
  | none => element

namespace Declarations

variable (declarations : Declarations)

/-- The descriptor of a path in a module, when typedefs may be followed for some more steps. -/
def descriptor : Nat → Path → Path → Descriptor
  | steps, module, path =>
    match declarations.referent module path with
    | .struct path => .record ("/".intercalate path)
    | .enum path => .primitive ("/".intercalate path)
    | .foreign path => .record ("/".intercalate path)
    | .typedef path target =>
      match steps with
      | 0 => .unknown ("::".intercalate path)
      | steps + 1 => target.descriptorWith (descriptor steps path.dropLast)

/-- The field that a member of a struct in a module becomes. -/
def field (module : Path) (member : Member) : Field :=
  ⟨member.name, member.descriptorWith (declarations.descriptor typedefLimit module)⟩

/-- The records that the structs become, in the order of declaration. -/
def records : List Record :=
  declarations.structs.map fun (path, members) =>
    ⟨"/".intercalate path, members.map (declarations.field path.dropLast)⟩

/-! ### Declarations with the same referents -/

variable {declarations} {other : Declarations}

/-- A path refers to the same where the same is declared and the same suffixes are found. -/
theorem referent_congr (hd : ∀ path, other.declared? path = declarations.declared? path)
    (hs : ∀ path, other.suffixed? path = declarations.suffixed? path) (module path : Path) :
    other.referent module path = declarations.referent module path := by
  have hdeclared : other.declared? = declarations.declared? := funext hd
  rw [referent, referent, hs, hdeclared]

/-- Where paths refer to the same, they have the same descriptor. -/
theorem descriptor_congr
    (h : ∀ module path, other.referent module path = declarations.referent module path)
    (steps : Nat) (module path : Path) :
    other.descriptor steps module path = declarations.descriptor steps module path := by
  induction steps generalizing module path with
  | zero => rw [descriptor, descriptor, h]
  | succ steps ih =>
    have hdescriptor : other.descriptor steps = declarations.descriptor steps :=
      funext fun module => funext (ih module)
    simp only [descriptor, h, hdescriptor]

/-- Where paths refer to the same, members become the same fields. -/
theorem field_congr
    (h : ∀ module path, other.referent module path = declarations.referent module path) :
    other.field = declarations.field := by
  have hdescriptor : other.descriptor typedefLimit = declarations.descriptor typedefLimit :=
    funext fun module => funext (descriptor_congr h typedefLimit module)
  funext module member
  rw [field, field, hdescriptor]

end Declarations

end RosInterface.Idl
