import RosInterface.Text.Decimal
import RosInterface.Text.Split
import RosInterface.Descriptor

/-!
# Types in message definitions

A field of a message definition has a built-in type, a type of another message, or an array of
such a type. The other message is named with its package, or without one if it is in the same
package. The size of an array stands in brackets after the type: `T[]` has any number of elements,
`T[4]` has four and `T[<=4]` has at most four.

## Main definitions

* `Msg.BuiltinType`, `Msg.MessageType`: the types.
* `Msg.MessageType.parse?`: the type that is written in a definition.
* `Msg.MessageType.descriptor`: the descriptor of a type in a package.
-/

namespace RosInterface.Msg

open Text

/-- The built-in types. -/
inductive BuiltinType where
  | bool
  | byte
  | char
  | int8
  | uint8
  | int16
  | uint16
  | int32
  | uint32
  | int64
  | uint64
  | float32
  | float64
  /-- A string, with its greatest length if it has one. -/
  | string (limit : Option Nat)
  /-- A string of wide characters, with its greatest length if it has one. -/
  | wideString (limit : Option Nat)
deriving DecidableEq

/-- The type of a field. -/
inductive MessageType where
  /-- A built-in type. -/
  | builtin (type : BuiltinType)
  /-- A message of a given package. -/
  | absolute (package name : String)
  /-- A message of the package in which the type is written. -/
  | relative (name : String)
  /-- An array. -/
  | array (element : MessageType) (extent : Extent)
deriving DecidableEq

/-! ### Reading -/

/-- The built-in types that are written as one word. -/
def builtinWords : List (String × BuiltinType) :=
  [("bool", .bool), ("byte", .byte), ("char", .char), ("int8", .int8), ("uint8", .uint8),
    ("int16", .int16), ("uint16", .uint16), ("int32", .int32), ("uint32", .uint32),
    ("int64", .int64), ("uint64", .uint64), ("float32", .float32), ("float64", .float64),
    ("string", .string none), ("wstring", .wideString none)]

/-- Reads the name of another message. The package is what stands before the last slash. -/
def messageName? (s : List Char) : Option MessageType :=
  let name := (s.reverse.takeWhile (· ≠ '/')).reverse
  match s.reverse.dropWhile (· ≠ '/') with
  | [] => if name.isEmpty then none else some (.relative (String.ofList name))
  | _ :: package =>
    if name.isEmpty || package.isEmpty then none
    else some (.absolute (String.ofList package.reverse) (String.ofList name))

/-- Reads a type that is not an array. -/
def elementType? (s : List Char) : Option MessageType :=
  match builtinWords.lookup (String.ofList s) with
  | some type => some (.builtin type)
  | none =>
    match "string<=".toList.isPrefixOf? s with
    | some limit => (unsigned? limit).map fun limit => .builtin (.string (some limit))
    | none =>
      match "wstring<=".toList.isPrefixOf? s with
      | some limit => (unsigned? limit).map fun limit => .builtin (.wideString (some limit))
      | none => messageName? s

/-- Reads the size of an array: what stands after the opening bracket. -/
def extent? (s : List Char) : Option Extent := do
  let size ← [']'].isSuffixOf? s
  match "<=".toList.isPrefixOf? size with
  | some limit => (unsigned? limit).map .bounded
  | none => if size.isEmpty then some .unbounded else (unsigned? size).map .fixed

/-- The type that is written in a definition. -/
def MessageType.parse? (s : List Char) : Option MessageType :=
  match s.dropWhile (· ≠ '[') with
  | [] => elementType? s
  | _ :: size => do
    let extent ← extent? size
    let element ← elementType? (trim (s.takeWhile (· ≠ '[')))
    return .array element extent

/-! ### Descriptors -/

/-- The descriptor of a built-in type. -/
def BuiltinType.descriptor : BuiltinType → Descriptor
  | bool => .primitive "boolean"
  | byte => .primitive "octet"
  | char => .primitive "uint8"
  | int8 => .primitive "int8"
  | uint8 => .primitive "uint8"
  | int16 => .primitive "int16"
  | uint16 => .primitive "uint16"
  | int32 => .primitive "int32"
  | uint32 => .primitive "uint32"
  | int64 => .primitive "int64"
  | uint64 => .primitive "uint64"
  | float32 => .primitive "float"
  | float64 => .primitive "double"
  | string limit => .string limit
  | wideString none => .unknown "UnboundedWString"
  | wideString (some _) => .unknown "BoundedWString"

/-- The descriptor of a type that is written in a package. -/
def MessageType.descriptor (package : String) : MessageType → Descriptor
  | builtin type => type.descriptor
  | absolute package name => .record (package ++ "/msg/" ++ name)
  | relative name => .record (package ++ "/msg/" ++ name)
  | array element extent => .sequence (element.descriptor package) extent

end RosInterface.Msg
