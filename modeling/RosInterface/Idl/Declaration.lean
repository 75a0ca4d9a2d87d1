import RosInterface.Table

/-!
# Declarations of an IDL file

An IDL file declares structs, enums and typedefs inside modules. A declaration is known by its
*path*: the names of the modules around it, the outermost first, and its own name.

## Main definitions

* `Idl.BasicType`: the basic types.
* `Idl.TypeExpr`: a type as it is written in a member or a typedef.
* `Idl.Member`: a member of a struct, or what a typedef stands for.
* `Idl.Declarations`: all that a file declares.
* `Idl.Declarations.merge`: the declarations of two files together.
-/

namespace RosInterface.Idl

/-- The names of the modules around a declaration, the outermost first, and its own name. -/
abbrev Path :=
  List String

/-- The basic types. -/
inductive BasicType where
  | unsignedLongLong
  | unsignedLong
  | unsignedShort
  | longLong
  | longDouble
  | boolean
  | int8
  | int16
  | int32
  | int64
  | uint8
  | uint16
  | uint32
  | uint64
  | double
  | float
  | short
  | long
  | char
  | wideChar
  | octet
deriving DecidableEq

/-- The name under which a basic type is known, whichever way it was written. -/
def BasicType.name : BasicType → String
  | unsignedLongLong => "unsigned long long"
  | unsignedLong => "unsigned long"
  | unsignedShort => "unsigned short"
  | longLong => "long long"
  | longDouble => "long double"
  | boolean => "boolean"
  | int8 => "int8"
  | int16 => "int16"
  | int32 => "int32"
  | int64 => "int64"
  | uint8 => "uint8"
  | uint16 => "uint16"
  | uint32 => "uint32"
  | uint64 => "uint64"
  | double => "double"
  | float => "float"
  | short => "short"
  | long => "long"
  | char => "char"
  | wideChar => "wchar"
  | octet => "octet"

/-- A type as it is written. -/
inductive TypeExpr where
  /-- A basic type. -/
  | basic (type : BasicType)
  /-- A declared type, by one or more names. -/
  | named (path : Path)
  /-- A sequence, with its greatest number of elements if it has one. -/
  | sequence (element : TypeExpr) (limit : Option Nat)
  /-- A string, with its greatest length if it has one. -/
  | string (limit : Option Nat)
  /-- A string of wide characters, with its greatest length if it has one. -/
  | wideString (limit : Option Nat)
deriving DecidableEq

/-- A member of a struct: a name, a type and, for an array, the number of elements. A typedef is
written like a member and is held as one, under the name that it declares. -/
structure Member where
  /-- The name that is declared. -/
  name : String
  /-- The type as it is written. -/
  type : TypeExpr
  /-- The number of elements of an array. -/
  length : Option Nat
deriving DecidableEq

/-- All that a file declares. -/
structure Declarations where
  /-- The members of each struct, in the order of declaration. A path may come more than once. -/
  structs : List (Path × List Member)
  /-- The values of each enum. -/
  enums : Table Path (List String)
  /-- What each typedef stands for. -/
  typedefs : Table Path Member
deriving DecidableEq

namespace Declarations

/-- No declarations. -/
def empty : Declarations :=
  ⟨[], Table.empty, Table.empty⟩

/-- The struct is declared. -/
def hasStruct (declarations : Declarations) (path : Path) : Bool :=
  declarations.structs.any fun struct => struct.1 = path

/-- The declarations with those of another file. A declaration of the other file takes the place
of one of the same kind with the same path. -/
def merge (declarations other : Declarations) : Declarations where
  structs := ((⟨declarations.structs⟩ : Table Path (List Member)).insertAll other.structs).entries
  enums := declarations.enums.insertAll other.enums.entries
  typedefs := declarations.typedefs.insertAll other.typedefs.entries

end Declarations

end RosInterface.Idl
