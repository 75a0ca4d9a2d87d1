import RosInterface.QualifiedName
import RosInterface.Install.Files

/-!
# Where interfaces are installed

An interface `pkg/kind/Name` is installed below a prefix as `share/pkg/kind/Name` with an extension
that tells the format of the file: the segment of the kind, or `idl`. The records of a service or
of an action are in the file of their owner, so a record's name is freed of its suffix first.

## Main definitions

* `Install.Location`: where an interface is installed.
* `Install.Location.parse?`: where the interface of a name is installed.
* `Install.Format`, `Install.Candidate`: the files that may define an interface.
* `Install.Location.candidates`: these files below one prefix, in the order of preference.
-/

namespace RosInterface.Install

/-- Where an interface is installed below a prefix. -/
structure Location where
  /-- The package. -/
  package : String
  /-- The kind. -/
  kind : Kind
  /-- The name that was asked for, without its namespaces. -/
  name : String
  /-- The name of the interface whose file defines it. -/
  base : String
deriving DecidableEq

/-- The suffixes of the records that an interface of a kind is made of. -/
def partSuffixes : Kind → List String
  | .message => []
  | .service => ServiceParts.suffixes.toList
  | .action => ActionParts.suffixes.toList

/-- The name without a suffix, if that leaves anything. -/
def withoutSuffix (suffixes : List String) (name : String) : String :=
  match suffixes.findSome? fun suffix => suffix.toList.isSuffixOf? name.toList with
  | some (c :: base) => String.ofList (c :: base)
  | _ => name

namespace Location

/-- Where the interface of a name is installed. The name must have a package, a kind and a name of
its own. -/
def parse? (name : String) : Option Location := do
  let q ← QualifiedName.parse? name
  match q.namespaces with
  | [package, segment] =>
    let kind ← Kind.ofSegment? segment
    return ⟨package, kind, q.name, withoutSuffix (partSuffixes kind) q.name⟩
  | _ => none

/-- The name stands for a service or an action as a whole, which is no record. -/
def isWhole (location : Location) : Bool :=
  location.kind != .message && location.base == location.name

/-- The qualified name of the interface whose file is looked for. -/
def interfaceName (location : Location) : String :=
  location.package ++ "/" ++ location.kind.segment ++ "/" ++ location.base

end Location

/-- The format of a file that defines interfaces. -/
inductive Format where
  /-- The definition of one interface of the kind. -/
  | definition (kind : Kind)
  /-- An IDL file. -/
  | idl
deriving DecidableEq

/-- The extension of the files of a format. -/
def Format.extension : Format → String
  | definition kind => kind.segment
  | idl => "idl"

/-- A file that may define an interface. -/
structure Candidate where
  /-- The path of the file. -/
  path : SourcePath
  /-- The format of the file. -/
  format : Format
deriving DecidableEq

namespace Location

/-- The file of a format below a prefix. -/
def candidate (location : Location) (root : String) (format : Format) : Candidate where
  path := ⟨root, ["share", location.package, location.kind.segment,
    location.base ++ "." ++ format.extension]⟩
  format := format

/-- The files that may define an interface below a prefix, the preferred one first. -/
def candidates (location : Location) (root : String) : List Candidate :=
  [.definition location.kind, .idl].map (location.candidate root)

end Location

end RosInterface.Install
