import RosInterface.Kind

/-!
# Qualified names

The name of an interface is a path such as `sensor_msgs/msg/Temperature`: namespaces, of which the
first one is the package and the last one stands for the kind, and the interface's own name.

## Main definitions

* `QualifiedName`: namespaces and a name.
* `QualifiedName.parse?`, `QualifiedName.text`: reading and writing.
-/

namespace RosInterface

/-- Namespaces and the name within them. -/
structure QualifiedName where
  /-- The namespaces, the outermost first. -/
  namespaces : List String
  /-- The name within the namespaces. -/
  name : String
deriving DecidableEq

namespace QualifiedName

/-- The namespaces and the name in one list. -/
def segments (q : QualifiedName) : List String :=
  q.namespaces ++ [q.name]

/-- The qualified name with the given segments, of which the last one is the name. -/
def ofSegments? (segments : List String) : Option QualifiedName :=
  segments.getLast?.map fun name => ⟨segments.dropLast, name⟩

/-- Reads a path with the separator `/`. Empty segments are passed over; a path without any other
segment is no name. -/
def parse? (s : String) : Option QualifiedName :=
  ofSegments? (Text.slashSegments s.toList)

/-- The segments with slashes between them. -/
def text (q : QualifiedName) : String :=
  "/".intercalate q.segments

/-- The package: the outermost namespace. -/
def package? (q : QualifiedName) : Option String :=
  q.namespaces.head?

/-- The innermost namespace, which stands for the kind. -/
def kindSegment? (q : QualifiedName) : Option String :=
  q.namespaces.getLast?

/-- The name beside this one in the same namespaces. -/
def withName (q : QualifiedName) (name : String) : QualifiedName :=
  { q with name }

end QualifiedName

end RosInterface
