import RosInterface.Text.Split

/-!
# Kinds of interface

A ROS 2 interface is a message, a service or an action. The kind stands as one segment of the
interface's name: `sensor_msgs/msg/Temperature` is a message, `std_srvs/srv/Trigger` a service
and `example_interfaces/action/Fibonacci` an action. A service is made of two records and an
action of three, each named after its owner with a suffix.

## Main definitions

* `Kind`: the kinds, with the segment that names each of them.
* `Kind.classify?`: the kind of a name.
* `ServiceParts`, `ActionParts`: one thing for each record of a service or of an action.
* `ServiceParts.names`, `ActionParts.names`: the conventional names of these records.
-/

namespace RosInterface

/-- The kind of an interface. -/
inductive Kind where
  | message
  | service
  | action
deriving DecidableEq, Inhabited

namespace Kind

/-- The segment of a name that stands for a kind. -/
def segment : Kind → String
  | message => "msg"
  | service => "srv"
  | action => "action"

/-- The kind that a segment of a name stands for. -/
def ofSegment? (segment : String) : Option Kind :=
  [message, service, action].find? fun kind => kind.segment = segment

/-- What marks a name as one of this kind: the kind's segment with a slash on either side. -/
def marker (kind : Kind) : List Char :=
  '/' :: (kind.segment.toList ++ ['/'])

/-- The kind of a name: the first kind, in the order message, service, action, whose marker
occurs in it. -/
def classify? (name : String) : Option Kind :=
  [message, service, action].find? fun kind => Text.occursIn kind.marker name.toList

/-- The word for what a name was classified as. -/
def label : Option Kind → String
  | some kind => kind.segment
  | none => "unknown"

@[simp]
theorem ofSegment?_segment (kind : Kind) : ofSegment? kind.segment = some kind := by
  cases kind <;> decide

theorem segment_of_ofSegment? {segment : String} {kind : Kind}
    (h : ofSegment? segment = some kind) : kind.segment = segment := by
  simpa using List.find?_some h

end Kind

/-- One thing for each record of a service. -/
structure ServiceParts (α : Type) where
  /-- The part of the request record. -/
  request : α
  /-- The part of the response record. -/
  response : α
deriving DecidableEq

namespace ServiceParts

/-- The suffixes that the records of a service carry. -/
def suffixes : ServiceParts String :=
  ⟨"_Request", "_Response"⟩

/-- Changes each part. -/
def map {α β : Type} (f : α → β) (parts : ServiceParts α) : ServiceParts β :=
  ⟨f parts.request, f parts.response⟩

/-- The parts in order. -/
def toList {α : Type} (parts : ServiceParts α) : List α :=
  [parts.request, parts.response]

/-- The conventional names of a service's records. -/
def names (service : String) : ServiceParts String :=
  suffixes.map (service ++ ·)

end ServiceParts

/-- One thing for each record of an action. -/
structure ActionParts (α : Type) where
  /-- The part of the goal record. -/
  goal : α
  /-- The part of the result record. -/
  result : α
  /-- The part of the feedback record. -/
  feedback : α
deriving DecidableEq

namespace ActionParts

/-- The suffixes that the records of an action carry. -/
def suffixes : ActionParts String :=
  ⟨"_Goal", "_Result", "_Feedback"⟩

/-- Changes each part. -/
def map {α β : Type} (f : α → β) (parts : ActionParts α) : ActionParts β :=
  ⟨f parts.goal, f parts.result, f parts.feedback⟩

/-- The parts in order. -/
def toList {α : Type} (parts : ActionParts α) : List α :=
  [parts.goal, parts.result, parts.feedback]

/-- The conventional names of an action's records. -/
def names (action : String) : ActionParts String :=
  suffixes.map (action ++ ·)

end ActionParts

end RosInterface
