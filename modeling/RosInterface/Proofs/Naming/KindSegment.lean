import RosInterface.Msg.Interface
import RosInterface.Proofs.Install.Location
import RosInterface.Proofs.Naming.Classification

/-!
# The kind of a name and the segment of its kind

The kind of a name is asked for in two ways. A name is classified by the markers that occur in its
text, in a fixed order; a definition that is read and a file that is looked for go by the innermost
namespace of the qualified name. The two may differ on a name with many namespaces. On the plain
spelling of a name with two of them they are the same.

## Main definitions

* `Msg.kindRecordsWith`: the records that a text defines as an interface of a given kind.

## Main results

* `Kind.classify?_eq_ofSegment?`: a name with two namespaces is classified by the second one.
* `Msg.interfaceRecordsWith_eq`: how the definition of a name with two namespaces is read.
* `Install.Location.map_kind_parse?`: the kind that a name with two namespaces is looked for as.
* `Kind.classify?_inner_segments`: names are classified by their inner segments, and those with two
  namespaces by the segment of their kind.
-/

namespace RosInterface

variable {q : QualifiedName} {name package segment : String}

/-- A name with two namespaces is classified by the second one. -/
theorem Kind.classify?_eq_ofSegment? (h : q.Spells name) (hq : q.namespaces = [package, segment]) :
    classify? name = ofSegment? segment := by
  rw [← h.text_eq]
  exact classify?_text_eq_ofSegment? (fun own hs => (h.isSegment hs).slash_notMem) hq

namespace Msg

variable {read : Reader}

/-- The records that a text defines as an interface of a kind, with a given reader of
specifications. -/
def kindRecordsWith (read : Reader) : Kind → String → List Char → Except Error (List Record)
  | .message => messageRecordsWith read
  | .service => serviceRecordsWith read
  | .action => actionRecordsWith read

/-- A definition is read as an interface of the kind that the second of two namespaces stands for.
If it stands for none, there is an error about the form of the name. -/
theorem interfaceRecordsWith_eq (h : QualifiedName.parse? name = some q)
    (hq : q.namespaces = [package, segment]) (text : List Char) :
    interfaceRecordsWith read name text =
      match Kind.ofSegment? segment with
      | some kind => kindRecordsWith read kind name text
      | none => .error (.invalidNameFormat name) := by
  have hlast : q.kindSegment? = some segment := by rw [QualifiedName.kindSegment?, hq]; rfl
  rw [interfaceRecordsWith, h]
  simp only [hlast, Option.bind_some]
  cases hkind : Kind.ofSegment? segment with
  | some kind => cases kind <;> rfl
  | none =>
    -- such a name is read as that of a message, whose segment it does not have
    have hne : segment ≠ Kind.message.segment := by
      rintro rfl
      rw [Kind.ofSegment?_segment] at hkind
      cases hkind
    simp only [messageRecordsWith, recordName, h, hq, if_neg hne]
    rfl

end Msg

/-- A name with two namespaces is looked for as the kind that the second one stands for. -/
theorem Install.Location.map_kind_parse? (h : QualifiedName.parse? name = some q)
    (hq : q.namespaces = [package, segment]) :
    (parse? name).map Location.kind = Kind.ofSegment? segment := by
  rw [parse?, h]
  simp only [Option.bind_eq_bind, Option.bind_some, hq]
  cases Kind.ofSegment? segment <;> rfl

namespace Kind

/-- **A name is classified by its inner segments**, the pieces between slashes other than the first
and the last: as a message if one of them is `msg`, else as a service if one is `srv`, else as an
action if one is `action`, and otherwise not at all. For the plain spelling of a name with two
namespaces this is the kind that its innermost namespace stands for, the one that its definition is
read as and the one that its file is looked for as. -/
theorem classify?_inner_segments (name : String) :
    ((classify? name = some message ↔ IsInnerSegment "msg" name) ∧
      (classify? name = some service ↔
        ¬IsInnerSegment "msg" name ∧ IsInnerSegment "srv" name) ∧
      (classify? name = some action ↔ ¬IsInnerSegment "msg" name ∧
        ¬IsInnerSegment "srv" name ∧ IsInnerSegment "action" name) ∧
      (classify? name = none ↔ ¬IsInnerSegment "msg" name ∧
        ¬IsInnerSegment "srv" name ∧ ¬IsInnerSegment "action" name)) ∧
    ∀ q : QualifiedName, q.Spells name → q.namespaces.length = 2 →
      (∀ kind, classify? name = some kind ↔ q.kindSegment? = some kind.segment) ∧
      (∀ read text, Msg.interfaceRecordsWith read name text =
        match classify? name with
        | some kind => Msg.kindRecordsWith read kind name text
        | none => .error (.invalidNameFormat name)) ∧
      (Install.Location.parse? name).map Install.Location.kind = classify? name := by
  refine ⟨?_, fun q hspells hlength => ?_⟩
  · rw [classify?_eq_find?]
    by_cases hmessage : IsInnerSegment "msg" name <;>
      by_cases hservice : IsInnerSegment "srv" name <;>
        by_cases haction : IsInnerSegment "action" name <;>
          simp [segment, hmessage, hservice, haction]
  · obtain ⟨package, segment, hq⟩ := List.length_eq_two.mp hlength
    have hlast : q.kindSegment? = some segment := by rw [QualifiedName.kindSegment?, hq]; rfl
    rw [classify?_eq_ofSegment? hspells hq, hlast]
    refine ⟨fun kind => ⟨fun h => ?_, fun h => ?_⟩, fun read text => ?_, ?_⟩
    · rw [segment_of_ofSegment? h]
    · rw [Option.some.inj h, ofSegment?_segment]
    · exact Msg.interfaceRecordsWith_eq hspells.parse?_eq hq text
    · exact Install.Location.map_kind_parse? hspells.parse?_eq hq

/-- The segments of other kinds as package and as name of a service do not count. -/
theorem classify?_between_other_kinds :
    classify? "msg/srv/action" = some service ∧
      (Install.Location.parse? "msg/srv/action").map Install.Location.kind = some service := by
  obtain ⟨⟨-, hservice, -⟩, hplain⟩ := classify?_inner_segments "msg/srv/action"
  have hkind : classify? "msg/srv/action" = some service := hservice.mpr (by decide)
  have hspells : QualifiedName.Spells ⟨["msg", "srv"], "action"⟩ "msg/srv/action" :=
    QualifiedName.spells_text (by decide)
  exact ⟨hkind, (hplain _ hspells rfl).2.2.trans hkind⟩

end Kind

end RosInterface
