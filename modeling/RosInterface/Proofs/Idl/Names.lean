import RosInterface.Proofs.Idl.OpeningLine
import RosInterface.Proofs.Idl.Merging
import RosInterface.Proofs.Idl.Action
import RosInterface.Proofs.Naming.Path

/-!
# The names in an IDL file

Every name in an accepted file is an identifier: the names of modules, structs, enums, typedefs and
members, and those in the paths of types. So there is no slash in any of them, and a path is told
from others by its text, which is the plain spelling of a qualified name.

What one statement reads is named in this way. Its action keeps everything that was read before so,
and by induction on the statements all declarations of the file are.

## Main definitions

* `Idl.IsPath`: a path of identifiers.
* `Idl.TypeExpr.IsNamed`, `Idl.Member.IsNamed`, `Idl.Declarations.IsNamed`: the paths in types,
  members and declarations are paths of identifiers.

## Main results

* `Idl.isNamed_of_typeExpr?`: a type that is read is named by identifiers.
* `Idl.Progress.IsNamed.apply`: what a statement does keeps names identifiers.
* `Idl.isNamed_of_declarations`: the names in an accepted file are identifiers.
* `Idl.exists_spells_of_records`: the names of its records are plain spellings.
-/

namespace RosInterface.Idl

open Text

/-- The names of modules are identifiers. -/
def AreIdentifiers (names : List String) : Prop :=
  ∀ name ∈ names, isIdentifier name = true

/-- One or more identifiers. -/
def IsPath (path : Path) : Prop :=
  path ≠ [] ∧ AreIdentifiers path

/-- The paths in a type are made of identifiers. -/
def TypeExpr.IsNamed : TypeExpr → Prop
  | named path => IsPath path
  | sequence element _ => element.IsNamed
  | _ => True

/-- The name of a member is an identifier, and so are those in its type. -/
structure Member.IsNamed (member : Member) : Prop where
  /-- The name is an identifier. -/
  name : isIdentifier member.name = true
  /-- The names in the type are identifiers. -/
  type : member.type.IsNamed

/-- All names in declarations are identifiers. -/
structure Declarations.IsNamed (declarations : Declarations) : Prop where
  /-- The names of structs and in their members are identifiers. -/
  structs : ∀ entry ∈ declarations.structs,
    IsPath entry.1 ∧ ∀ member ∈ entry.2, member.IsNamed
  /-- The names of enums are identifiers. -/
  enums : ∀ entry ∈ declarations.enums.entries, IsPath entry.1
  /-- The names of typedefs and in their targets are identifiers. -/
  typedefs : ∀ entry ∈ declarations.typedefs.entries, IsPath entry.1 ∧ entry.2.IsNamed

theorem slash_notMem_of_isIdentifier {name : String} (h : isIdentifier name = true) :
    '/' ∉ name.toList := by
  intro hslash
  have hrest := isWord_of_isIdentifier h '/' hslash
  revert hrest
  decide

/-- An identifier stands for itself between slashes. -/
theorem isSegment_of_isIdentifier {name : String} (h : isIdentifier name = true) :
    IsSegment name := by
  have hword := isWord_of_isIdentifier h
  obtain ⟨c, more, hname, -, -⟩ := exists_toList_eq_cons h
  exact {
    ne_empty := by
      rintro rfl
      cases hname
    slash_notMem := slash_notMem_of_isIdentifier h
    trim_eq := trim_eq_self
      (fun c hc => isBlank_of_isIdentifierRest (hword c (List.mem_of_head? hc)))
      (fun c hc => isBlank_of_isIdentifierRest (hword c (List.mem_of_getLast? hc))) }

theorem AreIdentifiers.append {names more : List String} (h : AreIdentifiers names)
    (hmore : AreIdentifiers more) : AreIdentifiers (names ++ more) :=
  List.forall_mem_append.mpr ⟨h, hmore⟩

theorem AreIdentifiers.dropLast {names : List String} (h : AreIdentifiers names) :
    AreIdentifiers names.dropLast :=
  fun name hname => h name ((List.dropLast_sublist names).subset hname)

/-- A name in modules has a path. -/
theorem IsPath.of_concat {modules : Path} {name : String} (h : AreIdentifiers modules)
    (hname : isIdentifier name = true) : IsPath (modules ++ [name]) :=
  ⟨List.append_ne_nil_of_right_ne_nil _ (List.cons_ne_nil _ _),
    h.append (List.forall_mem_singleton.mpr hname)⟩

/-- A path of identifiers stays one if it is qualified. -/
theorem IsPath.qualify {modules path : Path} (hmodules : AreIdentifiers modules)
    (h : IsPath path) : IsPath (qualify modules path) := by
  rw [Idl.qualify]
  split
  · exact ⟨List.append_ne_nil_of_right_ne_nil _ h.1, hmodules.append h.2⟩
  · exact h

/-- A path is written as the plain spelling of a name. -/
theorem IsPath.exists_spells {path : Path} (h : IsPath path) :
    ∃ q : QualifiedName, q.Spells ("/".intercalate path) := by
  obtain ⟨q, rfl⟩ := QualifiedName.exists_segments_eq h.1
  exact ⟨q, QualifiedName.spells_text fun segment hs => isSegment_of_isIdentifier (h.2 segment hs)⟩

/-- Different paths of identifiers are written differently. -/
theorem IsPath.intercalate_injective {path path' : Path} (h : IsPath path) (h' : IsPath path')
    (heq : "/".intercalate path = "/".intercalate path') : path = path' :=
  RosInterface.intercalate_injective
    (fun name hn => slash_notMem_of_isIdentifier (h.2 name hn)) h.1
    (fun name hn => slash_notMem_of_isIdentifier (h'.2 name hn)) h'.1 heq

/-! ### Types and members that are read -/

/-- The names of a path behind the first one are identifiers. -/
theorem areIdentifiers_of_moreNames (separator s : List Char) :
    AreIdentifiers (moreNames separator s).1 := by
  fun_induction moreNames separator s with
  | case1 s hs => exact fun name hname => nomatch hname
  | case2 s rest hs hi => exact fun name hname => nomatch hname
  | case3 s rest hs name rest' hi names rest'' hmore ih =>
    rw [hmore] at ih
    exact List.forall_mem_cons.mpr ⟨(exists_of_identifier? hi).1, ih⟩

/-- A path that is read is made of identifiers. -/
theorem isPath_of_scopedName? {s rest : List Char} {path : Path}
    (h : scopedName? s = some (path, rest)) : IsPath path := by
  simp only [scopedName?, Option.bind_eq_bind, Option.bind_eq_some_iff, Option.pure_def,
    Option.some.injEq, Prod.mk.injEq] at h
  obtain ⟨⟨name, s'⟩, hname, rfl, -⟩ := h
  exact ⟨List.cons_ne_nil _ _, List.forall_mem_cons.mpr
    ⟨(exists_of_identifier? hname).1, areIdentifiers_of_moreNames _ _⟩⟩

/-- A string type has no names. -/
theorem isNamed_of_stringType? {s rest : List Char} {type : TypeExpr}
    (h : stringType? s = some (type, rest)) : type.IsNamed := by
  have hkeyword {keyword : String} (make : Option Nat → TypeExpr)
      (hmake : ∀ limit, (make limit).IsNamed)
      (h : keywordString? keyword make s = some (type, rest)) : type.IsNamed := by
    simp only [keywordString?, Option.bind_eq_bind, Option.bind_eq_some_iff] at h
    obtain ⟨s', -, h⟩ := h
    split at h
    · cases h
      exact hmake _
    · split at h
      · cases h
        exact hmake _
      · cases h
  rw [stringType?, Option.or_eq_some_iff] at h
  obtain h | ⟨-, h⟩ := h
  · exact hkeyword .wideString (fun _ => trivial) h
  · exact hkeyword .string (fun _ => trivial) h

/-- A type that is read and is no sequence is named by identifiers. -/
theorem isNamed_of_plainType? {s rest : List Char} {type : TypeExpr}
    (h : plainType? s = some (type, rest)) : type.IsNamed := by
  rw [plainType?, Option.or_eq_some_iff, Option.or_eq_some_iff] at h
  obtain h | ⟨-, h | ⟨-, h⟩⟩ := h
  · exact isNamed_of_stringType? h
  · obtain ⟨⟨basic, s'⟩, -, hbasic⟩ := Option.map_eq_some_iff.mp h
    cases hbasic
    trivial
  · obtain ⟨⟨path, s'⟩, hpath, hnamed⟩ := Option.map_eq_some_iff.mp h
    cases hnamed
    exact isPath_of_scopedName? hpath

/-- **A type that is read is named by identifiers.** -/
theorem isNamed_of_typeExpr? {s rest : List Char} {type : TypeExpr}
    (h : typeExpr? s = some (type, rest)) : type.IsNamed := by
  fun_induction typeExpr? s generalizing type rest with
  | case1 s hs => exact isNamed_of_plainType? h
  | case2 s body hs helement ih => exact isNamed_of_plainType? h
  | case3 s body hs element after helement hend ih => exact isNamed_of_plainType? h
  | case4 s body hs element after helement limit rest' hend ih =>
    cases h
    have hnamed : element.IsNamed := ih helement
    exact hnamed

/-- The name of a declarator is an identifier. -/
theorem isIdentifier_of_declarator? {s rest : List Char} {name : String} {length : Option Nat}
    (h : declarator? s = some ((name, length), rest)) : isIdentifier name = true := by
  simp only [declarator?, Option.bind_eq_bind, Option.bind_eq_some_iff] at h
  obtain ⟨⟨found, s'⟩, hfound, h⟩ := h
  split at h
  all_goals
    cases h
    exact (exists_of_identifier? hfound).1

theorem isNamed_of_wholeMember {s : List Char} {member : Member}
    (h : wholeMember s = .ok member) : member.IsNamed := by
  obtain ⟨behind, declarator, rest, htype, -, hdeclarator, -⟩ := exists_of_wholeMember h
  exact ⟨isIdentifier_of_declarator? hdeclarator, isNamed_of_typeExpr? htype⟩

/-- A member that is read is named by identifiers. -/
theorem isNamed_of_memberOfLine {line : List Char} {member : Member}
    (h : memberOfLine line = .ok member) : member.IsNamed := by
  rw [memberOfLine] at h
  split at h
  · cases h
  · exact isNamed_of_wholeMember h

/-- A typedef that is read is named by identifiers. -/
theorem isNamed_of_typedefOfLine {line : List Char} {target : Member}
    (h : typedefOfLine line = .ok target) : target.IsNamed := by
  rw [typedefOfLine] at h
  split at h
  · cases h
  · exact isNamed_of_memberOfLine h

/-- The name of what a line opens is an identifier. -/
theorem isIdentifier_of_ofLine (opening : Opening) {name : String} {line : List Char}
    (h : Statement.ofLine line = opening.statement name) : isIdentifier name = true := by
  obtain ⟨header, rest, ⟨blanks, spaces, -, -, hname, -⟩, -⟩ := ofLine_eq_statement_iff.mp h
  exact hname

/-! ### Statements -/

/-- The names in an open struct or enum are identifiers. -/
def Body.IsNamed : Body → Prop
  | struct name members => isIdentifier name = true ∧ ∀ member ∈ members, member.IsNamed
  | enum name _ => isIdentifier name = true

/-- The names that an action reads are identifiers. -/
def Action.IsNamed : Action → Prop
  | declare target => target.IsNamed
  | openModule name => isIdentifier name = true
  | openBody body => body.IsNamed
  | addMember member => member.IsNamed
  | _ => True

namespace Progress

/-- All names that have been read are identifiers. -/
structure IsNamed (progress : Progress) : Prop where
  /-- The names in declarations are identifiers. -/
  declarations : progress.declarations.IsNamed
  /-- The names of modules are identifiers. -/
  modules : AreIdentifiers progress.modules
  /-- The names in the open struct or enum are identifiers. -/
  body : ∀ body ∈ progress.body, body.IsNamed

variable {progress : Progress}

/-- What a statement reads is named by identifiers. -/
theorem Reads.isNamed {text : List Char} {action : Action} (h : progress.Reads text action) :
    action.IsNamed := by
  cases h with
  | typedef _ _ htarget => exact isNamed_of_typedefOfLine htarget
  | openModule hs _ => exact isIdentifier_of_ofLine .module hs
  | openStruct hs _ =>
    exact ⟨isIdentifier_of_ofLine .struct hs, fun member hm => nomatch hm⟩
  | openEnum hs _ => exact isIdentifier_of_ofLine .enum hs
  | member _ _ hmember => exact isNamed_of_memberOfLine hmember
  | skipped => trivial
  | value => trivial
  | closeBody => trivial
  | closeModule => trivial

/-- A struct or enum is declared under names that are identifiers. -/
theorem isNamed_add {declarations : Declarations} (h : declarations.IsNamed) {modules : Path}
    (hmodules : AreIdentifiers modules) {body : Body} (hbody : body.IsNamed) :
    (declarations.add (modules ++ [body.name], body.content)).IsNamed := by
  cases body with
  | struct name members =>
    refine { h with structs := fun entry hentry => ?_ }
    rcases List.mem_append.mp hentry with hentry | hentry
    · exact h.structs entry hentry
    · rw [List.mem_singleton.mp hentry]
      exact ⟨.of_concat hmodules hbody.1, hbody.2⟩
  | enum name values =>
    refine { h with enums := fun entry hentry => ?_ }
    rcases Table.mem_entries_insert hentry with rfl | hentry
    · exact .of_concat hmodules hbody
    · exact h.enums entry hentry

/-- **What a statement does keeps names identifiers.** -/
theorem IsNamed.apply (h : progress.IsNamed) {action : Action} (ha : action.IsNamed) :
    (progress.apply action).IsNamed := by
  cases action with
  | pass => exact h
  | declare target =>
    refine { h with declarations := { h.declarations with typedefs := fun entry hentry => ?_ } }
    rcases Table.mem_entries_insert hentry with rfl | hentry
    · exact ⟨.of_concat h.modules ha.name, ha⟩
    · exact h.declarations.typedefs entry hentry
  | openModule name =>
    exact { h with modules := h.modules.append (List.forall_mem_singleton.mpr ha) }
  | openBody body =>
    refine { h with body := fun other hother => ?_ }
    obtain rfl := Option.some.inj hother
    exact ha
  | addMember member =>
    refine { h with body := fun other hother => ?_ }
    obtain ⟨body, hbody, rfl⟩ := Option.map_eq_some_iff.mp hother
    have hnamed := h.body body hbody
    cases body with
    | struct name members =>
      exact ⟨hnamed.1, List.forall_mem_append.mpr ⟨hnamed.2, List.forall_mem_singleton.mpr ha⟩⟩
    | enum name values => exact hnamed
  | addValue value =>
    refine { h with body := fun other hother => ?_ }
    obtain ⟨body, hbody, rfl⟩ := Option.map_eq_some_iff.mp hother
    have hnamed := h.body body hbody
    cases body <;> exact hnamed
  | closeBody =>
    rw [Progress.apply]
    split
    · exact h
    · rename_i body hbody
      exact {
        declarations := isNamed_add h.declarations h.modules (h.body body hbody)
        modules := h.modules
        body := fun other hother => (Option.not_mem_none other hother).elim }
  | closeModule => exact { h with modules := h.modules.dropLast }

/-- Statements that are read one after the other keep names identifiers. -/
theorem IsNamed.applyAll {texts : List (List Char)} {actions : List Action} (h : progress.IsNamed)
    (ha : progress.actions? texts = some actions) : (progress.applyAll actions).IsNamed := by
  induction texts generalizing progress actions with
  | nil =>
    cases ha
    exact h
  | cons text texts ih =>
    obtain ⟨action, more, haction, hmore, rfl⟩ := actions?_cons_eq_some_iff.mp ha
    have hnext := ih (h.apply (action?_eq_some_iff.mp haction).isNamed) hmore
    exact hnext

end Progress

theorem Declarations.isNamed_empty : Declarations.empty.IsNamed where
  structs := fun _ h => nomatch h
  enums := fun _ h => nomatch h
  typedefs := fun _ h => nomatch h

/-- **The names in an accepted file are identifiers.** -/
theorem isNamed_of_declarations {text : List Char} {found : Declarations}
    (h : declarations text = .ok found) : found.IsNamed := by
  obtain ⟨actions, hactions, -, rfl⟩ := declarations_eq_ok_iff.mp h
  have hstart : Progress.start.IsNamed := {
    declarations := Declarations.isNamed_empty
    modules := fun _ hname => nomatch hname
    body := fun _ hbody => nomatch hbody }
  exact (hstart.applyAll hactions).declarations

/-- The records of an accepted file have plain spellings for names. -/
theorem exists_spells_of_records {text : List Char} {found : List Record}
    (h : records text = .ok found) {record : Record} (hrecord : record ∈ found) :
    ∃ q : QualifiedName, q.Spells record.name := by
  obtain ⟨declared, hdeclared, rfl⟩ := records_eq_ok_iff.mp h
  obtain ⟨entry, hentry, rfl⟩ := List.mem_map.mp hrecord
  exact ((isNamed_of_declarations hdeclared).structs entry hentry).1.exists_spells

/-- The names in several files together are identifiers. -/
theorem Declarations.isNamed_mergeAll {files : List Declarations}
    (h : ∀ file ∈ files, file.IsNamed) : (mergeAll files).IsNamed where
  structs entry hentry := by
    rw [structs_mergeAll] at hentry
    obtain ⟨file, hfile, hentry⟩ := Table.exists_of_mem_entries_ofList_flatMap hentry
    exact (h file hfile).structs entry hentry
  enums entry hentry := by
    rw [enums_mergeAll] at hentry
    obtain ⟨file, hfile, hentry⟩ := Table.exists_of_mem_entries_ofList_flatMap hentry
    exact (h file hfile).enums entry hentry
  typedefs entry hentry := by
    rw [typedefs_mergeAll] at hentry
    obtain ⟨file, hfile, hentry⟩ := Table.exists_of_mem_entries_ofList_flatMap hentry
    exact (h file hfile).typedefs entry hentry

end RosInterface.Idl
