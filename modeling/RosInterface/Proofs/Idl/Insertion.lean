import RosInterface.Idl.Scope
import RosInterface.Proofs.Idl.Action

/-!
# One more statement

A statement is put in before others, and a run with it is compared with the run without it. Both
are taken to read all their statements and to end where nothing is open.

* A statement that opens or closes something leaves too much or too little open at the end.
* A member makes for one more field in the records.
* A value of an enum plays no part in the records.
* A typedef is declared before all that comes later, which may or may not change the records.

## Main definitions

* `Idl.Progress.level`: how many things are open.
* `Idl.Progress.size`: how many members have been read.
* `Idl.Progress.shape`: what has been read without the values of enums.
* `Idl.Progress.contents`: what actions declare.
* `Idl.Progress.MayOmit`: a statement that may as well not be there.

## Main results

* `Idl.Progress.level_applyAll`, `Idl.Progress.size_applyAll`: two readers of the same statements.
* `Idl.Progress.declarations_applyAll`: what actions declare is added to what was declared.
* `Idl.Declarations.records_withEnums`: values of enums play no part in the records.
* `Idl.Progress.insert_iff`: which statements may be put in without a change of the records.
-/

namespace RosInterface.Idl

/-- How a statement changes the number of things that are open. -/
def Statement.turn : Statement → Int
  | openModule _ => 1
  | openStruct _ => 1
  | openEnum _ => 1
  | close => -1
  | _ => 0

namespace Body

/-- The number of members of a struct. -/
def size : Body → Nat
  | struct _ members => members.length
  | enum _ _ => 0

/-- The body without the values of an enum. -/
def withoutValues : Body → Body
  | struct name members => struct name members
  | enum name _ => enum name []

theorem withoutValues_addMember (member : Member) (body : Body) :
    (body.addMember member).withoutValues = body.withoutValues.addMember member := by
  cases body <;> rfl

theorem withoutValues_addValue (value : Option String) (body : Body) :
    (body.addValue value).withoutValues = body.withoutValues := by
  cases body <;> rfl

end Body

/-- The number of members that an action adds. -/
def Action.gain : Action → Nat
  | addMember _ => 1
  | _ => 0

namespace Declarations

/-- The number of members of all structs. -/
def size (declarations : Declarations) : Nat :=
  (declarations.structs.flatMap Prod.snd).length

/-- Each member of a struct becomes a field of its record. -/
theorem length_fields_records (declarations : Declarations) :
    (declarations.records.flatMap Record.fields).length = declarations.size := by
  rw [records, List.flatMap_map, List.length_flatMap, size, List.length_flatMap]
  simp only [List.length_map]

section

variable (declarations : Declarations) {enums : Table Path (List String)}

theorem declared?_withEnums (h : enums.keys = declarations.enums.keys) (path : Path) :
    ({ declarations with enums := enums } : Declarations).declared? path
      = declarations.declared? path := by
  rw [declared?, declared?, Table.contains_eq_decide, Table.contains_eq_decide, h]
  rfl

theorem referent_withEnums (h : enums.keys = declarations.enums.keys) (module path : Path) :
    ({ declarations with enums := enums } : Declarations).referent module path
      = declarations.referent module path := by
  refine referent_congr (declared?_withEnums declarations h) (fun path => ?_) module path
  rw [suffixed?, suffixed?, h]

/-- **Values of enums play no part in the records.** -/
theorem records_withEnums (h : enums.keys = declarations.enums.keys) :
    ({ declarations with enums := enums } : Declarations).records = declarations.records := by
  rw [records, records, field_congr (referent_withEnums declarations h)]

end

end Declarations

namespace Progress

variable {p q : Progress} {text : List Char} {texts : List (List Char)} {action : Action}
  {actions others : List Action}

/-! ### What is open -/

/-- The number of modules, structs and enums that are open. -/
def level (p : Progress) : Int :=
  p.modules.length + if p.body.isSome then 1 else 0

theorem level_of_place (h : p.place = ([], none)) : p.level = 0 := by
  obtain ⟨hmodules, hbody⟩ := Prod.mk.inj h
  rw [level, hmodules, Option.map_eq_none_iff.mp hbody]
  rfl

/-- An action changes the number of things that are open as its statement says. -/
theorem level_apply (h : p.Reads text action) :
    (p.apply action).level = p.level + (Statement.ofLine text).turn := by
  obtain ⟨declarations, modules, body, annotations⟩ := p
  cases h with
  | skipped hs => rw [hs]; exact (Int.add_zero _).symm
  | typedef hs hb ht => rw [hs]; exact (Int.add_zero _).symm
  | openModule hs hb | openStruct hs hb | openEnum hs hb | member hs hb hm | value hs hb hv =>
    cases hb
    simp [apply, level, hs, Statement.turn]
  | closeBody hs hb =>
    cases hb
    simp only [apply, level, hs, Statement.turn, Option.isSome_none, Option.isSome_some,
      Bool.false_eq_true, reduceIte]
    omega
  | closeModule hs hb hm =>
    cases hb
    have hlength : 0 < modules.length := List.length_pos_of_ne_nil hm
    simp only [apply, level, hs, Statement.turn, List.length_dropLast, Option.isSome_none,
      Bool.false_eq_true, reduceIte]
    omega

/-- **What one of two readers has more open than the other** it has more open behind the same
statements. -/
theorem level_applyAll (hp : p.actions? texts = some actions)
    (hq : q.actions? texts = some others) :
    (q.applyAll others).level - (p.applyAll actions).level = q.level - p.level := by
  induction texts generalizing p q actions others with
  | nil =>
    cases hp
    cases hq
    rfl
  | cons text texts ih =>
    obtain ⟨action, more, haction, hmore, rfl⟩ := actions?_cons_eq_some_iff.mp hp
    obtain ⟨action', more', haction', hmore', rfl⟩ := actions?_cons_eq_some_iff.mp hq
    have hrest : ((q.apply action').applyAll more').level - ((p.apply action).applyAll more).level
        = (q.apply action').level - (p.apply action).level := ih hmore hmore'
    rw [level_apply (action?_eq_some_iff.mp haction),
      level_apply (action?_eq_some_iff.mp haction'), Int.add_sub_add_right] at hrest
    exact hrest

/-- A statement that opens or closes something cannot be put in. -/
theorem turn_eq_zero_of_insert (haction : p.Reads text action)
    (h : p.actions? texts = some actions) (hend : (p.applyAll actions).place = ([], none))
    (h' : (p.apply action).actions? texts = some others)
    (hend' : ((p.apply action).applyAll others).place = ([], none)) :
    (Statement.ofLine text).turn = 0 := by
  have hlevel := level_applyAll h h'
  rw [level_of_place hend, level_of_place hend', level_apply haction] at hlevel
  omega

/-! ### Members -/

/-- The number of members that have been read. -/
def size (p : Progress) : Nat :=
  p.declarations.size + (p.body.map Body.size).getD 0

theorem size_of_place (h : p.place = ([], none)) : p.size = p.declarations.size := by
  rw [size, Option.map_eq_none_iff.mp (Prod.mk.inj h).2]
  rfl

/-- Members are added one by one, and closing a struct loses none of them. -/
theorem size_apply (h : p.Reads text action) : (p.apply action).size = p.size + action.gain := by
  obtain ⟨declarations, modules, body, annotations⟩ := p
  cases h with
  | skipped hs | typedef hs hb ht | openModule hs hb | closeModule hs hb hm => rfl
  | openStruct hs hb | openEnum hs hb | value hs hb hv =>
    cases hb
    rfl
  | member hs hb hm =>
    cases hb
    simp [apply, size, Body.addMember, Body.size, Action.gain, Nat.add_assoc]
  | @closeBody body hs hb =>
    cases hb
    cases body with
    | struct name members =>
      simp [apply, size, Body.content, Body.size, Action.gain, Declarations.add, Declarations.size]
    | enum name values => rfl

/-- **What one of two readers has read more members than the other** it has read more behind the
same actions. -/
theorem size_applyAll (hp : p.actions? texts = some actions)
    (hq : q.actions? texts = some actions) :
    (q.applyAll actions).size + p.size = (p.applyAll actions).size + q.size := by
  induction texts generalizing p q actions with
  | nil =>
    cases hp
    exact Nat.add_comm _ _
  | cons text texts ih =>
    obtain ⟨action, more, haction, hmore, rfl⟩ := actions?_cons_eq_some_iff.mp hp
    obtain ⟨_, _, haction', hmore', ⟨⟩⟩ := actions?_cons_eq_some_iff.mp hq
    have hrest : ((q.apply action).applyAll more).size + (p.apply action).size
        = ((p.apply action).applyAll more).size + (q.apply action).size := ih hmore hmore'
    rw [size_apply (action?_eq_some_iff.mp haction),
      size_apply (action?_eq_some_iff.mp haction'), ← Nat.add_assoc, ← Nat.add_assoc] at hrest
    exact Nat.add_right_cancel hrest

/-! ### Values of enums -/

/-- What has been read, without the values of enums. -/
def shape (p : Progress) :
    List (Path × List Member) × List Path × Table Path Member × Path × Option Body :=
  (p.declarations.structs, p.declarations.enums.keys, p.declarations.typedefs, p.modules,
    p.body.map Body.withoutValues)

/-- Values of enums play no part in what an action does to the rest. -/
theorem shape_apply_congr (h : q.shape = p.shape) (action : Action) :
    (q.apply action).shape = (p.apply action).shape := by
  obtain ⟨⟨structs, enums, typedefs⟩, modules, body, annotations⟩ := p
  obtain ⟨⟨structs', enums', typedefs'⟩, modules', body', annotations'⟩ := q
  simp only [shape, Prod.mk.injEq] at h
  obtain ⟨rfl, henums, rfl, rfl, hbody⟩ := h
  cases action with
  | pass | declare target | openModule name | openBody body | closeModule =>
    simp [shape, apply, addTypedef, henums, hbody]
  | addMember member =>
    have hmap (body : Option Body) : (body.map (Body.addMember member)).map Body.withoutValues
        = (body.map Body.withoutValues).map (Body.addMember member) := by
      cases body with
      | none => rfl
      | some body => exact congrArg some (Body.withoutValues_addMember member body)
    simp only [shape, apply, henums, hmap, hbody]
  | addValue value =>
    have hmap (body : Option Body) : (body.map (Body.addValue value)).map Body.withoutValues
        = body.map Body.withoutValues := by
      cases body with
      | none => rfl
      | some body => exact congrArg some (Body.withoutValues_addValue value body)
    simp only [shape, apply, henums, hmap, hbody]
  | closeBody =>
    rcases body with _ | ⟨name, members⟩ | ⟨name, values⟩ <;>
      rcases body' with _ | ⟨name', members'⟩ | ⟨name', values'⟩ <;>
      cases hbody <;>
      simp [shape, apply, Body.content, Body.name, Declarations.add, Table.keys_insert, henums]

theorem shape_applyAll_congr (h : q.shape = p.shape) (actions : List Action) :
    (q.applyAll actions).shape = (p.applyAll actions).shape := by
  induction actions generalizing p q with
  | nil => exact h
  | cons action actions ih => exact ih (shape_apply_congr h action)

/-! ### What is declared -/

/-- What an action declares. -/
def content (p : Progress) : Action → List (Path × Content)
  | .declare target => [(p.modules ++ [target.name], .typedef target)]
  | .closeBody => (p.body.map fun body => (p.modules ++ [body.name], body.content)).toList
  | _ => []

/-- What actions declare, one after the other. -/
def contents (p : Progress) : List Action → List (Path × Content)
  | [] => []
  | action :: more => p.content action ++ contents (p.apply action) more

theorem declarations_apply (p : Progress) (action : Action) :
    (p.apply action).declarations = p.declarations.addAll (p.content action) := by
  cases action with
  | closeBody =>
    rw [apply, content]
    cases p.body <;> rfl
  | _ => rfl

/-- **What actions declare is added** to what was declared before. -/
theorem declarations_applyAll (p : Progress) (actions : List Action) :
    (p.applyAll actions).declarations = p.declarations.addAll (p.contents actions) := by
  induction actions generalizing p with
  | nil => rfl
  | cons action actions ih =>
    rw [contents, Declarations.addAll_append, ← declarations_apply]
    exact ih (p.apply action)

/-- What was declared before plays no part in what actions declare. -/
theorem contents_congr (hmodules : q.modules = p.modules) (hbody : q.body = p.body)
    (actions : List Action) : q.contents actions = p.contents actions := by
  induction actions generalizing p q with
  | nil => rfl
  | cons action actions ih =>
    have happly : (q.apply action).modules = (p.apply action).modules ∧
        (q.apply action).body = (p.apply action).body := by
      cases action with
      | closeBody =>
        rw [apply, apply, hbody]
        cases p.body with
        | none => exact ⟨hmodules, hbody⟩
        | some body => exact ⟨hmodules, rfl⟩
      | _ => simp [apply, addTypedef, hmodules, hbody]
    have hcontent : q.content action = p.content action := by
      rw [content.eq_def, content.eq_def, hmodules, hbody]
    rw [contents, contents, hcontent, ih happly.1 happly.2]

/-! ### One more statement -/

/-- A statement that may as well not be there, if `later` is declared behind it. -/
inductive MayOmit (p : Progress) (later : List (Path × Content)) (text : List Char) : Prop
  | skipped : Statement.ofLine text = .skipped → MayOmit p later text
  | value {name : String} {values : List String} {value : Option String} :
      Statement.ofLine text = .content → p.body = some (.enum name values) →
      enumValueOfLine text = .ok value → MayOmit p later text
  | typedef {target : Member} : Statement.ofLine text = .typedef → p.body = none →
      typedefOfLine text = .ok target →
      ((p.declarations.add (p.modules ++ [target.name], .typedef target)).addAll later).records
        = (p.declarations.addAll later).records →
      MayOmit p later text

/-- One more member makes for one more field, so the records change. -/
theorem records_ne_of_member {member : Member} (hmember : p.Reads text (.addMember member))
    (h : p.actions? texts = some actions) (hend : (p.applyAll actions).place = ([], none)) :
    ((p.apply (.addMember member)).applyAll actions).declarations.records
      ≠ (p.applyAll actions).declarations.records := by
  intro heq
  have hplace := place_apply_addMember p member
  have h' : (p.apply (.addMember member)).actions? texts = some actions := by
    rw [actions?_congr hplace, h]
  have hend' : ((p.apply (.addMember member)).applyAll actions).place = ([], none) := by
    rw [place_applyAll_congr hplace, hend]
  have hsize : ((p.apply (.addMember member)).applyAll actions).size
      = (p.applyAll actions).size := by
    rw [size_of_place hend, size_of_place hend', ← Declarations.length_fields_records,
      ← Declarations.length_fields_records, heq]
  have hmore := size_applyAll h h'
  rw [hsize, size_apply hmember, Action.gain] at hmore
  omega

/-- One more value of an enum leaves the records as they are. -/
theorem records_addValue (p : Progress) (value : Option String) (actions : List Action) :
    ((p.apply (.addValue value)).applyAll actions).declarations.records
      = (p.applyAll actions).declarations.records := by
  have hshape : (p.apply (.addValue value)).shape = p.shape := by
    simp only [shape, apply, Option.map_map, Function.comp_def, Body.withoutValues_addValue]
  have hall := shape_applyAll_congr hshape actions
  simp only [shape, Prod.mk.injEq] at hall
  obtain ⟨hstructs, henums, htypedefs, -, -⟩ := hall
  have hwith := Declarations.records_withEnums (p.applyAll actions).declarations henums
  rwa [← hstructs, ← htypedefs] at hwith

/-- One more typedef is declared before all that is declared behind it. -/
theorem declarations_declare (p : Progress) (target : Member) (actions : List Action) :
    ((p.apply (.declare target)).applyAll actions).declarations
      = (p.declarations.add (p.modules ++ [target.name], .typedef target)).addAll
          (p.contents actions) := by
  have hcontents : (p.apply (.declare target)).contents actions = p.contents actions :=
    contents_congr (p := p) (q := p.apply (.declare target)) rfl rfl actions
  rw [declarations_applyAll, hcontents]
  rfl

/-- **Which statements may be put in.** The statements behind it can still be read and nothing is
left open, and the records are as without it. -/
theorem insert_iff (h : p.actions? texts = some actions)
    (hend : (p.applyAll actions).place = ([], none)) (text : List Char) :
    (∃ others, p.actions? (text :: texts) = some others ∧
        (p.applyAll others).place = ([], none) ∧
        (p.applyAll others).declarations.records = (p.applyAll actions).declarations.records) ↔
      p.MayOmit (p.contents actions) text := by
  -- an action that leaves the place as it is leaves the actions behind it as they are
  have hsame {action : Action} (hplace : (p.apply action).place = p.place) :
      (p.apply action).actions? texts = some actions := by
    rw [actions?_congr hplace, h]
  constructor
  · rintro ⟨_, hall, hend', hrecords⟩
    obtain ⟨action, others, haction, hothers, rfl⟩ := actions?_cons_eq_some_iff.mp hall
    have hreads := action?_eq_some_iff.mp haction
    have hturn := turn_eq_zero_of_insert hreads h hend hothers hend'
    cases hreads with
    | skipped hs => exact .skipped hs
    | @typedef target hs hb ht =>
      have hplace : (p.apply (.declare target)).place = p.place := rfl
      obtain rfl := Option.some.inj ((hsame hplace).symm.trans hothers)
      refine .typedef hs hb ht ?_
      rw [← declarations_declare, ← declarations_applyAll]
      exact hrecords
    | member hs hb hm =>
      have hplace := place_apply_addMember p
      obtain rfl := Option.some.inj ((hsame (hplace _)).symm.trans hothers)
      exact absurd hrecords (records_ne_of_member (.member hs hb hm) h hend)
    | value hs hb hv => exact .value hs hb hv
    | openModule hs hb | openStruct hs hb | openEnum hs hb | closeBody hs hb
    | closeModule hs hb hm =>
      rw [hs] at hturn
      cases hturn
  · intro homit
    obtain ⟨action, hreads, hplace, hrecords⟩ : ∃ action, p.Reads text action ∧
        (p.apply action).place = p.place ∧
        ((p.apply action).applyAll actions).declarations.records
          = (p.applyAll actions).declarations.records := by
      cases homit with
      | skipped hs => exact ⟨.pass, .skipped hs, rfl, rfl⟩
      | value hs hb hv =>
        exact ⟨_, .value hs hb hv, place_apply_addValue p _, records_addValue p _ actions⟩
      | typedef hs hb ht hrecords =>
        refine ⟨_, .typedef hs hb ht, rfl, ?_⟩
        rw [declarations_declare, hrecords, ← declarations_applyAll]
    have hall := actions?_cons_eq_some_iff.mpr
      ⟨action, actions, action?_eq_some_iff.mpr hreads, hsame hplace, rfl⟩
    exact ⟨action :: actions, hall, (place_applyAll_congr hplace actions).trans hend, hrecords⟩

end Progress

end RosInterface.Idl
