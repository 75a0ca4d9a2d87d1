import RosInterface.Outcome
import RosInterface.Idl.Bundle
import RosInterface.Proofs.Idl.Definition
import RosInterface.Proofs.Idl.Preparation

/-!
# What statements do

A statement that can be read does one of a few things: it opens or closes something, or adds to
what is open or declared. Which of these it does is told by the statement and by the *place* where
the reader stands, that is the modules that are open and the kind and name of the body that is
open. The number of the line, the declarations so far and what the open body holds play no part.
So the same statements, read from the same place, do the same things to whatever was read before.

A text is accepted by what its statements do, one after the other.

## Main definitions

* `Idl.Action`, `Idl.Progress.apply`: what a statement may do.
* `Idl.Progress.place`: where a reader stands.
* `Idl.Progress.action?`, `Idl.Progress.actions?`: what statements do, if they can be read.
* `Idl.Progress.Reads`: the same, by the kinds of statement.

## Main results

* `Idl.Progress.action?_eq_some_iff`: all that a statement may do.
* `Idl.Progress.execute_eq_ok_iff`: executing a statement is doing what it does.
* `Idl.Progress.actions?_congr`: what statements do depends on the place only.
* `Idl.Progress.run_eq_ok_iff`: reading lines is doing what their statements do.
* `Idl.declarations_eq_ok_iff`: when a text is accepted, and what it declares.
-/

namespace RosInterface.Idl

open Text

namespace Body

/-- The name of a struct or enum. -/
def name : Body → String
  | struct name _ => name
  | enum name _ => name

/-- A struct or enum of the same name without members or values. -/
def emptied : Body → Body
  | struct name _ => struct name []
  | enum name _ => enum name []

/-- What is declared by a struct or enum once it is closed. -/
def content : Body → Content
  | struct _ members => .struct members
  | enum _ values => .enum values

/-- A struct with one more member. -/
def addMember (member : Member) : Body → Body
  | struct name members => struct name (members ++ [member])
  | enum name values => enum name values

/-- An enum with one more value, if there is one. -/
def addValue (value : Option String) : Body → Body
  | struct name members => struct name members
  | enum name values => enum name (values ++ value.toList)

end Body

/-- What a statement does. -/
inductive Action where
  /-- Nothing. -/
  | pass
  /-- It declares a typedef. -/
  | declare (target : Member)
  /-- It opens a module. -/
  | openModule (name : String)
  /-- It opens a struct or enum. -/
  | openBody (body : Body)
  /-- It adds a member to the open struct. -/
  | addMember (member : Member)
  /-- It adds a value to the open enum, if it holds one. -/
  | addValue (value : Option String)
  /-- It closes the open struct or enum. -/
  | closeBody
  /-- It closes the innermost module. -/
  | closeModule

namespace Progress

/-- What has been read once an action is done. -/
def apply (progress : Progress) : Action → Progress
  | .pass => progress
  | .declare target => progress.addTypedef target
  | .openModule name => { progress with modules := progress.modules ++ [name] }
  | .openBody body => { progress with body := some body }
  | .addMember member => { progress with body := progress.body.map (Body.addMember member) }
  | .addValue value => { progress with body := progress.body.map (Body.addValue value) }
  | .closeBody =>
    match progress.body with
    | none => progress
    | some body =>
      { progress with
        body := none
        declarations := progress.declarations.add (progress.modules ++ [body.name], body.content) }
  | .closeModule => { progress with modules := progress.modules.dropLast }

/-- What has been read once actions are done. -/
def applyAll (progress : Progress) (actions : List Action) : Progress :=
  actions.foldl apply progress

/-- Where a reader stands: the open modules, and the open struct or enum without what it holds. -/
def place (progress : Progress) : Path × Option Body :=
  (progress.modules, progress.body.map Body.emptied)

/-- What a statement does, if it can be read where the reader stands. -/
def action? (progress : Progress) (text : List Char) : Option Action :=
  match Statement.ofLine text, progress.place with
  | .skipped, _ => some .pass
  | .typedef, (_, none) => (typedefOfLine text).toOption.map .declare
  | .openModule name, (_, none) => some (.openModule name)
  | .openStruct name, (_, none) => some (.openBody (.struct name []))
  | .openEnum name, (_, none) => some (.openBody (.enum name []))
  | .close, (_, some _) => some .closeBody
  | .close, (modules, none) => if modules.isEmpty then none else some .closeModule
  | .content, (_, some (.struct _ _)) => (memberOfLine text).toOption.map .addMember
  | .content, (_, some (.enum _ _)) => (enumValueOfLine text).toOption.map .addValue
  | _, _ => none

/-- What statements do, one after the other, if each of them can be read. -/
def actions? (progress : Progress) : List (List Char) → Option (List Action)
  | [] => some []
  | text :: rest => do
    let action ← progress.action? text
    let more ← actions? (progress.apply action) rest
    return action :: more

variable {progress other after : Progress} {text : List Char} {rest : List (List Char)}

/-! ### What a statement may do -/

/-- What a statement of each kind does where it can be read. -/
inductive Reads (progress : Progress) (text : List Char) : Action → Prop
  | skipped : Statement.ofLine text = .skipped → Reads progress text .pass
  | typedef {target : Member} : Statement.ofLine text = .typedef → progress.body = none →
      typedefOfLine text = .ok target → Reads progress text (.declare target)
  | openModule {name : String} : Statement.ofLine text = .openModule name →
      progress.body = none → Reads progress text (.openModule name)
  | openStruct {name : String} : Statement.ofLine text = .openStruct name →
      progress.body = none → Reads progress text (.openBody (.struct name []))
  | openEnum {name : String} : Statement.ofLine text = .openEnum name →
      progress.body = none → Reads progress text (.openBody (.enum name []))
  | member {name : String} {members : List Member} {member : Member} :
      Statement.ofLine text = .content → progress.body = some (.struct name members) →
      memberOfLine text = .ok member → Reads progress text (.addMember member)
  | value {name : String} {values : List String} {value : Option String} :
      Statement.ofLine text = .content → progress.body = some (.enum name values) →
      enumValueOfLine text = .ok value → Reads progress text (.addValue value)
  | closeBody {body : Body} : Statement.ofLine text = .close → progress.body = some body →
      Reads progress text .closeBody
  | closeModule : Statement.ofLine text = .close → progress.body = none → progress.modules ≠ [] →
      Reads progress text .closeModule

theorem toOption_eq_some_iff {ε α : Type} {result : Except ε α} {value : α} :
    result.toOption = some value ↔ result = .ok value := by
  cases result with
  | error e => exact ⟨fun h => (nomatch h), fun h => (nomatch h)⟩
  | ok found => exact ⟨fun h => by cases h; rfl, fun h => by cases h; rfl⟩

/-- **All that a statement may do** is told by its kind and by what is open. -/
theorem action?_eq_some_iff {action : Action} :
    progress.action? text = some action ↔ progress.Reads text action := by
  obtain ⟨declarations, modules, body, annotations⟩ := progress
  constructor
  · intro h
    rw [action?] at h
    cases hs : Statement.ofLine text with
    | skipped =>
      rw [hs] at h
      cases h
      exact .skipped hs
    | unsupported =>
      rw [hs] at h
      cases h
    | typedef =>
      rw [hs] at h
      cases body with
      | some body => cases h
      | none =>
        obtain ⟨target, htarget, rfl⟩ := Option.map_eq_some_iff.mp h
        exact .typedef hs rfl (toOption_eq_some_iff.mp htarget)
    | openModule name =>
      rw [hs] at h
      cases body <;> cases h
      exact .openModule hs rfl
    | openStruct name =>
      rw [hs] at h
      cases body <;> cases h
      exact .openStruct hs rfl
    | openEnum name =>
      rw [hs] at h
      cases body <;> cases h
      exact .openEnum hs rfl
    | close =>
      rw [hs] at h
      cases body with
      | some body =>
        cases h
        exact .closeBody hs rfl
      | none =>
        cases modules with
        | nil => cases h
        | cons name modules =>
          cases h
          exact .closeModule hs rfl (List.cons_ne_nil name modules)
    | content =>
      rw [hs] at h
      rcases body with _ | ⟨name, members⟩ | ⟨name, values⟩
      · cases h
      · obtain ⟨member, hmember, rfl⟩ := Option.map_eq_some_iff.mp h
        exact .member hs rfl (toOption_eq_some_iff.mp hmember)
      · obtain ⟨value, hvalue, rfl⟩ := Option.map_eq_some_iff.mp h
        exact .value hs rfl (toOption_eq_some_iff.mp hvalue)
  · intro h
    rw [action?]
    cases h with
    | skipped hs => rw [hs]
    | typedef hs hb ht =>
      cases hb
      rw [hs, ht]
      rfl
    | openModule hs hb =>
      cases hb
      rw [hs]
      rfl
    | openStruct hs hb =>
      cases hb
      rw [hs]
      rfl
    | openEnum hs hb =>
      cases hb
      rw [hs]
      rfl
    | member hs hb hm =>
      cases hb
      rw [hs, hm]
      rfl
    | value hs hb hv =>
      cases hb
      rw [hs, hv]
      rfl
    | closeBody hs hb =>
      cases hb
      rw [hs]
      rfl
    | closeModule hs hb hm =>
      cases hb
      obtain ⟨name, modules, rfl⟩ := List.exists_cons_of_ne_nil hm
      rw [hs]
      rfl

/-! ### Executing a statement -/

/-- Executing a statement is doing what it does. -/
theorem toOption_execute (n : Nat) (progress : Progress) (text : List Char) :
    (progress.execute n text).toOption = (progress.action? text).map progress.apply := by
  obtain ⟨declarations, modules, body, annotations⟩ := progress
  cases hs : Statement.ofLine text with
  | skipped => simp only [execute, action?, hs]; rfl
  | unsupported => simp only [execute, action?, hs]; rfl
  | typedef =>
    cases body with
    | some body => simp only [execute, action?, hs]; rfl
    | none =>
      cases ht : typedefOfLine text with
      | error e => simp only [execute, action?, hs, ht]; rfl
      | ok target => simp only [execute, action?, hs, ht]; rfl
  | openModule name => cases body <;> simp only [execute, action?, hs] <;> rfl
  | openStruct name => cases body <;> simp only [execute, action?, hs] <;> rfl
  | openEnum name => cases body <;> simp only [execute, action?, hs] <;> rfl
  | close =>
    cases body with
    | some body => cases body <;> simp only [execute, action?, hs] <;> rfl
    | none =>
      cases modules with
      | nil => simp only [execute, action?, hs]; rfl
      | cons name modules => simp only [execute, action?, hs]; rfl
  | content =>
    cases body with
    | none => simp only [execute, action?, hs]; rfl
    | some body =>
      cases body with
      | struct name members =>
        cases hm : memberOfLine text with
        | error e => simp only [execute, action?, hs, addContent, hm]; rfl
        | ok member => simp only [execute, action?, hs, addContent, hm]; rfl
      | enum name values =>
        cases hv : enumValueOfLine text with
        | error e => simp only [execute, action?, hs, addContent, hv]; rfl
        | ok value => simp only [execute, action?, hs, addContent, hv]; rfl

/-- **Executing a statement is doing what it does.** -/
theorem execute_eq_ok_iff {n : Nat} :
    progress.execute n text = .ok after ↔
      ∃ action, progress.action? text = some action ∧ progress.apply action = after := by
  rw [← toOption_eq_some_iff, toOption_execute, Option.map_eq_some_iff]

/-- A line of which nothing is left does nothing. -/
theorem execute_nil (n : Nat) (progress : Progress) : progress.execute n [] = .ok progress :=
  rfl

/-! ### The place of a reader -/

/-- What a statement does depends on the place only. -/
theorem action?_congr (h : other.place = progress.place) (text : List Char) :
    other.action? text = progress.action? text := by
  rw [action?, action?, h]

theorem place_apply_addMember (progress : Progress) (member : Member) :
    (progress.apply (.addMember member)).place = progress.place := by
  rw [apply, place, place, Option.map_map]
  exact congrArg _ (Option.map_congr fun body _ => by cases body <;> rfl)

theorem place_apply_addValue (progress : Progress) (value : Option String) :
    (progress.apply (.addValue value)).place = progress.place := by
  rw [apply, place, place, Option.map_map]
  exact congrArg _ (Option.map_congr fun body _ => by cases body <;> rfl)

theorem place_apply_closeBody (progress : Progress) :
    (progress.apply .closeBody).place = (progress.modules, none) := by
  rw [apply, place]
  cases h : progress.body with
  | none => rw [h]; rfl
  | some body => rfl

/-- Readers at one place are at one place after the same action. -/
theorem place_apply_congr (h : other.place = progress.place) (action : Action) :
    (other.apply action).place = (progress.apply action).place := by
  obtain ⟨hmodules, hbody⟩ := Prod.mk.inj h
  cases action with
  | pass => exact h
  | declare target => exact h
  | openModule name => exact Prod.ext (congrArg (· ++ [name]) hmodules) hbody
  | openBody body => exact Prod.ext hmodules rfl
  | addMember member =>
    rw [place_apply_addMember, place_apply_addMember, h]
  | addValue value =>
    rw [place_apply_addValue, place_apply_addValue, h]
  | closeBody => rw [place_apply_closeBody, place_apply_closeBody, hmodules]
  | closeModule => exact Prod.ext (congrArg List.dropLast hmodules) hbody

/-- **What statements do depends on the place only.** -/
theorem actions?_congr (h : other.place = progress.place) (texts : List (List Char)) :
    other.actions? texts = progress.actions? texts := by
  induction texts generalizing other progress with
  | nil => rfl
  | cons text texts ih =>
    rw [actions?, actions?, action?_congr h]
    cases progress.action? text with
    | none => rfl
    | some action =>
      simp only [Option.bind_eq_bind, Option.bind_some, ih (place_apply_congr h action)]

/-- Readers at one place are at one place after the same actions. -/
theorem place_applyAll_congr (h : other.place = progress.place) (actions : List Action) :
    (other.applyAll actions).place = (progress.applyAll actions).place := by
  induction actions generalizing other progress with
  | nil => exact h
  | cons action actions ih => exact ih (place_apply_congr h action)

theorem actions?_cons_eq_some_iff {texts : List (List Char)} {actions : List Action} :
    progress.actions? (text :: texts) = some actions ↔
      ∃ action more, progress.action? text = some action ∧
        (progress.apply action).actions? texts = some more ∧ action :: more = actions := by
  rw [actions?]
  simp only [Option.bind_eq_bind, Option.bind_eq_some_iff, Option.pure_def, Option.some.injEq]
  constructor
  · rintro ⟨action, haction, more, hmore, rfl⟩
    exact ⟨action, more, haction, hmore, rfl⟩
  · rintro ⟨action, more, haction, hmore, rfl⟩
    exact ⟨action, haction, more, hmore, rfl⟩

/-- What statements in two groups do. -/
theorem actions?_append_eq_some_iff {texts more : List (List Char)} {actions : List Action} :
    progress.actions? (texts ++ more) = some actions ↔
      ∃ first others, progress.actions? texts = some first ∧
        (progress.applyAll first).actions? more = some others ∧ first ++ others = actions := by
  induction texts generalizing progress actions with
  | nil =>
    constructor
    · exact fun h => ⟨[], actions, rfl, h, rfl⟩
    · rintro ⟨first, others, hfirst, hothers, rfl⟩
      cases hfirst
      exact hothers
  | cons text texts ih =>
    rw [List.cons_append]
    simp only [actions?_cons_eq_some_iff, ih]
    constructor
    · rintro ⟨action, _, haction, ⟨first, others, hfirst, hothers, rfl⟩, rfl⟩
      exact ⟨action :: first, others, ⟨action, first, haction, hfirst, rfl⟩, hothers, rfl⟩
    · rintro ⟨_, others, ⟨action, first, haction, hfirst, rfl⟩, hothers, rfl⟩
      exact ⟨action, first ++ others, haction, ⟨first, others, hfirst, hothers, rfl⟩, rfl⟩

theorem applyAll_append (progress : Progress) (actions more : List Action) :
    progress.applyAll (actions ++ more) = (progress.applyAll actions).applyAll more :=
  List.foldl_append

/-- Where statements in two groups lead to. -/
theorem exists_actions?_append_iff {P : Progress → Prop} {texts more : List (List Char)} :
    (∃ actions, progress.actions? (texts ++ more) = some actions ∧ P (progress.applyAll actions)) ↔
      ∃ first others, progress.actions? texts = some first ∧
        (progress.applyAll first).actions? more = some others ∧
        P ((progress.applyAll first).applyAll others) := by
  simp only [actions?_append_eq_some_iff]
  constructor
  · rintro ⟨_, ⟨first, others, hfirst, hothers, rfl⟩, h⟩
    rw [applyAll_append] at h
    exact ⟨first, others, hfirst, hothers, h⟩
  · rintro ⟨first, others, hfirst, hothers, h⟩
    rw [← applyAll_append] at h
    exact ⟨_, ⟨first, others, hfirst, hothers, rfl⟩, h⟩

/-! ### Reading lines -/

/-- Actions play no part in the state of the annotations, and it plays none in them. -/
theorem apply_withAnnotations (progress : Progress) (state : AnnotationState) (action : Action) :
    ({ progress with annotations := state } : Progress).apply action
      = { progress.apply action with annotations := state } := by
  obtain ⟨declarations, modules, body, annotations⟩ := progress
  cases action with
  | closeBody => cases body <;> rfl
  | _ => rfl

theorem applyAll_withAnnotations (progress : Progress) (state : AnnotationState)
    (actions : List Action) :
    ({ progress with annotations := state } : Progress).applyAll actions
      = { progress.applyAll actions with annotations := state } := by
  induction actions generalizing progress with
  | nil => rfl
  | cons action actions ih =>
    rw [applyAll, List.foldl_cons, apply_withAnnotations, ← applyAll, ih]
    rfl

theorem actions?_withAnnotations (progress : Progress) (state : AnnotationState)
    (texts : List (List Char)) : ({ progress with annotations := state } : Progress).actions? texts
      = progress.actions? texts := by
  have hplace : ({ progress with annotations := state } : Progress).place = progress.place := rfl
  exact actions?_congr hplace texts

/-- Executing a prepared line, in terms of the place before it is prepared. -/
theorem step_eq_ok_iff {n : Nat} {raw : List Char} :
    progress.step n raw = .ok after ↔
      ∃ action, progress.action? (prepareLine progress.annotations raw).2 = some action ∧
        { progress.apply action with annotations := (prepareLine progress.annotations raw).1 }
          = after := by
  rw [step, prepare_eq]
  simp only [execute_eq_ok_iff, apply_withAnnotations]
  rfl

theorem run_cons_eq_ok_iff {n : Nat} {raw : List Char} {raws : List (List Char)} :
    progress.run n (raw :: raws) = .ok after ↔
      ∃ between, progress.step n raw = .ok between ∧ between.run (n + 1) raws = .ok after := by
  rw [run]
  cases progress.step n raw with
  | error e => exact ⟨fun h => (nomatch h), fun ⟨_, h, _⟩ => (nomatch h)⟩
  | ok between =>
    exact ⟨fun h => ⟨between, rfl, h⟩, fun ⟨_, hbetween, h⟩ => Except.ok.inj hbetween ▸ h⟩

/-- **Reading lines is doing what their statements do.** -/
theorem run_eq_ok_iff {n : Nat} {raws : List (List Char)} :
    progress.run n raws = .ok after ↔
      ∃ actions, progress.actions? (statements progress.annotations raws) = some actions ∧
        { progress.applyAll actions with
          annotations := annotationsAfter progress.annotations raws } = after := by
  induction raws generalizing n progress with
  | nil =>
    constructor
    · exact fun h => ⟨[], rfl, Except.ok.inj h⟩
    · rintro ⟨actions, hactions, rfl⟩
      cases hactions
      rfl
  | cons raw raws ih =>
    simp only [run_cons_eq_ok_iff, step_eq_ok_iff, ih]
    have hlater (between : Progress) (state after : AnnotationState) (actions : List Action) :
        ({ ({ between with annotations := state } : Progress).applyAll actions with
            annotations := after } : Progress)
          = { between.applyAll actions with annotations := after } := by
      rw [applyAll_withAnnotations between state]
    by_cases hnil : (prepareLine progress.annotations raw).2 = []
    · rw [statements_cons_of_eq_nil hnil, hnil]
      constructor
      · rintro ⟨_, ⟨_, ⟨⟩, rfl⟩, actions, hactions, rfl⟩
        rw [actions?_withAnnotations (progress.apply .pass)] at hactions
        exact ⟨actions, hactions, (hlater _ _ _ _).symm⟩
      · rintro ⟨actions, hactions, rfl⟩
        refine ⟨_, ⟨.pass, rfl, rfl⟩, actions, ?_, hlater _ _ _ _⟩
        rw [actions?_withAnnotations (progress.apply .pass)]
        exact hactions
    · rw [statements_cons_of_ne_nil hnil]
      simp only [actions?_cons_eq_some_iff]
      constructor
      · rintro ⟨_, ⟨action, haction, rfl⟩, actions, hactions, rfl⟩
        rw [actions?_withAnnotations (progress.apply action)] at hactions
        exact ⟨_, ⟨action, actions, haction, hactions, rfl⟩,
          (hlater (progress.apply action) _ _ _).symm⟩
      · rintro ⟨_, ⟨action, actions, haction, hactions, rfl⟩, rfl⟩
        refine ⟨_, ⟨action, haction, rfl⟩, actions, ?_, hlater (progress.apply action) _ _ _⟩
        rw [actions?_withAnnotations (progress.apply action)]
        exact hactions

/-- Reading lines in two groups. -/
theorem run_append (n : Nat) (raws more : List (List Char)) (progress : Progress) :
    progress.run n (raws ++ more)
      = match progress.run n raws with
        | .error e => .error e
        | .ok after => after.run (n + raws.length) more := by
  induction raws generalizing n progress with
  | nil => rfl
  | cons raw raws ih =>
    rw [List.cons_append, run, run]
    cases progress.step n raw with
    | error e => rfl
    | ok between =>
      have hlength : n + (raw :: raws).length = n + 1 + raws.length := by
        rw [List.length_cons, Nat.add_comm raws.length, Nat.add_assoc]
      rw [hlength]
      exact ih (n + 1) between

/-- A text may end where no module and no struct or enum is open. -/
theorem finish_eq_ok_iff {found : Declarations} :
    progress.finish = .ok found ↔ progress.place = ([], none) ∧ progress.declarations = found := by
  obtain ⟨declarations, modules, body, annotations⟩ := progress
  cases body with
  | some body =>
    constructor
    · intro h
      cases body <;> cases h
    · rintro ⟨h, -⟩
      cases h
  | none =>
    cases modules with
    | nil => exact ⟨fun h => ⟨rfl, Except.ok.inj h⟩, fun h => congrArg Except.ok h.2⟩
    | cons name modules => exact ⟨fun h => (nomatch h), fun h => (nomatch h.1)⟩

end Progress

/-- **A text is accepted exactly when each of its statements can be read** and nothing is left open
behind them. It declares what its statements do. -/
theorem declarations_eq_ok_iff {text : List Char} {found : Declarations} :
    declarations text = .ok found ↔
      ∃ actions, Progress.start.actions? (statements .start (lines text)) = some actions ∧
        (Progress.start.applyAll actions).place = ([], none) ∧
        (Progress.start.applyAll actions).declarations = found := by
  have hrun : declarations text = .ok found ↔
      ∃ after, Progress.start.run 1 (lines text) = .ok after ∧ after.finish = .ok found := by
    rw [declarations]
    cases Progress.start.run 1 (lines text) with
    | error e => exact ⟨fun h => (nomatch h), fun ⟨_, h, _⟩ => (nomatch h)⟩
    | ok after =>
      exact ⟨fun h => ⟨after, rfl, h⟩, fun ⟨_, hafter, h⟩ => Except.ok.inj hafter ▸ h⟩
  simp only [hrun, Progress.run_eq_ok_iff, Progress.finish_eq_ok_iff]
  constructor
  · rintro ⟨_, ⟨actions, hactions, rfl⟩, hplace, hfound⟩
    exact ⟨actions, hactions, hplace, hfound⟩
  · rintro ⟨actions, hactions, hplace, hfound⟩
    exact ⟨_, ⟨actions, hactions, rfl⟩, hplace, hfound⟩

/-- The records of an accepted text are those of what it declares. -/
theorem records_eq_ok_iff {text : List Char} {found : List Record} :
    records text = .ok found ↔
      ∃ declared, declarations text = .ok declared ∧ declared.records = found :=
  map_eq_ok_iff

end RosInterface.Idl
