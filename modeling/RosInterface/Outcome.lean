/-!
# Steps that may fail

A computation in several steps succeeds if each of its steps does, and the first step that fails
gives its error. This module takes such a computation apart by its steps.

## Main results

* `bind_eq_ok_iff`, `map_eq_ok_iff`, `mapError_eq_ok_iff`: when a computation succeeds, and with
  what.
* `bind_eq_error_iff`, `map_eq_error_iff`, `mapError_eq_error_iff`: when it fails.
-/

namespace RosInterface

variable {ε α β : Type}

/-- A computation in two steps succeeds if both steps do. -/
theorem bind_eq_ok_iff {first : Except ε α} {next : α → Except ε β} {result : β} :
    first >>= next = .ok result ↔ ∃ value, first = .ok value ∧ next value = .ok result := by
  cases first with
  | error e => exact ⟨fun h => (nomatch h), fun ⟨_, h, _⟩ => (nomatch h)⟩
  | ok value => exact ⟨fun h => ⟨value, rfl, h⟩, fun ⟨_, hvalue, h⟩ => Except.ok.inj hvalue ▸ h⟩

/-- A computation in two steps fails if the first step does, or the second one behind it. -/
theorem bind_eq_error_iff {first : Except ε α} {next : α → Except ε β} {e : ε} :
    first >>= next = .error e ↔
      first = .error e ∨ ∃ value, first = .ok value ∧ next value = .error e := by
  cases first with
  | error e' =>
    exact ⟨fun h => .inl (congrArg Except.error (Except.error.inj h)),
      fun h => h.elim (fun h => congrArg Except.error (Except.error.inj h))
        fun ⟨_, h, _⟩ => (nomatch h)⟩
  | ok value =>
    exact ⟨fun h => .inr ⟨value, rfl, h⟩,
      fun h => h.elim (fun h => (nomatch h)) fun ⟨_, hvalue, h⟩ => Except.ok.inj hvalue ▸ h⟩

theorem pure_eq_ok_iff {value result : α} :
    (pure value : Except ε α) = .ok result ↔ value = result :=
  Except.ok.injEq value result ▸ Iff.rfl

/-- A value that is changed was obtained before. -/
theorem map_eq_ok_iff {outcome : Except ε α} {f : α → β} {result : β} :
    outcome.map f = .ok result ↔ ∃ value, outcome = .ok value ∧ f value = result := by
  cases outcome with
  | error e => exact ⟨fun h => (nomatch h), fun ⟨_, h, _⟩ => (nomatch h)⟩
  | ok value =>
    exact ⟨fun h => ⟨value, rfl, Except.ok.inj h⟩,
      fun ⟨_, hvalue, h⟩ => congrArg Except.ok ((congrArg f (Except.ok.inj hvalue)).trans h)⟩

/-- The error is the same whatever is done to the value. -/
theorem map_eq_error_iff {outcome : Except ε α} {f : α → β} {e : ε} :
    outcome.map f = .error e ↔ outcome = .error e := by
  cases outcome with
  | error e' => exact ⟨fun h => congrArg Except.error (Except.error.inj h),
      fun h => congrArg Except.error (Except.error.inj h)⟩
  | ok value => exact ⟨fun h => (nomatch h), fun h => (nomatch h)⟩

/-- A computation does not succeed with another value if its errors are changed. -/
theorem mapError_eq_ok_iff {ε' : Type} {outcome : Except ε α} {f : ε → ε'} {result : α} :
    outcome.mapError f = .ok result ↔ outcome = .ok result := by
  cases outcome with
  | error e => exact ⟨fun h => (nomatch h), fun h => (nomatch h)⟩
  | ok value => exact ⟨fun h => congrArg Except.ok (Except.ok.inj h),
      fun h => congrArg Except.ok (Except.ok.inj h)⟩

/-- An error that was changed was there before. -/
theorem mapError_eq_error_iff {ε' : Type} {outcome : Except ε α} {f : ε → ε'} {e : ε'} :
    outcome.mapError f = .error e ↔ ∃ cause, outcome = .error cause ∧ f cause = e := by
  cases outcome with
  | error cause =>
    exact ⟨fun h => ⟨cause, rfl, Except.error.inj h⟩,
      fun ⟨_, h, hf⟩ => congrArg Except.error ((congrArg f (Except.error.inj h)).trans hf)⟩
  | ok value => exact ⟨fun h => (nomatch h), fun ⟨_, h, _⟩ => (nomatch h)⟩

end RosInterface
