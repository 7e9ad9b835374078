import StockFlow.Fault

/-!
# Attempts

An operation on something that changes may fail half-way. An attempt is what it leaves: the thing
as it is afterwards, changed or not, and the result or the fault.
-/

namespace StockFlow

/-- What an operation on a `σ` leaves behind. -/
structure Attempt (σ β : Type) where
  after : σ
  result : Except Fault β

namespace Attempt

variable {σ β γ : Type}

/-- An operation that changes nothing and fails or not. -/
def unchanged (state : σ) (result : Except Fault β) : Attempt σ β :=
  ⟨state, result⟩

/-- Goes on with the thing and the result of a first operation, if that did not fail. -/
def andThen (first : Attempt σ β) (next : σ → β → Attempt σ γ) : Attempt σ γ :=
  match first.result with
  | .ok b => next first.after b
  | .error fault => ⟨first.after, .error fault⟩

theorem andThen_of_ok {first : Attempt σ β} {b : β} (h : first.result = .ok b)
    (next : σ → β → Attempt σ γ) : first.andThen next = next first.after b := by
  simp [andThen, h]

theorem andThen_of_error {first : Attempt σ β} {fault : Fault} (h : first.result = .error fault)
    (next : σ → β → Attempt σ γ) : first.andThen next = ⟨first.after, .error fault⟩ := by
  simp [andThen, h]

/-- The fault of an attempt that failed. -/
def fault? (attempt : Attempt σ β) : Option Fault :=
  match attempt.result with
  | .ok _ => none
  | .error fault => some fault

end Attempt

/-- Going on with the result of a first step succeeds just if both steps do. -/
theorem bind_eq_ok_iff {ε β γ : Type} {first : Except ε β} {next : β → Except ε γ} {c : γ} :
    (first >>= next) = .ok c ↔ ∃ b, first = .ok b ∧ next b = .ok c := by
  cases first with
  | error fault => exact ⟨fun h => (nomatch h), fun ⟨_, h, _⟩ => (nomatch h)⟩
  | ok b => exact ⟨fun h => ⟨b, rfl, h⟩, fun ⟨_, same, h⟩ => Except.ok.inj same ▸ h⟩

/-- Going on with the result of a first step fails just if one of the steps does. -/
theorem bind_eq_error_iff {ε β γ : Type} {first : Except ε β} {next : β → Except ε γ} {fault : ε} :
    (first >>= next) = .error fault ↔
      first = .error fault ∨ ∃ b, first = .ok b ∧ next b = .error fault := by
  cases first with
  | error other =>
    exact ⟨fun h => .inl (congrArg Except.error (Except.error.inj h)),
      fun h =>
        h.elim (fun h => congrArg Except.error (Except.error.inj h)) fun ⟨_, h, _⟩ => nomatch h⟩
  | ok b =>
    exact ⟨fun h => .inr ⟨b, rfl, h⟩,
      fun h => h.elim (fun h => nomatch h) fun ⟨_, same, h⟩ => Except.ok.inj same ▸ h⟩

/-- Converting a result succeeds just if there is one. -/
theorem map_eq_ok_iff {ε β γ : Type} {first : Except ε β} {f : β → γ} {c : γ} :
    first.map f = .ok c ↔ ∃ b, first = .ok b ∧ f b = c := by
  cases first with
  | error fault => exact ⟨fun h => (nomatch h), fun ⟨_, h, _⟩ => (nomatch h)⟩
  | ok b =>
    exact ⟨fun h => ⟨b, rfl, Except.ok.inj h⟩,
      fun ⟨_, same, h⟩ => congrArg Except.ok (Except.ok.inj same ▸ h)⟩

/-- Converting a result fails just if there is none. -/
theorem map_eq_error_iff {ε β γ : Type} {first : Except ε β} {f : β → γ} {fault : ε} :
    first.map f = .error fault ↔ first = .error fault := by
  cases first with
  | error other =>
    exact ⟨fun h => congrArg Except.error (Except.error.inj h),
      fun h => congrArg Except.error (Except.error.inj h)⟩
  | ok b => exact ⟨fun h => (nomatch h), fun h => (nomatch h)⟩

end StockFlow
