import StockFlow.Proofs.Builder.Request
import StockFlow.Quantity.Double

/-!
# Requests that fail

A request that fails leaves the builder as it was, with one exception: where both an initial value
and a maximum are to be filled in, and only the maximum conflicts with the one there is, the initial
value stays filled in (`Builder.request_atomic`). The two values are filled in one after the other,
and each is looked at when its turn comes.
-/

namespace StockFlow

open StockFlow.Spec

namespace Builder

variable {α : Type} [Quantity α]

/-- A request fills in the initial value of a stock before it finds that the stock has another
maximum. -/
structure FillsHalf (b : Builder α) (r : Request) (known : Stock) (initial maximum : Formula) :
    Prop where
  asked : r.call = .ok (.stock known.name (some initial) (some maximum))
  found : b.stock? known.name = some known
  unset : known.initial = .zero
  given : initial ≠ .zero
  finite : b.DrainsFinite { known with initial }
  limited : known.maximum ≠ .unbounded
  bounded : maximum ≠ .unbounded
  other : maximum ≠ known.maximum

variable {b : Builder α} {r : Request} {known : Stock} {initial maximum : Formula} {fault : Fault}

/-- What is left then: the initial value, and the fault of the maximum. -/
theorem FillsHalf.request (half : b.FillsHalf r known initial maximum) :
    b.request r = ⟨b.replace { known with initial },
      .error (conflict known known.maximum maximum)⟩ := by
  have filled : b.withInitial known initial = .ok { known with initial } := by
    rw [withInitial, if_neg (by simp [half.given, half.unset]), if_pos half.unset]
    exact bind_eq_ok_iff.2 ⟨(), checkDrains_eq_ok_iff.2 half.finite, rfl⟩
  have refused : withMaximum { known with initial } maximum =
      .error (conflict known known.maximum maximum) := by
    rw [withMaximum, if_neg (by simp [half.bounded, half.other]), if_neg half.limited]
    rfl
  rw [request_of_call half.asked, call, stock, half.found]
  simp only [merge, Option.getD_some, filled, refused, Attempt.andThen]

/-- The builder is not what it was. -/
theorem FillsHalf.after_ne (half : b.FillsHalf r known initial maximum) :
    (b.request r).after ≠ b := by
  intro same
  rw [half.request] at same
  change b.replace { known with initial } = b at same
  have found : b.stock? { known with initial }.name = some known := half.found
  have now : (b.replace { known with initial }).stock? known.name = some { known with initial } :=
    (stock?_replace found _).trans (if_pos rfl)
  rw [same, half.found] at now
  exact half.given ((congrArg Stock.initial (Option.some.inj now)).symm.trans half.unset)

omit [Quantity α] in
theorem ne_of_withMaximum {filled : Stock} {wanted : Formula}
    (refused : withMaximum filled wanted = .error fault) :
    filled.maximum ≠ .unbounded ∧ wanted ≠ .unbounded ∧ wanted ≠ filled.maximum := by
  unfold withMaximum at refused
  split at refused
  · cases refused
  · rename_i asked
    split at refused
    · cases refused
    · rename_i limited
      have other : ¬(wanted = .unbounded ∨ wanted = filled.maximum) := by simpa using asked
      exact ⟨limited, not_or.1 other⟩

/-- If filling in values fails and yet changes something, it fills in half. -/
theorem fillsHalf_of_merge {initial maximum : Option Formula} (distinct : b.stockNames.Nodup)
    (asked : r.call = .ok (.stock known.name initial maximum))
    (found : b.stock? known.name = some known)
    (failed : (b.merge known initial maximum).result = .error fault)
    (changed : (b.merge known initial maximum).after ≠ b) :
    ∃ initial maximum, b.FillsHalf r known initial maximum := by
  unfold merge at failed changed
  cases filling : b.withInitial known (initial.getD .zero) with
  | error refused =>
    simp only [filling] at changed
    exact absurd rfl changed
  | ok filled =>
    simp only [filling] at failed changed
    cases capping : withMaximum filled (maximum.getD .unbounded) with
    | ok full =>
      simp only [capping] at failed
      cases failed
    | error refused =>
      simp only [capping] at changed
      rcases cases_of_withInitial filling with ⟨rfl, -⟩ | ⟨start, given, rfl, finite⟩
      · exact absurd (replace_self distinct found) changed
      · obtain ⟨limited, bounded, other⟩ := ne_of_withMaximum capping
        cases initial with
        | none => exact absurd rfl given
        | some initial =>
          cases maximum with
          | none => exact absurd rfl bounded
          | some maximum =>
            exact ⟨initial, maximum, asked, found, start, given, finite, limited, bounded, other⟩

/-- A builder that requests have made of an empty one. -/
def Reachable (b : Builder α) : Prop :=
  ∃ name requests, b = requestAll { name } requests

theorem Reachable.nodup_stockNames (reachable : b.Reachable) : b.stockNames.Nodup := by
  obtain ⟨name, requests, rfl⟩ := reachable
  have empty : ({ name } : Builder α).stockNames.Nodup := List.nodup_nil
  exact requestAll_induct (motive := fun b => b.stockNames.Nodup) empty
    fun b _ _ call _ distinct => nodup_stockNames_call b call distinct

omit [Quantity α] in
theorem error_of_andThen_unit {β : Type} {attempt : Attempt (Builder α) β}
    (failed : (attempt.andThen fun b _ => (⟨b, .ok ()⟩ : Attempt (Builder α) Unit)).result =
      .error fault) : attempt.result = .error fault := by
  unfold Attempt.andThen at failed
  split at failed
  · cases failed
  · rename_i stuck
    exact stuck.trans (congrArg Except.error (Except.error.inj failed))

/-- A request that fails and yet changes something fills in half. -/
theorem fillsHalf_of_request (distinct : b.stockNames.Nodup)
    (failed : (b.request r).result = .error fault) (changed : (b.request r).after ≠ b) :
    ∃ known initial maximum, b.FillsHalf r known initial maximum := by
  cases read : r.call with
  | error refused =>
    rw [request, read] at changed
    exact absurd rfl changed
  | ok asked =>
    rw [request_of_call read] at failed changed
    cases asked with
    | stock name initial maximum =>
      rw [call, after_andThen_unit] at changed
      have stuck := error_of_andThen_unit failed
      rw [stock] at stuck changed
      cases found : b.stock? name with
      | none =>
        rw [found] at stuck
        cases stuck
      | some known =>
        obtain rfl := stock?_name found
        simp only [found] at stuck changed
        exact ⟨known, fillsHalf_of_merge distinct read found stuck changed⟩
    | infiniteStock name =>
      rw [call, after_andThen_unit, infiniteStock] at changed
      have stuck := error_of_andThen_unit failed
      rw [infiniteStock] at stuck
      split at changed
      · rename_i fresh
        rw [fresh] at stuck
        cases stuck
      · exact absurd rfl changed
    | flow source destination rule =>
      rw [call, after_andThen_unit, flow] at changed
      have stuck := error_of_andThen_unit failed
      rw [flow] at stuck
      split at changed
      · rename_i flow made
        rw [made] at stuck
        cases stuck
      · exact absurd rfl changed

/-- A request that fails leaves the builder as it was, unless it fills in half; and if it does that,
the stock has its new initial value, and all else is as it was. -/
theorem request_atomic (reachable : b.Reachable) (failed : (b.request r).result = .error fault) :
    ((b.request r).after = b ↔ ¬ ∃ known initial maximum, b.FillsHalf r known initial maximum) ∧
      ∀ known initial maximum, b.FillsHalf r known initial maximum →
        fault = conflict known known.maximum maximum ∧
          (b.request r).after = b.replace { known with initial } := by
  refine ⟨⟨fun same ⟨known, initial, maximum, half⟩ => half.after_ne same, fun whole => ?_⟩, ?_⟩
  · by_contra changed
    exact whole (fillsHalf_of_request reachable.nodup_stockNames failed changed)
  · intro known initial maximum half
    rw [half.request] at failed ⊢
    exact ⟨(Except.error.inj failed).symm, rfl⟩

/-- A builder of one stock, of which only the maximum has been given. -/
def limited : Builder Float :=
  requestAll {} [.stock "a" (.datum .nothing) (.datum (.whole 5))]

/-- A request that gives its initial value and another maximum. -/
def relimiting : Request :=
  .stock "a" (.datum (.whole 3)) (.datum (.whole 6))

theorem request_limited : (limited.request relimiting).result =
      .error (.conflictingValues "a" "F(5)" "F(6)" {}) ∧
    (limited.request relimiting).after =
      { stocks := [{ name := "a", initial := .value (.whole "3"), maximum := .value (.whole "5") }] } := by
  decide +kernel

theorem reachable_limited : limited.Reachable :=
  ⟨_, _, rfl⟩

theorem request_atomic_limited :
    ∃ known initial maximum, limited.FillsHalf relimiting known initial maximum := by
  have changed : (limited.request relimiting).after ≠ limited := by decide +kernel
  have atomic := request_atomic reachable_limited request_limited.1
  by_contra whole
  exact changed (atomic.1.2 whole)

/-- Not every request that fails leaves the builder as it was. -/
theorem not_request_atomic :
    ¬ ∀ (b : Builder Float) (r : Request) (fault : Fault), b.Reachable →
      (b.request r).result = .error fault → (b.request r).after = b := by
  intro atomic
  have same := atomic limited relimiting _ reachable_limited request_limited.1
  have changed : (limited.request relimiting).after ≠ limited := by decide +kernel
  exact changed same

end Builder

end StockFlow
