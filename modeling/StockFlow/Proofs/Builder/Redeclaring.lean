import StockFlow.Proofs.Builder.Infinite
import StockFlow.Proofs.Builder.Request

/-!
# Declaring again

A declaration that has been granted can be repeated at any time: what it asks for is there
(`Builder.Meets`), stays there whatever is called for in between (`Builder.Meets.call`), and asking
for it once more changes nothing (`Builder.Meets.call_again`). A default asks for nothing, be it
given or left out.
-/

namespace StockFlow

variable {α : Type} [Quantity α] [Quantity.SpecialValues α]

/-- Whether a request is for a stock, new or not. -/
def Builder.Request.declares : Request → Bool
  | stock .. | infiniteStock _ => true
  | flow .. => false

namespace Builder

variable {b : Builder α}

/-- What a declaration asks for is there. -/
def Meets (b : Builder α) : Call → Prop
  | .stock name initial maximum =>
    ∃ stock, b.stock? name = some stock ∧
      (initial.getD .zero = .zero ∨ initial.getD .zero = stock.initial) ∧
      (maximum.getD .unbounded = .unbounded ∨ maximum.getD .unbounded = stock.maximum)
  | .infiniteStock name => b.HasInfinite name
  | .flow .. => False

/-- Whatever is called for leaves a declaration met. -/
theorem Meets.call {declaration : Call} (meets : b.Meets declaration) (call : Call) :
    (b.call call).after.Meets declaration := by
  cases declaration with
  | stock name initial maximum =>
    obtain ⟨known, found, has_initial, has_maximum⟩ := meets
    obtain ⟨later, later_found, kept⟩ := exists_keptBy_call found call
    refine ⟨later, later_found, or_iff_not_imp_left.2 fun given => ?_,
      or_iff_not_imp_left.2 fun given => ?_⟩
    · have same := has_initial.resolve_left given
      exact same.trans (kept.initial (same ▸ given)).symm
    · have same := has_maximum.resolve_left given
      exact same.trans (kept.maximum (same ▸ given)).symm
  | infiniteStock name => exact HasInfinite.call meets call
  | flow source destination rule => exact meets

/-! ## Repeating a declaration -/

omit [Quantity.SpecialValues α] in
/-- To fill in what is there, or a default, changes nothing. -/
theorem merge_again (distinct : b.stockNames.Nodup) {name : String} {known : Stock}
    (found : b.stock? name = some known) {initial maximum : Option Formula}
    (has_initial : initial.getD .zero = .zero ∨ initial.getD .zero = known.initial)
    (has_maximum : maximum.getD .unbounded = .unbounded ∨
      maximum.getD .unbounded = known.maximum) :
    b.merge known initial maximum = ⟨b, .ok known⟩ := by
  have filling : b.withInitial known (initial.getD .zero) = .ok known := by
    rw [withInitial, if_pos]
    simpa using has_initial
  have capping : withMaximum known (maximum.getD .unbounded) = .ok known := by
    rw [withMaximum, if_pos]
    simpa using has_maximum
  simp only [merge, filling, capping, replace_self distinct found]

omit [Quantity.SpecialValues α] in
theorem Meets.call_again {declaration : Call} (meets : b.Meets declaration)
    (distinct : b.stockNames.Nodup) : b.call declaration = ⟨b, .ok ()⟩ := by
  cases declaration with
  | stock name initial maximum =>
    obtain ⟨known, found, has_initial, has_maximum⟩ := meets
    have again : b.stock name initial maximum = ⟨b, .ok known⟩ := by
      rw [stock, found]
      exact merge_again distinct found has_initial has_maximum
    rw [Builder.call, again]
    rfl
  | infiniteStock name =>
    obtain ⟨known, found, infinite⟩ := meets
    have again : b.infiniteStock name = ⟨b, .ok known⟩ := by
      rw [infiniteStock, found]
      simp only [infinite]
      rfl
    rw [Builder.call, again]
    rfl
  | flow source destination rule => exact meets.elim

/-! ## What has been granted -/

omit [Quantity.SpecialValues α] in
theorem wanted_of_withInitial {known filled : Stock} {wanted : Formula}
    (done : b.withInitial known wanted = .ok filled) :
    wanted = .zero ∨ wanted = filled.initial := by
  rcases cases_of_withInitial done with ⟨rfl, nothing⟩ | ⟨-, -, rfl, -⟩
  · exact nothing
  · exact .inr rfl

omit [Quantity α] [Quantity.SpecialValues α] in
theorem wanted_of_withMaximum {filled full : Stock} {wanted : Formula}
    (done : withMaximum filled wanted = .ok full) :
    wanted = .unbounded ∨ wanted = full.maximum := by
  rcases cases_of_withMaximum done with ⟨rfl, nothing⟩ | ⟨-, rfl⟩
  · exact nothing
  · exact .inr rfl

omit [Quantity.SpecialValues α] in
/-- What a granted declaration of a stock asks for is there then. -/
theorem meets_stock {name : String} {initial maximum : Option Formula} {stock : Stock}
    (granted : (b.stock name initial maximum).result = .ok stock) :
    (b.stock name initial maximum).after.Meets (.stock name initial maximum) := by
  rw [Builder.stock] at granted ⊢
  cases found : b.stock? name with
  | none =>
    refine ⟨{ name, initial := initial.getD .zero, maximum := maximum.getD .unbounded }, ?_,
      .inr rfl, .inr rfl⟩
    simp only
    rw [stock?_add, found]
    exact if_pos rfl
  | some known =>
    rw [found] at granted
    obtain ⟨filled, filling, capping, after⟩ := exists_of_merge_eq_ok granted
    have filled_name : filled.name = known.name := by rw [withInitial_eq_ok filling]
    have stock_name : stock.name = filled.name := by rw [withMaximum_eq_ok capping]
    have same_initial : stock.initial = filled.initial := by rw [withMaximum_eq_ok capping]
    have named : stock.name = name := by rw [stock_name, filled_name, stock?_name found]
    refine ⟨stock, ?_, ?_, wanted_of_withMaximum capping⟩
    · simp only
      rw [after, stock?_replace (named ▸ found), if_pos named]
    · rw [same_initial]
      exact wanted_of_withInitial filling

theorem meets_of_request {r : Request} (declares : r.declares)
    (granted : (b.request r).result = .ok ()) :
    ∃ declaration, r.call = .ok declaration ∧ (b.request r).after.Meets declaration := by
  cases read : r.call with
  | error fault =>
    rw [request, read] at granted
    cases granted
  | ok declaration =>
    rw [request_of_call read] at granted ⊢
    refine ⟨declaration, rfl, ?_⟩
    cases declaration with
    | stock name initial maximum =>
      obtain ⟨stock, declared, -⟩ := Attempt.exists_of_andThen_eq_ok granted
      rw [call, after_andThen_unit]
      exact meets_stock declared
    | infiniteStock name =>
      obtain ⟨stock, declared, -⟩ := Attempt.exists_of_andThen_eq_ok granted
      rw [call, after_andThen_unit]
      exact hasInfinite_infiniteStock declared
    | flow source destination rule =>
      rw [Request.eq_flow_of_call read] at declares
      cases declares

/-! ## Histories of requests -/

omit [Quantity.SpecialValues α] in
theorem requestAll_append (b : Builder α) (before after : List Request) :
    b.requestAll (before ++ after) = (b.requestAll before).requestAll after :=
  List.foldl_append ..

omit [Quantity.SpecialValues α] in
theorem exists_keptBy_requestAll {name : String} {known : Stock}
    (found : b.stock? name = some known) (requests : List Request) :
    ∃ later, (b.requestAll requests).stock? name = some later ∧ known.KeptBy later := by
  apply requestAll_induct (motive := fun b => ∃ later, b.stock? name = some later ∧ known.KeptBy later)
  · exact ⟨known, found, .refl known⟩
  · rintro b r - call - ⟨later, found, kept⟩
    obtain ⟨last, last_found, kept_last⟩ := exists_keptBy_call found call
    exact ⟨last, last_found, kept.trans kept_last⟩

/-- Whatever is requested of a builder, granted or refused: a stock that it has stays, with the
values that have been given of it; and a request for a stock that it has granted it grants again at
any later time, and nothing changes then. -/
theorem requestAll_settled (name : String) (before later : List Request) :
    (∀ declared known, (requestAll ({ name } : Builder α) before).stock? declared = some known →
      ∃ stock, (requestAll ({ name } : Builder α) (before ++ later)).stock? declared = some stock ∧
        known.KeptBy stock) ∧
    ∀ r, r.declares → ((requestAll ({ name } : Builder α) before).request r).result = .ok () →
      (requestAll ({ name } : Builder α) (before ++ r :: later)).request r =
        ⟨requestAll { name } (before ++ r :: later), .ok ()⟩ := by
  constructor
  · intro declared known found
    rw [requestAll_append]
    exact exists_keptBy_requestAll found later
  · intro r declares granted
    obtain ⟨declaration, read, meets⟩ := meets_of_request declares granted
    rw [request_of_call read]
    apply Meets.call_again
    · rw [requestAll_append]
      change Meets (requestAll ((requestAll { name } before).request r).after later) declaration
      exact requestAll_induct (motive := fun b => b.Meets declaration) meets
        fun _ _ _ call _ meets => Meets.call meets call
    · have empty : ({ name } : Builder α).stockNames.Nodup := List.nodup_nil
      exact requestAll_induct (motive := fun b => b.stockNames.Nodup) empty
        fun b _ _ call _ distinct => nodup_stockNames_call b call distinct

/-- A request that fills in a maximum, and gives the initial value once more. -/
def capping : Request :=
  .stock "basin" (.datum (.whole 3)) (.datum (.whole 5))

/-- Requests of which the first two are refused. -/
def meddling : List Request := [
  .infiniteStock "basin",
  .stock "basin" (.datum .nothing) (.datum (.whole 6)),
  .stock "well" (.datum .nothing) (.formula (.value (.reference "basin"))),
  .flow (.declared "basin") (.declared "well") ⟨.rate, .value (.whole "1")⟩]

theorem requestAll_settled_capping :
    ∃ before stock, (requestAll ({} : Builder Exact) before).stock? "basin" = some stock ∧
      stock.maximum = .unbounded ∧
      (∃ later, (requestAll ({} : Builder Exact) (before ++ capping :: meddling)).stock? "basin" =
        some later ∧ stock.KeptBy later) ∧
      (requestAll ({} : Builder Exact) (before ++ capping :: meddling)).request capping =
        ⟨requestAll {} (before ++ capping :: meddling), .ok ()⟩ := by
  let before : List Request := [.stock "basin" (.formula (.value (.whole "3"))) (.datum .nothing)]
  have found : (requestAll ({} : Builder Exact) before).stock? "basin" =
      some { name := "basin", initial := .value (.whole "3") } := by decide +kernel
  have granted : ((requestAll ({} : Builder Exact) before).request capping).result = .ok () := by
    decide +kernel
  exact ⟨before, _, found, rfl, (requestAll_settled "" before (capping :: meddling)).1 _ _ found,
    (requestAll_settled "" before meddling).2 capping rfl granted⟩

end Builder

end StockFlow
