import StockFlow.Proofs.Builder.Invariant
import StockFlow.Proofs.Formula.Infinite
import StockFlow.Proofs.Spec.Meaning

/-!
# Infinite stocks

A stock that is declared infinite, by a call that is granted or by a line of a spec, is infinite in
the model that is built in the end, whatever is called for in between
(`Model.DeclaresInfinite.exists_stock`).
-/

namespace StockFlow

open StockFlow.Spec

variable {α : Type} [Quantity α] [Quantity.SpecialValues α]

/-- Success in two steps is success in both. -/
theorem Attempt.exists_of_andThen_eq_ok {σ β γ : Type} {first : Attempt σ β}
    {next : σ → β → Attempt σ γ} {c : γ} (done : (first.andThen next).result = .ok c) :
    ∃ b, first.result = .ok b ∧ first.andThen next = next first.after b := by
  cases result : first.result with
  | ok b => exact ⟨b, rfl, andThen_of_ok result next⟩
  | error fault =>
    rw [andThen_of_error result] at done
    cases done

namespace Builder

/-- A stock of this name is there, and infinite. -/
def HasInfinite (b : Builder α) (name : String) : Prop :=
  ∃ stock, b.stock? name = some stock ∧ stock.isInfinite α = .ok true

variable {b b' : Builder α} {name : String}

/-- An infinite stock stays so: its initial value has been given. -/
theorem HasInfinite.call (has : b.HasInfinite name) (call : Call) :
    (b.call call).after.HasInfinite name := by
  obtain ⟨known, found, infinite⟩ := has
  obtain ⟨later, later_found, kept⟩ := exists_keptBy_call found call
  have given : known.initial ≠ .zero := by
    intro start
    rw [Stock.isInfinite_of_zero start] at infinite
    cases infinite
  exact ⟨later, later_found, (Stock.isInfinite_congr (kept.initial given)).trans infinite⟩

theorem HasInfinite.callAll (has : b.HasInfinite name) (calls : List Call) :
    (b.callAll calls).HasInfinite name :=
  callAll_induct (motive := fun b => b.HasInfinite name) has (fun _ call has => has.call call) calls

theorem HasInfinite.leadsTo (has : b.HasInfinite name) (later : b.LeadsTo b') :
    b'.HasInfinite name := by
  obtain ⟨calls, rfl⟩ := later
  exact has.callAll calls

theorem isInfinite_infinite (name : String) : (Stock.infinite name).isInfinite α = .ok true :=
  Stock.isInfinite_eq_ok_true_iff.2 ⟨rfl, rfl⟩

/-- What is declared infinite is infinite then. -/
theorem hasInfinite_infiniteStock {stock : Stock}
    (granted : (b.infiniteStock name).result = .ok stock) :
    (b.infiniteStock name).after.HasInfinite name := by
  rw [infiniteStock] at granted ⊢
  cases found : b.stock? name with
  | none =>
    refine ⟨_, ?_, isInfinite_infinite name⟩
    simp only
    rw [stock?_add, found]
    exact if_pos rfl
  | some known =>
    rw [found] at granted
    obtain ⟨top, infinite, granted⟩ := bind_eq_ok_iff.1 granted
    cases top with
    | false => cases granted
    | true => exact ⟨known, found, infinite⟩

/-! ## Specs -/

/-- Building the pieces of a line declares the first two stocks of the line, less those that have
been declared. -/
theorem hasInfinite_addPieces {ends : List String} {pieces : List Piece}
    (done : (b.addPieces ends pieces).result = .ok ())
    (written : .infinite name ∈ (pieces.filterMap Piece.stock?).take (2 - ends.length)) :
    (b.addPieces ends pieces).after.HasInfinite name := by
  induction pieces generalizing b ends with
  | nil => simp at written
  | cons piece rest ih =>
    cases piece with
    | stock first =>
      unfold addPieces at done ⊢
      split at done
      · rename_i few
        obtain ⟨stock, declared, goes_on⟩ := Attempt.exists_of_andThen_eq_ok done
        rw [if_pos few]
        rw [goes_on] at done ⊢
        have split : 2 - ends.length = (2 - (ends ++ [stock.name]).length) + 1 := by
          rw [List.length_append, List.length_singleton]
          omega
        have listed : (Piece.stock first :: rest).filterMap Piece.stock? =
            first :: rest.filterMap Piece.stock? := rfl
        rw [listed, split, List.take_succ_cons] at written
        rcases List.mem_cons.1 written with rfl | later
        · exact (hasInfinite_infiniteStock declared).leadsTo (leadsTo_addPieces ..)
        · exact ih done later
      · rename_i many
        rw [show 2 - ends.length = 0 by omega, List.take_zero] at written
        cases written
    | flow first =>
      have skipped : b.addPieces ends (.flow first :: rest) = b.addPieces ends rest := by
        -- behind two stocks there is none left to declare
        conv_lhs => unfold addPieces
        split
        · cases written
        · rfl
      rw [skipped] at done ⊢
      exact ih done written
    | direction => exact ih done written
    | delimiter => exact ih done written
    | comment text => exact ih done written

theorem hasInfinite_addLines {lines : List Line} {line : Line}
    (done : (b.addLines lines).result = .ok ()) (listed : line ∈ lines)
    (written : .infinite name ∈ declaredIn line.pieces) :
    (b.addLines lines).after.HasInfinite name := by
  induction lines generalizing b with
  | nil => cases listed
  | cons first rest ih =>
    unfold addLines at done ⊢
    obtain ⟨_, built, goes_on⟩ := Attempt.exists_of_andThen_eq_ok done
    rw [goes_on] at done ⊢
    rcases List.mem_cons.1 listed with rfl | later
    · have pieces_built : (b.addPieces [] line.pieces).result = .ok () := by
        unfold addLine at built
        cases result : (b.addPieces [] line.pieces).result with
        | ok _ => rfl
        | error fault =>
          simp only [result] at built
          cases built
      exact HasInfinite.leadsTo (hasInfinite_addPieces pieces_built written) (leadsTo_addLines ..)
    · exact ih done later

end Builder

/-- A stock of the model that has been declared infinite. -/
inductive Model.DeclaresInfinite : Model α → String → Prop
  /-- One of the calls on the builder declares it infinite, and is granted. -/
  | ofCalls (name : String) (before after : List Builder.Call) {declared : String} {stock : Stock}
      (granted : ((Builder.callAll { name } before : Builder α).infiniteStock declared).result =
        .ok stock) :
      DeclaresInfinite (Builder.callAll { name } (before ++ .infiniteStock declared :: after)).build
        declared
  /-- One of the lines of the spec declares it infinite. -/
  | ofText {name text declared : String} {m : Model α} {lines : List Line} {line : Line}
      (read : Model.ofText name text = .ok m) (scanned : Spec.scan text = .ok lines)
      (listed : line ∈ lines) (written : .infinite declared ∈ declaredIn line.pieces) :
      DeclaresInfinite m declared

namespace Model.DeclaresInfinite

variable {m : Model α} {name : String}

omit [Quantity.SpecialValues α] in
theorem built (declares : m.DeclaresInfinite name) : m.Built := by
  cases declares with
  | ofCalls model before after _ => exact .ofCalls model _
  | ofText read _ _ _ => exact .ofText read

/-- A stock that has been declared infinite is there, and infinite. -/
theorem exists_stock (declares : m.DeclaresInfinite name) :
    ∃ stock, m.stock? name = some stock ∧ stock.isInfinite α = .ok true := by
  cases declares with
  | ofCalls model before after granted =>
    have now := Builder.hasInfinite_infiniteStock granted
    have later := Builder.HasInfinite.callAll now after
    have last : Builder.callAll { name := model } (before ++ .infiniteStock name :: after) =
        (((Builder.callAll { name := model } before : Builder α).infiniteStock name).after).callAll
          after := by
      rw [Builder.callAll, List.foldl_append, List.foldl_cons, Builder.call,
        Builder.after_andThen_unit]
      rfl
    rw [last]
    exact later
  | @ofText model text _ _ lines line read scanned listed written =>
    obtain ⟨_, scanned', read⟩ := bind_eq_ok_iff.1 read
    obtain rfl := Except.ok.inj (scanned.symm.trans scanned')
    obtain ⟨_, built, read⟩ := bind_eq_ok_iff.1 read
    obtain rfl := Except.ok.inj read
    exact Builder.hasInfinite_addLines built listed written

end Model.DeclaresInfinite

end StockFlow
