import StockFlow.Model
import StockFlow.Proofs.Reference.Cycle

/-!
# Validated models

What it means that a model has an initialization order: its references stay within its stocks and
peeling leaves none of those between initial values.
-/

namespace StockFlow

open StockFlow.Reference

namespace Model

variable {α : Type} {m : Model α}

theorem stock?_eq_some_iff (distinct : m.stockNames.Nodup) {name : String} {stock : Stock} :
    m.stock? name = some stock ↔ stock ∈ m.stocks ∧ stock.name = name := by
  unfold stockNames at distinct
  unfold stock?
  constructor
  · intro found
    exact ⟨List.mem_of_find?_eq_some found, by simpa using List.find?_some found⟩
  · rintro ⟨known, rfl⟩
    generalize m.stocks = stocks at distinct known
    induction stocks with
    | nil => cases known
    | cons head rest ih =>
      rw [List.map_cons, List.nodup_cons] at distinct
      rcases List.mem_cons.1 known with rfl | known
      · simp
      · have other : head.name ≠ stock.name := by
          intro same
          exact distinct.1 (same ▸ List.mem_map_of_mem known)
        simpa [other] using ih distinct.2 known

theorem stock?_name {name : String} {stock : Stock} (found : m.stock? name = some stock) :
    stock.name = name := by
  simpa using List.find?_some found

/-- The formulas of a model refer to its own stocks only. -/
structure Closed (m : Model α) : Prop where
  initial : ∀ stock ∈ m.stocks, stock.initial.references ⊆ m.stockNames
  maximum : ∀ stock ∈ m.stocks, stock.maximum.references ⊆ m.stockNames
  rate : ∀ flow ∈ m.flows, flow.rule.formula.references ⊆ m.stockNames

theorem danglingIn_eq_nil_iff {owner : String} {formula : Formula} :
    m.danglingIn owner formula = [] ↔ formula.references ⊆ m.stockNames := by
  simp [danglingIn, List.subset_def]

theorem dangling_eq_nil_iff : m.dangling = [] ↔ m.Closed := by
  simp only [dangling, List.append_eq_nil_iff, List.flatMap_eq_nil_iff, danglingIn_eq_nil_iff]
  constructor
  · rintro ⟨stocks, rates⟩
    exact ⟨fun stock h => (stocks stock h).1, fun stock h => (stocks stock h).2, rates⟩
  · intro closed
    exact ⟨fun stock h => ⟨closed.initial stock h, closed.maximum stock h⟩, closed.rate⟩

/-- A model is validated just if it is closed and peeling leaves no edge; the order is that of
peeling. -/
theorem order_eq_ok_iff {order : List String} :
    m.order = .ok order ↔
      m.Closed ∧ m.references.peeled.hasCycle = false ∧ m.references.peeled.order = order := by
  rw [← dangling_eq_nil_iff]
  unfold Model.order
  cases m.dangling with
  | cons dangling rest => simp
  | nil =>
    show acyclicOrder m = .ok order ↔ _
    unfold acyclicOrder
    show (if m.references.peeled.hasCycle = true then _ else _) = _ ↔ _
    cases m.references.peeled.hasCycle with
    | true => simp
    | false => simp [References.peeled]

theorem refers_links_iff {node other : String} :
    Refers m.links node other ↔
      ∃ stock ∈ m.stocks, stock.name = node ∧ other ∈ stock.initial.references := by
  simp only [Refers, links, linksOf, List.mem_append, List.mem_flatMap, List.mem_map, Link.mk.injEq,
    reduceCtorEq, and_false, exists_false, or_false]
  constructor
  · rintro ⟨stock, known, name, refers, rfl, rfl, -⟩
    exact ⟨stock, known, rfl, refers⟩
  · rintro ⟨stock, known, rfl, refers⟩
    exact ⟨stock, known, other, refers, rfl, rfl, trivial⟩

end Model

end StockFlow
