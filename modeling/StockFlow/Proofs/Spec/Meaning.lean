import StockFlow.Proofs.Builder.Declaring
import StockFlow.Proofs.Spec.PieceText
import StockFlow.Proofs.Spec.Reading

/-!
# What a spec means

A model that has been read is the one that the lines of its spec denote (`Model.ofText_denotes`): its
stocks are those that the lines declare, up to two each, and its flows are those of the lines with
two stocks and a flow. What lines denote is said without a builder (`Spec.Denotes`), and it leaves no
choice (`Spec.Denotes.unique`).

In a line that has been scanned the stocks stand before the flow, of which there is one at most
(`exists_of_linePieces`). So building it is declaring its stocks and adding its flow
(`Builder.exists_of_afterLine`).
-/

namespace StockFlow

open StockFlow.Spec StockFlow.Text

/-! ## Meaning -/

namespace Spec

/-- The stock that a piece declares. -/
def Piece.stock? : Piece → Option StockPiece
  | stock written => some written
  | _ => none

/-- The flow that a piece declares. -/
def Piece.flow? : Piece → Option FlowPiece
  | flow written => some written
  | _ => none

/-- The stocks that a line declares: the first two. -/
def declaredIn (own : List Piece) : List StockPiece :=
  (own.filterMap Piece.stock?).take 2

/-- A flow as it is written, with the stocks that it joins. -/
structure Connection where
  source : StockPiece
  destination : StockPiece
  written : FlowPiece
  deriving DecidableEq, Repr

/-- A flow between two stocks, if both are there. -/
def connection? : List StockPiece → Option FlowPiece → Option Connection
  | [source, destination], some written => some ⟨source, destination, written⟩
  | _, _ => none

/-- The flow that a line declares, from its first stock to its second. -/
def connectionIn? (own : List Piece) : Option Connection :=
  connection? (declaredIn own) (own.filterMap Piece.flow?).head?

/-- Whether the size of a flow is one decimal. -/
def FlowPiece.isFactor (written : FlowPiece) : Bool :=
  match written.parameters.head? with
  | some (.value (.decimal _) .nil) => true
  | _ => false

end Spec

/-- A flow as it is written: a label names its kind in any case; without one it is a conversion if
its size is one decimal, and else a rate. -/
structure Flow.DeclaredBy (flow : Flow) (given : Connection) : Prop where
  source : flow.source = given.source.name
  destination : flow.destination = given.destination.name
  labeled : given.written.label ≠ "" → given.written.label.toUpper = flow.rule.kind.text.toUpper
  unlabeled : given.written.label = "" →
    flow.rule.kind = if given.written.isFactor then .conversion else .rate
  formula : ∃ first, given.written.parameters.head? = some first ∧
    Formula.ofExpression first = .ok flow.rule.formula

/-- What the pieces of lines say of a model: the names of its stocks, in the order in which they
first appear; each stock, by the declarations that name it; and each flow, in the order of lines. -/
structure Spec.Denotes (found : List (List Piece)) (m : Model Float) : Prop where
  names : m.stockNames = ((found.flatMap declaredIn).map StockPiece.name).eraseDups
  stocks : ∀ stock ∈ m.stocks,
    stock.DeclaredBy ((found.flatMap declaredIn).filter (·.name == stock.name))
  flows : List.Forall₂ (fun given flow => flow.DeclaredBy given) (found.filterMap connectionIn?)
    m.flows

/-! ## The pieces of a line -/

namespace Spec

theorem flow?_of_stockPieces {marked : Bool} {parts : List (List Char)} {found : List Piece}
    (read : stockPieces marked parts = .ok found) : found.filterMap Piece.flow? = [] := by
  induction parts generalizing found with
  | nil =>
    obtain rfl := Except.ok.inj read
    rfl
  | cons cs rest ih =>
    cases rest with
    | nil =>
      rw [stockPieces] at read
      split at read
      · obtain ⟨stock, -, rfl⟩ := map_eq_ok_iff.1 read
        rfl
      · split at read
        · obtain rfl := Except.ok.inj read
          rfl
        · obtain ⟨stock, -, rfl⟩ := map_eq_ok_iff.1 read
          rfl
    | cons next more =>
      obtain ⟨stock, -, read⟩ := bind_eq_ok_iff.1 read
      obtain ⟨others, others_read, read⟩ := bind_eq_ok_iff.1 read
      obtain rfl := Except.ok.inj read
      have rest_flow : others.filterMap Piece.flow? = [] := ih others_read
      exact rest_flow

/-- A label is a name, where there is one. -/
theorem isNamePart_of_ofChars {cs : List Char} {written : FlowPiece}
    (read : FlowPiece.ofChars cs = .ok written) :
    ∀ c ∈ written.label.toList, isNamePart c = true := by
  intro c listed
  rcases FlowPiece.of_ofChars_eq_ok read with ⟨name, _, named, -, -, label⟩ | ⟨-, label⟩
  · rw [label, String.toList_ofList] at listed
    exact named.isNamePart_of_mem listed
  · rw [label] at listed
    cases listed

/-- The stocks of a line stand before its flow, of which there is one at most. -/
theorem exists_of_linePieces {cs : List Char} {own : List Piece} (read : linePieces cs = .ok own) :
    ∃ front back written, own = front ++ back ∧ front.filterMap Piece.flow? = [] ∧
      back.filterMap Piece.stock? = [] ∧ back.filterMap Piece.flow? = Option.toList written ∧
      ∀ flow ∈ written, ∀ c ∈ flow.label.toList, isNamePart c = true := by
  obtain ⟨found, code_read, read⟩ := bind_eq_ok_iff.1 read
  obtain ⟨stocks, stocks_read, code_read⟩ := bind_eq_ok_iff.1 code_read
  obtain ⟨flows, flows_read, code_read⟩ := bind_eq_ok_iff.1 code_read
  obtain rfl := Except.ok.inj code_read
  obtain rfl := Except.ok.inj read
  have no_flow := flow?_of_stockPieces stocks_read
  have comment : (commentPieces cs).filterMap Piece.stock? = [] ∧
      (commentPieces cs).filterMap Piece.flow? = [] := by
    unfold commentPieces
    split <;> exact ⟨rfl, rfl⟩
  unfold flowPieces at flows_read
  simp only at flows_read
  split at flows_read
  · obtain rfl := Except.ok.inj flows_read
    exact ⟨stocks, commentPieces cs, none, by simp, no_flow, comment.1, comment.2, by simp⟩
  · obtain ⟨written, flow_read, rfl⟩ := map_eq_ok_iff.1 flows_read
    refine ⟨stocks, .flow written :: commentPieces cs, some written, by simp, no_flow, ?_, ?_, ?_⟩
    · exact comment.1
    · exact congrArg (written :: ·) comment.2
    · intro flow same
      rw [← Option.some.inj same]
      exact isNamePart_of_ofChars flow_read

end Spec

/-! ## Flows -/

theorem FlowKind.toUpper_of_ofLabel {label : String} {kind : FlowKind}
    (named : ∀ c ∈ label.toList, isNamePart c = true) (found : ofLabel label = .ok kind) :
    label.toUpper = kind.text.toUpper := by
  -- the letters that have an ASCII capital without being ASCII are in no name
  have plain : ∀ c, isNamePart c = true → capital c = c.toUpper := by
    intro c part
    have long_s : c ≠ 'ſ' := by
      rintro rfl
      exact absurd part (by decide)
    have dotless_i : c ≠ 'ı' := by
      rintro rfl
      exact absurd part (by decide)
    rw [capital, if_neg long_s, if_neg dotless_i]
  have kind_plain : kind.text.toList.map capital = kind.text.toList.map Char.toUpper := by
    cases kind <;> decide
  have same : kind.text.toList.map capital = label.toList.map capital := by
    unfold ofLabel at found
    split at found
    · rename_i first
      obtain rfl := Except.ok.inj found
      simpa using List.find?_some first
    · cases found
  rw [kind_plain, List.map_congr_left fun c listed => plain c (named c listed)] at same
  apply String.toList_injective
  rw [String.toUpper, String.toUpper, String.toList_map, String.toList_map, same]

/-- The kind of a flow is the one that its label names; without a label it depends on the size. -/
theorem Spec.FlowPiece.kind_eq_ok {written : FlowPiece} {kind : FlowKind}
    (named : ∀ c ∈ written.label.toList, isNamePart c = true) (read : written.kind = .ok kind) :
    (written.label ≠ "" → written.label.toUpper = kind.text.toUpper) ∧
      (written.label = "" → kind = if written.isFactor then .conversion else .rate) := by
  unfold FlowPiece.kind at read
  split at read
  · rename_i labeled
    exact ⟨fun _ => FlowKind.toUpper_of_ofLabel named read, fun bare => absurd bare labeled⟩
  · rename_i bare
    refine ⟨fun labeled => absurd labeled bare, fun _ => ?_⟩
    split at read
    · rename_i digits more size
      have factor : written.isFactor = true := by
        rw [isFactor, size]
        rfl
      rw [if_pos factor, Except.ok.inj read]
    · rename_i other
      have no_factor : written.isFactor ≠ true := by
        unfold isFactor
        split
        · rename_i digits first
          obtain ⟨more, size⟩ := List.head?_eq_some_iff.1 first
          exact absurd size (other digits more)
        · exact Bool.false_ne_true
      rw [if_neg no_factor, Except.ok.inj read]

/-- The formula of a rule is that of the first parameter, which there has to be. -/
theorem Spec.FlowPiece.rule_eq_ok {written : FlowPiece} {rule : Rule}
    (read : written.rule = .ok rule) :
    written.kind = .ok rule.kind ∧ ∃ first, written.parameters.head? = some first ∧
      Formula.ofExpression first = .ok rule.formula := by
  obtain ⟨kind, kind_read, read⟩ := bind_eq_ok_iff.1 read
  obtain ⟨formula, formula_read, read⟩ := bind_eq_ok_iff.1 read
  obtain rfl := Except.ok.inj read
  refine ⟨kind_read, ?_⟩
  cases given : written.parameters.head? with
  | none =>
    rw [given] at formula_read
    exact nomatch formula_read
  | some first =>
    rw [given] at formula_read
    exact ⟨first, rfl, formula_read⟩

namespace Builder

variable {α : Type} [Quantity α]

omit [Quantity α] in
theorem name_of_resolve {b : Builder α} {name : String} {stock : Stock}
    (found : b.resolve (.declared name) = .ok stock) : stock.name = name := by
  rw [resolve] at found
  split at found
  · rename_i known
    obtain rfl := Except.ok.inj found
    exact stock?_name known
  · cases found

/-- Adding a flow adds the one that is written. -/
theorem connect_eq_ok {b : Builder α} {given : Connection} {flow : Flow}
    (named : ∀ c ∈ given.written.label.toList, isNamePart c = true)
    (done : (b.connect (.declared given.source.name) (.declared given.destination.name)
      given.written).result = .ok flow) :
    flow.DeclaredBy given ∧
      (b.connect (.declared given.source.name) (.declared given.destination.name)
        given.written).after = { b with flows := b.flows ++ [flow] } := by
  unfold connect at done ⊢
  cases rule_read : given.written.rule with
  | error fault =>
    rw [rule_read] at done
    cases done
  | ok rule =>
    rw [rule_read] at done
    obtain ⟨kind_read, formula_read⟩ := FlowPiece.rule_eq_ok rule_read
    obtain ⟨labeled, unlabeled⟩ := FlowPiece.kind_eq_ok named kind_read
    simp only [Builder.flow] at done ⊢
    cases joined : b.flowBetween (.declared given.source.name) (.declared given.destination.name)
        rule with
    | error fault =>
      rw [joined] at done
      cases done
    | ok added =>
      rw [joined] at done
      obtain rfl := Except.ok.inj done
      obtain ⟨start, start_found, made⟩ := bind_eq_ok_iff.1 joined
      obtain ⟨goal, goal_found, made⟩ := bind_eq_ok_iff.1 made
      obtain ⟨_, -, made⟩ := bind_eq_ok_iff.1 made
      obtain rfl := Except.ok.inj made
      exact ⟨⟨name_of_resolve start_found, name_of_resolve goal_found, labeled, unlabeled,
        formula_read⟩, rfl⟩

/-! ## Lines -/

/-- Stocks are declared up to the second one of the line. -/
theorem addPieces_front {b : Builder Float} {ends : List String} {front back : List Piece}
    (no_flow : front.filterMap Piece.flow? = []) (few : ends.length ≤ 2)
    (done : (b.addPieces ends (front ++ back)).result = .ok ()) :
    ∃ mid, b.declareAll ((front.filterMap Piece.stock?).take (2 - ends.length)) = .ok mid ∧
      b.addPieces ends (front ++ back) = mid.addPieces
        (ends ++ ((front.filterMap Piece.stock?).take (2 - ends.length)).map StockPiece.name)
        back := by
  -- `ends` has been declared before, so there is room for `2 - ends.length` more
  induction front generalizing b ends with
  | nil =>
    refine ⟨b, ?_, by simp⟩
    rw [List.filterMap_nil, List.take_nil]
    rfl
  | cons piece rest ih =>
    cases piece with
    | stock written =>
      by_cases room : ends.length < 2
      · have first : b.addPieces ends (.stock written :: (rest ++ back)) =
            (b.declare written).andThen fun b stock =>
              b.addPieces (ends ++ [stock.name]) (rest ++ back) := by
          rw [addPieces, if_pos room]
        rw [List.cons_append, first] at done ⊢
        cases declared : (b.declare written).result with
        | error fault =>
          rw [Attempt.andThen_of_error declared] at done
          cases done
        | ok stock =>
          rw [Attempt.andThen_of_ok declared] at done ⊢
          have one_more : (ends ++ [stock.name]).length = ends.length + 1 := by simp
          obtain ⟨mid, all_declared, same⟩ := ih no_flow (by omega) done
          have left : 2 - ends.length = 2 - (ends ++ [stock.name]).length + 1 := by omega
          have stocks : (Piece.stock written :: rest).filterMap Piece.stock? =
              written :: rest.filterMap Piece.stock? := rfl
          rw [stocks, left, List.take_succ_cons]
          refine ⟨mid, bind_eq_ok_iff.2 ⟨_, map_eq_ok_iff.2 ⟨stock, declared, rfl⟩, all_declared⟩, ?_⟩
          rw [same, (declares_of_declare declared).named, List.map_cons, List.append_assoc, List.singleton_append]
      · have skipped : b.addPieces ends (.stock written :: (rest ++ back)) =
            b.addPieces ends (rest ++ back) := by
          rw [addPieces, if_neg room]
        have full : 2 - ends.length = 0 := by omega
        rw [List.cons_append, skipped] at done ⊢
        obtain ⟨mid, all_declared, same⟩ := ih no_flow few done
        rw [full, List.take_zero] at all_declared same ⊢
        exact ⟨mid, all_declared, same⟩
    | flow written => cases no_flow
    | direction => exact ih no_flow few done
    | delimiter => exact ih no_flow few done
    | comment text => exact ih no_flow few done

/-- Behind the stocks a line without a flow is built to no further effect. -/
theorem addPieces_back_of_none (b : Builder Float) (ends : List String) {back : List Piece}
    (no_stock : back.filterMap Piece.stock? = []) (no_flow : back.filterMap Piece.flow? = []) :
    b.addPieces ends back = ⟨b, .ok ()⟩ := by
  induction back with
  | nil => rfl
  | cons piece rest ih =>
    cases piece with
    | stock written => cases no_stock
    | flow written => cases no_flow
    | direction => exact ih no_stock no_flow
    | delimiter => exact ih no_stock no_flow
    | comment text => exact ih no_stock no_flow

/-- A flow without further pieces behind it is added if there are two stocks. -/
theorem addPieces_flow {b : Builder Float} {given : List StockPiece} {written : FlowPiece}
    {rest : List Piece} (nothing : ∀ (b : Builder Float) ends, b.addPieces ends rest = ⟨b, .ok ()⟩)
    (named : ∀ c ∈ written.label.toList, isNamePart c = true)
    (done : (b.addPieces (given.map StockPiece.name) (.flow written :: rest)).result = .ok ()) :
    ∃ flows, (b.addPieces (given.map StockPiece.name) (.flow written :: rest)).after =
        { b with flows := b.flows ++ flows } ∧
      List.Forall₂ (fun given flow => flow.DeclaredBy given)
        (connection? given (some written)).toList flows := by
  rcases given with _ | ⟨source, _ | ⟨destination, _ | ⟨third, more⟩⟩⟩
  · exact ⟨[], by simp [addPieces, nothing], .nil⟩
  · exact ⟨[], by simp [addPieces, nothing], .nil⟩
  · have added : b.addPieces [source.name, destination.name] (.flow written :: rest) =
        (b.connect (.declared source.name) (.declared destination.name) written).andThen
          fun b _ => b.addPieces [source.name, destination.name] rest := rfl
    rw [List.map_cons, List.map_singleton, added] at done ⊢
    cases connected : (b.connect (.declared source.name) (.declared destination.name)
        written).result with
    | error fault =>
      rw [Attempt.andThen_of_error connected] at done
      cases done
    | ok flow =>
      obtain ⟨declared, after⟩ : flow.DeclaredBy ⟨source, destination, written⟩ ∧ _ :=
        connect_eq_ok named connected
      rw [Attempt.andThen_of_ok connected, nothing, after]
      exact ⟨[flow], rfl, .cons declared .nil⟩
  · exact ⟨[], by simp [addPieces, nothing], .nil⟩

/-- Behind its stocks a line adds the flow that it declares, if it declares one. -/
theorem addPieces_back {b : Builder Float} {given : List StockPiece} {back : List Piece}
    {written : Option FlowPiece} (no_stock : back.filterMap Piece.stock? = [])
    (one_flow : back.filterMap Piece.flow? = written.toList)
    (named : ∀ flow ∈ written, ∀ c ∈ flow.label.toList, isNamePart c = true)
    (done : (b.addPieces (given.map StockPiece.name) back).result = .ok ()) :
    ∃ flows, (b.addPieces (given.map StockPiece.name) back).after =
        { b with flows := b.flows ++ flows } ∧
      List.Forall₂ (fun given flow => flow.DeclaredBy given) (connection? given written).toList
        flows := by
  cases written with
  | none =>
    have none_given : connection? given none = none := by
      unfold connection?
      split <;> trivial
    rw [addPieces_back_of_none b _ no_stock one_flow, none_given]
    exact ⟨[], by rw [List.append_nil], .nil⟩
  | some written =>
    induction back with
    | nil => cases one_flow
    | cons piece rest ih =>
      cases piece with
      | stock other => cases no_stock
      | flow first =>
        obtain ⟨rfl, none_behind⟩ := List.cons.inj one_flow
        have nothing : ∀ (b : Builder Float) ends, b.addPieces ends rest = ⟨b, .ok ()⟩ :=
          fun b ends => addPieces_back_of_none b ends no_stock none_behind
        exact addPieces_flow nothing (named first (Option.mem_some_self first)) done
      | direction => exact ih no_stock done one_flow
      | delimiter => exact ih no_stock done one_flow
      | comment text => exact ih no_stock done one_flow

/-- Building a line is declaring its stocks, and then adding its flow if it declares one. -/
theorem exists_of_afterLine {b b' : Builder Float} {cs : List Char} {own : List Piece}
    (read : linePieces cs = .ok own) (built : b.afterLine own = .ok b') :
    ∃ mid flows, b.declareAll (declaredIn own) = .ok mid ∧
      b' = { mid with flows := mid.flows ++ flows } ∧
      List.Forall₂ (fun given flow => flow.DeclaredBy given) (connectionIn? own).toList flows := by
  obtain ⟨front, back, written, rfl, no_flow, no_stock, one_flow, named⟩ := exists_of_linePieces read
  obtain ⟨_, done, rfl⟩ := map_eq_ok_iff.1 built
  have few : ([] : List String).length ≤ 2 := Nat.zero_le 2
  have stocks : (front.filterMap Piece.stock?).take (2 - ([] : List String).length) =
      declaredIn (front ++ back) := by
    rw [declaredIn, List.filterMap_append, no_stock, List.append_nil]
    rfl
  have flow : ((front ++ back).filterMap Piece.flow?).head? = written := by
    rw [List.filterMap_append, no_flow, one_flow, List.nil_append, Option.head?_toList]
  obtain ⟨mid, declared, same⟩ := addPieces_front no_flow few done
  rw [stocks] at declared same
  rw [same, List.nil_append] at done ⊢
  obtain ⟨flows, after, given⟩ := addPieces_back no_stock one_flow named done
  rw [connectionIn?, flow]
  exact ⟨mid, flows, declared, after, given⟩

/-- What lines declare comes behind what has been declared before. -/
theorem declaredBy_afterLines {b b' : Builder Float} {given : List StockPiece}
    {joined : List Connection} {found : List (List Piece)}
    (read : ∀ own ∈ found, ∃ cs, linePieces cs = .ok own) (stocks : b.DeclaredBy given)
    (flows : List.Forall₂ (fun given flow => flow.DeclaredBy given) joined b.flows)
    (built : b.afterLines found = .ok b') :
    b'.DeclaredBy (given ++ found.flatMap declaredIn) ∧
      List.Forall₂ (fun given flow => flow.DeclaredBy given)
        (joined ++ found.filterMap connectionIn?) b'.flows := by
  induction found generalizing b given joined with
  | nil =>
    obtain rfl := Except.ok.inj built
    rw [List.flatMap_nil, List.filterMap_nil, List.append_nil, List.append_nil]
    exact ⟨stocks, flows⟩
  | cons own rest ih =>
    rw [List.forall_mem_cons] at read
    obtain ⟨⟨cs, own_read⟩, rest_read⟩ := read
    obtain ⟨next, own_built, built⟩ := bind_eq_ok_iff.1 built
    obtain ⟨mid, more, declared, rfl, connected⟩ := exists_of_afterLine own_read own_built
    have mid_stocks := stocks.declareAll declared
    have next_stocks : Builder.DeclaredBy { mid with flows := mid.flows ++ more }
        (given ++ declaredIn own) := ⟨mid_stocks.names, mid_stocks.stocks⟩
    rw [← flows_declareAll declared] at flows
    have next_flows := List.rel_append flows connected
    have first_joined : (own :: rest).filterMap connectionIn? =
        (connectionIn? own).toList ++ rest.filterMap connectionIn? := by
      rw [List.filterMap_cons]
      cases connectionIn? own <;> rfl
    rw [List.flatMap_cons, ← List.append_assoc, first_joined, ← List.append_assoc]
    exact ih rest_read next_stocks next_flows built

end Builder

/-- A spec that is read has been scanned, and building its lines gives the model. -/
theorem Model.exists_lines {name text : String} {m : Model Float}
    (read : Model.ofText name text = .ok m) :
    ∃ lines b, scan text = .ok lines ∧ (∀ line ∈ lines, ∃ cs, linePieces cs = .ok line.pieces) ∧
      Builder.afterLines { name := name } (lines.map Line.pieces) = .ok b ∧ m = b.build := by
  obtain ⟨lines, scanned, read⟩ := bind_eq_ok_iff.1 read
  obtain ⟨_, built, read⟩ := bind_eq_ok_iff.1 read
  refine ⟨lines, _, scanned, ?_, ?_, (Except.ok.inj read).symm⟩
  · intro line listed
    obtain ⟨all, all_read, scanned⟩ := bind_eq_ok_iff.1 scanned
    obtain rfl := Except.ok.inj scanned
    obtain ⟨⟨text, number⟩, -, line_read⟩ := exists_of_mem_mapM all_read (List.mem_filter.1 listed).1
    obtain ⟨pieces, pieces_read, rfl⟩ := Line.ofText_eq_ok_iff.1 line_read
    exact ⟨_, pieces_read⟩
  · rw [← Builder.foldlM_afterPlaced_eq_ok_iff, ← Builder.result_addLines, built]
    rfl

/-! ## One model -/

theorem Stock.DeclaredBy.unique {stock other : Stock} {given : List StockPiece}
    (first : stock.DeclaredBy given) (second : other.DeclaredBy given)
    (same_name : stock.name = other.name) : stock = other := by
  have same_shown : stock.shown = other.shown := by
    have both := first.hidden.trans second.hidden.symm
    cases shown : stock.shown with
    | false => exact (both.1 shown).symm
    | true =>
      cases other_shown : other.shown with
      | false => exact absurd (both.2 other_shown) (by rw [shown]; decide)
      | true => rfl
  have same_initial := Except.ok.inj (first.initial.symm.trans second.initial)
  have same_maximum := Except.ok.inj (first.maximum.symm.trans second.maximum)
  cases stock
  cases other
  simp_all

theorem FlowKind.toUpper_text_inj {kind other : FlowKind}
    (same : kind.text.toUpper = other.text.toUpper) : kind = other := by
  cases kind <;> cases other <;> first | rfl | exact absurd same (by decide +kernel)

theorem Flow.DeclaredBy.unique {flow other : Flow} {given : Connection}
    (first : flow.DeclaredBy given) (second : other.DeclaredBy given) : flow = other := by
  have same_source := first.source.trans second.source.symm
  have same_destination := first.destination.trans second.destination.symm
  have same_kind : flow.rule.kind = other.rule.kind := by
    by_cases bare : given.written.label = ""
    · exact (first.unlabeled bare).trans (second.unlabeled bare).symm
    · exact FlowKind.toUpper_text_inj ((first.labeled bare).symm.trans (second.labeled bare))
  have same_formula : flow.rule.formula = other.rule.formula := by
    obtain ⟨size, given_size, read⟩ := first.formula
    obtain ⟨other_size, other_given, other_read⟩ := second.formula
    obtain rfl := Option.some.inj (given_size.symm.trans other_given)
    exact Except.ok.inj (read.symm.trans other_read)
  obtain ⟨source, destination, kind, formula⟩ := flow
  obtain ⟨source', destination', kind', formula'⟩ := other
  simp_all

/-- Lines denote one model at most. -/
theorem Spec.Denotes.unique {found : List (List Piece)} {m m' : Model Float}
    (first : Denotes found m) (second : Denotes found m') :
    m'.stocks = m.stocks ∧ m'.flows = m.flows := by
  constructor
  · have same_names : m'.stocks.map Stock.name = m.stocks.map Stock.name :=
      second.names.trans first.names.symm
    refine List.ext_getElem (by simpa using congrArg List.length same_names) fun i here there => ?_
    have same_name : m'.stocks[i].name = m.stocks[i].name := by
      have entry := congrArg (·[i]?) same_names
      simpa [here, there] using entry
    have declared := second.stocks _ (List.getElem_mem here)
    rw [same_name] at declared
    exact declared.unique (first.stocks _ (List.getElem_mem there)) same_name
  · exact List.right_unique_forall₂' (fun _ _ _ left right => left.unique right) second.flows
      first.flows

/-- The model that is read from a spec is the one that the lines of the spec denote. -/
theorem Model.ofText_denotes {name text : String} {m : Model Float}
    (read : Model.ofText name text = .ok m) :
    ∃ lines, scan text = .ok lines ∧ Denotes (lines.map Line.pieces) m ∧
      ∀ m', Denotes (lines.map Line.pieces) m' → m'.stocks = m.stocks ∧ m'.flows = m.flows := by
  obtain ⟨lines, b, scanned, each, built, rfl⟩ := exists_lines read
  have pieces_read : ∀ own ∈ lines.map Line.pieces, ∃ cs, linePieces cs = .ok own := by
    intro own listed
    obtain ⟨line, known, rfl⟩ := List.mem_map.1 listed
    exact each line known
  obtain ⟨stocks, flows⟩ := Builder.declaredBy_afterLines pieces_read (.start name) .nil built
  rw [List.nil_append] at stocks flows
  have denoted : Denotes (lines.map Line.pieces) b.build := ⟨stocks.names, stocks.stocks, flows⟩
  exact ⟨lines, scanned, denoted, fun m' other => denoted.unique other⟩

/-- Stocks that are declared again and again: bare, with values and infinite, before and after the
flows that join them. -/
def Spec.redeclaredText : String :=
  "[a] > b @ 5\nb > c @ leak(0.1) # bare\nb(3, 10) > d(0) > a @ 0.5\n[a] > c(b + 1)"

/-- The third stock of a line is no declaration. -/
def Model.redeclared : Model Float where
  stocks := [
    .infinite "a",
    { name := "b", initial := .value (.whole "3"), maximum := .value (.whole "10") },
    { name := "c", initial := .thenValue (.value (.reference "b")) .plus (.whole "1") },
    { name := "d" }]
  flows := [
    ⟨"a", "b", .rate, .value (.whole "5")⟩,
    ⟨"b", "c", .leak, .value (.decimal "0.1")⟩,
    ⟨"b", "d", .conversion, .value (.decimal "0.5")⟩]

theorem Model.ofText_denotes_redeclared :
    Model.ofText "" redeclaredText = .ok redeclared ∧
      ∃ lines, scan redeclaredText = .ok lines ∧ Denotes (lines.map Line.pieces) redeclared := by
  have read : Model.ofText "" redeclaredText = .ok redeclared := by decide +kernel
  obtain ⟨lines, scanned, denoted, -⟩ := ofText_denotes read
  exact ⟨read, lines, scanned, denoted⟩

end StockFlow
