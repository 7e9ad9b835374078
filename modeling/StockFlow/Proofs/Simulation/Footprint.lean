import StockFlow.Proofs.Simulation.Round

/-!
# The footprint of a flow

When its turn comes a flow looks at few stocks (`Model.reads`) and at what is held back for its
destination, and leaves all stocks but its source as they are. So turns that agree on a part of the
stocks still do after the turn of a flow that reads this part only (`Turn.AgreeOn.leave`), and also
if only one of them goes through that of a flow between other stocks (`Turn.AgreeOn.leave_outside`).
What holds of all flows of a round is put together in `Turn.AgreeOn.exists_applyAll_filter`.
-/

namespace StockFlow

variable {α : Type} [Quantity α]

/-- The stocks whose quantities a flow looks at when its turn comes: those at its ends, and those
that its formula and the maximum of its destination refer to. -/
def Model.reads (m : Model α) (flow : Flow) : List String :=
  flow.source :: flow.destination :: flow.rule.formula.references ++
    ((m.stock? flow.destination).map (·.maximum.references)).getD []

/-- Some of the stocks have the same quantities in two snapshots, or none in both. -/
def Snapshot.AgreeOn (inside : String → Bool) (values values' : Snapshot α) : Prop :=
  ∀ name, inside name → values.find? name = values'.find? name

theorem Flow.transfer_congr {flow : Flow} {destination : Stock}
    {look look' : String → Except Fault α} {source held : α}
    (rate : ∀ name ∈ flow.rule.formula.references, look name = look' name)
    (maximum : ∀ name ∈ destination.maximum.references, look name = look' name) :
    flow.transfer destination look source held = flow.transfer destination look' source held := by
  unfold transfer room Rule.transfer
  rw [destination.maximum.eval_congr maximum, flow.rule.formula.eval_congr rate]

variable {m m' : Model α} {inside : String → Bool} {flow : Flow} {source : α} {moved : Transfer α}

namespace Turn

variable {turn turn' : Turn α}

/-- What a flow moves depends on the stocks that it reads and on what is held back for its
destination. -/
theorem transfer_congr (known : m.stock? flow.destination = m'.stock? flow.destination)
    (values : ∀ name ∈ m.reads flow, turn.values.find? name = turn'.values.find? name)
    (held : turn.heldBack flow.destination = turn'.heldBack flow.destination) :
    turn.transfer m flow = turn'.transfer m' flow := by
  have source := values flow.source (by simp [Model.reads])
  have destination := values flow.destination (by simp [Model.reads])
  unfold transfer
  rw [Snapshot.entry, Snapshot.entry, source, destination, held, ← known]
  cases found : m.stock? flow.destination with
  | none => rfl
  | some stock =>
    have look : ∀ name ∈ m.reads flow,
        Snapshot.look turn.values name = Snapshot.look turn'.values name := by
      intro name read
      rw [Snapshot.look, Snapshot.look, values name read]
    have congr : ∀ source held, flow.transfer stock (Snapshot.look turn.values) source held =
        flow.transfer stock (Snapshot.look turn'.values) source held := by
      intro source held
      apply Flow.transfer_congr
      · intro name refers
        exact look name (by simp [Model.reads, refers])
      · intro name refers
        exact look name (by simp [Model.reads, found, refers])
    refine bind_congr fun source => bind_congr fun held => ?_
    show (flow.transfer stock _ _ _ >>= _) = (flow.transfer stock _ _ _ >>= _)
    rw [congr]

/-- The turn of one flow changes nothing for another one that does not read its source and has
another destination. -/
theorem transfer_leave {other : Flow} (unread : flow.source ∉ m.reads other)
    (apart : flow.destination ≠ other.destination) (turn : Turn α) (source : α)
    (moved : Transfer α) :
    (turn.leave flow source moved).transfer m other = turn.transfer m other := by
  apply transfer_congr rfl
  · intro name read
    rw [find?_values_leave, if_neg]
    rintro rfl
    exact unread read
  · rw [heldBack_leave, if_neg apart]

/-! ## Turns that agree on some of the stocks -/

/-- Two turns have the same quantities of some of the stocks, and the same held back for them. -/
structure AgreeOn (inside : String → Bool) (turn turn' : Turn α) : Prop where
  values : Snapshot.AgreeOn inside turn.values turn'.values
  pending : Snapshot.AgreeOn inside turn.pending turn'.pending

namespace AgreeOn

theorem heldBack (agree : AgreeOn inside turn turn') {name : String} (part : inside name) :
    turn.heldBack name = turn'.heldBack name := by
  rw [Turn.heldBack, Turn.heldBack, agree.pending name part]

theorem transfer (agree : AgreeOn inside turn turn')
    (known : m.stock? flow.destination = m'.stock? flow.destination)
    (part : ∀ name ∈ m.reads flow, inside name) :
    turn.transfer m flow = turn'.transfer m' flow := by
  apply transfer_congr known
  · intro name read
    exact agree.values name (part name read)
  · exact agree.heldBack (part _ (by simp [Model.reads]))

theorem leave (agree : AgreeOn inside turn turn') (flow : Flow) (source : α) (moved : Transfer α) :
    AgreeOn inside (turn.leave flow source moved) (turn'.leave flow source moved) := by
  constructor
  · intro name part
    rw [find?_values_leave, find?_values_leave, agree.values name part]
  · intro name part
    rw [find?_pending_leave, find?_pending_leave, agree.pending name part]
    split
    · rename_i same
      rw [agree.heldBack (same ▸ part)]
    · rfl

theorem leave_outside (agree : AgreeOn inside turn turn') (drained : ¬ inside flow.source)
    (filled : ¬ inside flow.destination) (source : α) (moved : Transfer α) :
    AgreeOn inside (turn.leave flow source moved) turn' := by
  constructor
  · intro name part
    rw [find?_values_leave, if_neg (by rintro rfl; exact drained part), agree.values name part]
  · intro name part
    rw [find?_pending_leave, if_neg (by rintro rfl; exact filled part), agree.pending name part]

/-- If all flows of a model have had their turn, so can those that read only the part on which
the turns agree, provided that the others are not connected with it. -/
theorem exists_applyAll_filter {flows : List Flow} {last : Turn α} (kept : Flow → Bool)
    (inner : ∀ flow ∈ flows, kept flow →
      m.stock? flow.destination = m'.stock? flow.destination ∧ ∀ name ∈ m.reads flow, inside name)
    (outer : ∀ flow ∈ flows, ¬ kept flow → ¬ inside flow.source ∧ ¬ inside flow.destination)
    (agree : AgreeOn inside turn turn') (done : turn.applyAll m flows = ⟨last, .ok ()⟩) :
    ∃ last', turn'.applyAll m' (flows.filter kept) = ⟨last', .ok ()⟩ ∧
      AgreeOn inside last last' := by
  induction flows generalizing turn turn' with
  | nil =>
    obtain ⟨rfl, -⟩ := Attempt.mk.inj done
    exact ⟨turn', rfl, agree⟩
  | cons flow rest ih =>
    obtain ⟨source, moved, transferred, done⟩ := applyAll_cons_eq_ok_iff.1 done
    obtain ⟨inner_first, inner⟩ := List.forall_mem_cons.1 inner
    obtain ⟨outer_first, outer⟩ := List.forall_mem_cons.1 outer
    by_cases keeps : kept flow
    · obtain ⟨known, part⟩ := inner_first keeps
      obtain ⟨last', done', agree'⟩ := ih inner outer (agree.leave flow source moved) done
      rw [agree.transfer known part] at transferred
      rw [List.filter_cons_of_pos keeps]
      exact ⟨last', applyAll_cons_eq_ok_iff.2 ⟨source, moved, transferred, done'⟩, agree'⟩
    · obtain ⟨drained, filled⟩ := outer_first keeps
      rw [List.filter_cons_of_neg keeps]
      exact ih inner outer (agree.leave_outside drained filled source moved) done

/-- At the end of a round the same is added to the stocks on which the turns agree. -/
theorem exists_commit {values values' next : Snapshot α} {flows flows' : List Flow}
    {last last' : Turn α} (agree : AgreeOn inside last last')
    (done : Turn.applyAll m ⟨values, []⟩ flows = ⟨last, .ok ()⟩)
    (done' : Turn.applyAll m' ⟨values', []⟩ flows' = ⟨last', .ok ()⟩)
    (committed : last.commit = .ok next) :
    ∃ next', last'.commit = .ok next' ∧ Snapshot.AgreeOn inside next next' := by
  obtain ⟨next', committed'⟩ := Model.exists_commit_of_applyAll done'
  have distinct : last.pending.names.Nodup := by
    have distinct := nodup_pending_applyAll (m := m) ⟨values, []⟩ List.nodup_nil flows
    rwa [done] at distinct
  have distinct' : last'.pending.names.Nodup := by
    have distinct := nodup_pending_applyAll (m := m') ⟨values', []⟩ List.nodup_nil flows'
    rwa [done'] at distinct
  refine ⟨next', committed', fun name part => ?_⟩
  rw [find?_of_commit distinct committed, find?_of_commit distinct' committed',
    agree.values name part, agree.pending name part]

end AgreeOn

end Turn

end StockFlow
