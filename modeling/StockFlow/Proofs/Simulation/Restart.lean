import StockFlow.Proofs.Simulation.Runs

/-!
# Restarting a run

All that a state carries from one round to the next are the quantities of the stocks. So a run can be
broken off after any round and taken up again by a run that starts from the last snapshot, and a
state that is moved on by hand shows the snapshots of the run (`Model.run_restart`), no matter by
which calls it has come to a round.
-/

namespace StockFlow

variable {α : Type}

/-- The quantities of a snapshot as those to start from. -/
def Snapshot.asOverrides (values : Snapshot α) : Overrides α :=
  values.map fun entry => (entry.1, .ok entry.2)

theorem Snapshot.names_asOverrides (values : Snapshot α) :
    values.asOverrides.names = values.names := by
  simp [asOverrides, Keyed.names]

theorem Snapshot.find?_asOverrides (values : Snapshot α) (name : String) :
    values.asOverrides.find? name = (values.find? name).map .ok := by
  induction values with
  | nil => rfl
  | cons head rest ih =>
    change Keyed.find? name ((head.1, .ok head.2) :: Snapshot.asOverrides rest) = _
    rw [Keyed.find?, Keyed.find?, ih]
    split <;> rfl

variable [Quantity α] {m : Model α}

/-- Where all initial quantities are given, the formulas of the stocks do not matter, and neither
does their order. -/
theorem State.start_asOverrides {overrides : Overrides α} {first values : Snapshot α}
    (started : start m overrides = .ok ⟨m, 0, first⟩) (names : values.names = first.names) :
    start m values.asOverrides = .ok ⟨m, 0, values⟩ := by
  obtain ⟨-, order, _, valid, filled, ⟨⟩⟩ := start_eq_ok_iff.1 started
  have listed : ∀ name, name ∈ values.names ↔ name ∈ sequence m order := by
    intro name
    rw [names, mem_names_of_fill filled]
  have given : ∀ name ∈ sequence m order,
      initialValue m values.asOverrides values name = Snapshot.entry values name := by
    intro name known
    obtain ⟨x, found⟩ := Keyed.mem_names_iff.1 ((listed name).2 known)
    unfold initialValue
    rw [Snapshot.find?_asOverrides, found]
    exact (Snapshot.entry_eq_ok_iff.2 found).symm
  obtain ⟨refilled, filled', agree⟩ := exists_fill_of_settled (inOrder_sequence valid)
    (fun name known => (listed name).2 known) given
  have same_names : refilled.names = values.names := by rw [names, names_eq_of_fill filled' filled]
  have same : refilled = values := by
    refine Keyed.eq_of_find?_eq (nodup_names_of_fill filled') same_names fun name => ?_
    by_cases known : name ∈ sequence m order
    · exact agree name known
    · have absent : name ∉ values.names := mt (listed name).1 known
      rw [Keyed.find?_eq_none_iff.2 absent, Keyed.find?_eq_none_iff.2 (same_names ▸ absent)]
  refine start_eq_ok_iff.2 ⟨?_, order, values, valid, same ▸ filled', rfl⟩
  intro name known
  rw [Snapshot.names_asOverrides, listed, mem_sequence_iff valid] at known
  exact known

/-! ## States that are moved on by hand -/

namespace State

/-- What takes a state further. -/
inductive Call where
  | advance
  /-- On to the end of a round, which may lie behind. -/
  | runTo (round : Int)
  deriving DecidableEq, Repr

/-- What a call does to a state. -/
def call (state : State α) : Call → Attempt (State α) Unit
  | .advance => state.advance
  | .runTo round => state.runTo round

/-- The state after some calls, each of which goes on from what the one before has left. -/
def callAll (state : State α) : List Call → State α
  | [] => state
  | call :: rest => callAll (state.call call).after rest

/-- No call fails but those back to a round that the state has passed. -/
def Forward (state : State α) : List Call → Prop
  | [] => True
  | call :: rest =>
    ((state.call call).result = .ok () ∨ ∃ round, call = .runTo round ∧ round < state.round) ∧
      Forward (state.call call).after rest

/-- Back to a round that has passed there is no way; the state stays as it is. -/
theorem runTo_of_lt {state : State α} {round : Int} (passed : round < state.round) :
    state.runTo round = ⟨state, .error (.roundPassed round state.round)⟩ := by
  rw [runTo, if_pos passed]

theorem exists_round_of_advance {state : State α} (done : state.advance.result = .ok ()) :
    ∃ next, state.model.Round state.values next ∧
      state.advance = ⟨{ state with round := state.round + 1, values := next }, .ok ()⟩ := by
  have round := (round_of_advance done).1
  exact ⟨_, round, advance_of_round round⟩

/-- A state of a model has the quantities that a run has after as many rounds, unless the run ends
before. -/
structure Tracks (m : Model α) (snapshots : List (Snapshot α)) (state : State α) : Prop where
  model : state.model = m
  values : ∀ values, snapshots[state.round]? = some values → values = state.values

namespace Tracks

variable {snapshots : List (Snapshot α)} {state : State α}

/-- Before the end of the run there is a round ahead, which leads to the next snapshot. -/
theorem round (tracks : Tracks m snapshots state) (chain : snapshots.IsChain m.Round)
    {next : Snapshot α} (ahead : snapshots[state.round + 1]? = some next) :
    m.Round state.values next := by
  obtain ⟨inside, rfl⟩ := List.getElem?_eq_some_iff.1 ahead
  have here : snapshots[state.round] = state.values :=
    tracks.values _ (List.getElem?_eq_getElem (Nat.lt_of_succ_lt inside))
  rw [← here]
  exact List.isChain_iff_getElem.1 chain state.round inside

/-- A round leads from the same quantities to the same, so a state goes from snapshot to snapshot. -/
theorem advance (tracks : Tracks m snapshots state) (chain : snapshots.IsChain m.Round)
    (done : state.advance.result = .ok ()) : Tracks m snapshots state.advance.after := by
  obtain ⟨next, round, advanced⟩ := exists_round_of_advance done
  rw [advanced]
  refine ⟨tracks.model, fun values ahead => ?_⟩
  rw [tracks.model] at round
  exact (tracks.round chain ahead).next_unique round

theorem advanceBy (tracks : Tracks m snapshots state) (chain : snapshots.IsChain m.Round) {n : Nat}
    (done : (state.advanceBy n).result = .ok ()) :
    Tracks m snapshots (state.advanceBy n).after := by
  induction n generalizing state with
  | zero => exact tracks
  | succ n ih =>
    rw [State.advanceBy] at done ⊢
    cases first : state.advance.result with
    | error fault =>
      rw [Attempt.andThen_of_error first] at done
      cases done
    | ok _ =>
      rw [Attempt.andThen_of_ok first] at done ⊢
      exact ih (tracks.advance chain first) done

theorem call (tracks : Tracks m snapshots state) (chain : snapshots.IsChain m.Round) {call : Call}
    (forward : (state.call call).result = .ok () ∨
      ∃ round, call = .runTo round ∧ round < state.round) :
    Tracks m snapshots (state.call call).after := by
  rcases forward with done | ⟨round, rfl, passed⟩
  · cases call with
    | advance => exact tracks.advance chain done
    | runTo round =>
      rw [State.call, runTo] at done ⊢
      split at done
      · cases done
      · rename_i ahead
        rw [if_neg ahead]
        exact tracks.advanceBy chain done
  · rw [State.call, runTo_of_lt passed]
    exact tracks

/-- Whatever moves a state on, it shows a snapshot of the run. -/
theorem callAll (tracks : Tracks m snapshots state) (chain : snapshots.IsChain m.Round)
    {calls : List Call} (forward : state.Forward calls) :
    Tracks m snapshots (state.callAll calls) := by
  induction calls generalizing state with
  | nil => exact tracks
  | cons call rest ih =>
    obtain ⟨first, forward⟩ := forward
    exact ih (tracks.call chain first) forward

/-- Up to the end of the run rounds do not fail. -/
theorem result_advanceBy (tracks : Tracks m snapshots state) (chain : snapshots.IsChain m.Round)
    {n : Nat} (inside : state.round + n < snapshots.length) :
    (state.advanceBy n).result = .ok () := by
  induction n generalizing state with
  | zero => rfl
  | succ n ih =>
    have ahead : snapshots[state.round + 1]? = some snapshots[state.round + 1] :=
      List.getElem?_eq_getElem (by omega)
    have round := tracks.round chain ahead
    rw [← tracks.model] at round
    have advanced := advance_of_round round
    have done : state.advance.result = .ok () := by rw [advanced]
    have tracks' := tracks.advance chain done
    rw [State.advanceBy, Attempt.andThen_of_ok done]
    apply ih tracks'
    rw [advanced]
    show state.round + 1 + n < snapshots.length
    omega

end Tracks

end State

namespace Model

variable {k n : Nat} {overrides : Overrides α} {snapshots : List (Snapshot α)}

/-- A run can be taken up again from any of its snapshots. -/
theorem exists_restart (ran : m.run (k + n) overrides = .ok snapshots) :
    ∃ before last after, before.length = k ∧ snapshots = before ++ last :: after ∧
      m.run k overrides = .ok (before ++ [last]) ∧
      m.run n last.asOverrides = .ok (last :: after) := by
  obtain ⟨first, started, head, length, chain⟩ := run_eq_ok_iff.1 ran
  have inside : k < snapshots.length := by omega
  have split : snapshots = snapshots.take k ++ snapshots[k] :: snapshots.drop (k + 1) := by
    rw [← List.drop_eq_getElem_cons inside, List.take_append_drop]
  obtain ⟨chain_before, chain_after⟩ := List.isChain_split.1 (split ▸ chain)
  have names := names_of_run ran head snapshots[k] (List.getElem_mem inside)
  refine ⟨snapshots.take k, snapshots[k], snapshots.drop (k + 1), ?_, split, ?_, ?_⟩
  · rw [List.length_take, min_eq_left (by omega)]
  · refine run_eq_ok_iff.2 ⟨first, started, ?_, ?_, chain_before⟩
    · rw [List.take_append_getElem inside, List.head?_take, if_neg (Nat.succ_ne_zero k), head]
    · simp; omega
  · refine run_eq_ok_iff.2 ⟨_, State.start_asOverrides started names, rfl, ?_, chain_after⟩
    simp; omega

/-- A run over some rounds and then some more is the run over the first of them, followed by what
comes after the start in a run over the others that starts from the last snapshot. And a state that
has been made with the same overrides and moved on to one of these rounds, by whatever calls, shows
the snapshot after this round: it can still be moved on to the later ones, but not back to those
before. -/
theorem run_restart (ran : m.run (k + n) overrides = .ok snapshots) :
    (∃ before last after, before.length = k ∧ snapshots = before ++ last :: after ∧
      m.run k overrides = .ok (before ++ [last]) ∧
      m.run n last.asOverrides = .ok (last :: after)) ∧
    ∃ state, State.start m overrides = .ok state ∧
      ∀ calls reached, state.Forward calls → reached = state.callAll calls →
        reached.round ≤ k + n →
          snapshots[reached.round]? = some reached.values ∧
          (∀ round : Int, round < reached.round →
            reached.runTo round = ⟨reached, .error (.roundPassed round reached.round)⟩) ∧
          ∀ round : Nat, reached.round ≤ round → round ≤ k + n →
            (reached.runTo round).result = .ok () := by
  refine ⟨exists_restart ran, ?_⟩
  obtain ⟨first, started, head, length, chain⟩ := run_eq_ok_iff.1 ran
  refine ⟨_, started, ?_⟩
  rintro calls reached forward rfl within
  have tracks : State.Tracks m snapshots ⟨m, 0, first⟩ := by
    refine ⟨rfl, fun values found => ?_⟩
    rw [List.head?_eq_getElem?, found] at head
    exact Option.some.inj head
  have tracks := tracks.callAll chain forward
  generalize State.callAll ⟨m, 0, first⟩ calls = reached at tracks within ⊢
  have inside : reached.round < snapshots.length := by omega
  refine ⟨?_, fun round passed => State.runTo_of_lt passed, fun round ahead within => ?_⟩
  · rw [List.getElem?_eq_getElem inside, tracks.values _ (List.getElem?_eq_getElem inside)]
  · rw [State.runTo, if_neg (by omega)]
    apply tracks.result_advanceBy chain
    omega

/-- After the first round the basin does not hold any more what its initial value would give it. -/
def refilling : Model Exact where
  stocks := [
    .infinite "spring",
    { name := "basin", initial := .thenValue (.value (.reference "cup")) .plus (.whole "1"),
      maximum := .value (.whole "9") },
    { name := "cup", initial := .value (.whole "2") }]
  flows := [
    ⟨"spring", "basin", ⟨.rate, .value (.whole "3")⟩⟩,
    ⟨"basin", "cup", ⟨.leak, .value (.decimal "0.5")⟩⟩]

theorem run_refilling : refilling.run (1 + 2) [("cup", .ok (.finite 4))] = .ok [
    [("spring", .infinite false), ("cup", .finite 4), ("basin", .finite 5)],
    [("spring", .infinite false), ("cup", .finite 6), ("basin", .finite 6)],
    [("spring", .infinite false), ("cup", .finite 9), ("basin", .finite 6)],
    [("spring", .infinite false), ("cup", .finite 12), ("basin", .finite 6)]] := by
  decide +kernel

theorem start_refilling : State.start refilling [("cup", .ok (.finite 4))] = .ok ⟨refilling, 0,
    [("spring", .infinite false), ("cup", .finite 4), ("basin", .finite 5)]⟩ := by
  decide +kernel

theorem run_restart_refilling :
    ∃ snapshots, refilling.run (1 + 2) [("cup", .ok (.finite 4))] = .ok snapshots ∧
      (∃ before last after, before.length = 1 ∧ snapshots = before ++ last :: after ∧
        refilling.run 1 [("cup", .ok (.finite 4))] = .ok (before ++ [last]) ∧
        refilling.run 2 last.asOverrides = .ok (last :: after)) ∧
      ∃ state, State.start refilling [("cup", .ok (.finite 4))] = .ok state ∧
        (state.callAll [.advance, .runTo 0, .runTo 2]).round = 2 ∧
        snapshots[2]? = some (state.callAll [.advance, .runTo 0, .runTo 2]).values := by
  obtain ⟨restart, state, started, moved⟩ := run_restart run_refilling
  obtain rfl := Except.ok.inj (started.symm.trans start_refilling)
  have forward : State.Forward ⟨refilling, 0,
      [("spring", .infinite false), ("cup", .finite 4), ("basin", .finite 5)]⟩
      [.advance, .runTo 0, .runTo 2] :=
    ⟨.inl (by decide +kernel), .inr ⟨0, rfl, by decide +kernel⟩, .inl (by decide +kernel), trivial⟩
  have round : (State.callAll ⟨refilling, 0,
      [("spring", .infinite false), ("cup", .finite 4), ("basin", .finite 5)]⟩
      [.advance, .runTo 0, .runTo 2]).round = 2 := by decide +kernel
  have shown := (moved _ _ forward rfl (by rw [round]; omega)).1
  rw [round] at shown
  exact ⟨_, run_refilling, restart, _, started, round, shown⟩

end Model

end StockFlow
