import Mathlib
import StockFlow.Proofs.Number.Wholes
import StockFlow.Proofs.Report.JsonText
import StockFlow.Report.Run

/-!
# Runs read back

The JSON of a run is read as the columns, the number of rounds and all snapshots with all their
stocks in order (`Run.read_json`). What stands for a double is told by what the double is
(`Json.Records`), and the double is found again from it, but for the sign of zero
(`Json.Records.recovers`).
-/

namespace StockFlow

open StockFlow.Number StockFlow.Report

/-- A double that is a whole number is the double nearest to it. Zero is left out for its sign. -/
theorem Number.ofWhole?_of_meaning {x : Float} {negative : Bool} {m : ℕ} {q n : ℤ}
    (finite : meaning x = .finite negative m q) (positive : 0 < m)
    (value : (if negative then -((m : ℚ) * 2 ^ q) else m * 2 ^ q) = n) :
    ofWhole? n = some x := by
  obtain ⟨size, sign⟩ := natAbs_of_whole? finite ((whole?_eq_some_iff finite).2 value)
  have rounds := roundsTo_natAbs size
  have some : 0 < n.natAbs := by
    have nonzero : (0 : ℚ) < n.natAbs := size ▸ by positivity
    exact_mod_cast nonzero
  have known := meaning_ofDecimal some positive (isCanonical_of_ofBits finite) rounds
  have nearest : nearest n.natAbs 1 = ofDecimal n.natAbs 0 :=
    (ofDecimal_mul_pow n.natAbs 0).symm.trans (by simp)
  have bounded : ¬ (ofDecimal n.natAbs 0).isInf = true := by
    rw [isInf_iff, known]
    rintro ⟨_, infinite⟩
    cases infinite
  rw [ofWhole?, nearest, if_neg bounded, ← signed_ofDecimal finite positive rounds, ← sign positive]
  simp only [decide_eq_true_eq]

namespace Report.Json

/-! ## Doubles -/

/-- What stands for a double: the whole number that is its value, itself if its value is a fraction,
or a name where it has no value. -/
inductive Records (x : Float) : Json → Prop where
  | whole {negative : Bool} {m : ℕ} {q n : ℤ} : meaning x = .finite negative m q →
      (if negative then -((m : ℚ) * 2 ^ q) else m * 2 ^ q) = n → Records x (.whole n)
  | fraction {negative : Bool} {m : ℕ} {q : ℤ} : meaning x = .finite negative m q →
      (∀ n : ℤ, (if negative then -((m : ℚ) * 2 ^ q) else m * 2 ^ q) ≠ n) → Records x (.real x)
  | infinite {negative : Bool} : meaning x = .infinite negative →
      Records x (.text (if negative then "-inf" else "inf"))
  | nan : meaning x = .nan → Records x (.text "nan")

theorem records_ofDouble (x : Float) : Records x (ofDouble x) := by
  unfold ofDouble
  cases known : meaning x with
  | nan =>
    simp only [Number.text, known]
    exact .nan known
  | infinite negative =>
    simp only [Number.text, known]
    exact .infinite known
  | finite negative m q =>
    have value (n : ℤ) := whole?_eq_some_iff (n := n) known
    rw [whole?, known] at value
    simp only
    cases whole : (Meaning.finite negative m q).whole? with
    | some n => exact .whole known ((value n).1 whole)
    | none =>
      refine .fraction known fun n same => ?_
      rw [(value n).2 same] at whole
      cases whole

/-- The doubles of what stands for a double have a JSON number. -/
theorem Records.isFinite {x : Float} {v : Json} (records : Records x v) : v.IsFinite := by
  cases records with
  | whole _ _ => exact .whole _
  | fraction finite _ => exact .real finite
  | infinite _ | nan _ => exact .text _

/-- The double that a number or a text denotes. -/
def double? : Json → Option Float
  | .whole n => ofWhole? n
  | .real x => some x
  | .text s => ofText? s
  | _ => none

/-- A double is found again from what stands for it, but a zero may come back without its sign. -/
def Recovers (v : Json) (x : Float) : Prop :=
  ∃ y, v.double? = some y ∧ (y = x ∨ x = -0.0 ∧ y = 0.0)

theorem recovers_name {x : Float} {s : String} (named : Number.text x = s) :
    Recovers (.text s) x :=
  ⟨x, named ▸ ofText?_text x, .inl rfl⟩

theorem Records.recovers {x : Float} {v : Json} (records : Records x v) : v.Recovers x := by
  cases records with
  | @whole negative m q n finite value =>
    rcases Nat.eq_zero_or_pos m with rfl | positive
    · obtain rfl : n = 0 := by
        rw [Nat.cast_zero, zero_mul, neg_zero, ite_self] at value
        exact_mod_cast value.symm
      have zero := eq_zero_of_meaning finite
      refine ⟨0.0, by decide +kernel, ?_⟩
      cases negative with
      | true => exact .inr ⟨zero.symm, rfl⟩
      | false => exact .inl zero
    · exact ⟨x, ofWhole?_of_meaning finite positive value, .inl rfl⟩
  | fraction _ _ => exact ⟨x, rfl, .inl rfl⟩
  | infinite known =>
    refine recovers_name ?_
    rw [Number.text, known]
    rfl
  | nan known =>
    refine recovers_name ?_
    rw [Number.text, known]
    rfl

end Report.Json

/-! ## Runs -/

namespace Run

open Report.Json

/-- The fields of a snapshot's record. -/
def fields (snapshot : Keyed Float) : List (String × Json) :=
  snapshot.map fun (name, x) => (name, .ofDouble x)

/-- Doubles can always be written, so that the JSON of their run is never refused. -/
theorem jsonBy_ofDouble (run : Run Float) :
    run.jsonBy (fun x => .ok (.ofDouble x)) = .ok run.json := by
  have snapshot : snapshotJsonBy (fun x => .ok (.ofDouble x)) = fun entries =>
      pure (snapshotJson entries) := by
    funext entries
    have each : entries.mapM (fun entry => pure (entry.1, ofDouble entry.2)) =
        (pure (fields entries) : Except Fault _) := List.mapM_pure
    exact congrArg (Functor.map Json.record) each
  rw [jsonBy, snapshot, List.mapM_pure]
  rfl

theorem json_eq (run : Run Float) :
    run.json = run.record ((run.snapshots.map fields).map .record) := by
  rw [json, List.map_map]
  rfl

theorem isFinite_json (run : Run Float) : run.json.IsFinite := by
  have columns : IsFinite (.list (run.columns.map .text)) :=
    .list (List.forall_mem_map.2 fun name _ => .text name)
  have entries (snapshot : Keyed Float) : IsFinite (.record (fields snapshot)) :=
    .record (List.forall_mem_map.2 fun entry _ => (records_ofDouble entry.2).isFinite)
  have snapshots : IsFinite (.list ((run.snapshots.map fields).map .record)) := by
    rw [List.map_map]
    exact .list (List.forall_mem_map.2 fun snapshot _ => entries snapshot)
  rw [json_eq]
  exact .record (List.forall_mem_cons.2 ⟨columns, List.forall_mem_cons.2
    ⟨.whole _, List.forall_mem_singleton.2 snapshots⟩⟩)

/-- The JSON of a run is valid and read in one way only: as the columns, the number of rounds and
every snapshot with all its entries in order, each of which tells its double. -/
theorem read_json (run : Run Float) (indent : Option ℕ) :
    ∃ snapshots : List (List (String × Json)),
      (∀ v, Spells (run.json.write indent) v ↔
        v = .record [("columns", .list (run.columns.map .text)),
          ("rounds", .whole (run.snapshots.length - 1)),
          ("snapshots", .list (snapshots.map .record))]) ∧
      List.Forall₂ (List.Forall₂ fun entry field =>
          field.1 = entry.1 ∧ Records entry.2 field.2 ∧ field.2.Recovers entry.2)
        run.snapshots snapshots := by
  have written := spells_write run.isFinite_json indent
  refine ⟨run.snapshots.map fields, fun v => ⟨fun spells => ?_, ?_⟩, ?_⟩
  · rw [written.unique spells, json_eq]
    rfl
  · rintro rfl
    rw [json_eq] at written ⊢
    exact written
  · refine List.forall₂_map_right_iff.2 (List.forall₂_same.2 fun snapshot _ => ?_)
    refine List.forall₂_map_right_iff.2 (List.forall₂_same.2 fun entry _ => ?_)
    have records := records_ofDouble entry.2
    exact ⟨rfl, records, records.recovers⟩

end Run

end StockFlow
