import StockFlow.Proofs.Command.Arguments
import StockFlow.Proofs.Simulation.CheckFaults
import StockFlow.Proofs.Simulation.Runs
import StockFlow.Proofs.Spec.Faults
import StockFlow.Proofs.Spec.Wholes

/-!
# Running and checking from the command line

A spec can be run from the command line just if a check of it finds no errors
(`execute_agrees`). The two take different ways: a run stops at the first fault of reading,
validating or simulating, a check collects issues. They meet because both read the spec first,
because a check finds an error just if validating fails, and because a model that validates runs to
the end, however many rounds there are (`Model.exists_run`).

A run that ends well shows all its snapshots. One that does not complains on one line, whatever the
message is that it complains with (`not_isLineBreak_oneLine`).

This holds for specs whose whole numbers can all be read (`Spec.Readable`).
-/

namespace StockFlow

open StockFlow.Report StockFlow.Spec StockFlow.Text

/-! ## One line -/

namespace Text

theorem mem_consFirst {c : Char} {lines : List (List Char)} {line : List Char}
    (listed : line ∈ consFirst c lines) :
    line = [c] ∨ (∃ first ∈ lines, line = c :: first) ∨ line ∈ lines := by
  cases lines with
  | nil => exact .inl (List.mem_singleton.1 listed)
  | cons first rest =>
    rcases List.mem_cons.1 listed with rfl | later
    · exact .inr (.inl ⟨first, List.mem_cons_self .., rfl⟩)
    · exact .inr (.inr (List.mem_cons_of_mem _ later))

/-- The lines of a text hold no boundary. -/
theorem not_isLineBreak_of_mem_lines (cs : List Char) :
    ∀ line ∈ lines cs, ∀ c ∈ line, isLineBreak c = false := by
  induction cs using lines.induct with
  | case1 => simp [lines]
  | case2 cs ih =>
    rw [lines]
    exact List.forall_mem_cons.2 ⟨List.forall_mem_nil _, ih⟩
  | case3 c cs other ends ih =>
    rw [lines, if_pos ends]
    · exact List.forall_mem_cons.2 ⟨List.forall_mem_nil _, ih⟩
    · exact other
  | case4 c cs other inside ih =>
    rw [lines, if_neg inside]
    · -- the character goes in front of the first line, or is one if there is none
      intro line listed d known
      rcases mem_consFirst listed with rfl | ⟨first, later, rfl⟩ | later
      · rw [List.mem_singleton.1 known]
        exact Bool.eq_false_of_not_eq_true inside
      · rcases List.mem_cons.1 known with rfl | known
        · exact Bool.eq_false_of_not_eq_true inside
        · exact ih first later d known
      · exact ih line later d known
    · exact other

/-- A message on one line has nothing in it at which it would go on in a new one. -/
theorem not_isLineBreak_oneLine (s : String) :
    ∀ c ∈ (oneLine s).toList, isLineBreak c = false := by
  intro c listed
  rw [oneLine, String.toList_intercalate] at listed
  rcases mem_of_mem_intercalate listed with gap | ⟨part, known, inside⟩
  · rw [List.mem_singleton.1 gap]
    rfl
  · obtain ⟨_, made, rfl⟩ := List.mem_map.1 known
    obtain ⟨line, whole, rfl⟩ := List.mem_map.1 made
    rw [String.toList_ofList] at inside
    exact not_isLineBreak_of_mem_lines s.toList line whole c inside

end Text

/-! ## Faults -/

theorem Fault.isOfModel_atLine (place : Place) (fault : Fault) :
    (fault.atLine place).isOfModel = true := by
  cases fault <;> rfl

namespace Model

/-- Whatever keeps a spec from being read is a fault of the model. -/
theorem isOfModel_of_ofText {name text : String} {fault : Fault}
    (failed : (Model.ofText name text : Except Fault (Model Float)) = .error fault) :
    fault.isOfModel = true := by
  obtain ⟨i, line, cause, -, -, rfl⟩ := ofText_eq_error_iff.1 failed
  exact Fault.isOfModel_atLine _ cause

theorem isOfModel_of_order {m : Model Float} {fault : Fault} (failed : m.order = .error fault) :
    fault.isOfModel = true := by
  unfold order at failed
  cases dangling : m.dangling with
  | cons first rest =>
    rw [dangling] at failed
    rw [← Except.error.inj failed]
    rfl
  | nil =>
    rw [dangling] at failed
    change m.acyclicOrder = .error fault at failed
    unfold acyclicOrder at failed
    simp only at failed
    split at failed
    · rw [← Except.error.inj failed]
      rfl
    · cases failed

/-! ## Runs to the end -/

end Model

/-- Where look-ups succeed and numbers can be read, a state goes on for any number of rounds. -/
theorem State.exists_snapshots {state : State Float} (whole : state.model.Sealed)
    (stocks : state.model.stockNames ⊆ state.values.names) (readable : state.model.Readable)
    (rounds : Nat) : ∃ snapshots, state.snapshots rounds = .ok snapshots := by
  induction rounds generalizing state with
  | zero => exact ⟨_, rfl⟩
  | succ rounds ih =>
    cases done : state.advance.result with
    | error fault =>
      exact absurd (literalFault_of_advance whole stocks done) (readable.no_literalFault fault)
    | ok _ =>
      have same := model_advance state
      obtain ⟨later, made⟩ := @ih state.advance.after (same ▸ whole)
        (by rw [same, names_advance]; exact stocks) (same ▸ readable)
      refine ⟨state.values :: later, ?_⟩
      unfold State.snapshots
      simp only [done]
      exact map_eq_ok_iff.2 ⟨later, made, rfl⟩

namespace Model

variable {m : Model Float}

/-- A model that validates runs to the end, with all stocks in all snapshots. -/
theorem exists_run (built : m.Built) (readable : m.Readable) {order : List String}
    (valid : m.order = .ok order) (rounds : Nat) :
    ∃ snapshots, m.run rounds [] = .ok snapshots ∧ snapshots.length = rounds + 1 ∧
      ∀ values ∈ snapshots, m.stockNames ⊆ values.names := by
  obtain ⟨state, simulated, stocks⟩ := exists_state built readable valid
  have same : state.model = m := by
    obtain ⟨_, _, -, -, rfl⟩ := State.start_eq_ok_iff.1 (simulate_eq_ok_iff.1 simulated) |>.2
    rfl
  obtain ⟨snapshots, made⟩ := State.exists_snapshots (same ▸ built.sealed valid)
    (by rw [same]; exact stocks) (same ▸ readable) rounds
  have ran : m.run rounds [] = .ok snapshots := bind_eq_ok_iff.2 ⟨state, simulated, made⟩
  obtain ⟨later, rfl, length, -⟩ := State.snapshots_eq_ok_iff.1 made
  refine ⟨_, ran, congrArg (· + 1) length, fun values listed => ?_⟩
  rw [names_of_run ran rfl values listed]
  exact stocks

end Model

/-! ## Tables -/

namespace Report

variable {β : Type} {write : β → String} {layout : Layout} {columns : List String}

theorem exists_row {snapshot : Keyed β} (known : columns ⊆ snapshot.names) (round : Nat) :
    ∃ text, row write layout columns round snapshot = .ok text := by
  obtain ⟨cells, made⟩ : ∃ cells, rowCells write layout snapshot columns = .ok cells := by
    refine exists_mapM fun name listed => ?_
    obtain ⟨entry, found⟩ := Keyed.mem_names_iff.1 (known listed)
    rw [found]
    exact ⟨_, rfl⟩
  exact ⟨_, bind_eq_ok_iff.2 ⟨cells, made, rfl⟩⟩

/-- Where all columns are in all snapshots, there is a table of them. -/
theorem exists_table {snapshots : List (Keyed β)}
    (known : ∀ snapshot ∈ snapshots, columns ⊆ snapshot.names) :
    ∃ text, table write layout snapshots columns = .ok text := by
  obtain ⟨rows, made⟩ : ∃ rows,
      snapshots.zipIdx.mapM (fun numbered => row write layout columns numbered.2 numbered.1) =
        .ok rows :=
    exists_mapM fun numbered listed =>
      exists_row (known numbered.1 (List.fst_mem_of_mem_zipIdx listed)) numbered.2
  exact ⟨_, bind_eq_ok_iff.2 ⟨rows, made, rfl⟩⟩

end Report

theorem Model.columns_subset {α : Type} (m : Model α) : m.columns ⊆ m.stockNames :=
  List.map_subset _ (List.filter_subset_self _)

/-! ## Endings -/

namespace Command

variable {options : Options} {text : String} {ending : Ending}

/-- A run completely shown: as JSON, or as a table that has a row for each of its snapshots. -/
def Options.Shows (options : Options) (run : Run Float) (output : String) : Prop :=
  if options.json then output = lineOf (run.json.write (some 2))
  else ∃ rows : List String,
    List.Forall₂ (fun numbered line =>
      row Number.plainText (layout options) run.columns numbered.2 numbered.1 = .ok line)
      run.snapshots.zipIdx rows ∧
    output = lineOf ("\n".intercalate (header (layout options) run.columns :: rows))

/-- The ending of a run that went through: with all the rounds asked for, and nothing else. -/
structure Ending.Shows (ending : Ending) (options : Options) (text : String) : Prop where
  status : ending.status = 0
  log : ending.log = []
  complaint : ending.complaint = ""
  output : ∃ (m : Model Float) (rounds : Nat) (snapshots : List (Snapshot Float)),
    Model.ofText "" text = .ok m ∧ options.rounds = some rounds ∧
    m.run rounds [] = .ok snapshots ∧ snapshots.length = rounds + 1 ∧
    options.Shows ⟨snapshots, m.columns⟩ ending.output

/-- An ending with nothing but a complaint on one line. -/
structure Ending.Complains (ending : Ending) : Prop where
  status : ending.status = 1
  output : ending.output = ""
  log : ending.log = []
  complaint : ∃ message : String, ending.complaint = "error: " ++ message ++ "\n" ∧
    ∀ c ∈ message.toList, isLineBreak c = false

theorem exists_complains {fault : Fault} (of_model : fault.isOfModel = true) :
    ∃ ending, failBy fault = .ok ending ∧ ending.Complains :=
  ⟨fail (oneLine fault.message), if_pos of_model, rfl, rfl, rfl, oneLine fault.message,
    rfl, not_isLineBreak_oneLine _⟩

/-- A run whose snapshots have all columns can be shown. -/
theorem exists_shows (options : Options) (run : Run Float)
    (known : ∀ snapshot ∈ run.snapshots, run.columns ⊆ snapshot.names) :
    ∃ output, showRun options run = .ok output ∧ options.Shows run output := by
  unfold showRun Options.Shows
  split
  · exact ⟨_, rfl, rfl⟩
  · obtain ⟨table, made⟩ : ∃ table, run.table (layout options) = .ok table := exists_table known
    obtain ⟨rows, each, done⟩ := bind_eq_ok_iff.1 made
    obtain rfl := Except.ok.inj done
    exact ⟨_, map_eq_ok_iff.2 ⟨_, made, rfl⟩, rows, mapM_eq_ok_iff.1 each, rfl⟩

/-! ## Both ways -/

section

variable {m : Model Float}

/-- A run fails with what keeps the model from being simulated. -/
theorem run_of_simulate_error (asked : options.ForRun) {fault : Fault}
    (failed : m.simulate [] = .error fault) : run options m = failBy fault := by
  obtain ⟨rounds, count⟩ := asked.rounds
  have stuck : m.run rounds [] = .error fault := by
    rw [Model.run, failed]
    rfl
  simp only [run, Options.count, count, Model.getRun, stuck, bind, Except.bind]

/-- A model that validates is run to the end. -/
theorem exists_run_of_order (asked : options.ForRun) (built : m.Built) (readable : m.Readable)
    {order : List String} (valid : m.order = .ok order) :
    ∃ rounds snapshots output, options.rounds = some rounds ∧ m.run rounds [] = .ok snapshots ∧
      snapshots.length = rounds + 1 ∧ options.Shows ⟨snapshots, m.columns⟩ output ∧
      run options m = .ok { status := 0, output } := by
  obtain ⟨rounds, count⟩ := asked.rounds
  obtain ⟨snapshots, ran, length, stocks⟩ := m.exists_run built readable valid rounds
  obtain ⟨output, shown, complete⟩ := exists_shows options ⟨snapshots, m.columns⟩
    fun snapshot listed => List.Subset.trans m.columns_subset (stocks snapshot listed)
  refine ⟨rounds, snapshots, output, count, ran, length, complete, ?_⟩
  simp only [run, Options.count, count, Model.getRun, ran, shown, bind, Except.bind, pure,
    Except.pure]

/-- A check of a model ends well just if the model validates. -/
theorem exists_check (built : m.Built) (readable : m.Readable) (options : Options) :
    ∃ checked, check options m = .ok checked ∧
      (checked.status = 0 ↔ ∃ order, m.order = .ok order) := by
  obtain ⟨issues, found⟩ := readable.exists_issues built
  have errors : issues.any Issue.isError = true ↔ ∃ fault, m.order = .error fault :=
    List.any_eq_true.trans (Model.exists_isError_iff built found)
  refine ⟨_, by rw [check, found], ?_⟩
  cases validated : m.order with
  | error fault =>
    have some_error := errors.2 ⟨fault, validated⟩
    simp [some_error]
  | ok order =>
    have no_error : issues.any Issue.isError = false := by
      refine Bool.eq_false_of_not_eq_true fun error => ?_
      obtain ⟨fault, failed⟩ := errors.1 error
      rw [validated] at failed
      cases failed
    simp [no_error]

end

theorem execute_of_ofArguments {arguments : List String} {read : String → Except PathFlaw String}
    {content : String} (asked : Options.ofArguments Rounds.default arguments = .ok options)
    (standard : options.spec = "-") (quiet : options.verbose = false)
    (given : read "-" = .ok content) :
    execute "" arguments read = process options (fileText content) := by
  rw [execute, readOptions_of_ofArguments asked standard]
  change perform options (read options.spec) = _
  rw [standard, given]
  change (process options (fileText content) >>= fun ending =>
    .ok (if options.verbose then _ else ending)) = _
  rw [quiet]
  exact bind_pure _

/-- What becomes of a spec whose numbers can be read, when it is run and when it is checked. -/
theorem exists_process (asked : options.ForRun) (readable : Spec.Readable text) :
    ∃ ran checked, process options text = .ok ran ∧
      process { options with check := true } text = .ok checked ∧
      (checked.status = 0 ↔ ran.status = 0) ∧ (ran.Shows options text ∨ ran.Complains) := by
  have run_only : ∀ m, (if options.check then check options m else run options m) = run options m :=
    fun m => by rw [asked.check]; rfl
  unfold process
  cases read : (Model.ofText "" text : Except Fault (Model Float)) with
  | error fault =>
    obtain ⟨ending, failed, complains⟩ := exists_complains (Model.isOfModel_of_ofText read)
    exact ⟨ending, ending, failed, failed, Iff.rfl, .inr complains⟩
  | ok m =>
    have built := Model.Built.ofText read
    have numbers := Model.readable_of_ofText readable read
    obtain ⟨checked, done, well⟩ := exists_check built numbers { options with check := true }
    -- how a check ends depends on the validation only, and so does whether a run goes through
    cases validated : m.order with
    | error fault =>
      obtain ⟨ending, failed, complains⟩ := exists_complains (Model.isOfModel_of_order validated)
      have unsimulated : m.simulate [] = .error fault := by
        rw [Model.simulate, validated]
        rfl
      refine ⟨ending, checked, ?_, done, ?_, .inr complains⟩
      · exact (run_only m).trans ((run_of_simulate_error asked unsimulated).trans failed)
      · simp [well, validated, complains.status]
    | ok order =>
      obtain ⟨rounds, snapshots, output, count, ran, length, complete, shown⟩ :=
        exists_run_of_order asked built numbers validated
      refine ⟨_, checked, (run_only m).trans shown, done, ?_, .inl ⟨rfl, rfl, rfl, ?_⟩⟩
      · simp [well, validated]
      · exact ⟨m, rounds, snapshots, read, count, ran, length, complete⟩

/-- A spec from the standard input whose numbers can be read is run just if it is checked without
errors, whatever the length of the run and the form of the output. What goes through is shown
completely and without a complaint; what does not is complained about on one line. -/
theorem execute_agrees {before after : List Argument} (valid : ∀ a ∈ before ++ after, a.Valid)
    {read : String → Except PathFlaw String} {content : String} (given : read "-" = .ok content)
    (readable : Spec.Readable (fileText content)) :
    ∃ ran checked, execute "" (commandLine (before ++ after)) read = .ok ran ∧
      execute "" (commandLine before ++ "--check" :: commandLine after) read = .ok checked ∧
      (checked.status = 0 ↔ ran.status = 0) ∧
      (ran.Shows (.ofAll (before ++ after)) (fileText content) ∨ ran.Complains) := by
  have asked := Options.forRun_ofAll valid
  obtain ⟨ran, checked, run_done, check_done, agree, ending⟩ := exists_process asked readable
  refine ⟨ran, checked, ?_, ?_, agree, ending⟩
  · rw [execute_of_ofArguments (Options.ofArguments_arguments valid) asked.spec asked.verbose given]
    exact run_done
  · rw [execute_of_ofArguments (Options.ofArguments_check valid) asked.spec asked.verbose given]
    exact check_done

/-- A spec with carriage returns, a stock that grows and shrinks and a rate that reads another
stock. -/
def returnedText : String :=
  "[x] > a(1, 9) @ b / 2 # in\r\na > b(4) @ Leak(0.5)\rc(b)"

theorem execute_agrees_returned :
    Spec.Readable (fileText returnedText) ∧
    ∃ ran checked,
      execute "" ["--csv", "-r", "3", "--json"] (fun _ => .ok returnedText) = .ok ran ∧
      execute "" ["--csv", "-r", "3", "--check", "--json"] (fun _ => .ok returnedText) =
        .ok checked ∧
      (checked.status = 0 ↔ ran.status = 0) ∧
      (ran.Shows (.ofAll [.csv, .rounds "3", .json]) (fileText returnedText) ∨
        ran.Complains) := by
  have readable : Spec.Readable (fileText returnedText) := by
    decide +kernel
  have counted : Rounds.ofText "3" = .ok 3 := by
    decide +kernel
  have valid : ∀ a ∈ [Argument.csv, .rounds "3"] ++ [.json], a.Valid := by
    simp [Argument.Valid, counted]
  exact ⟨readable, execute_agrees valid rfl readable⟩

/-! ## Numbers that are too long -/

theorem unifyNewlines_eq_self {cs : List Char} (none : '\r' ∉ cs) : unifyNewlines cs = cs := by
  induction cs using unifyNewlines.induct with
  | case1 => rfl
  | case2 cs ih => exact absurd (List.mem_cons_self ..) none
  | case3 c cs other ih =>
    rw [List.mem_cons, not_or] at none
    rw [unifyNewlines, if_neg fun same => none.1 same.symm, ih none.2]
    exact other

/-- Zero can be spelled with more digits than are read. -/
theorem exists_long_zero : ∃ zeros : String, AreDigits zeros.toList ∧
    Fault.maxDigits < wholeLength zeros ∧ wholeValue zeros = 0 := by
  refine ⟨.ofList (List.replicate (Fault.maxDigits + 1) '0'), ?_, ?_, Model.wholeValue_zeros _⟩
  · rw [String.toList_ofList]
    refine ⟨List.ne_nil_of_length_pos ?_, fun c listed => ?_⟩
    · rw [List.length_replicate]
      exact Nat.succ_pos _
    · rw [List.eq_of_mem_replicate listed]
      rfl
  · rw [wholeLength_zeros]
    exact Nat.lt_succ_self _

/-- Zero is in range, and yet a spec that spells it with too many digits cannot be run. -/
theorem not_execute_of_in_range :
    ¬ ∀ (arguments : List Argument) (read : String → Except PathFlaw String) (content : String),
      (∀ a ∈ arguments, a.Valid) → read "-" = .ok content →
      (∀ lines, scan (fileText content) = .ok lines → ∀ digits ∈ wholes (lines.map Line.pieces),
        (Quantity.ofWhole? (wholeValue digits) : Option Float).isSome = true) →
      ∃ ran, execute "" (commandLine arguments) read = .ok ran := by
  intro all_run
  obtain ⟨zeros, digits, long, zero⟩ := exists_long_zero
  have same : fileText (spelledText zeros) = spelledText zeros := by
    have none : '\r' ∉ (spelledText zeros).toList := fun listed =>
      absurd (plain_spelledText digits _ listed).1 (by decide)
    rw [fileText, unifyNewlines_eq_self none, String.ofList_toList]
  have in_range : ∀ lines, scan (fileText (spelledText zeros)) = .ok lines →
      ∀ digits ∈ wholes (lines.map Line.pieces),
        (Quantity.ofWhole? (wholeValue digits) : Option Float).isSome = true := by
    intro lines scanned written listed
    rw [same, scan_spelledText digits] at scanned
    obtain rfl := Except.ok.inj scanned
    rw [List.mem_singleton.1 (show written ∈ [zeros] from listed), zero]
    decide +kernel
  let read : String → Except PathFlaw String := fun _ => .ok (spelledText zeros)
  have given : read "-" = .ok (spelledText zeros) := rfl
  have none : ∀ a ∈ ([] : List Argument), a.Valid := nofun
  have asked := Options.forRun_ofAll none
  have stuck : execute "" (commandLine []) read = .error (.wholeTooLong (wholeLength zeros)) := by
    rw [execute_of_ofArguments (Options.ofArguments_arguments none) asked.spec asked.verbose given,
      same, process, Model.ofText_spelledText digits]
    exact run_of_simulate_error asked (Model.simulate_spelled long)
  obtain ⟨ran, done⟩ := all_run [] read _ none given in_range
  cases stuck.symm.trans done

end Command

end StockFlow
