import StockFlow.Command
import StockFlow.Proofs.Text.Joining

/-!
# Arguments of a run

A command line made of switches that tell how a run is shown and how long it is, in any order and
any number, asks for what each of them asks for (`Options.ofArguments_arguments`). The switch that
asks for a check may stand anywhere among them and changes nothing else
(`Options.ofArguments_check`).
-/

namespace StockFlow.Command

open StockFlow.Text

/-- An argument that tells how a run is shown or how long it is. -/
inductive Argument where
  | csv
  | json
  /-- A number of rounds, as it is written. -/
  | rounds (text : String)
  deriving DecidableEq, Repr

namespace Argument

/-- The words of an argument on the command line. -/
def words : Argument → List String
  | csv => ["--csv"]
  | json => ["--json"]
  | rounds text => ["-r", text]

/-- A number of rounds has to be one. -/
def Valid : Argument → Prop
  | csv | json => True
  | rounds text => ∃ n, Rounds.ofText text = .ok n

/-- What an argument asks for. -/
def set (options : Options) : Argument → Options
  | csv => { options with csv := true }
  | json => { options with json := true }
  | rounds text => { options with rounds := (Rounds.ofText text).toOption }

end Argument

/-- The command line of arguments. -/
def commandLine (arguments : List Argument) : List String :=
  arguments.flatMap Argument.words

/-- What arguments ask for, the last of each kind counting; without a number of rounds there are as
many as by default. -/
def Options.ofAll (arguments : List Argument) : Options :=
  arguments.foldl Argument.set { rounds := some Rounds.default }

/-! ## Words -/

/-- What is dropped at the ends does not change which character comes first, if that is kept. -/
theorem head?_trimBy {p : Char → Bool} {c : Char} (kept : p c = false) (cs : List Char) :
    (trimBy p (c :: cs)).head? = some c := by
  obtain ⟨front, back, dropped, dropped_behind, same⟩ := exists_eq_trimBy p (c :: cs)
  generalize trimBy p (c :: cs) = trimmed at same ⊢
  cases front with
  | cons d front =>
    obtain ⟨rfl, -⟩ := List.cons.inj same
    rw [dropped c (List.mem_cons_self ..)] at kept
    cases kept
  | nil =>
    cases trimmed with
    | nil =>
      rw [List.nil_append, List.nil_append] at same
      rw [dropped_behind c (same ▸ List.mem_cons_self ..)] at kept
      cases kept
    | cons d more => exact congrArg some (List.cons.inj same).1.symm

/-- A number of rounds does not look like a switch. -/
theorem Word.ofText_of_rounds {text : String} {n : Nat} (read : Rounds.ofText text = .ok n) :
    Word.ofText text = .operand text := by
  have bare : text.toList.head? ≠ some '-' := by
    intro dashed
    obtain ⟨rest, spelled⟩ := List.head?_eq_some_iff.1 dashed
    have first : (strip text).toList.head? = some '-' := by
      rw [strip, spelled, String.toList_ofList]
      exact head?_trimBy (by decide) rest
    have filled : strip text ≠ "" := by
      intro empty
      rw [empty] at first
      cases first
    simp only [Rounds.ofText, if_neg filled, if_pos first] at read
    cases read
  have undivided : text ≠ "--" := by
    rintro rfl
    exact bare rfl
  rw [Word.ofText, if_neg undivided, if_pos (by simp [bare])]

theorem words_csv (rest : List String) :
    words ("--csv" :: rest) = .switch .csv none :: words rest := by
  rw [words, show Word.ofText "--csv" = .switch .csv none by decide]

theorem words_json (rest : List String) :
    words ("--json" :: rest) = .switch .json none :: words rest := by
  rw [words, show Word.ofText "--json" = .switch .json none by decide]

theorem words_check (rest : List String) :
    words ("--check" :: rest) = .switch .check none :: words rest := by
  rw [words, show Word.ofText "--check" = .switch .check none by decide]

theorem words_rounds {text : String} {n : Nat} (read : Rounds.ofText text = .ok n)
    (rest : List String) :
    words ("-r" :: text :: rest) = .switch .rounds none :: .operand text :: words rest := by
  rw [words, words, Word.ofText_of_rounds read,
    show Word.ofText "-r" = .switch .rounds none by decide]

/-! ## Readings -/

namespace Reading

/-- A switch without an argument is turned on. -/
theorem readWords_switch (reading : Reading) {on : Switch} (bare : on.takesArgument = false)
    (words : List Word) :
    reading.readWords (.switch on none :: words) =
      reading.turnOn on >>= fun reading => reading.readWords words := by
  rw [readWords]
  cases on with
  | rounds => cases bare
  | help => rfl
  | csv => rfl
  | json => rfl
  | check => rfl
  | verbose => rfl

theorem readWords_rounds (reading : Reading) {text : String} {n : Nat}
    (read : Rounds.ofText text = .ok n) (words : List Word) :
    reading.readWords (.switch .rounds none :: .operand text :: words) =
      { reading with options := { reading.options with rounds := some n } }.readWords words := by
  have counted : reading.setRounds text =
      .ok { reading with options := { reading.options with rounds := some n } } := by
    have undivided : text ≠ "--" := by
      rintro rfl
      have word := Word.ofText_of_rounds read
      rw [show Word.ofText "--" = .divider from rfl] at word
      cases word
    simp only [setRounds, if_neg undivided, read]
  rw [readWords]
  change reading.setRounds text >>= _ = _
  rw [counted]
  rfl

/-- Arguments are read one after the other. -/
theorem readWords_arguments (reading : Reading) {arguments : List Argument}
    (valid : ∀ a ∈ arguments, a.Valid) (rest : List String) :
    reading.readWords (words (commandLine arguments ++ rest)) =
      { reading with options := arguments.foldl Argument.set reading.options }.readWords
        (words rest) := by
  induction arguments generalizing reading with
  | nil => rfl
  | cons a others ih =>
    rw [List.forall_mem_cons] at valid
    have line : commandLine (a :: others) ++ rest = a.words ++ (commandLine others ++ rest) :=
      List.append_assoc ..
    rw [line, List.foldl_cons]
    cases a with
    | csv =>
      change reading.readWords (words ("--csv" :: _)) = _
      rw [words_csv, readWords_switch reading rfl]
      exact ih _ valid.2
    | json =>
      change reading.readWords (words ("--json" :: _)) = _
      rw [words_json, readWords_switch reading rfl]
      exact ih _ valid.2
    | rounds text =>
      obtain ⟨n, read⟩ := valid.1
      have asked : Argument.set reading.options (.rounds text) =
          { reading.options with rounds := some n } := by
        rw [Argument.set, read]
        rfl
      change reading.readWords (words ("-r" :: text :: _)) = _
      rw [words_rounds read, readWords_rounds reading read, asked]
      exact ih _ valid.2

end Reading

/-! ## Options -/

namespace Options

/-- Arguments for a run leave the rest as it is. -/
theorem foldl_set_check (arguments : List Argument) (options : Options) :
    arguments.foldl Argument.set { options with check := true } =
      { arguments.foldl Argument.set options with check := true } := by
  induction arguments generalizing options with
  | nil => rfl
  | cons a others ih =>
    have first : Argument.set { options with check := true } a =
        { Argument.set options a with check := true } := by
      cases a <;> rfl
    rw [List.foldl_cons, first, ih, List.foldl_cons]

/-- Options of a run of the standard input. -/
structure ForRun (options : Options) : Prop where
  spec : options.spec = "-"
  check : options.check = false
  verbose : options.verbose = false
  rounds : ∃ n, options.rounds = some n

theorem forRun_ofAll {arguments : List Argument} (valid : ∀ a ∈ arguments, a.Valid) :
    (ofAll arguments).ForRun := by
  have start : ForRun { rounds := some Rounds.default } := ⟨rfl, rfl, rfl, _, rfl⟩
  unfold ofAll
  generalize ({ rounds := some Rounds.default } : Options) = options at start
  induction arguments generalizing options with
  | nil => exact start
  | cons a others ih =>
    rw [List.forall_mem_cons] at valid
    refine ih valid.2 _ ?_
    cases a with
    | csv => exact ⟨start.spec, start.check, start.verbose, start.rounds⟩
    | json => exact ⟨start.spec, start.check, start.verbose, start.rounds⟩
    | rounds text =>
      obtain ⟨n, read⟩ := valid.1
      exact ⟨start.spec, start.check, start.verbose, n, by rw [Argument.set, read]; rfl⟩

theorem ofArguments_arguments {arguments : List Argument} (valid : ∀ a ∈ arguments, a.Valid) :
    ofArguments Rounds.default (commandLine arguments) = .ok (ofAll arguments) := by
  have read := Reading.readWords_arguments { options := { rounds := some Rounds.default } } valid []
  rw [List.append_nil] at read
  rw [ofArguments, read]
  rfl

theorem ofArguments_check {before after : List Argument} (valid : ∀ a ∈ before ++ after, a.Valid) :
    ofArguments Rounds.default (commandLine before ++ "--check" :: commandLine after) =
      .ok { ofAll (before ++ after) with check := true } := by
  have valid_before := fun a listed => valid a (List.mem_append_left after listed)
  have valid_after := fun a listed => valid a (List.mem_append_right before listed)
  have read := Reading.readWords_arguments { options := { rounds := some Rounds.default } }
    valid_before ("--check" :: commandLine after)
  have read_after := fun reading => Reading.readWords_arguments reading valid_after []
  rw [List.append_nil] at read_after
  rw [ofArguments, read, words_check, Reading.readWords_switch _ rfl]
  change Reading.readWords { options := { before.foldl Argument.set _ with check := true } } _ >>=
    _ = _
  rw [read_after, foldl_set_check, ofAll, List.foldl_append]
  rfl

end Options

/-- Without a number of rounds in the environment, options are those of the arguments. -/
theorem readOptions_of_ofArguments {arguments : List String} {options : Options}
    (read : Options.ofArguments Rounds.default arguments = .ok options)
    (spec : options.spec = "-") : readOptions "" arguments = .ok options := by
  have rounds : Rounds.lenient "" Rounds.default = .ok Rounds.default := rfl
  rw [readOptions, rounds]
  change Options.ofArguments Rounds.default arguments >>= _ = _
  rw [read]
  have named : options.spec.contains '\x00' = false := by
    simp [spec]
  change (if options.spec.contains '\x00' then _ else _) = _
  rw [named]
  rfl

end StockFlow.Command
