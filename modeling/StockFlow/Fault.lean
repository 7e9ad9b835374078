import StockFlow.Reference.Graph

/-!
# Faults

Everything that can go wrong while a model is read, built or run, by cause. Faults of a spec carry
the place they were met at; a fault met while a line is processed may become the cause of a fault
of that line.
-/

namespace StockFlow

open StockFlow.Reference (Graph)

/-- The number under which a fault is reported. -/
inductive Code where
  | illegalName
  | invalidParameters
  | illegalSourceStock
  | invalidFormula
  | unresolvedReference
  | circularReferences
  | conflictingValues
  | unknownFlowType
  | parseFailure
  | doesNotExist
  deriving DecidableEq, Repr

namespace Code

/-- All codes, in the order of their numbers, which count from one. -/
def all : List Code :=
  [illegalName, invalidParameters, illegalSourceStock, invalidFormula, unresolvedReference,
    circularReferences, conflictingValues, unknownFlowType, parseFailure, doesNotExist]

/-- The words of a code. -/
def words : Code → List String
  | illegalName => ["illegal", "name"]
  | invalidParameters => ["invalid", "parameters"]
  | illegalSourceStock => ["illegal", "source", "stock"]
  | invalidFormula => ["invalid", "formula"]
  | unresolvedReference => ["unresolved", "reference"]
  | circularReferences => ["circular", "references"]
  | conflictingValues => ["conflicting", "values"]
  | unknownFlowType => ["unknown", "flow", "type"]
  | parseFailure => ["parse", "failure"]
  | doesNotExist => ["does", "not", "exist"]

/-- The words of a code in small letters, as data formats write it. -/
def label (code : Code) : String :=
  "_".intercalate code.words

/-- The name of a code, in capitals. -/
def name (code : Code) : String :=
  code.label.toUpper

/-- The code of a name. -/
def ofName? (name : String) : Option Code :=
  all.find? (·.name == name)

/-- The code of a number. -/
def ofNumber? (number : Int) : Option Code :=
  if 1 ≤ number then all[number.toNat - 1]? else none

/-- A title for the code of a number. -/
def describe (number : Int) : String :=
  match ofNumber? number with
  | some code => " ".intercalate (code.words.map String.capitalize)
  | none => "Unknown Error Code (" ++ toString number ++ ")"

end Code

/-- A line of a spec and its number, as far as they are known. -/
structure Place where
  line : String := ""
  number : Int := 0
  deriving DecidableEq, Repr

/-- What is wrong with a round count. -/
inductive CountFlaw where
  /-- Neither a number nor a text; the name of its type. -/
  | notACount (typeName : String)
  | negative (shown : String)
  | fractional (shown : String)
  | blank
  | malformed (text : String)
  deriving DecidableEq, Repr

/-- The message for a round count. -/
def CountFlaw.message : CountFlaw → String
  | .notACount typeName => "rounds must be a number or string, got " ++ typeName
  | .negative shown => "rounds must be non-negative, got " ++ shown
  | .fractional shown => "rounds must be a whole number, got " ++ shown
  | .blank => "rounds cannot be an empty string"
  | .malformed text =>
    "Invalid rounds format: " ++ Text.quoted text ++ ". Expected a non-negative whole number"

/-- What a stock was looked up in. -/
inductive Collection where
  | state
  | model
  | run
  deriving DecidableEq, Repr

/-- The word for a collection. -/
def Collection.text : Collection → String
  | .state => "state"
  | .model => "model"
  | .run => "run"

/-- The broad families of faults. -/
inductive Family where
  | any
  /-- A spec cannot be turned into a model. -/
  | parse
  /-- A model is structurally invalid. -/
  | structural
  /-- Querying or driving a simulation fails. -/
  | runtime
  deriving DecidableEq, Repr

/-- A cause of failure. -/
inductive Fault where
  /-- A fault of a family that is known by its message alone. -/
  | general (family : Family) (message : String) (code : Option Code)
  /-- A name that is not of the form that names have. -/
  | illegalName (name pattern : String)
  /-- A rule that takes a share of its source drains an infinite stock. -/
  | illegalSource (rule source : String)
  /-- Initial values refer to each other in a cycle. -/
  | circularReferences (cycle graph : Graph)
  | invalidFormula (formula reason : String) (code : Option Code := some .invalidFormula)
  /-- A formula refers to a stock that the model does not have. -/
  | unresolvedReference (formula name : String)
  | undeclaredStock (name : String)
  | missingStock (collection : Collection) (name : String)
  | unknownOverride (name : String)
  /-- A simulation is asked to go on to a round that lies behind it. -/
  | roundPassed (wanted : Int) (reached : Nat)
  /-- A line of a spec cannot be processed. -/
  | line (place : Place)
  | lineBecause (place : Place) (cause : Fault)
  /-- A fault whose line is filled in later. -/
  | deferred (place : Place)
  /-- Parameters that do not stand between parentheses. -/
  | invalidParameters (text : String) (place : Place)
  /-- A stock is declared again with another value. -/
  | conflictingValues (stock first second : String) (place : Place)
  | unknownFlowType (label : String) (place : Place)
  /-- A whole number beyond the range of quantities. -/
  | wholeTooLarge
  /-- A whole number with more digits than are read. -/
  | wholeTooLong (digits : Nat)
  /-- A round count beyond the range of quantities. -/
  | countTooLarge
  /-- A formula is built from a value that is no number. -/
  | undefinedNumber
  /-- A formula is built from something else than a number or a text. -/
  | notAFormula (typeName : String)
  /-- A text does not denote a number. -/
  | unreadableNumber (text : String)
  /-- Neither a number nor a text stands where a number is needed. -/
  | notANumber (typeName : String)
  /-- Something else than a number stands where a size is asked for. -/
  | notASize (typeName : String)
  /-- A number that is no double stands where only a double can be written. -/
  | notADouble (typeName : String)
  | badCount (flaw : CountFlaw)
  /-- No entry under a name. -/
  | missingEntry (name : String)
  /-- A path with a NUL in it. -/
  | nulInPath
  /-- A number that no fault is reported under. -/
  | unknownCode (number : Int)
  /-- A name that no setting of a run has. -/
  | unknownSetting (name : String)
  deriving DecidableEq, Repr

/-- The code of a number that has to be one. -/
def Code.ofNumber (number : Int) : Except Fault Code :=
  match ofNumber? number with
  | some code => .ok code
  | none => .error (.unknownCode number)

namespace Fault

/-- The code that a fault is reported under. -/
def code : Fault → Option Code
  | general _ _ code => code
  | illegalName .. => some .illegalName
  | illegalSource .. => some .illegalSourceStock
  | circularReferences .. => some .circularReferences
  | invalidFormula _ _ code => code
  | unresolvedReference .. => some .unresolvedReference
  | undeclaredStock _ => some .doesNotExist
  | missingStock .model _ => some .doesNotExist
  | line _ | lineBecause .. | deferred _ => some .parseFailure
  | invalidParameters .. => some .invalidParameters
  | conflictingValues .. => some .conflictingValues
  | unknownFlowType .. => some .unknownFlowType
  | _ => none

/-- Why a reference is unresolved. -/
def unresolvedReason (name : String) : String :=
  "reference to non-existent stock '" ++ name ++ "'"

/-- The message about a formula. -/
def formulaMessage (formula reason : String) : String :=
  "illegal formula '" ++ formula ++ "' due to '" ++ reason ++ "'"

/-- The most digits of a whole number that are read. -/
def maxDigits : Nat :=
  4300

/-- The message about a whole number with too many digits. -/
def digitsMessage (digits : Nat) : String :=
  "Exceeds the limit (" ++ toString maxDigits ++
    " digits) for integer string conversion: value has " ++ toString digits ++
    " digits; use sys.set_int_max_str_digits() to increase the limit"

/-- A line between double quotes, as it is. -/
def quotedLine (place : Place) : String :=
  "\"" ++ place.line ++ "\""

/-- The message about a line as such. -/
def lineMessage (place : Place) : String :=
  "line " ++ toString place.number ++ " could not be parsed: " ++ quotedLine place

/-- The text of a fault. -/
def message : Fault → String
  | general _ message _ => message
  | illegalName name pattern =>
    "name '" ++ name ++ "' is not a legal stock name, must be of format " ++ pattern
  | illegalSource rule source =>
    "stock '" ++ source ++ "' cannot be used as source for rate '" ++ rule ++ "'"
  | circularReferences cycle graph =>
    "found cycle '" ++ cycle.text ++ "' in references '" ++ graph.text ++ "'"
  | invalidFormula formula reason _ => formulaMessage formula reason
  | unresolvedReference formula name => formulaMessage formula (unresolvedReason name)
  | undeclaredStock name => "stock '" ++ name ++ "' has not been declared"
  | missingStock collection name => "stock '" ++ name ++ "' not found in " ++ collection.text
  | unknownOverride name => "cannot override unknown stock '" ++ name ++ "'"
  | roundPassed wanted reached =>
    "cannot run to round " ++ toString wanted ++ ": already at round " ++ toString reached
  | line place | deferred place => lineMessage place
  | lineBecause place cause => lineMessage place ++ "\n" ++ cause.message
  | invalidParameters text place =>
    "line " ++ toString place.number ++ " specifies invalid parameters '" ++ text ++ "': " ++
      quotedLine place
  | conflictingValues stock first second place =>
    if place.number = 0 && place.line = "" then
      "'" ++ stock ++ "' initialized with conflicting value " ++ second ++ " (was " ++ first ++ ")"
    else
      "line " ++ toString place.number ++ " initializes " ++ stock ++ " with conflicting value " ++
        second ++ " (was " ++ first ++ "): " ++ quotedLine place
  | unknownFlowType label place =>
    "line " ++ toString place.number ++ " has invalid flow type \"" ++ label ++ "\": " ++
      quotedLine place
  | wholeTooLarge => "int too large to convert to float"
  | wholeTooLong digits => digitsMessage digits
  | countTooLarge => "cannot convert float infinity to integer"
  | undefinedNumber => "cannot build a formula from NaN"
  | notAFormula typeName => "cannot build a formula from " ++ typeName
  | unreadableNumber text => "could not convert string to float: " ++ Text.quoted text
  | notANumber typeName =>
    "float() argument must be a string or a real number, not '" ++ typeName ++ "'"
  | notASize typeName => "must be real number, not " ++ typeName
  | notADouble typeName => "'" ++ typeName ++ "' object has no attribute 'is_integer'"
  | badCount flaw => flaw.message
  | missingEntry name => Text.quoted name
  | nulInPath => "embedded null byte"
  | unknownCode number => toString number ++ " is not a valid ErrorCode"
  | unknownSetting name =>
    "RunSpec.__init__() got an unexpected keyword argument '" ++ name ++ "'"

/-- The place of a fault of a line. -/
def place? : Fault → Option Place
  | line place | lineBecause place _ | deferred place | invalidParameters _ place
  | conflictingValues _ _ _ place | unknownFlowType _ place => some place
  | _ => none

/-- Fills in the place of a fault of a line. -/
def annotate (place : Place) : Fault → Fault
  | line _ => line place
  | lineBecause _ cause => lineBecause place cause
  | deferred _ => deferred place
  | invalidParameters text _ => invalidParameters text place
  | conflictingValues stock first second _ => conflictingValues stock first second place
  | unknownFlowType label _ => unknownFlowType label place
  | fault => fault

/-- Whether a fault was raised without knowing its line. -/
def awaitsPlace : Fault → Bool
  | deferred _ | invalidParameters .. | conflictingValues .. | unknownFlowType .. => true
  | _ => false

/-- A fault met while a line is processed: it gets the line's place, or becomes its cause. -/
def atLine (place : Place) (fault : Fault) : Fault :=
  if fault.awaitsPlace then fault.annotate place else lineBecause place fault

/-- Whether a fault is one of specs and models, and not of the numbers given to them. -/
def isOfModel : Fault → Bool
  | wholeTooLarge | wholeTooLong _ | countTooLarge | undefinedNumber | notAFormula _
  | unreadableNumber _ | notANumber _ | notASize _ | notADouble _ | badCount _ | missingEntry _
  | nulInPath | unknownCode _ | unknownSetting _ => false
  | _ => true

end Fault

end StockFlow
