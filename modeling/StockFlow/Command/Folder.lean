import StockFlow.Keyed
import StockFlow.Text.Quoted
import StockFlow.Text.Split

/-!
# Folders

Where the command line finds its files. A folder is given by the texts of its files under their
paths. A path is walked step by step, each step from a folder that there is; what it comes to tells
a file from a folder and from nothing at all. Of what lies outside, only the folders above are
known.
-/

namespace StockFlow.Command

/-- Why a path cannot be read. -/
inductive PathFlaw where
  | missing
  | notAFolder
  | isAFolder
  | tooLong
  deriving DecidableEq, Repr

/-- The system's number and words for a flaw. -/
def PathFlaw.reason : PathFlaw → String
  | missing => "[Errno 2] No such file or directory"
  | notAFolder => "[Errno 20] Not a directory"
  | isAFolder => "[Errno 21] Is a directory"
  | tooLong => "[Errno 36] File name too long"

/-- A flaw of a path as messages show it. -/
def PathFlaw.message (path : String) (flaw : PathFlaw) : String :=
  flaw.reason ++ ": " ++ Text.quoted path

/-- The most bytes of a name. -/
def maxNameSize : Nat :=
  255

/-- The most bytes of a path. -/
def maxPathSize : Nat :=
  4095

/-- The names in a path, without those that stay where they are. -/
def pathNames (path : String) : List String :=
  (Text.split '/' path).filter fun name => name ≠ "" && name ≠ "."

/-- Where a walk along a path has come to. -/
inductive Spot where
  /-- The folder itself or one below it, by the names on the way there. -/
  | within (names : List String)
  /-- A folder that is not below. -/
  | outside
  | file (text : String)
  deriving DecidableEq, Repr

namespace Spot

/-- What a name is the name of in a folder that is below. -/
def enter (files : Keyed String) (names : List String) (name : String) :
    Except PathFlaw Spot :=
  let names := names ++ [name]
  let located := files.map fun (path, text) => (pathNames path, text)
  match located.find? (·.1 == names) with
  | some (_, text) => .ok (file text)
  | none => if located.any (names.isPrefixOf ·.1) then .ok (within names) else .error .missing

/-- One step of a walk. Nothing is known by name outside. -/
def step (files : Keyed String) (spot : Spot) (name : String) : Except PathFlaw Spot :=
  match spot with
  | file _ => .error .notAFolder
  | spot =>
    if name = "" || name = "." then .ok spot
    else if maxNameSize < name.utf8ByteSize then .error .tooLong
    else
      match spot with
      | within names =>
        if name ≠ ".." then enter files names name
        else if names.isEmpty then .ok outside
        else .ok (within names.dropLast)
      | spot => if name = ".." then .ok spot else .error .missing

/-- There is no step from a file, not even one that stays. -/
theorem step_file (files : Keyed String) (text name : String) :
    step files (file text) name = .error .notAFolder := rfl

/-- Where a walk along a path starts. -/
def start (path : String) : Spot :=
  if path.startsWith "/" then outside else within []

/-- The text of a file. -/
def text : Spot → Except PathFlaw String
  | file text => .ok text
  | _ => .error .isAFolder

end Spot

/-- The text of the file at a path. -/
def lookUp (files : Keyed String) (path : String) : Except PathFlaw String :=
  if path = "" then .error .missing
  else if maxPathSize < path.utf8ByteSize then .error .tooLong
  else do (← (Text.split '/' path).foldlM (Spot.step files) (Spot.start path)).text

end StockFlow.Command
