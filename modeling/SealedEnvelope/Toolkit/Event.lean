import SealedEnvelope.Failure

/-!
Diagnostic events: which operation ended how, and for which key. They carry
neither key material nor text.
-/

namespace SealedEnvelope

inductive LogLevel where
  | debug
  | info
  | warn
  | error
deriving DecidableEq, Repr

/-- The end of an operation. -/
structure Event where
  operation : Operation
  keyId : Option KeyId
  failure : Option Failure
deriving DecidableEq

namespace Event

/-- Trouble with the surroundings is an error, other failures are warnings. -/
def level (e : Event) : LogLevel :=
  match e.failure with
  | none => .debug
  | some .randomSource | some (.io _ _) => .error
  | some _ => .warn

def message (e : Event) : String :=
  match e.failure with
  | none => "ok"
  | some failure => failure.message

end Event

end SealedEnvelope
