import SealedEnvelope.Failure

/-!
What an operation does to its output: a list of steps, and how it ended. Steps
are only ever appended, so an operation can be followed by another, collected
into a byte string, or delivered to a writer.
-/

namespace SealedEnvelope

/-- One step, and the operation that a failing step is blamed on. -/
inductive OutputStep where
  | write (operation : Operation) (bytes : Bytes)
  | flush (operation : Operation)
deriving DecidableEq, Repr

def OutputStep.bytes : OutputStep → Bytes
  | .write _ bytes => bytes
  | .flush _ => []

/-- The steps up to the end, and the result or the failure. -/
structure Emission (α : Type) where
  steps : List OutputStep
  ending : Except Failure α

namespace Emission

variable {α β : Type}

def ofExcept (result : Except Failure α) : Emission α := ⟨[], result⟩

def fail (failure : Failure) : Emission α := ⟨[], .error failure⟩

/-- The steps of the first and, where it did not fail, those of what follows. -/
def andThen (e : Emission α) (f : α → Emission β) : Emission β :=
  match e.ending with
  | .error failure => ⟨e.steps, .error failure⟩
  | .ok a =>
      let next := f a
      ⟨e.steps ++ next.steps, next.ending⟩

/-- The same steps with another result. -/
def mapResult (f : α → β) (e : Emission α) : Emission β := ⟨e.steps, e.ending.map f⟩

instance : Monad Emission where
  pure a := ⟨[], .ok a⟩
  bind := andThen
  map := mapResult

def write (operation : Operation) (bytes : Bytes) : Emission Unit :=
  ⟨[.write operation bytes], .ok ()⟩

def flush (operation : Operation) : Emission Unit := ⟨[.flush operation], .ok ()⟩

/-- Everything written, in order. -/
def bytes (e : Emission α) : Bytes := e.steps.flatMap OutputStep.bytes

/-- The bytes and the result, if there was no failure. -/
def collect (e : Emission α) : Except Failure (Bytes × α) := e.ending.map fun a => (e.bytes, a)

end Emission

end SealedEnvelope
