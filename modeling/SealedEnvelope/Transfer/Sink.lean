import SealedEnvelope.Transfer.Emission

/-!
Writing: a writer that may take less than it is offered, stop at a limit or fail
to flush, the loop that offers the rest again, and the delivery of an emission.
-/

namespace SealedEnvelope

/-- A writer that holds what it has accepted so far. Call number `i` takes at most `portion i n`
of `n` bytes offered, and no more than `capacity` bytes are taken in all; after that a call fails
with `overflow`, or takes nothing where there is no such fault. -/
structure Sink where
  accepted : Array UInt8
  calls : Nat
  portion : Nat → Nat → Nat
  capacity : Option Nat
  overflow : Option IoFault
  flushFault : Option IoFault

namespace Sink

/-- A writer that takes everything at once. -/
def unlimited : Sink := ⟨#[], 0, fun _ n => n, none, none, none⟩

/-- The room left, if there is a limit. -/
def isFull (s : Sink) : Bool :=
  match s.capacity with
  | some capacity => capacity ≤ s.accepted.size
  | none => false

/-- How many of `n` bytes offered now are taken. -/
def share (s : Sink) (n : Nat) : Nat :=
  let taken := min n (s.portion s.calls n)
  match s.capacity with
  | some capacity => min taken (capacity - s.accepted.size)
  | none => taken

/-- One write call: the number of bytes taken. -/
def write (bytes : Bytes) (s : Sink) : Except IoFault Nat × Sink :=
  match s.isFull, s.overflow with
  | true, some fault => (.error fault, { s with calls := s.calls + 1 })
  | _, _ =>
      let count := s.share bytes.length
      (.ok count,
       { s with accepted := s.accepted ++ (bytes.take count).toArray, calls := s.calls + 1 })

/-- Writes everything, offering again what was not taken; a call that takes nothing is a fault. -/
def writeAll (bytes : Bytes) (s : Sink) : Except IoFault Unit × Sink :=
  if bytes = [] then (.ok (), s)
  else
    match s.write bytes with
    | (.error fault, next) => (.error fault, next)
    | (.ok 0, next) => (.error .wroteNothing, next)
    | (.ok (count + 1), next) => writeAll (bytes.drop (count + 1)) next
termination_by bytes.length
decreasing_by
  rename_i h
  have hpos := List.length_pos_iff.mpr h
  simp only [List.length_drop]
  omega

def flush (s : Sink) : Except IoFault Unit :=
  match s.flushFault with
  | some fault => .error fault
  | none => .ok ()

/-- Performs one step. -/
def perform (step : OutputStep) (s : Sink) : Except Failure Unit × Sink :=
  match step with
  | .write operation bytes =>
      let (result, next) := s.writeAll bytes
      (result.mapError (.io operation), next)
  | .flush operation => (s.flush.mapError (.io operation), s)

/-- Performs steps in order up to the first that fails. -/
def performAll : List OutputStep → Sink → Except Failure Unit × Sink
  | [], s => (.ok (), s)
  | step :: rest, s =>
      match s.perform step with
      | (.error failure, next) => (.error failure, next)
      | (.ok (), next) => performAll rest next

/-- Performs the steps of an emission; where all succeed, its ending is the result. -/
def deliver {α : Type} (e : Emission α) (s : Sink) : Except Failure α × Sink :=
  match s.performAll e.steps with
  | (.error failure, next) => (.error failure, next)
  | (.ok (), next) => (e.ending, next)

end Sink

end SealedEnvelope
