import SealedEnvelope.Transfer.Emission
import SealedEnvelope.Transfer.Source

/-!
Work whose source is the very file that its output goes to. The file begins
empty, and the source then delivers whatever has left the buffer of the writer by
the time it is asked.
-/

namespace SealedEnvelope

/-- A writer that collects small writes before it passes them on. -/
structure WriteBuffer where
  passedOn : Bytes
  held : Bytes

namespace WriteBuffer

/-- The number of bytes that a buffer holds. -/
def capacity : Nat := 8192

/-- Passes on what is held where the next write does not fit behind it; a write as large as the
whole buffer is passed on at once. -/
def write (bytes : Bytes) (b : WriteBuffer) : WriteBuffer :=
  let room : WriteBuffer :=
    if b.held.length + bytes.length ≤ capacity then b else ⟨b.passedOn ++ b.held, []⟩
  if capacity ≤ bytes.length then ⟨room.passedOn ++ bytes, room.held⟩
  else ⟨room.passedOn, room.held ++ bytes⟩

def perform (b : WriteBuffer) : OutputStep → WriteBuffer
  | .write _ bytes => b.write bytes
  | .flush _ => ⟨b.passedOn ++ b.held, []⟩

end WriteBuffer

namespace Emission

/-- The bytes that have left the buffer of the writer when the last step is done. -/
def passedOn {α : Type} (e : Emission α) : Bytes :=
  (e.steps.foldl WriteBuffer.perform ⟨[], []⟩).passedOn

/-- The source that work finds in its own output: `seen`, then what it has passed on when it asks
for more than that, until nothing new is there. The number of rounds is limited. -/
def loopback {α : Type} (work : Source → Emission α) (seen : Bytes) : Nat → Source
  | 0 => .ofBytes seen
  | rounds + 1 =>
      let asking : Source := ⟨Source.pieces seen, some (.device "no more")⟩
      let found := (work asking).passedOn
      if found.length ≤ seen.length then .ofBytes seen else loopback work found rounds

end Emission

end SealedEnvelope
