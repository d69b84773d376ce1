import SealedEnvelope.Proofs.Transfer.View

/-!
A reader that keeps what has passed it, as a running digest does. However the bytes
arrive, and wherever reading fails, it yields what the reader behind it yields; once
that has ended, it has kept all of its bytes, each of them once.
-/

namespace SealedEnvelope

/-- The bytes that an answer brings. -/
def Reading.bytes : Reading → Bytes
  | .data bytes => bytes
  | .interrupted | .failed _ => []

/-- A reader, and everything that has been read from it. -/
structure Recorded (ρ : Type) where
  inner : ρ
  seen : Bytes

namespace Recorded

variable {ρ : Type} [ByteReader ρ]

def ofReader (r : ρ) : Recorded ρ := ⟨r, []⟩

/-- One read call, which is passed on. -/
def read (n : Nat) (r : Recorded ρ) : Reading × Recorded ρ :=
  let (reading, next) := ByteReader.read n r.inner
  (reading, ⟨next, r.seen ++ reading.bytes⟩)

theorem inner_of_read {n : Nat} {r next : Recorded ρ} {reading : Reading}
    (h : r.read n = (reading, next)) :
    ByteReader.read n r.inner = (reading, next.inner) ∧ next.seen = r.seen ++ reading.bytes := by
  cases h
  exact ⟨rfl, rfl⟩

instance : ByteReader (Recorded ρ) where
  read := read
  size r := ByteReader.size r.inner
  length_le_of_read h := ByteReader.length_le_of_read (inner_of_read h).1
  size_add_le_of_read h := ByteReader.size_add_le_of_read (inner_of_read h).1
  size_lt_of_interrupted hn h := ByteReader.size_lt_of_interrupted hn (inner_of_read h).1

/-- What has been seen and what is still to come are all that there is. -/
def view (v : ReaderView ρ) (text : Bytes) : ReaderView (Recorded ρ) where
  Holds r bytes fault := v.Holds r.inner bytes fault ∧ r.seen ++ bytes = text
  Ended r := r.seen = text
  data_read := by
    rintro n r next bytes got fault hn ⟨hholds, hseen⟩ hread
    obtain ⟨hinner, hnext⟩ := inner_of_read hread
    obtain ⟨rest, rfl, hrest⟩ := v.data_read hn hholds hinner
    exact ⟨rest, rfl, hrest, by rw [hnext, Reading.bytes, List.append_assoc, hseen]⟩
  ended_read := by
    rintro n r next bytes fault hn ⟨hholds, hseen⟩ hread
    obtain ⟨hinner, hnext⟩ := inner_of_read hread
    obtain ⟨rfl, rfl, -⟩ := v.ended_read hn hholds hinner
    exact ⟨rfl, rfl, by rw [hnext, Reading.bytes, hseen]⟩
  interrupted_read := by
    rintro n r next bytes fault hn ⟨hholds, hseen⟩ hread
    obtain ⟨hinner, hnext⟩ := inner_of_read hread
    refine ⟨v.interrupted_read hn hholds hinner, ?_⟩
    rw [hnext, Reading.bytes, List.append_nil, hseen]
  failed_read := by
    rintro n r next bytes fault f hn ⟨hholds, -⟩ hread
    exact v.failed_read hn hholds (inner_of_read hread).1

theorem view_holds {v : ReaderView ρ} {r : ρ} {bytes : Bytes} {fault : Option IoFault}
    (h : v.Holds r bytes fault) : (view v bytes).Holds (ofReader r) bytes fault := ⟨h, rfl⟩

end Recorded

end SealedEnvelope
