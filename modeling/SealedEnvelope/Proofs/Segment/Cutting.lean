import SealedEnvelope.Proofs.Segment.Run

/-!
Cuttings of a text into full pieces and a last one. There is one with as few pieces as
possible, which encryption uses; a text of whole pieces has just one more, that ends
with an empty piece.
-/

namespace SealedEnvelope

theorem SegmentSize.le_maxTextLength (size : SegmentSize) : size.val ≤ maxTextLength :=
  size.le.trans (by decide)

/-- A text in pieces: full ones, and a last one that may be shorter or empty. -/
structure Cutting (size : SegmentSize) (text : Bytes) where
  full : List Bytes
  last : Bytes
  length_full : ∀ piece ∈ full, piece.length = size.val
  length_last : last.length ≤ size.val
  joined : full.flatten ++ last = text

namespace Cutting

variable {size : SegmentSize} {text : Bytes}

/-- All pieces in order. -/
def pieces (c : Cutting size text) : List Bytes := c.full ++ [c.last]

@[simp]
theorem length_pieces (c : Cutting size text) : c.pieces.length = c.full.length + 1 := by
  simp [pieces]

theorem pieces_ne_nil (c : Cutting size text) : c.pieces ≠ [] := by
  simp [pieces]

@[simp]
theorem flatten_pieces (c : Cutting size text) : c.pieces.flatten = text := by
  simp [pieces, c.joined]

theorem length_le (c : Cutting size text) : ∀ piece ∈ c.pieces, piece.length ≤ size.val := by
  intro piece hpiece
  rcases List.mem_append.mp hpiece with hfull | hlast
  · exact (c.length_full piece hfull).le
  · rw [List.mem_singleton.mp hlast]
    exact c.length_last

theorem length_eq (c : Cutting size text) :
    text.length = size.val * c.full.length + c.last.length := by
  conv_lhs => rw [← c.joined]
  rw [List.length_append, Bytes.length_flatten_of_full c.length_full]

/-- The number of pieces settles them all. -/
theorem eq_of_count {c d : Cutting size text} (h : c.full.length = d.full.length) : c = d := by
  obtain ⟨hfull, hlast⟩ :=
    Bytes.full_inj c.length_full d.length_full h (c.joined.trans d.joined.symm)
  cases c
  cases d
  dsimp only at hfull hlast
  subst hfull hlast
  rfl

/-- The cutting with the fewest pieces; no text is one empty piece. -/
def fewest (size : SegmentSize) (text : Bytes) : Cutting size text where
  full := (Bytes.cut size.val text).dropLast
  last := (Bytes.cut size.val text).getLastD []
  length_full := by
    intro piece hpiece
    by_cases hnil : text = []
    · rw [hnil, Bytes.cut_nil] at hpiece
      cases hpiece
    · obtain ⟨full, last, hcut, hfull, -⟩ := Bytes.exists_cut_eq size.pos hnil
      rw [hcut, List.dropLast_concat] at hpiece
      exact hfull piece hpiece
  length_last := by
    by_cases hnil : text = []
    · simp [hnil]
    · obtain ⟨full, last, hcut, -, -, hlast⟩ := Bytes.exists_cut_eq size.pos hnil
      rw [hcut, List.getLastD_concat]
      exact hlast
  joined := by
    by_cases hnil : text = []
    · simp [hnil]
    · obtain ⟨full, last, hcut, -⟩ := Bytes.exists_cut_eq size.pos hnil
      have hjoin := Bytes.flatten_cut size.pos text
      rw [hcut] at hjoin
      rw [hcut, List.dropLast_concat, List.getLastD_concat]
      simpa using hjoin

theorem last_fewest_ne_nil (size : SegmentSize) (h : text ≠ []) :
    (fewest size text).last ≠ [] := by
  obtain ⟨full, last, hcut, -, hne, -⟩ := Bytes.exists_cut_eq size.pos h
  simpa [fewest, hcut] using hne

theorem flagLast_cut (size : SegmentSize) (text : Bytes) :
    flagLast (Bytes.cut size.val text) = flagLast (fewest size text).pieces := by
  by_cases hnil : text = []
  · simp [hnil, pieces, fewest, flagLast]
  · obtain ⟨full, last, hcut, -⟩ := Bytes.exists_cut_eq size.pos hnil
    simp [pieces, fewest, hcut]

/-- A last piece that holds something comes behind as many full ones as fit in front of it. -/
theorem length_full_eq (c : Cutting size text) (h : c.last ≠ []) :
    c.full.length = (text.length - 1) / size.val := by
  have hpos := List.length_pos_iff.mpr h
  have hlength := c.length_eq
  have hlast := c.length_last
  symm
  apply Nat.div_eq_of_lt_le
  · rw [Nat.mul_comm]
    omega
  · rw [Nat.mul_comm, Nat.mul_succ]
    omega

theorem length_pieces_fewest (size : SegmentSize) (text : Bytes) :
    (fewest size text).pieces.length = max 1 ((text.length + size.val - 1) / size.val) := by
  have hsize := size.pos
  rw [length_pieces]
  by_cases hnil : text = []
  · subst hnil
    have hcount : (fewest size []).full.length = 0 := by simp [fewest]
    have hzero : (size.val - 1) / size.val = 0 := Nat.div_eq_of_lt (by omega)
    simp [hcount, hzero]
  · have hpos := List.length_pos_iff.mpr hnil
    have hquotient : (text.length + size.val - 1) / size.val =
        (text.length - 1) / size.val + 1 := by
      rw [← Nat.add_div_right _ hsize]
      congr 1
      omega
    rw [length_full_eq _ (last_fewest_ne_nil size hnil), hquotient]
    exact (Nat.max_eq_right (Nat.le_add_left _ _)).symm

/-- A text of whole pieces ends with a whole piece. -/
theorem length_last_fewest (hne : text ≠ []) (hdvd : size.val ∣ text.length) :
    (fewest size text).last.length = size.val := by
  have hpos := List.length_pos_iff.mpr (last_fewest_ne_nil size hne)
  have hdvd' : size.val ∣ (fewest size text).last.length := by
    rw [(fewest size text).length_eq] at hdvd
    exact (Nat.dvd_add_right (Nat.dvd_mul_right _ _)).mp hdvd
  exact Nat.le_antisymm (fewest size text).length_last (Nat.le_of_dvd hpos hdvd')

/-- The other cutting of a text of whole pieces, that ends with an empty one. -/
def withEmptyEnd (hne : text ≠ []) (hdvd : size.val ∣ text.length) : Cutting size text where
  full := (fewest size text).pieces
  last := []
  length_full := by
    intro piece hpiece
    rcases List.mem_append.mp hpiece with hfull | hlast
    · exact (fewest size text).length_full piece hfull
    · rw [List.mem_singleton.mp hlast]
      exact length_last_fewest hne hdvd
  length_last := Nat.zero_le _
  joined := by simp

/-- There are no other cuttings. -/
theorem eq_fewest_or (c : Cutting size text) :
    c = fewest size text ∨
      ∃ (hne : text ≠ []) (hdvd : size.val ∣ text.length), c = withEmptyEnd hne hdvd := by
  have hpos := size.pos
  have hlength := c.length_eq
  have hfewest := (fewest size text).length_eq
  by_cases hnil : text = []
  · subst hnil
    left
    apply eq_of_count
    rw [List.length_nil] at hlength hfewest
    have hc : size.val * c.full.length = 0 := by omega
    have hf : size.val * (fewest size []).full.length = 0 := by omega
    rw [Nat.mul_eq_zero] at hc hf
    omega
  · by_cases hempty : c.last = []
    · have hdvd : size.val ∣ text.length := by
        rw [hlength, hempty]
        exact Nat.dvd_mul_right _ _
      refine .inr ⟨hnil, hdvd, eq_of_count ?_⟩
      rw [length_last_fewest hnil hdvd, ← Nat.mul_succ] at hfewest
      rw [hempty, List.length_nil, Nat.add_zero] at hlength
      have hcount := Nat.eq_of_mul_eq_mul_left hpos (hlength.symm.trans hfewest)
      rw [hcount]
      exact (length_pieces _).symm
    · left
      apply eq_of_count
      rw [c.length_full_eq hempty, length_full_eq _ (last_fewest_ne_nil size hnil)]

/-- With 64-bit numbers there are enough for any text of 64-bit length. -/
theorem numbered (c : Cutting size text) (h : text.length < UInt64.size) :
    c.pieces.length ≤ UInt64.size := by
  have hlength := c.length_eq
  have hcount : c.full.length ≤ size.val * c.full.length := Nat.le_mul_of_pos_left _ size.pos
  rw [length_pieces]
  omega

/-- Pieces can be encrypted. -/
theorem fits (c : Cutting size text) (h : text.length < UInt64.size) :
    SegmentKeys.Fits 0 (flagLast c.pieces) :=
  SegmentKeys.fits_flagLast c.pieces_ne_nil
    (fun piece hpiece => (c.length_le piece hpiece).trans size.le_maxTextLength) (c.numbered h)

end Cutting

end SealedEnvelope
