import SealedEnvelope.Proofs.Envelope.HeaderFormat

/-!
The trailer of a signed stream. Between any two calls of the reader that keeps it back, what has
been taken from the source has been delivered or is held, and none of the trailer has been
delivered. A decryption that succeeds has read to the end; so the trailer is there, and what
would be done without one is never done.
-/

namespace SealedEnvelope

open EnvelopeCipher (front)

namespace Withholding

variable {source : Source} {got : Bytes} {w : Withholding}

/-- The state of a reader over `source` that has delivered `got`. What some number of calls has
taken from the source has been delivered or is held, nothing of the trailer has been delivered,
and no more than one block is held beside it. -/
structure Progress (source : Source) (got : Bytes) (w : Withholding) : Prop where
  taken : ∃ k, ByteReader.calls (List.replicate k readAhead) source = (got ++ w.held, w.source)
  got_prefix : got <+: front source.bytes
  held_le : w.held.length ≤ trailerLength + readAhead
  of_ended : w.ended = true → w.source.bytes = [] ∧ source.fault = none

theorem progress_ofSource (source : Source) : Progress source [] (ofSource source) where
  taken := ⟨0, rfl⟩
  got_prefix := List.nil_prefix
  held_le := Nat.zero_le _
  of_ended h := by cases h

namespace Progress

theorem bytes_eq (h : Progress source got w) :
    source.bytes = got ++ w.held ++ w.source.bytes ∧ w.source.fault = source.fault := by
  obtain ⟨k, hcalls⟩ := h.taken
  have hbytes := Source.bytes_of_calls (List.replicate k readAhead) source
  rwa [hcalls] at hbytes

/-- The loop of a call only moves bytes from the source to what is held. -/
theorem refill (h : Progress source got w) : Progress source got w.refill.2 where
  taken := by
    obtain ⟨k, hcalls⟩ := h.taken
    obtain ⟨k', -, bytes, hmore, hheld⟩ := w.refilled.exists_calls
    refine ⟨k + k', ?_⟩
    rw [List.replicate_add, ByteReader.calls_append, hcalls]
    dsimp only
    rw [hmore, hheld, List.append_assoc]
  got_prefix := h.got_prefix
  held_le := w.refilled.held_le.trans (max_le h.held_le le_rfl)
  of_ended hended := by
    rcases w.refilled.of_ended hended with ⟨hbefore, hnext⟩ | ⟨hnil, hnone⟩
    · rw [hnext]
      exact h.of_ended hbefore
    · exact ⟨hnil, h.bytes_eq.2.symm.trans hnone⟩

/-- What is delivered comes off the front of what is held, and as much as a trailer stays. -/
theorem deliver (h : Progress source got w) {count : Nat}
    (hcount : count ≤ w.held.length - trailerLength) :
    Progress source (got ++ w.held.take count) { w with held := w.held.drop count } where
  taken := by
    obtain ⟨k, hcalls⟩ := h.taken
    exact ⟨k, by rw [hcalls, List.append_assoc, List.take_append_drop]⟩
  got_prefix := by
    obtain ⟨hbytes, -⟩ := h.bytes_eq
    have hwhole : got ++ w.held.take count <+: source.bytes := by
      rw [hbytes, List.append_assoc]
      exact (List.prefix_append_right_inj got).mpr
        ((List.take_prefix count w.held).trans (List.prefix_append _ _))
    have hbefore := h.got_prefix.length_le
    have hlength := congrArg List.length hbytes
    refine List.prefix_take_iff.mpr ⟨hwhole, ?_⟩
    simp only [front, List.length_append, List.length_take] at hlength hbefore ⊢
    omega
  held_le := by
    have hheld := h.held_le
    rw [List.length_drop]
    omega
  of_ended := h.of_ended

theorem read (h : Progress source got w) (n : Nat) :
    Progress source (got ++ (w.read n).1.bytes) (w.read n).2 := by
  have hfilled := h.refill
  rw [Withholding.read]
  rcases hrefill : w.refill with ⟨fault | fault, filled⟩
  · rw [hrefill] at hfilled
    exact hfilled.deliver (Nat.min_le_left _ _)
  · rw [hrefill] at hfilled
    simpa only [Reading.bytes, List.append_nil] using hfilled

theorem calls (h : Progress source got w) (sizes : List Nat) :
    Progress source (got ++ (ByteReader.calls sizes w).1) (ByteReader.calls sizes w).2 := by
  induction sizes generalizing got w with
  | nil => simpa only [ByteReader.calls, List.append_nil] using h
  | cons n sizes ih =>
      have hlater := ih (h.read n)
      rw [List.append_assoc] at hlater
      exact hlater

/-- Behind a source that does not fail, every call is answered with bytes. -/
theorem exists_data (h : Progress source got w) (hfault : source.fault = none) (n : Nat) :
    ∃ bytes, (w.read n).1 = .data bytes ∧ bytes.length ≤ n := by
  rcases hread : w.read n with ⟨reading, next⟩
  cases reading with
  | data bytes => exact ⟨bytes, rfl, (read_data hread).1⟩
  | interrupted => exact absurd hread read_ne_interrupted
  | failed f =>
      have hsame := h.bytes_eq.2
      rw [Withholding.read] at hread
      rcases hrefill : w.refill with ⟨fault | fault, filled⟩
      · rw [hrefill] at hread
        cases hread
      · obtain ⟨-, -, hfailed⟩ := w.refilled.of_some (congrArg Prod.fst hrefill)
        rw [hsame, hfault] at hfailed
        cases hfailed

/-- A call that brings nothing, though there is room, has found the end; all but the last bytes
have been delivered then, and those are held. -/
theorem of_read_nil (h : Progress source got w) {n : Nat} (hn : 0 < n) {next : Withholding}
    (hread : w.read n = (.data [], next)) :
    next.ended = true ∧ next.source.bytes = [] ∧ source.fault = none ∧
      got ++ next.held = source.bytes ∧
      next.held.length = min trailerLength source.bytes.length := by
  have hprogress := h.read n
  rw [hread, Reading.bytes, List.append_nil] at hprogress
  have hstopped := w.refilled.of_none
  rw [Withholding.read] at hread
  rcases hrefill : w.refill with ⟨fault | fault, filled⟩
  · rw [hrefill] at hread hstopped
    dsimp only at hstopped
    obtain ⟨hdata, rfl⟩ := Prod.mk.inj hread
    have hnone := congrArg List.length (Reading.data.inj hdata)
    rw [List.length_take, List.length_nil] at hnone
    -- With room left, only a reader that holds no more than a trailer brings nothing; and with so
    -- little held the loop has stopped at the end.
    have hended : filled.ended = true := (hstopped rfl).resolve_left (by omega)
    obtain ⟨hsource, hfault⟩ := hprogress.of_ended hended
    obtain ⟨hbytes, -⟩ := hprogress.bytes_eq
    rw [hsource, List.append_nil] at hbytes
    refine ⟨hended, hsource, hfault, hbytes.symm, ?_⟩
    have hbefore := hprogress.got_prefix.length_le
    have hlength := congrArg List.length hbytes
    simp only [front, List.length_append, List.length_take, List.length_drop] at hlength hbefore ⊢
    omega
  · rw [hrefill] at hread
    cases hread

/-- The bytes that are still to be delivered stand between those that have been and the trailer. -/
theorem exists_keeps (h : Progress source got w) :
    ∃ rest, got ++ rest = front source.bytes ∧
      Keeps (source.bytes.drop (source.bytes.length - trailerLength)) w rest source.fault := by
  obtain ⟨rest, hrest⟩ := h.got_prefix
  obtain ⟨hbytes, hfault⟩ := h.bytes_eq
  refine ⟨rest, hrest, ?_, ?_, ?_, hfault, h.of_ended⟩
  · have hsame : got ++ (w.held ++ w.source.bytes) =
        got ++ (rest ++ source.bytes.drop (source.bytes.length - trailerLength)) := by
      rw [← List.append_assoc, ← hbytes, ← List.append_assoc, hrest, front, List.take_append_drop]
    exact List.append_cancel_left hsame
  · rw [List.length_drop]
    omega
  · intro hshort
    have hlength := congrArg List.length hrest
    simp only [front, List.length_append, List.length_take, List.length_drop] at hlength hshort
    exact List.length_eq_zero_iff.mp (by omega)

end Progress

/-- Each turn of the loop in a call takes something from the source, but for the last one. -/
theorem exists_calls_read (w : Withholding) (n : Nat) :
    ∃ k ≤ w.source.size + 1,
      (ByteReader.calls (List.replicate k readAhead) w.source).2 = (w.read n).2.source := by
  obtain ⟨k, hk, bytes, hcalls, -⟩ := w.refilled.exists_calls
  refine ⟨k, hk, ?_⟩
  rw [hcalls, Withholding.read]
  rcases w.refill with ⟨fault | fault, filled⟩ <;> rfl

end Withholding

open Withholding (Progress trailerLength readAhead)

namespace StreamCipher

/-- No bytes are no ciphertext. -/
theorem decryptBytes_nil (c : StreamCipher) (k : SegmentKeys) :
    (c.decryptBytes k []).ending = .error (.authenticationFailed .streamDecrypt) := by
  have hcut : flagLast (Bytes.cut (c.bufferSize.val + 16) []) = [⟨true, []⟩] := by
    rw [Bytes.cut_nil]
    rfl
  have hshort : (⟨segmentNonce k.nonce 0 true, k.ad, []⟩ : Piece).sealedText.length < 16 :=
    Nat.zero_lt_succ 15
  have hopen : k.openSegment .streamDecrypt 0 ⟨true, []⟩ =
      .error (.authenticationFailed .streamDecrypt) :=
    Piece.openText_of_refused (Piece.opens_of_short hshort) _
  exact (c.bytes_decryptBytes_of_first k hcut hopen).1

variable {source : Source} {got : Bytes} {w : Withholding} {c : StreamCipher} {k : SegmentKeys}
  {total : Nat}

/-- A decryption that succeeds leaves the reader with the trailer. -/
theorem trailer?_of_decrypt (h : Progress source got w)
    (hending : (c.decrypt k w).1.ending = .ok total) :
    trailerLength ≤ source.bytes.length ∧
      (c.decrypt k w).2.trailer? =
        some (source.bytes.drop (source.bytes.length - trailerLength)) := by
  obtain ⟨rest, hrest, hkeeps⟩ := h.exists_keeps
  cases hfault : source.fault with
  | some f =>
      rw [hfault] at hkeeps
      have hfailure := failure_blocksRun (Withholding.view _) .streamDecrypt
        (by omega : 0 < c.bufferSize.val + 16) hkeeps
      have hcollect : (c.decrypt k w).1.collect = .ok ((c.decrypt k w).1.bytes, total) :=
        Emission.collect_eq_ok.mpr ⟨hending, rfl⟩
      exact absurd hcollect (SegmentRun.collect_emit_of_failure hfailure)
  | none =>
      rw [hfault] at hkeeps
      obtain ⟨last, hdecrypt, hended⟩ := decrypt_eq (Withholding.view _) c k hkeeps
      rw [hdecrypt] at hending ⊢
      -- A shorter source has nothing to deliver, and nothing is not decrypted.
      have hlong : trailerLength ≤ source.bytes.length := by
        by_contra hshort
        have hnil : rest = [] := hkeeps.empty_of_short (by rw [List.length_drop]; omega)
        rw [hnil, decryptBytes_nil] at hending
        cases hending
      refine ⟨hlong, ?_⟩
      rw [Withholding.trailer?_of_ended hended, if_pos (by rw [List.length_drop]; omega)]

end StreamCipher

namespace EnvelopeCipher

/-- The opening of a signed stream, with `missing` done where no trailer is left. -/
def openSignedOr (missing : Emission (Nat × Option Bytes)) (operation : Operation)
    (header : EnvelopeHeader) (encodedHeader : Bytes) (contentKey : Octets 32) (size : UInt32)
    (body : Source) : Emission (Nat × Option Bytes) := do
  let cipher ← .ofExcept (segmentCipher size)
  let (emission, rest) := cipher.decrypt (bodyKeys contentKey header.nonce encodedHeader)
    (Withholding.ofSource body)
  let written ← emission
  match rest.trailer? with
  | none => missing
  | some trailer =>
      let signature ← .ofExcept (openText operation contentKey (trailerNonce header.nonce)
        (boundTo trailerLabel encodedHeader) trailer)
      pure (written, some signature)

/-- Whatever would be done without a trailer, it is not done. -/
theorem openBody_eq_openSignedOr {header : EnvelopeHeader} {size : UInt32}
    (hlayout : header.layout = .signedStream size) (missing : Emission (Nat × Option Bytes))
    (operation : Operation) (encodedHeader : Bytes) (contentKey : Octets 32) (body : Source) :
    openBody operation header encodedHeader contentKey body =
      openSignedOr missing operation header encodedHeader contentKey size body := by
  rw [openBody, openSignedOr, hlayout]
  dsimp only
  cases segmentCipher size with
  | error failure => rfl
  | ok cipher =>
      rw [Emission.ofExcept_ok_bind, Emission.ofExcept_ok_bind]
      rcases hdecrypt : cipher.decrypt (bodyKeys contentKey header.nonce encodedHeader)
        (Withholding.ofSource body) with ⟨emission, rest⟩
      dsimp only
      cases hending : emission.ending with
      | error failure =>
          rw [Emission.bind_of_error hending, Emission.bind_of_error hending]
      | ok total =>
          have hsuccess : (cipher.decrypt (bodyKeys contentKey header.nonce encodedHeader)
              (Withholding.ofSource body)).1.ending = .ok total := by rw [hdecrypt, hending]
          obtain ⟨-, htrailer⟩ := StreamCipher.trailer?_of_decrypt
            (Withholding.progress_ofSource body) hsuccess
          rw [hdecrypt] at htrailer
          dsimp only at htrailer
          simp only [htrailer]

end EnvelopeCipher

/-- Read calls into buffers of any sizes, one after another, on a reader that keeps back the
trailer. What calls of the source have taken from it is what has been delivered, then what is held;
no byte delivered is from the trailer; no more than one block is held beside it; a call ends after a
bounded number of calls of the source, and with bytes unless the source fails; and it brings nothing,
though there is room, only at the end, with all but the trailer delivered. A decryption that
succeeds leaves the trailer behind, so there always is one when a signed stream is opened. -/
theorem trailer_withheld_exactly {source : Source} {sizes : List Nat} {got : Bytes}
    {w : Withholding}
    (hcalls : ByteReader.calls sizes (Withholding.ofSource source) = (got, w)) :
    (∃ k, ByteReader.calls (List.replicate k readAhead) source = (got ++ w.held, w.source)) ∧
      got <+: source.bytes.take (source.bytes.length - trailerLength) ∧
      w.held.length ≤ trailerLength + readAhead ∧
      (∀ n, (∃ k ≤ w.source.size + 1,
          (ByteReader.calls (List.replicate k readAhead) w.source).2 = (w.read n).2.source) ∧
        (source.fault = none → ∃ bytes, (w.read n).1 = .data bytes ∧ bytes.length ≤ n)) ∧
      (∀ n next, 0 < n → w.read n = (.data [], next) →
        next.ended = true ∧ next.source.bytes = [] ∧ source.fault = none ∧
          got ++ next.held = source.bytes ∧
          next.held.length = min trailerLength source.bytes.length) ∧
      (∀ (c : StreamCipher) (k : SegmentKeys) (total : Nat),
        (c.decrypt k w).1.ending = .ok total →
          trailerLength ≤ source.bytes.length ∧
            (c.decrypt k w).2.trailer? =
              some (source.bytes.drop (source.bytes.length - trailerLength))) ∧
      ∀ (missing : Emission (Nat × Option Bytes)) (operation : Operation)
        (header : EnvelopeHeader) (encodedHeader : Bytes) (contentKey : Octets 32)
        (size : UInt32), header.layout = .signedStream size →
          EnvelopeCipher.openBody operation header encodedHeader contentKey source =
            EnvelopeCipher.openSignedOr missing operation header encodedHeader contentKey size
              source := by
  have hprogress : Progress source got w := by
    have hrun := (Withholding.progress_ofSource source).calls sizes
    rwa [hcalls] at hrun
  refine ⟨hprogress.taken, hprogress.got_prefix, hprogress.held_le, ?_, ?_, ?_, ?_⟩
  · intro n
    exact ⟨w.exists_calls_read n, fun hfault => hprogress.exists_data hfault n⟩
  · intro n next hn hread
    exact hprogress.of_read_nil hn hread
  · intro c k total hending
    exact StreamCipher.trailer?_of_decrypt hprogress hending
  · intro missing operation header encodedHeader contentKey size hlayout
    exact EnvelopeCipher.openBody_eq_openSignedOr hlayout missing operation encodedHeader
      contentKey source

/-- A reader that has found the end of a source without a whole trailer. -/
def tooShort : Withholding := ⟨⟨[], none⟩, [1, 2, 3], true⟩

/-- Two segments and a trailer, a byte at a time and each behind an interruption: decryption leaves
the trailer. Of three bytes none is delivered. -/
theorem trailer_withheld_exactly_drip : ∃ segments : Bytes,
    let source := EnvelopeHeader.drip (segments ++ List.replicate 80 9)
    let cipher : StreamCipher := ⟨⟨4, by decide, by decide⟩⟩
    let header : EnvelopeHeader := ⟨1, .signedStream 4, .zero 12, [], none⟩
    (cipher.decrypt .zero (Withholding.ofSource source)).1.ending = .ok 5 ∧
      (cipher.decrypt .zero (Withholding.ofSource source)).2.trailer? =
        some (List.replicate 80 9) ∧
      EnvelopeCipher.openBody .decryptStream header [] (.zero 32) source =
        EnvelopeCipher.openSignedOr (pure (0, none)) .decryptStream header [] (.zero 32) 4 source ∧
      ByteReader.calls [5, 0] (Withholding.ofSource (EnvelopeHeader.drip [1, 2, 3])) =
        ([], tooShort) ∧
      tooShort.read 1 = (.data [], tooShort) ∧
      tooShort.held = (EnvelopeHeader.drip [1, 2, 3]).bytes := by
  let cipher : StreamCipher := ⟨⟨4, by decide, by decide⟩⟩
  have hcut : Bytes.cut 4 [1, 2, 3, 4, 5] = [[1, 2, 3, 4], [5]] := by decide +kernel
  have hfits : SegmentKeys.Fits 0 (flagLast (Bytes.cut 4 [1, 2, 3, 4, 5])) := by
    rw [hcut]
    exact SegmentKeys.fits_flagLast (by simp) (by decide) (by decide)
  have hcollect := cipher.collect_decryptBytes_encryptFrom .zero hfits
  generalize (SegmentKeys.zero.encryptFrom 0 _).flatMap Segment.text = segments at hcollect
  have hbytes := EnvelopeHeader.bytes_drip (segments ++ List.replicate 80 9)
  obtain ⟨last, hdecrypt, -⟩ := StreamCipher.decrypt_eq (Withholding.view (List.replicate 80 9))
    cipher .zero (Withholding.view_holds hbytes List.length_replicate)
  have hending : (cipher.decrypt .zero (Withholding.ofSource
      (EnvelopeHeader.drip (segments ++ List.replicate 80 9)))).1.ending = .ok 5 := by
    rw [hdecrypt]
    exact (Emission.collect_eq_ok.mp hcollect).1
  obtain ⟨-, -, -, -, -, hleft, hopen⟩ := trailer_withheld_exactly
    (rfl : ByteReader.calls [] (Withholding.ofSource
      (EnvelopeHeader.drip (segments ++ List.replicate 80 9))) = _)
  obtain ⟨-, htrailer⟩ := hleft cipher .zero 5 hending
  have hlength : (segments ++ List.replicate 80 (9 : UInt8)).length - trailerLength =
      segments.length := by
    rw [List.length_append, List.length_replicate]
    exact Nat.add_sub_cancel _ _
  rw [hbytes, hlength, List.drop_left] at htrailer
  have hcalls : ByteReader.calls [5, 0] (Withholding.ofSource (EnvelopeHeader.drip [1, 2, 3])) =
      ([], tooShort) := by decide +kernel
  have hread : tooShort.read 1 = (.data [], tooShort) := by decide +kernel
  obtain ⟨-, -, -, -, hend, -⟩ := trailer_withheld_exactly hcalls
  exact ⟨segments, hending, htrailer, hopen _ _ _ _ _ _ rfl, hcalls, hread,
    (hend 1 _ Nat.one_pos hread).2.2.2.1⟩

end SealedEnvelope
