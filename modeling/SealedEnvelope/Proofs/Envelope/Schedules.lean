import SealedEnvelope.Proofs.Envelope.Opening
import SealedEnvelope.Proofs.Segment.Faults
import SealedEnvelope.Proofs.Transfer.Recorded

/-!
Operations between a reader and a writer. Neither the pieces that are delivered and
accepted nor interruptions have an effect on the result and on what is written. Where
reading, writing or flushing fails, the operation fails, and what has been written by
then is a front part of what it writes otherwise.
-/

namespace SealedEnvelope

section Header

variable {ρ : Type} [ByteReader ρ] {v v' : ReaderView ρ} {fault : Option IoFault} {r r' : ρ}

namespace EnvelopeHeader

theorem readExactly_untilFault (h : ReaderView.UntilFault v v' fault r r') (n : Nat) :
    (∃ result next next', readExactly n r = (result, next) ∧ readExactly n r' = (result, next') ∧
        ReaderView.UntilFault v v' fault next next') ∨
      ∃ failure next, fault ≠ none ∧ readExactly n r = (.error failure, next) := by
  rw [readExactly, readExactly]
  rcases h.fill n with ⟨got, next, next', hfill, hfill', hnext, -⟩ | ⟨f, next, hfault, hfill⟩
  · rw [hfill, hfill']
    dsimp only
    split
    · exact .inl ⟨_, next, next', rfl, rfl, hnext⟩
    · exact .inl ⟨_, next, next', rfl, rfl, hnext⟩
  · rw [hfill]
    exact .inr ⟨_, next, hfault, rfl⟩

/-- Both readers have the same header in front or the same fault in it, or the first one fails. -/
theorem readFrom_untilFault (h : ReaderView.UntilFault v v' fault r r') :
    (∃ result next next', readFrom r = (result, next) ∧ readFrom r' = (result, next') ∧
        ReaderView.UntilFault v v' fault next next') ∨
      ∃ failure next, fault ≠ none ∧ readFrom r = (.error failure, next) := by
  rw [readFrom, readFrom]
  rcases readExactly_untilFault h 4 with
    ⟨field, next, next', hfield, hfield', hnext⟩ | ⟨failure, next, hfault, hfield⟩
  case inr =>
    rw [hfield]
    exact .inr ⟨failure, next, hfault, rfl⟩
  rw [hfield, hfield']
  rcases field with failure | field
  · exact .inl ⟨_, next, next', rfl, rfl, hnext⟩
  dsimp only
  cases lengthOf field with
  | error failure => exact .inl ⟨_, next, next', rfl, rfl, hnext⟩
  | ok length =>
      dsimp only
      rcases readExactly_untilFault hnext length with
        ⟨encoded, last, last', hread, hread', hlast⟩ | ⟨failure, last, hfault, hread⟩
      · rw [hread, hread']
        cases encoded with
        | error failure => exact .inl ⟨_, last, last', rfl, rfl, hlast⟩
        | ok encoded => exact .inl ⟨_, last, last', rfl, rfl, hlast⟩
      · rw [hread]
        exact .inr ⟨failure, last, hfault, rfl⟩

end EnvelopeHeader

end Header

namespace EnvelopeCipher

variable {fault : Option IoFault} {source source' : Source}

/-- With the trailers kept back, both still deliver the same until the first one fails. -/
theorem exists_withheld (h : ReaderView.UntilFault Source.view Source.view fault source source') :
    ∃ tail tail', ReaderView.UntilFault (Withholding.view tail) (Withholding.view tail') fault
      (.ofSource source) (.ofSource source') := by
  obtain ⟨bytes, rest, ⟨rfl, rfl⟩, ⟨hbytes, hfault⟩, hrest⟩ := h
  obtain ⟨tail, hview, -⟩ := exists_view source
  obtain ⟨tail', hview', -⟩ := exists_view source'
  obtain ⟨later, hlater⟩ := front_prefix_front_append source.bytes rest
  rw [hfault, hbytes, ← hlater] at hview'
  refine ⟨tail, tail', _, later, hview, hview', ?_⟩
  intro hnone
  rw [hrest hnone, List.append_nil] at hlater
  exact List.append_right_eq_self.mp hlater

theorem untilFault_openBody
    (h : ReaderView.UntilFault Source.view Source.view fault source source')
    (operation : Operation) (header : EnvelopeHeader) (encodedHeader : Bytes)
    (contentKey : Octets 32) :
    (openBody operation header encodedHeader contentKey source).UntilFault fault
      (openBody operation header encodedHeader contentKey source') := by
  constructor
  · intro hnone
    obtain ⟨bytes, rest, ⟨rfl, hfault⟩, ⟨hbytes, hfault'⟩, hrest⟩ := h
    rw [openBody_eq (hfault.trans hnone), openBody_eq hfault', hbytes, hrest hnone,
      List.append_nil]
  · intro hne
    rw [openBody, openBody]
    cases header.layout with
    | sealed =>
        obtain ⟨f, rfl⟩ := Option.ne_none_iff_exists'.mp hne
        obtain ⟨bytes, rest, ⟨-, hfault⟩, -⟩ := h
        have hall := source.readAll_eq
        rw [hfault] at hall
        simp only [hall]
        exact .of_nil rfl _
    | stream size =>
        apply Emission.FailsWithin.bind_left
        intro cipher
        exact ((StreamCipher.untilFault_decrypt h cipher _).within hne).bind _ _
    | signedStream size =>
        obtain ⟨tail, tail', hwithheld⟩ := exists_withheld h
        apply Emission.FailsWithin.bind_left
        intro cipher
        exact ((StreamCipher.untilFault_decrypt hwithheld cipher _).within hne).bind _ _

theorem untilFault_decryptStreamWith
    (h : ReaderView.UntilFault Source.view Source.view fault source source')
    (operation : Operation) (unwrap : EnvelopeHeader → Except Failure (Octets 32)) :
    (decryptStreamWith operation unwrap source).UntilFault fault
      (decryptStreamWith operation unwrap source') := by
  rw [decryptStreamWith, decryptStreamWith]
  rcases EnvelopeHeader.readFrom_untilFault h with
    ⟨result, next, next', hread, hread', hnext⟩ | ⟨failure, next, hfault, hread⟩
  · rw [hread, hread']
    cases result with
    | error failure => exact .fail fault failure
    | ok found =>
        apply Emission.UntilFault.bind_left
        intro contentKey
        exact untilFault_openBody hnext operation found.1 found.2 contentKey
  · rw [hread]
    exact .of_fail hfault rfl _

theorem untilFault_decryptThenVerifyStream
    (h : ReaderView.UntilFault Source.view Source.view fault source source') (c : EnvelopeCipher)
    (key : Ed25519PrivateKey) (verifiers : List Ed25519PublicKey) :
    (c.decryptThenVerifyStream key verifiers source).UntilFault fault
      (c.decryptThenVerifyStream key verifiers source') := by
  rw [decryptThenVerifyStream, decryptThenVerifyStream]
  split
  · exact .fail fault _
  · have hopened := untilFault_decryptStreamWith h .decryptThenVerifyStream
      (unwrapSigned .decryptThenVerifyStream (c.unwrapForKey .decryptThenVerifyStream key))
    exact hopened.bind fun hnone => by rw [hopened.same hnone]

end EnvelopeCipher

section Digest

open EnvelopeCipher

/-- Once the segments have been written, the text is all that has passed a recording reader, which
yields the same segments as the reader itself. -/
theorem encryptRun_bind_recorded {ρ β : Type} [ByteReader ρ] {v : ReaderView ρ} {r : ρ}
    {bytes : Bytes} {fault : Option IoFault} (h : v.Holds r bytes fault) (c : StreamCipher)
    (k : SegmentKeys) (next : Nat → Bytes → Emission β) :
    (StreamCipher.encryptRun k (c.plainRun (Recorded.ofReader r)) >>= fun consumed =>
        next consumed (StreamCipher.readBlocks c.bufferSize.val (Recorded.ofReader r)).2.2.seen) =
      (StreamCipher.encryptRun k (c.plainRun r) >>= fun consumed =>
        next consumed (c.plainRun r).text) := by
  have hrecorded := Recorded.view_holds h
  have hrun : c.plainRun (Recorded.ofReader r) = c.plainRun r := by
    obtain ⟨hblocks, hfault⟩ := ReaderView.readBlocks_congr _ c.bufferSize.pos hrecorded h
    simp only [StreamCipher.plainRun, hblocks, hfault]
  rw [hrun]
  cases fault with
  | none =>
      obtain ⟨last, hblocks, -, hseen⟩ :=
        (Recorded.view v bytes).readBlocks_eq c.bufferSize.pos hrecorded
      have htext : (c.plainRun r).text = bytes := by
        rw [StreamCipher.plainRun_eq v c h, SegmentRun.text, text_flagLast,
          Bytes.flatten_cut c.bufferSize.pos]
      rw [hblocks, htext, hseen]
  | some f =>
      obtain ⟨failure, hending⟩ : ∃ failure,
          (StreamCipher.encryptRun k (c.plainRun r)).ending = .error failure := by
        have hfailure : (c.plainRun r).failure = some (.io .streamEncrypt f) :=
          failure_blocksRun v .streamEncrypt c.bufferSize.pos h
        rw [StreamCipher.encryptRun, SegmentRun.ending_emit, hfailure]
        cases (emitSegments _ 0 (c.plainRun r).segments).ending with
        | error failure => exact ⟨failure, rfl⟩
        | ok n => exact ⟨_, rfl⟩
      rw [Emission.bind_of_error hending, Emission.bind_of_error hending]

/-- Encryption with a signature where the source is read through a recorder, as a running digest
reads it, and the digest of what that has seen is signed. -/
def signThroughRecorder (c : EnvelopeCipher) (signer : Ed25519PrivateKey) (header : EnvelopeHeader)
    (contentKey : Octets 32) (source : Source) : Emission Nat := do
  let encoded ← header.write
  let recorded := Recorded.ofReader source
  let consumed ← StreamCipher.encryptRun (bodyKeys contentKey header.nonce encoded)
    (c.stream.plainRun recorded)
  let seen := (StreamCipher.readBlocks c.stream.bufferSize.val recorded).2.2.seen
  let signature ← .ofExcept (Signature.sign (Sha512.digest seen).toBytes signer)
  .write .signThenEncryptStream (Gcm.encrypt contentKey (trailerNonce header.nonce)
    (boundTo trailerLabel encoded) signature.toBytes)
  .flush .signThenEncryptStream
  pure consumed

/-- The digest that is signed is that of what has passed the recorder, wherever reading ends. -/
theorem signThenEncryptStream_eq_recorded {c : EnvelopeCipher} {signer : Ed25519PrivateKey}
    {recipients : List Recipient} {e last : Entropy} {emit : Source → Emission Nat}
    (h : c.signThenEncryptStream signer recipients e = (.ok emit, last)) :
    ∃ header contentKey, emit = signThroughRecorder c signer header contentKey := by
  obtain ⟨-, size, header, contentKey, -, -, rfl⟩ := Encryption.signThenEncryptStream_eq_ok h
  refine ⟨header, contentKey, ?_⟩
  funext source
  congr 1
  funext encoded
  exact (encryptRun_bind_recorded source.view_holds c.stream _ fun consumed text => do
    let signature ← .ofExcept (Signature.sign (Sha512.digest text).toBytes signer)
    .write .signThenEncryptStream (Gcm.encrypt contentKey (trailerNonce header.nonce)
      (boundTo trailerLabel encoded) signature.toBytes)
    .flush .signThenEncryptStream
    pure consumed).symm

end Digest

/-- An operation that reads everything from a source and writes. -/
inductive Streaming where
  | encryptSegments (cipher : StreamCipher) (keys : SegmentKeys)
  | decryptSegments (cipher : StreamCipher) (keys : SegmentKeys)
  | encryptChunks (cipher : ChunkCipher) (keys : SegmentKeys)
  | decryptChunks (cipher : ChunkCipher) (keys : SegmentKeys)
  | encrypt (c : EnvelopeCipher) (recipients : List Recipient)
  | signThenEncrypt (c : EnvelopeCipher) (signer : Ed25519PrivateKey)
      (recipients : List Recipient)
  | decrypt (c : EnvelopeCipher) (key : Ed25519PrivateKey)
  | decryptWithPassword (phrase : Bytes)
  | decryptThenVerify (c : EnvelopeCipher) (key : Ed25519PrivateKey)
      (verifiers : List Ed25519PublicKey)

namespace Streaming

/-- What is left to do with the text of a source once all randomness has been drawn. -/
def plan : Streaming → Random (Source → Emission Nat)
  | .encryptSegments cipher keys => pure (cipher.encrypt keys)
  | .decryptSegments cipher keys => pure fun source => (cipher.decrypt keys source).1
  | .encryptChunks cipher keys => pure (cipher.encrypt keys)
  | .decryptChunks cipher keys => pure (cipher.decrypt keys)
  | .encrypt c recipients => c.encryptStream recipients
  | .signThenEncrypt c signer recipients => c.signThenEncryptStream signer recipients
  | .decrypt c key => pure (c.decryptStream key)
  | .decryptWithPassword phrase => pure (EnvelopeCipher.decryptStreamWithPassword phrase)
  | .decryptThenVerify c key verifiers => pure (c.decryptThenVerifyStream key verifiers)

/-- The result, the source of randomness afterwards, and the writer. -/
def run (op : Streaming) (e : Entropy) (source : Source) (sink : Sink) :
    Except Failure Nat × Entropy × Sink :=
  match op.plan e with
  | (.error failure, later) => (.error failure, later, sink)
  | (.ok emit, later) =>
      let (result, filled) := sink.deliver (emit source)
      (result, later, filled)

/-- The run from memory to a writer that takes everything at once. -/
def wholeRun (op : Streaming) (e : Entropy) (data : Bytes) : Except Failure Nat × Entropy × Sink :=
  op.run e (.ofBytes data) .unlimited

/-- Each operation emits the same until reading fails. -/
theorem untilFault {op : Streaming} {e later : Entropy} {emit : Source → Emission Nat}
    (hplan : op.plan e = (.ok emit, later)) {fault : Option IoFault} {source source' : Source}
    (h : ReaderView.UntilFault Source.view Source.view fault source source') :
    (emit source).UntilFault fault (emit source') := by
  cases op with
  | encryptSegments cipher keys =>
      cases hplan
      exact StreamCipher.untilFault_encrypt h cipher keys
  | decryptSegments cipher keys =>
      cases hplan
      exact StreamCipher.untilFault_decrypt h cipher keys
  | encryptChunks cipher keys =>
      cases hplan
      exact ChunkCipher.untilFault_encrypt h cipher keys
  | decryptChunks cipher keys =>
      cases hplan
      exact ChunkCipher.untilFault_decrypt h cipher keys
  | encrypt c recipients =>
      obtain ⟨size, header, contentKey, -, -, rfl⟩ := Encryption.encryptStream_eq_ok hplan
      apply Emission.UntilFault.bind_left
      intro encoded
      exact StreamCipher.untilFault_encrypt h c.stream _
  | signThenEncrypt c signer recipients =>
      obtain ⟨-, size, header, contentKey, -, -, rfl⟩ :=
        Encryption.signThenEncryptStream_eq_ok hplan
      apply Emission.UntilFault.bind_left
      intro encoded
      have hrun := StreamCipher.untilFault_plainRun h c.stream
      exact (hrun.emit _ _).bind fun hnone => by rw [hrun.same hnone]
  | decrypt c key =>
      cases hplan
      exact (EnvelopeCipher.untilFault_decryptStreamWith h _ _).map Prod.fst
  | decryptWithPassword phrase =>
      cases hplan
      exact (EnvelopeCipher.untilFault_decryptStreamWith h _ _).map Prod.fst
  | decryptThenVerify c key verifiers =>
      cases hplan
      exact EnvelopeCipher.untilFault_decryptThenVerifyStream h c key verifiers

/-- A run ends as its delivery does, or before anything is read or written. -/
theorem run_cases (op : Streaming) (e : Entropy) :
    (∃ failure later, ∀ source sink, op.run e source sink = (.error failure, later, sink)) ∨
      ∃ emit later, op.plan e = (.ok emit, later) ∧ ∀ source sink, op.run e source sink =
        ((sink.deliver (emit source)).1, later, (sink.deliver (emit source)).2) := by
  rcases hplan : op.plan e with ⟨failure | emit, later⟩
  · left
    exact ⟨failure, later, fun source sink => by rw [run, hplan]⟩
  · right
    exact ⟨emit, later, rfl, fun source sink => by rw [run, hplan]⟩

end Streaming

namespace Signature

variable {source : Source} {data : Bytes}

theorem digestAll_of_whole (h : source.Feeds data) (hfault : source.fault = none)
    (operation : Operation) :
      digestAll operation source = digestAll operation (Source.ofBytes data) := by
  rw [digestAll_eq hfault, digestAll_eq rfl, Source.bytes_ofBytes, h.whole hfault]

theorem digestAll_of_ok (h : source.Feeds data) {operation : Operation} {digest : Bytes}
    (hok : digestAll operation source = .ok digest) :
    digestAll operation (Source.ofBytes data) = .ok digest := by
  cases hfault : source.fault with
  | none => rw [← digestAll_of_whole h hfault, hok]
  | some f =>
      rw [digestAll, source.readAll_eq, hfault] at hok
      cases hok

end Signature

/-- Any source that delivers the data in some pieces, or fails after the first of it, and any
writer. Each operation gives the writer a front part of what it writes from memory to one that
takes everything at once. If it succeeds, then that does too, with the same result, and all is
written; where neither fails, the two do the same. The digests of streams depend on no more. -/
theorem schedule_independent (e : Entropy) {data : Bytes} {source : Source}
    (hsource : source.Feeds data) (sink : Sink) :
    (∀ op : Streaming, ∃ written,
      (op.run e source sink).2.1 = (op.wholeRun e data).2.1 ∧
      (op.run e source sink).2.2.taken = sink.taken ++ written ∧
      written <+: (op.wholeRun e data).2.2.taken ∧
      (∀ n, (op.run e source sink).1 = .ok n →
        (op.wholeRun e data).1 = .ok n ∧
          written = (op.wholeRun e data).2.2.taken) ∧
      (source.fault = none → sink.Reliable →
        (op.run e source sink).1 = (op.wholeRun e data).1 ∧
          written = (op.wholeRun e data).2.2.taken)) ∧
    (∀ key : Ed25519PrivateKey,
      (∀ signature, Signature.signStream source key = .ok signature →
        Signature.signStream (Source.ofBytes data) key = .ok signature) ∧
      (source.fault = none →
        Signature.signStream source key = Signature.signStream (Source.ofBytes data) key)) ∧
    ∀ (signature : Bytes) (key : Ed25519PublicKey),
      (Signature.verifyStream source signature key = .ok () →
        Signature.verifyStream (Source.ofBytes data) signature key = .ok ()) ∧
      (source.fault = none → Signature.verifyStream source signature key =
        Signature.verifyStream (Source.ofBytes data) signature key) := by
  refine ⟨?_, ?_, ?_⟩
  · intro op
    rcases op.run_cases e with ⟨failure, later, hrun⟩ | ⟨emit, later, hplan, hrun⟩
    · refine ⟨[], ?_⟩
      rw [Streaming.wholeRun, hrun, hrun]
      exact ⟨rfl, (List.append_nil _).symm, List.nil_prefix, nofun, fun _ _ => ⟨rfl, rfl⟩⟩
    · rw [Streaming.wholeRun, hrun, hrun]
      dsimp only
      have huntil := Streaming.untilFault hplan
        (hsource.untilFault (Source.bytes_ofBytes data) rfl)
      obtain ⟨whole, hwhole, htaken⟩ := Sink.unlimited_reliable.deliver (emit (.ofBytes data))
      obtain ⟨written, hprefix, hwritten, hok⟩ := huntil.deliver sink
      rw [hwhole, htaken]
      refine ⟨written, rfl, hwritten, hprefix, hok, ?_⟩
      intro hfault hsink
      obtain ⟨next, hdeliver, hnext⟩ := hsink.deliver (emit source)
      rw [hdeliver] at hwritten ⊢
      rw [← huntil.same hfault]
      exact ⟨rfl, List.append_cancel_left (hwritten.symm.trans hnext)⟩
  · intro key
    constructor
    · intro signature hok
      obtain ⟨seed, hseed, hok⟩ := bind_eq_ok.mp hok
      obtain ⟨digest, hdigest, hok⟩ := bind_eq_ok.mp hok
      exact bind_eq_ok.mpr ⟨seed, hseed,
        bind_eq_ok.mpr ⟨digest, Signature.digestAll_of_ok hsource hdigest, hok⟩⟩
    · intro hfault
      rw [Signature.signStream, Signature.signStream, Signature.digestAll_of_whole hsource hfault]
  · intro signature key
    constructor
    · intro hok
      obtain ⟨point, hpoint, hok⟩ := bind_eq_ok.mp hok
      obtain ⟨parsed, hparsed, hok⟩ := bind_eq_ok.mp hok
      obtain ⟨digest, hdigest, hok⟩ := bind_eq_ok.mp hok
      exact bind_eq_ok.mpr ⟨point, hpoint, bind_eq_ok.mpr ⟨parsed, hparsed,
        bind_eq_ok.mpr ⟨digest, Signature.digestAll_of_ok hsource hdigest, hok⟩⟩⟩
    · intro hfault
      rw [Signature.verifyStream, Signature.verifyStream,
        Signature.digestAll_of_whole hsource hfault]

/-- Three bytes that come in two pieces with an interruption between them, and a writer that takes
one byte at a time. If reading fails before the last byte, a front part is written. -/
theorem schedule_independent_trickle :
    (Source.mk [.piece 1 [], .interruption, .piece 2 [3]] none).Feeds [1, 2, 3] ∧
      (Source.mk [.piece 1 [], .interruption, .piece 2 []] (some (.device "gone"))).Feeds
        [1, 2, 3] ∧
      ∀ (op : Streaming) (e : Entropy),
        (op.run e ⟨[.piece 1 [], .interruption, .piece 2 [3]], none⟩
            { Sink.unlimited with portion := fun _ _ => 1 }).2.2.taken =
          (op.wholeRun e [1, 2, 3]).2.2.taken ∧
        (op.run e ⟨[.piece 1 [], .interruption, .piece 2 []], some (.device "gone")⟩
            Sink.unlimited).2.2.taken <+: (op.wholeRun e [1, 2, 3]).2.2.taken := by
  have hwhole : (Source.mk [.piece 1 [], .interruption, .piece 2 [3]] none).Feeds [1, 2, 3] :=
    ⟨by decide, fun _ => by decide⟩
  have hcut : (Source.mk [.piece 1 [], .interruption, .piece 2 []]
      (some (.device "gone"))).Feeds [1, 2, 3] := ⟨by decide, nofun⟩
  refine ⟨hwhole, hcut, ?_⟩
  intro op e
  constructor
  · have hslow : ({ Sink.unlimited with portion := fun _ _ => 1 } : Sink).Reliable :=
      ⟨rfl, rfl, fun _ _ _ => Nat.one_pos⟩
    obtain ⟨written, -, htaken, -, -, hall⟩ :=
      (schedule_independent e hwhole { Sink.unlimited with portion := fun _ _ => 1 }).1 op
    rw [htaken, (hall rfl hslow).2]
    rfl
  · obtain ⟨written, -, htaken, hfront, -⟩ := (schedule_independent e hcut Sink.unlimited).1 op
    rw [htaken]
    exact hfront

end SealedEnvelope
