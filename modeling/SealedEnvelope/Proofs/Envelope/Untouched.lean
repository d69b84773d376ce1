import SealedEnvelope.Proofs.Envelope.Schedules
import SealedEnvelope.Proofs.Envelope.Untrusted

/-!
What has been done to the streams when an operation on them fails. All that can be told without
the text is settled before either stream is touched, so what is left to fail for later is the
streams themselves or, in decryption, what does not authenticate.
-/

namespace SealedEnvelope

namespace Emission

variable {α β : Type} {late : List FailureKind} {e : Emission α}

/-- Where it fails in none of the `late` ways, nothing has been put out. -/
def SilentUnless (late : List FailureKind) (e : Emission α) : Prop :=
  ∀ failure, e.ending = .error failure → failure.kind ∉ late → e.steps = []

namespace SilentUnless

theorem of_nil (h : e.steps = []) : e.SilentUnless late := fun _ _ _ => h

theorem of_failsAs (h : FailsAs late e.ending) : e.SilentUnless late :=
  fun failure hending hearly => absurd (h failure hending) hearly

theorem fail (failure : Failure) : (Emission.fail failure : Emission α).SilentUnless late :=
  of_nil rfl

theorem map (h : e.SilentUnless late) (f : α → β) : (f <$> e).SilentUnless late := by
  intro failure hending
  exact h failure (map_eq_error.mp hending)

/-- What comes first puts out nothing at all. -/
theorem bind_of_nil {f : α → Emission β} (h : e.steps = [])
    (hf : ∀ a, e.ending = .ok a → (f a).SilentUnless late) : (e >>= f).SilentUnless late := by
  intro failure hending hearly
  cases he : e.ending with
  | error failure' =>
      rw [bind_of_error he]
      exact h
  | ok a =>
      rw [bind_of_ok he] at hending ⊢
      rw [h, hf a he failure hending hearly]
      rfl

/-- What follows fails late if it does. -/
theorem bind_of_late {f : α → Emission β} (h : e.SilentUnless late)
    (hf : ∀ a, FailsAs late (f a).ending) : (e >>= f).SilentUnless late := by
  intro failure hending hearly
  cases he : e.ending with
  | error failure' =>
      rw [bind_of_error he] at hending ⊢
      cases hending
      exact h failure he hearly
  | ok a =>
      rw [bind_of_ok he] at hending
      exact absurd (hf a failure hending) hearly

/-- A writer is as it was before, unless the failure is a late one. -/
theorem deliver {s next : Sink} {failure : Failure} (h : e.SilentUnless late)
    (hio : .io ∈ late) (hdeliver : s.deliver e = (.error failure, next))
    (hearly : failure.kind ∉ late) : next = s := by
  rcases Sink.deliver_error hdeliver with ⟨operation, fault, rfl⟩ | hending
  · exact absurd hio hearly
  · rw [Sink.deliver_of_nil (h failure hending hearly)] at hdeliver
    exact (Prod.mk.inj hdeliver).2.symm

end SilentUnless

end Emission

section Encryption

variable {source : Source}

/-- A text whose length is a 64-bit number cannot run out of segments, and none is too long. -/
theorem StreamCipher.failsAs_encryptRun (c : StreamCipher) (k : SegmentKeys)
    (hsource : source.bytes.length < 2 ^ 64) :
    FailsAs [.io] (encryptRun k (c.plainRun source)).ending := by
  have hle : c.bufferSize.val ≤ maxTextLength := c.bufferSize.le.trans (by decide)
  obtain ⟨n, hending⟩ := k.exists_ending_of_fits (encrypts_segmentWork k)
    (fits_blocksRun c.bufferSize.pos hle hsource)
  have hrun : (encryptRun k (c.plainRun source)).ending = _ :=
    SegmentRun.ending_emit (blocksRun .streamEncrypt c.bufferSize.val source) .streamEncrypt
      (segmentWork .streamEncrypt k.sealSegment fun s _ => s.text)
  rw [hrun, hending]
  intro failure hfailure
  cases hread : (blocksRun .streamEncrypt c.bufferSize.val source).failure with
  | none =>
      rw [hread] at hfailure
      cases hfailure
  | some cause =>
      rw [hread] at hfailure
      cases hfailure
      obtain ⟨fault, rfl⟩ := io_of_failure_blocksRun hread
      exact List.mem_singleton_self _

namespace Streaming

/-- Encryption of a stream for recipients, with a signature if there is a signer. -/
def encrypting (c : EnvelopeCipher) (signer : Option Ed25519PrivateKey)
    (recipients : List Recipient) : Streaming :=
  match signer with
  | none => .encrypt c recipients
  | some signer => .signThenEncrypt c signer recipients

variable {c : EnvelopeCipher} {signer : Option Ed25519PrivateKey} {recipients : List Recipient}

/-- A header that cannot be encoded is not written, whatever the text. -/
theorem write_bind_cases (header : EnvelopeHeader) {rest : Source → Bytes → Emission Nat}
    {late : List FailureKind} {n : Nat}
    (hrest : ∀ source : Source, source.bytes.length < n → ∀ encoded,
      FailsAs late (rest source encoded).ending) :
    (∃ failure, ∀ source, header.write >>= rest source = .fail failure) ∨
      ∀ source : Source, source.bytes.length < n →
        FailsAs late (header.write >>= rest source).ending := by
  cases hencode : header.encode with
  | error failure => exact .inl ⟨failure, fun source => Encryption.write_bind_of_error hencode _⟩
  | ok encoded =>
      refine .inr fun source hsource => ?_
      rw [Encryption.write_bind_of_ok hencode]
      exact hrest source hsource encoded

/-- Once all randomness has been drawn, only writing the header can fail for another reason than
the streams, and it does so whatever the text. -/
theorem encrypting_cases {e later : Entropy} {emit : Source → Emission Nat}
    (hplan : (encrypting c signer recipients).plan e = (.ok emit, later)) :
    (∃ failure, ∀ source, emit source = .fail failure) ∨
      ∀ source : Source, source.bytes.length < 2 ^ 64 → FailsAs [.io] (emit source).ending := by
  cases signer with
  | none =>
      obtain ⟨size, header, contentKey, -, -, rfl⟩ := Encryption.encryptStream_eq_ok hplan
      exact write_bind_cases header fun source hsource encoded =>
        c.stream.failsAs_encryptRun _ hsource
  | some signer =>
      obtain ⟨hsigner, size, header, contentKey, -, -, rfl⟩ :=
        Encryption.signThenEncryptStream_eq_ok hplan
      apply write_bind_cases header
      intro source hsource encoded
      apply FailsAs.ending_bind (c.stream.failsAs_encryptRun _ hsource)
      intro consumed _
      have hsign : Signature.sign (Sha512.digest (c.stream.plainRun source).text).toBytes
          signer = .ok _ := Signature.sign_eq_ok.mpr ⟨hsigner, rfl⟩
      rw [hsign]
      exact .ok consumed

/-- Encryption that fails otherwise than by its streams does so with any streams. -/
theorem encrypting_untouched {e later : Entropy} {source : Source} {sink next : Sink}
    {failure : Failure} (hsource : source.bytes.length < 2 ^ 64)
    (hrun : (encrypting c signer recipients).run e source sink = (.error failure, later, next))
    (hkind : failure.kind ≠ .io) (source' : Source) (sink' : Sink) :
    (encrypting c signer recipients).run e source' sink' = (.error failure, later, sink') := by
  rcases (encrypting c signer recipients).run_cases e with ⟨failure', later', hall⟩ |
      ⟨emit, later', hplan, hall⟩
  · rw [hall] at hrun ⊢
    cases hrun
    rfl
  · rw [hall] at hrun ⊢
    rcases encrypting_cases hplan with ⟨failure', hfail⟩ | hlate
    · rw [hfail, Sink.deliver_of_nil rfl] at hrun ⊢
      cases hrun
      rfl
    · obtain ⟨hresult, -⟩ := Prod.mk.inj hrun
      rcases Sink.deliver_error (Prod.ext hresult rfl) with ⟨operation, fault, rfl⟩ | hending
      · exact absurd rfl hkind
      · exact absurd (List.mem_singleton.mp (hlate source hsource failure hending)) hkind

end Streaming

end Encryption

section Decryption

open EnvelopeCipher

/-- What decryption can fail for after something has been written. -/
def lateKinds : List FailureKind :=
  [.io, .authenticationFailed, .signatureVerificationFailed, .invalidParameter]

theorem StreamCipher.failsAs_decrypt {ρ : Type} [ByteReader ρ] (c : StreamCipher)
    (k : SegmentKeys) (r : ρ) : FailsAs lateKinds (c.decrypt k r).1.ending := by
  let run := blocksRun .streamDecrypt (c.bufferSize.val + 16) r
  have hdecrypt : (c.decrypt k r).1 = k.decryptRun .streamDecrypt run := rfl
  rw [hdecrypt]
  obtain ⟨plain, rest, -, -, -, -, hend⟩ := k.decryptRun_cases .streamDecrypt run
  rcases hend with ⟨-, hending⟩ | ⟨-, -, hending⟩ | ⟨-, -, hending⟩
  · rw [hending]
    cases hread : run.failure with
    | none => exact .ok _
    | some failure =>
        obtain ⟨fault, rfl⟩ := io_of_failure_blocksRun hread
        exact .error .io rfl (by simp [lateKinds])
  · rw [hending]
    exact .error .authenticationFailed rfl (by simp [lateKinds])
  · rw [hending]
    exact .error .invalidParameter rfl (by simp [lateKinds])

/-- A body that is sealed as a whole is written after all of it has been checked; segments are
written as they authenticate. -/
theorem silentUnless_openBody (operation : Operation) (header : EnvelopeHeader)
    (encodedHeader : Bytes) (contentKey : Octets 32) (body : Source) :
    (openBody operation header encodedHeader contentKey body).SilentUnless lateKinds := by
  rw [openBody]
  cases header.layout with
  | sealed =>
      apply Emission.SilentUnless.bind_of_nil rfl
      intro sealedText _
      apply Emission.SilentUnless.bind_of_nil rfl
      intro text _
      apply Emission.SilentUnless.bind_of_nil rfl
      intro signature _
      exact .of_failsAs (.ok _)
  | stream size =>
      apply Emission.SilentUnless.bind_of_nil rfl
      intro cipher _
      apply Emission.SilentUnless.of_failsAs
      exact FailsAs.ending_bind (cipher.failsAs_decrypt _ body) fun written _ => .ok _
  | signedStream size =>
      apply Emission.SilentUnless.bind_of_nil rfl
      intro cipher _
      have hsegments := cipher.failsAs_decrypt (bodyKeys contentKey header.nonce encodedHeader)
        (Withholding.ofSource body)
      apply Emission.SilentUnless.of_failsAs
      rcases hdecrypt : cipher.decrypt (bodyKeys contentKey header.nonce encodedHeader)
        (Withholding.ofSource body) with ⟨emission, rest⟩
      rw [hdecrypt] at hsegments
      apply FailsAs.ending_bind hsegments
      intro written _
      cases rest.trailer? with
      | none => exact .error .authenticationFailed rfl (by simp [lateKinds])
      | some trailer =>
          have hauthentic : .authenticationFailed ∈ lateKinds := by simp [lateKinds]
          apply FailsAs.ending_bind (failsAs_openText _ hauthentic _ _ _ trailer)
          exact fun signature _ => .ok _

theorem silentUnless_decryptStreamWith (operation : Operation)
    (unwrap : EnvelopeHeader → Except Failure (Octets 32)) (source : Source) :
    (decryptStreamWith operation unwrap source).SilentUnless lateKinds := by
  rw [decryptStreamWith]
  split
  · exact .fail _
  · apply Emission.SilentUnless.bind_of_nil rfl
    intro contentKey _
    exact silentUnless_openBody _ _ _ contentKey _

/-- The ways to decrypt a stream. -/
inductive StreamOpening where
  | key (c : EnvelopeCipher) (privateKey : Ed25519PrivateKey)
  | password (phrase : Bytes)
  | verified (c : EnvelopeCipher) (privateKey : Ed25519PrivateKey)
      (verifiers : List Ed25519PublicKey)

namespace StreamOpening

def streaming : StreamOpening → Streaming
  | .key c privateKey => .decrypt c privateKey
  | .password phrase => .decryptWithPassword phrase
  | .verified c privateKey verifiers => .decryptThenVerify c privateKey verifiers

/-- The content key that is found in a header. -/
def unwrap : StreamOpening → EnvelopeHeader → Except Failure (Octets 32)
  | .key c privateKey => c.unwrapForKey .decryptStream privateKey
  | .password phrase => unwrapForPassword .decryptStream phrase
  | .verified c privateKey _ =>
      unwrapSigned .decryptThenVerifyStream (c.unwrapForKey .decryptThenVerifyStream privateKey)

def emit : StreamOpening → Source → Emission Nat
  | .key c privateKey => c.decryptStream privateKey
  | .password phrase => decryptStreamWithPassword phrase
  | .verified c privateKey verifiers => c.decryptThenVerifyStream privateKey verifiers

variable (opening : StreamOpening)

theorem run_eq (e : Entropy) (source : Source) (sink : Sink) :
    opening.streaming.run e source sink =
      ((sink.deliver (opening.emit source)).1, e, (sink.deliver (opening.emit source)).2) := by
  cases opening <;> rfl

theorem silentUnless_emit (source : Source) : (opening.emit source).SilentUnless lateKinds := by
  cases opening with
  | key c privateKey => exact (silentUnless_decryptStreamWith _ _ source).map Prod.fst
  | password phrase => exact (silentUnless_decryptStreamWith _ _ source).map Prod.fst
  | verified c privateKey verifiers =>
      simp only [emit, decryptThenVerifyStream]
      split
      case isTrue => exact .fail _
      case isFalse =>
        apply (silentUnless_decryptStreamWith _ _ source).bind_of_late
        rintro ⟨written, signature⟩
        have hverification : .signatureVerificationFailed ∈ lateKinds := by simp [lateKinds]
        cases signature with
        | none => exact .error .signatureVerificationFailed rfl hverification
        | some signature =>
            apply FailsAs.ending_bind
            · exact failsAs_verifyAny _ verifiers hverification _ signature
            · exact fun _ _ => .ok written

end StreamOpening

/-- A body that is sealed as a whole decrypts to the text under the content key, and so does the
signature in the header, if there is one. -/
structure SealedAuthentic (header : EnvelopeHeader) (encoded : Bytes) (contentKey : Octets 32)
    (body text : Bytes) : Prop where
  body : Gcm.decrypt contentKey header.nonce (boundTo bodyLabel encoded) body = some text
  signature : ∀ encrypted, header.signature = some encrypted → ∃ signature,
    Gcm.decrypt contentKey (signatureNonce header.nonce) signatureLabel encrypted = some signature

section Sealed

variable {operation : Operation} {header : EnvelopeHeader} {encoded : Bytes}

theorem decrypt_of_openText {key : Octets 32} {nonce : Octets 12} {ad sealedText text : Bytes}
    (h : openText operation key nonce ad sealedText = .ok text) :
    Gcm.decrypt key nonce ad sealedText = some text :=
  Gcm.decrypt_eq_some_iff.mpr (openText_eq_ok.mp h).2

theorem openBody_sealed_cases (hlayout : header.layout = .sealed) (contentKey : Octets 32)
    (body : Source) :
    (openBody operation header encoded contentKey body).steps = [] ∨
      ∃ text, body.fault = none ∧ SealedAuthentic header encoded contentKey body.bytes text ∧
        (openBody operation header encoded contentKey body).bytes = text := by
  have hall := body.readAll_eq
  simp only [openBody, hlayout]
  cases hfault : body.fault with
  | some fault =>
      rw [hfault] at hall
      rw [hall]
      exact .inl rfl
  | none =>
      rw [hfault] at hall
      rw [hall]
      cases hopen : openText operation contentKey header.nonce
          (bodyKeys contentKey header.nonce encoded).ad body.bytes with
      | error failure =>
          left
          simp only [Except.mapError, Emission.ofExcept_ok_bind, hopen]
          rfl
      | ok text =>
          cases hsignature : header.signature.mapM (openText operation contentKey
              (signatureNonce header.nonce) signatureLabel) with
          | error failure =>
              left
              simp only [Except.mapError, Emission.ofExcept_ok_bind, hopen]
              rfl
          | ok signature =>
              refine .inr ⟨text, rfl, ⟨decrypt_of_openText hopen, ?_⟩, ?_⟩
              · intro encrypted hencrypted
                rw [hencrypted] at hsignature
                obtain ⟨opened, hopened, -⟩ := map_eq_ok.mp hsignature
                exact ⟨opened, decrypt_of_openText hopened⟩
              · simp only [Except.mapError, Emission.ofExcept_ok_bind, hopen]
                rw [Emission.bytes_bind_of_ok rfl, Emission.bytes_bind_of_ok rfl]
                simp

variable {source body : Source}
  (hread : EnvelopeHeader.readFrom source = (.ok (header, encoded), body))
  (hlayout : header.layout = .sealed)
include hread hlayout

theorem decryptStreamWith_sealed_cases (unwrap : EnvelopeHeader → Except Failure (Octets 32)) :
    (decryptStreamWith operation unwrap source).steps = [] ∨
      ∃ contentKey text, unwrap header = .ok contentKey ∧ body.fault = none ∧
        SealedAuthentic header encoded contentKey body.bytes text ∧
        (decryptStreamWith operation unwrap source).bytes = text := by
  rw [decryptStreamWith, hread]
  dsimp only
  cases hunwrap : unwrap header with
  | error failure => exact .inl rfl
  | ok contentKey =>
      rw [Emission.ofExcept_ok_bind]
      rcases openBody_sealed_cases hlayout contentKey body with
        hnil | ⟨text, hfault, hauthentic, hbytes⟩
      · exact .inl hnil
      · exact .inr ⟨contentKey, text, rfl, hfault, hauthentic, hbytes⟩

theorem StreamOpening.emit_sealed_cases (opening : StreamOpening) :
    (opening.emit source).steps = [] ∨
      ∃ contentKey text, opening.unwrap header = .ok contentKey ∧ body.fault = none ∧
        SealedAuthentic header encoded contentKey body.bytes text ∧
        (opening.emit source).bytes = text := by
  cases opening with
  | key c privateKey => exact decryptStreamWith_sealed_cases hread hlayout _
  | password phrase => exact decryptStreamWith_sealed_cases hread hlayout _
  | verified c privateKey verifiers =>
      left
      simp only [emit, decryptThenVerifyStream]
      split
      case isTrue => rfl
      case isFalse =>
        have hnone : decryptStreamWith .decryptThenVerifyStream (unwrapSigned
            .decryptThenVerifyStream (c.unwrapForKey .decryptThenVerifyStream privateKey))
              source = .fail (.signatureVerificationFailed .decryptThenVerifyStream) := by
          rw [decryptStreamWith, hread]
          dsimp only
          rw [unwrapSigned, hlayout]
          rfl
        rw [hnone]
        rfl

end Sealed

end Decryption

/-- Encryption of a stream that fails otherwise than by its streams has not asked for any of the
text and has not written anything: it fails so whatever the streams are. This is so for every text
with a 64-bit length, and whether it is the recipients, the keys, the segment size, the costs, the
randomness or the length of the header that is at fault. Decryption has not written anything if it
fails because of the format, because no entry is for the reader or because of a key. A body that is
sealed as a whole is written only if it is authentic, and so is the signature in its header if there
is one. -/
theorem streams_untouched_by_early_failure (e : Entropy) (source : Source) (sink : Sink) :
    (∀ c signer recipients failure later next, source.bytes.length < 2 ^ 64 →
      (Streaming.encrypting c signer recipients).run e source sink = (.error failure, later, next) →
      failure.kind ≠ .io →
      next = sink ∧ ∀ source' sink', (Streaming.encrypting c signer recipients).run e source' sink' =
        (.error failure, later, sink')) ∧
    (∀ (opening : StreamOpening) failure later next,
      opening.streaming.run e source sink = (.error failure, later, next) →
      failure.kind ∈ [FailureKind.invalidFormat, .recipientNotFound, .invalidKey] →
      next = sink) ∧
    ∀ (opening : StreamOpening) header encoded body,
      EnvelopeHeader.readFrom source = (.ok (header, encoded), body) → header.layout = .sealed →
      (opening.streaming.run e source sink).2.2 = sink ∨
      ∃ contentKey text written, opening.unwrap header = .ok contentKey ∧ body.fault = none ∧
        SealedAuthentic header encoded contentKey body.bytes text ∧ written <+: text ∧
        (opening.streaming.run e source sink).2.2.taken = sink.taken ++ written := by
  refine ⟨?_, ?_, ?_⟩
  · intro c signer recipients failure later next hsource hrun hkind
    have hall := Streaming.encrypting_untouched hsource hrun hkind
    have hsame := (hall source sink).symm.trans hrun
    cases hsame
    exact ⟨rfl, hall⟩
  · intro opening failure later next hrun hkind
    have hearly : failure.kind ∉ lateKinds := by
      simp only [List.mem_cons, List.not_mem_nil, or_false] at hkind
      rcases hkind with hkind | hkind | hkind <;> rw [hkind] <;> decide
    rw [opening.run_eq] at hrun
    obtain ⟨hresult, hrest⟩ := Prod.mk.inj hrun
    obtain ⟨-, rfl⟩ := Prod.mk.inj hrest
    exact (opening.silentUnless_emit source).deliver (by simp [lateKinds]) (Prod.ext hresult rfl)
      hearly
  · intro opening header encoded body hread hlayout
    rw [opening.run_eq]
    rcases opening.emit_sealed_cases hread hlayout with
      hnil | ⟨contentKey, text, hunwrap, hfault, hauthentic, hbytes⟩
    · left
      rw [Sink.deliver_of_nil hnil]
    · obtain ⟨written, hprefix, htaken, -⟩ := sink.taken_deliver (opening.emit source)
      rw [hbytes] at hprefix
      exact .inr ⟨contentKey, text, written, hunwrap, hfault, hauthentic, hprefix, htaken⟩

/-- A sealed header without recipients. -/
def unaddressedHeader : EnvelopeHeader := ⟨1, .sealed, sevens.peek 12, [], none⟩

/-- Encryption for nobody, decryption of three bytes, and decryption of a body that is for nobody. -/
theorem streams_untouched_by_early_failure_sevens :
    (∀ source sink, (Streaming.encrypting cheapCipher none []).run sevens source sink =
      (.error (.invalidParameter .noRecipients), sevens, sink)) ∧
    ((StreamOpening.password sevenPhrase).streaming.run sevens (.ofBytes shortText)
      .unlimited).2.2 = .unlimited ∧
    ∃ encoded, unaddressedHeader.encode = .ok encoded ∧
      ((StreamOpening.password sevenPhrase).streaming.run sevens (.ofBytes (encoded ++ [1, 2, 3]))
        .unlimited).2.2 = .unlimited := by
  refine ⟨?_, ?_, ?_⟩
  · have hrun : (Streaming.encrypting cheapCipher none []).run sevens (.ofBytes shortText)
        .unlimited = (.error (.invalidParameter .noRecipients), sevens, .unlimited) := rfl
    obtain ⟨hencrypting, -, -⟩ := streams_untouched_by_early_failure sevens (.ofBytes shortText)
      .unlimited
    exact (hencrypting _ _ _ _ _ _ (by decide) hrun (by decide)).2
  · have hshort : shortText.length < 4 := by decide
    obtain ⟨next, hread⟩ := EnvelopeHeader.readExactly_of_lt Source.view
      ⟨Source.bytes_ofBytes shortText, rfl⟩ hshort
    have hresult : ((StreamOpening.password sevenPhrase).streaming.run sevens (.ofBytes shortText)
        .unlimited).1 = .error (.invalidFormat .headerTruncated) := by
      rw [StreamOpening.run_eq, StreamOpening.emit, EnvelopeCipher.decryptStreamWithPassword,
        EnvelopeCipher.decryptStreamWith, EnvelopeHeader.readFrom, hread]
      rfl
    obtain ⟨-, hopening, -⟩ := streams_untouched_by_early_failure sevens (.ofBytes shortText)
      .unlimited
    exact hopening _ _ _ _ (Prod.ext hresult rfl) (by decide)
  · have hle : unaddressedHeader.encodeMap.length ≤ maxHeaderLength := by decide +kernel
    have hencode := EnvelopeHeader.encode_eq_ok.mpr ⟨hle, rfl⟩
    have hfound : unaddressedHeader.FoundIn _ [1, 2, 3] :=
      EnvelopeHeader.foundIn_of_encode hencode ⟨rfl, .inl rfl, .inl rfl⟩
    obtain ⟨body, hread, -⟩ := hfound.readFrom_eq (.ofBytes _) (Source.bytes_ofBytes _) rfl
    obtain ⟨-, -, hsealed⟩ := streams_untouched_by_early_failure sevens (.ofBytes _) .unlimited
    refine ⟨_, hencode, ?_⟩
    rcases hsealed (.password sevenPhrase) _ _ _ hread rfl with
      hsame | ⟨contentKey, _, _, hunwrap, -⟩
    · exact hsame
    · cases hunwrap

end SealedEnvelope
