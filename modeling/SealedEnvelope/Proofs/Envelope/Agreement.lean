import SealedEnvelope.Proofs.Envelope.Alike
import SealedEnvelope.Proofs.Envelope.RoundTrip

/-!
Buffered and streaming decryption agree on every string of bytes, whether it is an
envelope or not: one gives the text that the other writes, or both fail alike.
-/

namespace SealedEnvelope

/-- A writer that does not fail gets the text of the buffered form and the result is its length,
and failures are of one kind. -/
def Agrees (buffered : Except Failure Bytes) (streamed : Emission Nat) : Prop :=
  ∀ sink : Sink, sink.Reliable → ∃ result next, sink.deliver streamed = (result, next) ∧
    (∀ text, buffered = .ok text ↔
      result = .ok text.length ∧ next.taken = sink.taken ++ text) ∧
    ∀ failure, buffered = .error failure →
      ∃ failure', result = .error failure' ∧ failure'.kind = failure.kind

namespace EnvelopeCipher

variable {operation : Operation} {unwrap : EnvelopeHeader → Except Failure (Octets 32)}

/-- The length that comes with a text is its length, in each layout. -/
theorem length_of_collect_openBytes {header : EnvelopeHeader} {encodedHeader body text : Bytes}
    {contentKey : Octets 32} {n : Nat} {signature : Option Bytes}
    (h : (openBytes operation header encodedHeader contentKey body).collect =
      .ok (text, n, signature)) : n = text.length := by
  cases hlayout : header.layout with
  | sealed =>
      obtain ⟨-, -, hn⟩ := (collect_openBytes_sealed hlayout).mp h
      exact hn
  | stream size =>
      obtain ⟨cipher, -, hopen, -⟩ := (collect_openBytes_stream hlayout).mp h
      obtain ⟨plain, -, -, -, hn⟩ := (cipher.collect_decryptBytes _).mp hopen
      exact hn
  | signedStream size =>
      obtain ⟨cipher, trailer, s, -, hopen, -⟩ := (collect_openBytes_signedStream hlayout).mp h
      obtain ⟨plain, -, -, -, hn⟩ := (cipher.collect_decryptBytes _).mp hopen
      exact hn

theorem length_of_collect_opening {data text : Bytes} {n : Nat} {signature : Option Bytes}
    (h : (opening operation unwrap data).collect = .ok (text, n, signature)) :
    n = text.length := by
  obtain ⟨header, offset, contentKey, -, -, hopen⟩ := collect_opening_eq_ok.mp h
  exact length_of_collect_openBytes hopen

end EnvelopeCipher

namespace Agrees

/-- It is enough that the two are alike once what is written has been collected. -/
theorem of_collect {buffered : Except Failure Bytes} {streamed : Emission Nat}
    (halike : Alike buffered (streamed.collect.map Prod.fst))
    (hlength : ∀ text n, streamed.collect = .ok (text, n) → n = text.length) :
    Agrees buffered streamed := by
  intro sink hsink
  obtain ⟨next, hdeliver, htaken⟩ := hsink.deliver streamed
  refine ⟨streamed.ending, next, hdeliver, ?_, ?_⟩
  · intro text
    rw [halike.eq_ok_iff, map_eq_ok, htaken, List.append_right_inj]
    constructor
    · rintro ⟨⟨_, n⟩, hcollect, rfl⟩
      obtain ⟨hending, hbytes⟩ := Emission.collect_eq_ok.mp hcollect
      obtain rfl := hlength _ n hcollect
      exact ⟨hending, hbytes⟩
    · intro h
      exact ⟨(text, text.length), Emission.collect_eq_ok.mpr h, rfl⟩
  · intro failure hfailure
    obtain ⟨failure', herror, hkind⟩ := halike.exists_error hfailure
    refine ⟨failure', ?_, hkind⟩
    rw [Emission.collect] at herror
    cases hending : streamed.ending with
    | error other =>
        rw [hending] at herror
        cases herror
        rfl
    | ok n =>
        rw [hending] at herror
        cases herror

/-- What the buffered form gives is what the streaming form delivers. -/
theorem ok_iff {buffered : Except Failure Bytes} {streamed : Emission Nat}
    (h : Agrees buffered streamed) {text : Bytes} :
    buffered = .ok text ↔ streamed.Delivers (.ok text.length) text := by
  constructor
  · intro hok sink hsink
    obtain ⟨result, next, hdeliver, hiff, -⟩ := h sink hsink
    obtain ⟨rfl, htaken⟩ := (hiff text).mp hok
    exact ⟨next, hdeliver, htaken⟩
  · intro hdelivers
    obtain ⟨result, next, hdeliver, hiff, -⟩ := h _ Sink.unlimited_reliable
    obtain ⟨next', hdeliver', htaken⟩ := hdelivers _ Sink.unlimited_reliable
    rw [hdeliver] at hdeliver'
    cases hdeliver'
    exact (hiff text).mpr ⟨rfl, htaken⟩

end Agrees

namespace Credential

open EnvelopeCipher

/-- The two forms of decryption agree, for the holder of a key and for whoever has a password. -/
theorem agrees (c : EnvelopeCipher) (credential : Credential) {source : Source}
    (hsource : source.fault = none) :
    Agrees (credential.decrypt c source.bytes) (credential.decryptStream c source) := by
  have hopening : (opening .decrypt (credential.unwrap c .decrypt) source.bytes).Alike
      (opening .decryptStream (credential.unwrap c .decryptStream) source.bytes) :=
    alike_opening fun header _ _ => credential.alike_unwrap _ _ c header
  have halike := (hopening.trans (alike_decryptStreamWith hsource)).collect
  apply Agrees.of_collect
  · rw [decrypt_eq, decryptStream_eq, Emission.collect_map]
    have hfirst := halike.map Prod.fst
    rw [Alike, hfirst]
    generalize Emission.collect _ = collected
    cases collected <;> rfl
  · intro text n h
    rw [decryptStream_eq, Emission.collect_map_eq_ok] at h
    obtain ⟨⟨_, signature⟩, h, rfl⟩ := h
    exact length_of_collect_opening (halike.eq_ok_iff.mpr h)

end Credential

namespace EnvelopeCipher

section Verification

variable {c : EnvelopeCipher} {key : Ed25519PrivateKey} {verifiers : List Ed25519PublicKey}
  {header : EnvelopeHeader} {offset : Nat}

/-- What is left to check of a signed stream after its text has been decrypted. -/
def checkDigest (operation : Operation) (verifiers : List Ed25519PublicKey) (text : Bytes) :
    Option Bytes → Except Failure Unit
  | none => .error (.signatureVerificationFailed operation)
  | some signature => verifyAny operation (Sha512.digest text).toBytes signature verifiers

theorem alike_checkDigest (operation operation' : Operation) (text : Bytes)
    (signature : Option Bytes) :
    Alike (checkDigest operation verifiers text signature)
      (checkDigest operation' verifiers text signature) := by
  cases signature with
  | none => exact .of_error rfl
  | some signature =>
      simp only [checkDigest, verifyAny]
      split
      · exact .refl _
      · exact .of_error rfl

theorem decryptThenVerify_eq {data : Bytes} {size : UInt32} (hverifiers : verifiers ≠ [])
    (hdecode : EnvelopeHeader.decode data = .ok (header, offset))
    (hlayout : header.layout = .signedStream size) :
    c.decryptThenVerify data key verifiers =
      (opening .decryptThenVerify (c.unwrapForKey .decryptThenVerify key) data).collect >>=
        fun (text, _, signature) =>
          (checkDigest .decryptThenVerify verifiers text signature).map fun _ => text := by
  have hnot : verifiers.isEmpty = false := List.isEmpty_eq_false_iff.mpr hverifiers
  rw [decryptThenVerify, hnot]
  simp only [decryptWith_of_decode hdecode]
  rcases (opening .decryptThenVerify (c.unwrapForKey .decryptThenVerify key) data).collect with
    failure | ⟨text, n, signature⟩
  · rfl
  · cases signature with
    | none => rfl
    | some signature =>
        change (verifyAny _ (signedMessage header.layout text) signature verifiers >>= _) = _
        rw [hlayout]
        rfl

theorem decryptThenVerifyStream_eq {source : Source} {size : UInt32}
    (hsource : source.fault = none) (hverifiers : verifiers ≠ [])
    (hdecode : EnvelopeHeader.decode source.bytes = .ok (header, offset))
    (hlayout : header.layout = .signedStream size) {opened : Emission (Nat × Option Bytes)}
    (hopened : opening .decryptThenVerifyStream (c.unwrapForKey .decryptThenVerifyStream key)
      source.bytes = opened) :
    c.decryptThenVerifyStream key verifiers source = opened >>= fun (n, signature) =>
      .ofExcept ((checkDigest .decryptThenVerifyStream verifiers opened.bytes signature).map
        fun _ => n) := by
  have hnot : verifiers.isEmpty = false := List.isEmpty_eq_false_iff.mpr hverifiers
  have hunwrap : unwrapSigned .decryptThenVerifyStream
      (c.unwrapForKey .decryptThenVerifyStream key) header =
        c.unwrapForKey .decryptThenVerifyStream key header := by
    rw [unwrapSigned, hlayout]
  have hstream : decryptStreamWith .decryptThenVerifyStream (unwrapSigned .decryptThenVerifyStream
      (c.unwrapForKey .decryptThenVerifyStream key)) source = opened := by
    rw [decryptStreamWith_eq hsource hdecode, ← hopened, opening, opening, hdecode]
    simp only [Emission.ofExcept_ok_bind, hunwrap]
  rw [decryptThenVerifyStream, hnot]
  simp only [hstream]
  change opened.andThen _ = opened.andThen _
  apply congrArg
  funext result
  obtain ⟨n, signature⟩ := result
  cases signature with
  | none => rfl
  | some signature =>
      dsimp only [checkDigest]
      generalize verifyAny _ _ signature verifiers = verified
      cases verified <;> rfl

theorem collect_decryptThenVerifyStream {source : Source} {size : UInt32}
    (hsource : source.fault = none) (hverifiers : verifiers ≠ [])
    (hdecode : EnvelopeHeader.decode source.bytes = .ok (header, offset))
    (hlayout : header.layout = .signedStream size) :
    (c.decryptThenVerifyStream key verifiers source).collect =
      (opening .decryptThenVerifyStream (c.unwrapForKey .decryptThenVerifyStream key)
          source.bytes).collect >>=
        fun (text, n, signature) =>
          (checkDigest .decryptThenVerifyStream verifiers text signature).map
            fun _ => (text, n) := by
  generalize hopened : opening .decryptThenVerifyStream _ source.bytes = opened
  rw [decryptThenVerifyStream_eq hsource hverifiers hdecode hlayout hopened,
    Emission.collect_bind_ofExcept]
  cases hending : opened.ending with
  | error failure =>
      rw [Emission.collect_of_error hending]
      rfl
  | ok result =>
      rw [Emission.collect_eq_ok.mpr ⟨hending, rfl⟩]
      dsimp only [bind, Except.bind]
      cases checkDigest .decryptThenVerifyStream verifiers opened.bytes result.2 <;> rfl

theorem length_of_collect_decryptThenVerifyStream {source : Source} {size : UInt32}
    (hsource : source.fault = none)
    (hdecode : EnvelopeHeader.decode source.bytes = .ok (header, offset))
    (hlayout : header.layout = .signedStream size) {text : Bytes} {n : Nat}
    (h : (c.decryptThenVerifyStream key verifiers source).collect = .ok (text, n)) :
    n = text.length := by
  by_cases hverifiers : verifiers = []
  · subst hverifiers
    cases h
  · rw [collect_decryptThenVerifyStream hsource hverifiers hdecode hlayout, bind_eq_ok] at h
    obtain ⟨⟨text', n', signature⟩, hcollect, h⟩ := h
    obtain ⟨-, -, h⟩ := map_eq_ok.mp h
    cases h
    exact length_of_collect_opening hcollect

/-- Verification of a signed stream agrees with that of its bytes. -/
theorem decryptThenVerify_agrees {source : Source} {size : UInt32}
    (hsource : source.fault = none)
    (hdecode : EnvelopeHeader.decode source.bytes = .ok (header, offset))
    (hlayout : header.layout = .signedStream size) :
    Agrees (c.decryptThenVerify source.bytes key verifiers)
      (c.decryptThenVerifyStream key verifiers source) := by
  refine Agrees.of_collect ?_ fun text n h =>
    length_of_collect_decryptThenVerifyStream hsource hdecode hlayout h
  by_cases hverifiers : verifiers = []
  · subst hverifiers
    exact .of_error rfl
  · have hopening : (opening .decryptThenVerify (c.unwrapForKey .decryptThenVerify key)
        source.bytes).Alike (opening .decryptThenVerifyStream
          (c.unwrapForKey .decryptThenVerifyStream key) source.bytes) :=
      alike_opening fun header _ _ => (Credential.key key).alike_unwrap _ _ c header
    have hfirst : (c.decryptThenVerifyStream key verifiers source).collect.map Prod.fst =
        (opening .decryptThenVerifyStream (c.unwrapForKey .decryptThenVerifyStream key)
            source.bytes).collect >>=
          fun (text, _, signature) =>
            (checkDigest .decryptThenVerifyStream verifiers text signature).map
              fun _ => text := by
      rw [collect_decryptThenVerifyStream hsource hverifiers hdecode hlayout]
      rcases (opening .decryptThenVerifyStream _ source.bytes).collect with
        failure | ⟨text, n, signature⟩
      · rfl
      · dsimp only [bind, Except.bind]
        cases checkDigest .decryptThenVerifyStream verifiers text signature <;> rfl
    rw [hfirst, decryptThenVerify_eq hverifiers hdecode hlayout]
    apply hopening.collect.bind
    rintro ⟨text, n, signature⟩
    exact (alike_checkDigest _ _ text signature).map _

/-- What is not a signed stream is not verified as a stream; nothing is written. -/
theorem decryptThenVerifyStream_of_unsigned {source : Source} (hsource : source.fault = none)
    (hdecode : EnvelopeHeader.decode source.bytes = .ok (header, offset))
    (hlayout : ∀ size, header.layout ≠ .signedStream size) :
    c.decryptThenVerifyStream key verifiers source =
      .fail (.signatureVerificationFailed .decryptThenVerifyStream) := by
  rw [decryptThenVerifyStream]
  split
  · rfl
  · have hunwrap (unwrap : EnvelopeHeader → Except Failure (Octets 32)) :
        unwrapSigned .decryptThenVerifyStream unwrap header =
          .error (.signatureVerificationFailed .decryptThenVerifyStream) := by
      rw [unwrapSigned]
      split
      case h_1 size hsize => exact absurd hsize (hlayout size)
      all_goals rfl
    simp only [decryptStreamWith_eq hsource hdecode, opening, hdecode, Emission.ofExcept_ok_bind,
      hunwrap]
    rfl

end Verification

end EnvelopeCipher

/-- From any source that delivers them without failing, a string of bytes is decrypted as it is
from memory, with a key as with a password. Signed streams are verified alike; other envelopes
are not verified as streams. -/
theorem decryption_agrees (c : EnvelopeCipher) (key : Ed25519PrivateKey) (phrase : Bytes)
    (verifiers : List Ed25519PublicKey) (source : Source) (hsource : source.fault = none) :
    Agrees (c.decrypt source.bytes key) (c.decryptStream key source) ∧
      Agrees (EnvelopeCipher.decryptWithPassword source.bytes phrase)
        (EnvelopeCipher.decryptStreamWithPassword phrase source) ∧
      ∀ header offset, EnvelopeHeader.decode source.bytes = .ok (header, offset) →
        (∀ size, header.layout = .signedStream size →
          Agrees (c.decryptThenVerify source.bytes key verifiers)
            (c.decryptThenVerifyStream key verifiers source)) ∧
        ((∀ size, header.layout ≠ .signedStream size) → ∀ sink : Sink,
          sink.deliver (c.decryptThenVerifyStream key verifiers source) =
            (.error (.signatureVerificationFailed .decryptThenVerifyStream), sink)) := by
  refine ⟨Credential.agrees c (.key key) hsource, Credential.agrees c (.password phrase) hsource,
    ?_⟩
  intro header offset hdecode
  constructor
  · intro size hlayout
    exact EnvelopeCipher.decryptThenVerify_agrees hsource hdecode hlayout
  · intro hlayout sink
    rw [EnvelopeCipher.decryptThenVerifyStream_of_unsigned hsource hdecode hlayout]
    rfl

theorem decryption_agrees_sevens : ∃ envelope last result next,
    (Encryption.encrypt shortText).run cheapCipher [.password sevenPhrase] sevens =
        (.ok (envelope, 3), last) ∧
      Sink.unlimited.deliver (EnvelopeCipher.decryptStreamWithPassword sevenPhrase
        (.ofBytes envelope)) = (result, next) ∧
      ∀ text, EnvelopeCipher.decryptWithPassword envelope sevenPhrase = .ok text ↔
        result = .ok text.length ∧ next.taken = Sink.unlimited.taken ++ text := by
  obtain ⟨envelope, last, hrun⟩ := exists_encrypt_sevenPhrase ⟨8, 1, 1⟩ (by decide)
  have hagrees := decryption_agrees cheapCipher sevenKey sevenPhrase [] (.ofBytes envelope) rfl
  rw [Source.bytes_ofBytes] at hagrees
  obtain ⟨result, next, hdeliver, hsame, -⟩ := hagrees.2.1 Sink.unlimited Sink.unlimited_reliable
  exact ⟨envelope, last, result, next, hrun, hdeliver, hsame⟩

end SealedEnvelope
