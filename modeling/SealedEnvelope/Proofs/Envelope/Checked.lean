import SealedEnvelope.Proofs.Kdf2
import SealedEnvelope.Proofs.Transfer.Checked
import SealedEnvelope.Proofs.Envelope.HeaderFormat
import SealedEnvelope.Proofs.Envelope.Opening

/-!
Decryption with every operation checked. Besides what would leave a buffer, nothing has a result
here that costs more than a reader of untrusted envelopes is to spend: longer headers, Argon2 at
higher costs, and larger segments. Each function still has the result of the plain one.
-/

namespace SealedEnvelope

/-- A computation that fails or succeeds, or has no result where a check does not pass. -/
abbrev Checked (α : Type) := ExceptT Failure Option α

namespace Checked

section Steps

variable {α β : Type}

theorem run_bind {x : Checked α} {y : Except Failure α} {f : α → Checked β}
    {g : α → Except Failure β} (hx : x.run = some y)
    (hf : ∀ a, y = .ok a → (f a).run = some (g a)) : (x >>= f).run = some (y >>= g) := by
  have hsame : x = (some y : Option (Except Failure α)) := hx
  subst hsame
  cases y with
  | error failure => rfl
  | ok a => exact hf a rfl

/-- What cannot fail goes before. -/
theorem run_bind_of_some {x : Option α} {a : α} {f : α → Checked β} {y : Except Failure β}
    (hx : x = some a) (hf : (f a).run = some y) :
    ((liftM x : Checked α) >>= f).run = some y := by
  subst hx
  exact hf

theorem run_lift (x : Except Failure α) : (liftM x : Checked α).run = some x := by
  cases x <;> rfl

end Steps

section Resources

/-- A buffer for an encoded header with its length. -/
def headerBuffer (length : Nat) : Option Bytes :=
  if length ≤ 1024 * 1024 + 4 then some (List.replicate length 0) else none

/-- Argon2 with a GiB of memory, 64 iterations and 64 lanes at the most. -/
def hash (costs : Argon2id.Costs) (phrase salt : Bytes) :
    Option (Except Argon2id.Fault (Octets 32)) :=
  if costs.memoryKib.toNat ≤ 1024 * 1024 ∧ costs.iterations.toNat ≤ 64 ∧
      costs.parallelism.toNat ≤ 64 then
    some (Argon2id.derive costs phrase salt)
  else none

/-- Decryption in segments of 16 MiB at the most. -/
def decryptSegments {ρ : Type} [ByteReader ρ] [CheckedReader ρ] (c : StreamCipher)
    (k : SegmentKeys) (r : ρ) : Option (Emission Nat × ρ) :=
  if 1 ≤ c.bufferSize.val ∧ c.bufferSize.val ≤ 16 * 1024 * 1024 then do
    let (blocks, fault, last) ← readBlocks (c.bufferSize.val + 16) r
    let run := StreamCipher.segmentRun .streamDecrypt blocks fault
    return (k.decryptRun .streamDecrypt run, last)
  else none

theorem hash_of_low {costs : Argon2id.Costs} (h : RecipientEntry.costsTooHigh costs = false)
    (phrase salt : Bytes) : hash costs phrase salt = some (Argon2id.derive costs phrase salt) := by
  simp only [RecipientEntry.costsTooHigh, Bool.or_eq_false_iff, decide_eq_false_iff_not,
    UInt32.not_lt, UInt32.le_iff_toNat_le] at h
  obtain ⟨⟨hmemory, hiterations⟩, hparallelism⟩ := h
  exact if_pos ⟨hmemory, hiterations, hparallelism⟩

theorem decryptSegments_eq {ρ : Type} [ByteReader ρ] [CheckedReader ρ] {c : StreamCipher}
    (h : c.bufferSize.val ≤ 16 * 1024 * 1024) (k : SegmentKeys) (r : ρ) :
    decryptSegments c k r = some (c.decrypt k r) := by
  rw [decryptSegments, if_pos ⟨c.bufferSize.pos, h⟩, readBlocks_eq]
  rfl

end Resources

section Keys

theorem ofBytes?_of_length {n : Nat} {bytes : Bytes} (h : bytes.length = n) :
    Octets.ofBytes? n bytes = some (.ofPadded n bytes) := by
  subst h
  simp [Octets.ofBytes?, Octets.ofPadded]

def fingerprint : FingerprintAlgorithm → Bytes → Option Bytes
  | .sha256, data => some (Sha256.digest data).toBytes
  | .sha512Truncated, data => Prod.fst <$> split 8 (Sha512.digest data).toBytes

theorem fingerprint_eq (algorithm : FingerprintAlgorithm) (data : Bytes) :
    fingerprint algorithm data = some (algorithm.fingerprint data) := by
  cases algorithm with
  | sha256 => rfl
  | sha512Truncated =>
      rw [fingerprint, split_of_le (by simp)]
      rfl

def identifier (algorithm : FingerprintAlgorithm) (key : Ed25519PublicKey) : Option KeyId :=
  KeyId.mk <$> fingerprint algorithm key.encode

theorem identifier_eq (algorithm : FingerprintAlgorithm) (key : Ed25519PublicKey) :
    identifier algorithm key = some (key.identifier algorithm) := by
  rw [identifier, fingerprint_eq]
  rfl

def x25519Scalar (seed : Octets 32) : Option (Octets 32) := do
  let (front, _) ← split 32 (Sha512.digest seed.toBytes).toBytes
  Octets.ofBytes? 32 front

theorem x25519Scalar_eq (seed : Octets 32) :
    x25519Scalar seed = some (Ed25519PrivateKey.x25519Scalar seed) := by
  have hlength := (Sha512.digest seed.toBytes).length_toBytes
  have hfront : ((Sha512.digest seed.toBytes).toBytes.take 32).length = 32 := by
    rw [List.length_take, hlength]
    rfl
  rw [x25519Scalar, split_of_le (by omega)]
  exact ofBytes?_of_length hfront

def agreeWithPoint (operation : Operation) (key : Ed25519PrivateKey) (point : Octets 32) :
    Checked (Octets 32) := do
  let seed ← key.usableSeed operation
  let scalar ← x25519Scalar seed
  agreeX25519 operation scalar point

theorem agreeWithPoint_eq (operation : Operation) (key : Ed25519PrivateKey) (point : Octets 32) :
    (agreeWithPoint operation key point).run = some (key.agreeWithPoint operation point) :=
  run_bind (run_lift _) fun seed _ => run_bind_of_some (x25519Scalar_eq seed) (run_lift _)

/-- The counter of KDF2 does not run out, and there is enough for the key and the nonce. -/
def wrapSecret (secret : Bytes) : Option WrapSecret := do
  let material ← (Kdf2.derive .sha384 secret 44).toOption
  let (key, nonce) ← split 32 material
  return ⟨← Octets.ofBytes? 32 key, ← Octets.ofBytes? 12 nonce⟩

theorem wrapSecret_eq (secret : Bytes) : wrapSecret secret = some (WrapSecret.derive secret) := by
  have hmaterial : Kdf2.derive .sha384 secret 44 = .ok (Kdf2.output .sha384 secret 44) :=
    if_pos (by decide)
  have hlength : (Kdf2.output .sha384 secret 44).length = 44 := Kdf2.length_output _ _ _
  rw [wrapSecret, hmaterial, Except.toOption, Option.bind_eq_bind, Option.bind_some,
    split_of_le (by omega), Option.bind_eq_bind, Option.bind_some]
  dsimp only
  rw [ofBytes?_of_length (by rw [List.length_take]; omega),
    ofBytes?_of_length (by rw [List.length_drop, hlength])]
  rfl

def unwrapForKey (operation : Operation) (algorithm : FingerprintAlgorithm)
    (entries : List RecipientEntry) (key : Ed25519PrivateKey) : Checked (Octets 32) := do
  let publicKey ← key.publicKey
  let id ← identifier algorithm publicKey
  match entries.findSome? (RecipientEntry.forKeyId? id) with
  | none => throw (.recipientNotFound (.key id))
  | some (ephemeralKey, wrappedKey) =>
      let recipientPoint ← publicKey.toX25519 operation
      let shared ← agreeWithPoint operation key ephemeralKey
      let secret ← wrapSecret (shared.toBytes ++ ephemeralKey.toBytes ++ recipientPoint.toBytes)
      match secret.unwrap? id.bytes wrappedKey with
      | none => throw (.authenticationFailed operation)
      | some bytes => contentKey operation bytes

theorem unwrapForKey_eq (operation : Operation) (algorithm : FingerprintAlgorithm)
    (entries : List RecipientEntry) (key : Ed25519PrivateKey) :
    (unwrapForKey operation algorithm entries key).run =
      some (RecipientEntry.unwrapForKey operation algorithm entries key) := by
  refine run_bind (run_lift _) fun publicKey _ => ?_
  refine run_bind_of_some (identifier_eq algorithm publicKey) ?_
  dsimp only
  cases entries.findSome? (RecipientEntry.forKeyId? (publicKey.identifier algorithm)) with
  | none => rfl
  | some found =>
      obtain ⟨ephemeralKey, wrappedKey⟩ := found
      refine run_bind (run_lift _) fun recipientPoint _ => ?_
      refine run_bind (agreeWithPoint_eq operation key ephemeralKey) fun shared _ => ?_
      refine run_bind_of_some (wrapSecret_eq _) ?_
      rw [WrapSecret.ofAgreement]
      cases (WrapSecret.derive _).unwrap? (publicKey.identifier algorithm).bytes wrappedKey with
      | none => rfl
      | some bytes => exact run_lift _

end Keys

section Passwords

/-- Argon2 does not run unless the costs of the entry have passed. -/
def passwordSecret (costs : Argon2id.Costs) (salt : Octets 16) (phrase : Bytes) :
    Option (Except FormatFault WrapSecret) :=
  if RecipientEntry.costsTooHigh costs then some (.error (.passwordCostsTooHigh costs))
  else do
    match ← hash costs phrase salt.toBytes with
    | .error fault => return .error (.passwordCostsInvalid (.passwordHash fault))
    | .ok derived => return .ok (← wrapSecret (derived.toBytes ++ salt.toBytes))

theorem passwordSecret_eq (costs : Argon2id.Costs) (salt : Octets 16) (phrase : Bytes) :
    passwordSecret costs salt phrase = some (RecipientEntry.passwordSecret costs salt phrase) := by
  rw [passwordSecret, RecipientEntry.passwordSecret, WrapSecret.ofPassword]
  split
  case isTrue => rfl
  case isFalse hlow =>
    rw [hash_of_low (by simpa using hlow), Option.bind_eq_bind, Option.bind_some]
    cases Argon2id.derive costs phrase salt.toBytes with
    | error fault => rfl
    | ok derived =>
        dsimp only
        rw [wrapSecret_eq]
        rfl

def tryPassword (operation : Operation) (phrase : Bytes) (t : RecipientEntry.PasswordTrial) :
    List RecipientEntry → Checked (Octets 32)
  | [] => throw (t.failure operation)
  | .key _ _ _ :: rest => tryPassword operation phrase t rest
  | .password salt costs wrappedKey :: rest =>
      match passwordSecret costs salt phrase with
      | none => none
      | some (.error fault) => tryPassword operation phrase { t with unusable := some fault } rest
      | some (.ok secret) =>
          match secret.unwrap? salt.toBytes wrappedKey with
          | some bytes => contentKey operation bytes
          | none => tryPassword operation phrase { t with tried := true } rest

theorem tryPassword_eq (operation : Operation) (phrase : Bytes)
    (t : RecipientEntry.PasswordTrial) (entries : List RecipientEntry) :
    (tryPassword operation phrase t entries).run =
      some (RecipientEntry.tryPassword operation phrase t entries) := by
  induction entries generalizing t with
  | nil => rfl
  | cons entry entries ih =>
      cases entry with
      | key keyId ephemeralKey wrappedKey => exact ih t
      | password salt costs wrappedKey =>
          rw [tryPassword, RecipientEntry.tryPassword, passwordSecret_eq]
          cases RecipientEntry.passwordSecret costs salt phrase with
          | error fault => exact ih _
          | ok secret =>
              dsimp only
              cases secret.unwrap? salt.toBytes wrappedKey with
              | none => exact ih _
              | some bytes => exact run_lift _

def unwrapForPassword (operation : Operation) (entries : List RecipientEntry) (phrase : Bytes) :
    Checked (Octets 32) :=
  tryPassword operation phrase ⟨false, none⟩ entries

theorem unwrapForPassword_eq (operation : Operation) (entries : List RecipientEntry)
    (phrase : Bytes) : (unwrapForPassword operation entries phrase).run =
      some (RecipientEntry.unwrapForPassword operation entries phrase) :=
  tryPassword_eq operation phrase _ entries

end Passwords

section Headers

variable {ρ : Type} [ByteReader ρ]

/-- Reads a header into a buffer behind its length. -/
def readFrom (r : ρ) : Option (Except Failure (EnvelopeHeader × Bytes) × ρ) :=
  match EnvelopeHeader.readExactly 4 r with
  | (.error failure, next) => some (.error failure, next)
  | (.ok field, next) =>
      match EnvelopeHeader.lengthOf field with
      | .error failure => some (.error failure, next)
      | .ok length => do
          let (_, behind) ← split 4 (← headerBuffer (4 + length))
          match EnvelopeHeader.readExactly behind.length next with
          | (.error failure, last) => return (.error failure, last)
          | (.ok encoded, last) =>
              let (_, map) ← split 4 (field ++ encoded)
              return ((EnvelopeHeader.ofCbor map).map fun h => (h, field ++ encoded), last)

theorem readFrom_eq (r : ρ) : readFrom r = some (EnvelopeHeader.readFrom r) := by
  rw [readFrom, EnvelopeHeader.readFrom]
  rcases hfield : EnvelopeHeader.readExactly 4 r with ⟨failure | field, next⟩
  · rfl
  dsimp only
  rcases hlength : EnvelopeHeader.lengthOf field with failure | length
  · rfl
  have hle : 4 + length ≤ 1024 * 1024 + 4 := by
    have hmax : maxHeaderLength = 1024 * 1024 := rfl
    have hlt := EnvelopeHeader.le_of_lengthOf hlength
    omega
  have hbuffer : headerBuffer (4 + length) = some (List.replicate (4 + length) 0) := if_pos hle
  have hbehind : ((List.replicate (4 + length) (0 : UInt8)).drop 4).length = length := by simp
  dsimp only
  rw [hbuffer, Option.bind_eq_bind, Option.bind_some, split_of_le (by simp),
    Option.bind_eq_bind, Option.bind_some]
  dsimp only
  rw [hbehind]
  rcases EnvelopeHeader.readExactly length next with ⟨failure | encoded, last⟩
  · rfl
  dsimp only
  have hfour : field.length = 4 := EnvelopeHeader.length_of_readExactly hfield
  rw [split_of_le (by rw [List.length_append]; omega), Option.bind_some]
  dsimp only
  rw [List.drop_left' hfour]
  rfl

end Headers

section Bodies

open EnvelopeCipher

variable {header : EnvelopeHeader}

/-- The segment size of a header that has been read needs no further check. -/
def openBody (operation : Operation) (header : EnvelopeHeader) (encodedHeader : Bytes)
    (contentKey : Octets 32) (body : Source) : Option (Emission (Nat × Option Bytes)) :=
  let keys := bodyKeys contentKey header.nonce encodedHeader
  match header.layout with
  | .sealed => return do
      let sealedText ← .ofExcept ((ByteReader.readAll body).1.mapError (.io operation))
      let text ← .ofExcept (openText operation contentKey header.nonce keys.ad sealedText)
      let signature ← .ofExcept (header.signature.mapM
        (openText operation contentKey (signatureNonce header.nonce) signatureLabel))
      .write operation text
      .flush operation
      pure (text.length, signature)
  | .stream size => do
      let cipher ← (segmentCipher size).toOption
      let (emission, _) ← decryptSegments cipher keys body
      return do
        let written ← emission
        pure (written, none)
  | .signedStream size => do
      let cipher ← (segmentCipher size).toOption
      let (emission, rest) ← decryptSegments cipher keys (Withholding.ofSource body)
      return do
        let written ← emission
        match rest.trailer? with
        | none => .fail (.authenticationFailed operation)
        | some trailer =>
            let signature ← .ofExcept (openText operation contentKey (trailerNonce header.nonce)
              (boundTo trailerLabel encodedHeader) trailer)
            pure (written, some signature)

theorem openBody_eq (h : header.Readable) (operation : Operation) (encodedHeader : Bytes)
    (contentKey : Octets 32) (body : Source) :
    openBody operation header encodedHeader contentKey body =
      some (EnvelopeCipher.openBody operation header encodedHeader contentKey body) := by
  cases hlayout : header.layout with
  | sealed =>
      rw [openBody, EnvelopeCipher.openBody, hlayout]
      rfl
  | stream size =>
      obtain ⟨cipher, hcipher, hsize⟩ := h.exists_segmentCipher (Or.inl hlayout)
      rw [openBody, EnvelopeCipher.openBody, hlayout]
      dsimp only
      rw [hcipher, Except.toOption, Option.bind_eq_bind, Option.bind_some, decryptSegments_eq hsize]
      rfl
  | signedStream size =>
      obtain ⟨cipher, hcipher, hsize⟩ := h.exists_segmentCipher (Or.inr hlayout)
      rw [openBody, EnvelopeCipher.openBody, hlayout]
      dsimp only
      rw [hcipher, Except.toOption, Option.bind_eq_bind, Option.bind_some, decryptSegments_eq hsize]
      rfl

end Bodies

section Envelopes

open EnvelopeCipher (openBuffered)

variable {operation : Operation} {checked : EnvelopeHeader → Checked (Octets 32)}
  {unwrap : EnvelopeHeader → Except Failure (Octets 32)}

/-- The body is split off at the place that the header ends at. -/
def decryptWith (operation : Operation) (unwrap : EnvelopeHeader → Checked (Octets 32))
    (data : Bytes) : Checked (EnvelopeHeader × Bytes × Option Bytes) := do
  let (header, offset) ← EnvelopeHeader.decode data
  let contentKey ← unwrap header
  let (encoded, body) ← split offset data
  let emission ← openBody operation header encoded contentKey (.ofBytes body)
  let (text, _, signature) ← emission.collect
  return (header, text, signature)

theorem decryptWith_eq (h : ∀ header, (checked header).run = some (unwrap header))
    (data : Bytes) : (decryptWith operation checked data).run =
      some (EnvelopeCipher.decryptWith operation unwrap data) := by
  refine run_bind (run_lift _) fun found hdecode => ?_
  obtain ⟨header, offset⟩ := found
  obtain ⟨hread, hoffset⟩ := EnvelopeHeader.readable_of_decode hdecode
  refine run_bind (h header) fun contentKey _ => ?_
  refine run_bind_of_some (split_of_le hoffset) ?_
  refine run_bind_of_some (openBody_eq hread operation _ contentKey _) ?_
  rw [openBuffered]
  cases (EnvelopeCipher.openBody operation header (data.take offset) contentKey
    (.ofBytes (data.drop offset))).collect <;> rfl

def decryptStreamWith (operation : Operation) (unwrap : EnvelopeHeader → Checked (Octets 32))
    (source : Source) : Option (Emission (Nat × Option Bytes)) := do
  match ← readFrom source with
  | (.error failure, _) => return .fail failure
  | (.ok (header, encoded), body) =>
      match ← (unwrap header).run with
      | .error failure => return .fail failure
      | .ok contentKey => openBody operation header encoded contentKey body

theorem decryptStreamWith_eq (h : ∀ header, (checked header).run = some (unwrap header))
    (source : Source) : decryptStreamWith operation checked source =
      some (EnvelopeCipher.decryptStreamWith operation unwrap source) := by
  rw [decryptStreamWith, EnvelopeCipher.decryptStreamWith, readFrom_eq, Option.bind_eq_bind,
    Option.bind_some]
  rcases hread : EnvelopeHeader.readFrom source with ⟨failure | ⟨header, encoded⟩, body⟩
  · rfl
  · dsimp only
    rw [h, Option.bind_eq_bind, Option.bind_some]
    cases unwrap header with
    | error failure => rfl
    | ok contentKey => exact openBody_eq (EnvelopeHeader.readable_of_readFrom hread) _ _ _ _

end Envelopes

section Forms

open EnvelopeCipher (signedMessage verifyAny)

variable (c : EnvelopeCipher)

def unwrap (operation : Operation) (credential : Credential) (header : EnvelopeHeader) :
    Checked (Octets 32) :=
  match credential with
  | .key privateKey => unwrapForKey operation c.fingerprint header.recipients privateKey
  | .password phrase => unwrapForPassword operation header.recipients phrase

theorem unwrap_eq (operation : Operation) (credential : Credential) (header : EnvelopeHeader) :
    (unwrap c operation credential header).run = some (credential.unwrap c operation header) := by
  cases credential with
  | key privateKey => exact unwrapForKey_eq operation c.fingerprint header.recipients privateKey
  | password phrase => exact unwrapForPassword_eq operation header.recipients phrase

def decrypt (credential : Credential) (data : Bytes) : Checked Bytes := do
  let (_, text, _) ← decryptWith .decrypt (unwrap c .decrypt credential) data
  return text

theorem decrypt_eq (credential : Credential) (data : Bytes) :
    (decrypt c credential data).run = some (credential.decrypt c data) := by
  have hplain : credential.decrypt c data =
      EnvelopeCipher.decryptWith .decrypt (credential.unwrap c .decrypt) data >>=
        fun (_, text, _) => .ok text := by
    cases credential with
    | key privateKey =>
        rw [Credential.decrypt, EnvelopeCipher.decrypt, Credential.unwrap]
        cases EnvelopeCipher.decryptWith .decrypt (c.unwrapForKey .decrypt privateKey) data <;> rfl
    | password phrase =>
        rw [Credential.decrypt, EnvelopeCipher.decryptWithPassword, Credential.unwrap]
        cases EnvelopeCipher.decryptWith .decrypt
          (EnvelopeCipher.unwrapForPassword .decrypt phrase) data <;> rfl
  rw [hplain]
  exact run_bind (decryptWith_eq (unwrap_eq c .decrypt credential) data) fun _ _ => rfl

def decryptStream (credential : Credential) (source : Source) : Option (Emission Nat) := do
  let opened ← decryptStreamWith .decryptStream (unwrap c .decryptStream credential) source
  return Prod.fst <$> opened

theorem decryptStream_eq (credential : Credential) (source : Source) :
    decryptStream c credential source = some (credential.decryptStream c source) := by
  rw [decryptStream, decryptStreamWith_eq (unwrap_eq c .decryptStream credential) source,
    Credential.decryptStream_eq]
  rfl

variable (key : Ed25519PrivateKey) (verifiers : List Ed25519PublicKey)

def decryptThenVerify (data : Bytes) : Checked Bytes := do
  let operation := Operation.decryptThenVerify
  if verifiers.isEmpty then throw (.signatureVerificationFailed operation)
  let (header, text, signature) ← decryptWith operation (unwrap c operation (.key key)) data
  match signature with
  | none => throw (.signatureVerificationFailed operation)
  | some signature =>
      verifyAny operation (signedMessage header.layout text) signature verifiers
      return text

theorem decryptThenVerify_eq (data : Bytes) : (decryptThenVerify c key verifiers data).run =
    some (c.decryptThenVerify data key verifiers) := by
  rw [decryptThenVerify, EnvelopeCipher.decryptThenVerify]
  dsimp only
  split
  case isTrue => rfl
  case isFalse =>
    refine run_bind (decryptWith_eq (unwrap_eq c _ (.key key)) data) fun opened _ => ?_
    obtain ⟨header, text, signature⟩ := opened
    cases signature with
    | none => rfl
    | some signature => exact run_bind (run_lift _) fun _ _ => rfl

/-- Only the key of a signed stream is unwrapped. -/
def unwrapSigned (operation : Operation) (header : EnvelopeHeader) : Checked (Octets 32) :=
  match header.layout with
  | .signedStream _ => unwrap c operation (.key key) header
  | .sealed | .stream _ => throw (.signatureVerificationFailed operation)

theorem unwrapSigned_eq (operation : Operation) (header : EnvelopeHeader) :
    (unwrapSigned c key operation header).run =
      some (EnvelopeCipher.unwrapSigned operation (c.unwrapForKey operation key) header) := by
  rw [unwrapSigned, EnvelopeCipher.unwrapSigned]
  cases header.layout with
  | sealed => rfl
  | stream size => rfl
  | signedStream size => exact unwrap_eq c operation (.key key) header

def decryptThenVerifyStream (source : Source) : Option (Emission Nat) :=
  let operation := Operation.decryptThenVerifyStream
  if verifiers.isEmpty then some (.fail (.signatureVerificationFailed operation))
  else do
    let opened ← decryptStreamWith operation (unwrapSigned c key operation) source
    return opened.andThen fun (written, signature) =>
      match signature with
      | none => .fail (.signatureVerificationFailed operation)
      | some signature => do
          .ofExcept (verifyAny operation (Sha512.digest opened.bytes).toBytes signature verifiers)
          pure written

theorem decryptThenVerifyStream_eq (source : Source) :
    decryptThenVerifyStream c key verifiers source =
      some (c.decryptThenVerifyStream key verifiers source) := by
  rw [decryptThenVerifyStream, EnvelopeCipher.decryptThenVerifyStream]
  dsimp only
  split
  case isTrue => rfl
  case isFalse =>
    rw [decryptStreamWith_eq (unwrapSigned_eq c key _) source]
    rfl

end Forms

end Checked

end SealedEnvelope
