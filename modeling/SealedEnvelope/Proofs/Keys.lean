import SealedEnvelope.Proofs.Computation
import SealedEnvelope.Proofs.Transfer.View
import SealedEnvelope.Signature

/-!
Keys that can be used, and what is done with them: agreement and detached signatures.
The signature of a stream is the signature over the digest of its bytes.
-/

namespace SealedEnvelope

section Keys

theorem usableSeed_eq_ok {operation : Operation} {key : Ed25519PrivateKey} {seed : Octets 32} :
    key.usableSeed operation = .ok seed ↔ key.isEmpty = false ∧ seed = key.seed := by
  rw [Ed25519PrivateKey.usableSeed]
  cases key.isEmpty <;> simp [eq_comm]

theorem isEmpty_of_publicKey {key : Ed25519PrivateKey} {publicKey : Ed25519PublicKey}
    (h : key.publicKey = .ok publicKey) : key.isEmpty = false := by
  obtain ⟨seed, hseed, -⟩ := map_eq_ok.mp h
  exact (usableSeed_eq_ok.mp hseed).1

/-- The empty key has no point. -/
theorem isEmpty_of_point {operation : Operation} {key : Ed25519PublicKey} {point : EdwardsPoint}
    (h : key.point operation = .ok point) : key.isEmpty = false := by
  rw [Ed25519PublicKey.point] at h
  split at h
  case isTrue => cases h
  case isFalse hempty => exact Bool.eq_false_of_not_eq_true hempty

/-- Whether a key has a point does not depend on who asks. -/
theorem point_congr {operation : Operation} {key : Ed25519PublicKey} {point : EdwardsPoint}
    (h : key.point operation = .ok point) (operation' : Operation) :
    key.point operation' = .ok point := by
  rw [Ed25519PublicKey.point] at h ⊢
  split at h
  case isTrue => cases h
  case isFalse hempty =>
    rw [if_neg hempty]
    cases hpoint : EdwardsPoint.ofBytes? key.bytes with
    | none =>
        rw [hpoint] at h
        cases h
    | some q =>
        rw [hpoint] at h
        dsimp only at h ⊢
        split at h
        case isTrue => cases h
        case isFalse horder => rwa [if_neg horder]

theorem toX25519_congr {operation : Operation} {key : Ed25519PublicKey} {point : Octets 32}
    (h : key.toX25519 operation = .ok point) (operation' : Operation) :
    key.toX25519 operation' = .ok point := by
  obtain ⟨p, hp, rfl⟩ := map_eq_ok.mp h
  rw [Ed25519PublicKey.toX25519, point_congr hp operation']
  rfl

theorem agreeX25519_eq_ok {operation : Operation} {scalar point shared : Octets 32} :
    agreeX25519 operation scalar point = .ok shared ↔
      (X25519.multiply scalar point).isZero = false ∧ shared = X25519.multiply scalar point := by
  rw [agreeX25519]
  cases (X25519.multiply scalar point).isZero <;> simp [eq_comm]

/-- An ephemeral key and the public key of `key` give the secret that `key` and the ephemeral
public key give. -/
def Commutes (key : Ed25519PrivateKey) (ephemeral : Octets 32) : Prop :=
  ∀ publicKey point, key.publicKey = .ok publicKey → publicKey.toX25519 .encrypt = .ok point →
    X25519.multiply ephemeral point =
      X25519.multiply (Ed25519PrivateKey.x25519Scalar key.seed)
        (X25519.multiply ephemeral X25519.basePoint)

/-- The public key of the signer can be used, and with it the signature that the signer makes over
the message is valid. -/
def SelfVerifies (signer : Ed25519PrivateKey) (message : Bytes) : Prop :=
  ∀ publicKey, signer.publicKey = .ok publicKey → ∃ point, publicKey.point .verify = .ok point ∧
    Ed25519.verify publicKey.bytes point message (Ed25519.sign signer.seed message) = true

end Keys

namespace Ed25519

/-- A signature is valid under its own point just if the response leads back to the commitment. -/
theorem verify_sign {seed : Octets 32} {point : EdwardsPoint} {message : Bytes}
    {nonce challenge : Nat}
    (hnonce : hashToScalar ((Sha512.digest seed.toBytes).toBytes.drop 32 ++ message) = nonce)
    (hchallenge : hashToScalar ((EdwardsPoint.base.scale nonce).toBytes.toBytes ++
      (publicPoint seed).toBytes ++ message) = challenge) :
    verify (publicPoint seed) point message (sign seed message) = true ↔
      ((EdwardsPoint.base.scale ((nonce + challenge * secretScalar seed) % groupOrder)).add
        (point.neg.scale challenge)).toBytes = (EdwardsPoint.base.scale nonce).toBytes := by
  let response := (nonce + challenge * secretScalar seed) % groupOrder
  have hless : response < groupOrder := Nat.mod_lt _ (by decide)
  have hfits : response < 256 ^ 32 := hless.trans (by decide)
  have hsign : (sign seed message).toBytes =
      (EdwardsPoint.base.scale nonce).toBytes.toBytes ++ Bytes.littleEndian 32 response := by
    subst hnonce hchallenge
    rfl
  have hfront : (sign seed message).toBytes.take 32 =
      (EdwardsPoint.base.scale nonce).toBytes.toBytes := by
    rw [hsign, List.take_left' (Octets.length_toBytes _)]
  have hback : Bytes.ofLittleEndian ((sign seed message).toBytes.drop 32) = response := by
    rw [hsign, List.drop_left' (Octets.length_toBytes _), Bytes.ofLittleEndian_littleEndian,
      Nat.mod_eq_of_lt hfits]
  simp only [verify, hfront, hback, hchallenge, decide_eq_true hless, Bool.true_and, beq_iff_eq]
  constructor
  · intro h
    exact Octets.ext h
  · intro h
    exact congrArg Octets.toBytes h

end Ed25519

namespace Signature

variable {signer : Ed25519PrivateKey} {verifier : Ed25519PublicKey} {message : Bytes}
  {source : Source}

theorem sign_eq_ok {signature : Octets 64} :
    sign message signer = .ok signature ↔
      signer.isEmpty = false ∧ signature = Ed25519.sign signer.seed message := by
  rw [sign, map_eq_ok]
  constructor
  · rintro ⟨seed, hseed, rfl⟩
    obtain ⟨hempty, rfl⟩ := usableSeed_eq_ok.mp hseed
    exact ⟨hempty, rfl⟩
  · rintro ⟨hempty, rfl⟩
    exact ⟨signer.seed, usableSeed_eq_ok.mpr ⟨hempty, rfl⟩, rfl⟩

theorem check_eq_ok {operation : Operation} {point : EdwardsPoint} {signature : Octets 64} :
    check operation verifier point message signature = .ok () ↔
      Ed25519.verify verifier.bytes point message signature = true := by
  rw [check]
  cases Ed25519.verify verifier.bytes point message signature <;> simp

theorem parse_eq_ok {operation : Operation} {bytes : Bytes} {signature : Octets 64} :
    parse operation bytes = .ok signature ↔ bytes = signature.toBytes := by
  rw [parse]
  constructor
  · intro h
    cases hbytes : Octets.ofBytes? 64 bytes with
    | none =>
        rw [hbytes] at h
        cases h
    | some parsed =>
        rw [hbytes] at h
        cases h
        exact (Octets.toBytes_of_ofBytes? hbytes).symm
  · rintro rfl
    rw [Octets.ofBytes?_toBytes]

/-- A signature is accepted if it has the right length and is valid under a usable key. -/
theorem verify_eq_ok {bytes : Bytes} :
    verify message bytes verifier = .ok () ↔
      ∃ point signature, verifier.point .verify = .ok point ∧ bytes = signature.toBytes ∧
        Ed25519.verify verifier.bytes point message signature = true := by
  simp only [verify, bind_eq_ok, parse_eq_ok, check_eq_ok]
  constructor
  · rintro ⟨point, hpoint, signature, hbytes, hvalid⟩
    exact ⟨point, signature, hpoint, hbytes, hvalid⟩
  · rintro ⟨point, signature, hpoint, hbytes, hvalid⟩
    exact ⟨point, hpoint, signature, hbytes, hvalid⟩

theorem verify_of_sign (hsigner : signer.publicKey = .ok verifier)
    (hown : SelfVerifies signer message) {signature : Octets 64}
    (hsign : sign message signer = .ok signature) :
    verify message signature.toBytes verifier = .ok () := by
  obtain ⟨point, hpoint, hvalid⟩ := hown verifier hsigner
  obtain ⟨-, rfl⟩ := sign_eq_ok.mp hsign
  apply verify_eq_ok.mpr
  exact ⟨point, _, hpoint, rfl, hvalid⟩

theorem digestAll_eq (hsource : source.fault = none) (operation : Operation) :
    digestAll operation source = .ok (Sha512.digest source.bytes).toBytes := by
  rw [digestAll, source.readAll_eq, hsource]

/-- To sign a stream is to sign the digest of its bytes. -/
theorem signStream_eq_ok (hsource : source.fault = none) {signature : Octets 64} :
    signStream source signer = .ok signature ↔
      sign (Sha512.digest source.bytes).toBytes signer = .ok signature := by
  rw [signStream, bind_eq_ok, sign_eq_ok]
  simp only [digestAll_eq hsource, usableSeed_eq_ok]
  constructor
  · rintro ⟨seed, ⟨hempty, rfl⟩, h⟩
    cases h
    exact ⟨hempty, rfl⟩
  · rintro ⟨hempty, rfl⟩
    exact ⟨signer.seed, ⟨hempty, rfl⟩, rfl⟩

/-- To verify a stream is to verify the digest of its bytes. -/
theorem verifyStream_eq_ok (hsource : source.fault = none) {bytes : Bytes} :
    verifyStream source bytes verifier = .ok () ↔
      verify (Sha512.digest source.bytes).toBytes bytes verifier = .ok () := by
  rw [verify_eq_ok, verifyStream]
  simp only [bind_eq_ok, parse_eq_ok, digestAll_eq hsource, check_eq_ok]
  constructor
  · rintro ⟨point, hpoint, signature, hbytes, _, hdigest, hvalid⟩
    cases hdigest
    exact ⟨point, signature, point_congr hpoint .verify, hbytes, hvalid⟩
  · rintro ⟨point, signature, hpoint, hbytes, hvalid⟩
    exact ⟨point, point_congr hpoint .verifyStream, signature, hbytes, _, rfl, hvalid⟩

end Signature

end SealedEnvelope
