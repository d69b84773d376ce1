import SealedEnvelope.Proofs.Kdf2
import SealedEnvelope.Proofs.Session.Conversation

/-!
Sides of a handshake that do not agree. A one-time key that only one side has used, or other
data of the caller, makes other inputs of the derivation; from there on the sessions can
only be the same in a key or in their identifier where two inputs of a hash collide.
-/

namespace SealedEnvelope

/-- Two different inputs for which the hash is the same. -/
def Collides {α : Type} (hash : Bytes → α) (x y : Bytes) : Prop := x ≠ y ∧ hash x = hash y

/-- Two hashes are one block each, under the first two counters. -/
theorem Kdf2.output_two_blocks (secret : Bytes) :
    output .sha512 secret 128 = (Sha512.digest (secret ++ Bytes.bigEndian 4 1)).toBytes ++
      (Sha512.digest (secret ++ Bytes.bigEndian 4 2)).toBytes := by
  have hcount : blockCount .sha512 128 = 2 := rfl
  have hlength : (blocks .sha512 secret 2).length ≤ 128 := (length_blocks .sha512 secret 2).le
  rw [output_eq, hcount, List.take_of_length_le hlength, blocks_succ, blocks_succ]
  rfl

namespace Session

/-- What is hashed to establish a session, one input for each field: with SHA-512 for the keys,
which are the blocks of the derivation, and with SHA-256 for the additional data and the
identifier. -/
structure Hashed where
  initiatorKey : Bytes
  responderKey : Bytes
  additionalData : Bytes
  sessionId : Bytes

def hashed (secrets callerData : Bytes) : Hashed :=
  let input := keyInput secrets (bindData callerData)
  { initiatorKey := input ++ Bytes.bigEndian 4 1
    responderKey := input ++ Bytes.bigEndian 4 2
    additionalData := callerData ++ label
    sessionId := (Sha512.digest (input ++ Bytes.bigEndian 4 1)).toBytes ++
      (Sha512.digest (input ++ Bytes.bigEndian 4 2)).toBytes ++
        (bindData callerData).toBytes ++ label }

namespace Hashed

/-- The session that the hashes make. -/
def session (h : Hashed) (role : Role) : Session where
  initiatorKey := Sha512.digest h.initiatorKey
  responderKey := Sha512.digest h.responderKey
  additionalData := Sha256.digest h.additionalData
  sessionId := Sha256.digest h.sessionId
  role := role

/-- The inputs for one field of two sessions differ, and their hash is the same. -/
def Collision (h h' : Hashed) : Prop :=
  Collides Sha512.digest h.initiatorKey h'.initiatorKey ∨
    Collides Sha512.digest h.responderKey h'.responderKey ∨
    Collides Sha256.digest h.additionalData h'.additionalData ∨
    Collides Sha256.digest h.sessionId h'.sessionId

end Hashed

theorem establish_eq (secrets callerData : Bytes) (role : Role) :
    establish secrets callerData role = (hashed secrets callerData).session role := by
  have hmaterial := Kdf2.output_two_blocks (keyInput secrets (bindData callerData))
  rw [establish, hmaterial, List.take_left' (Octets.length_toBytes _),
    List.drop_left' (Octets.length_toBytes _)]
  have hpadded (x : Octets 64) : Octets.ofPadded 64 x.toBytes = x :=
    Octets.ext (Octets.toBytes_ofPadded x.length_toBytes)
  rw [hpadded, hpadded]
  rfl

section Inputs

variable {secrets secrets' callerData callerData' : Bytes}

/-- The additional data have one length, so the secrets end where they begin. -/
theorem keyInput_inj {ad ad' : Octets 32} (h : keyInput secrets ad = keyInput secrets' ad') :
    secrets = secrets' ∧ ad = ad' := by
  obtain ⟨hsecrets, hdata⟩ := List.append_inj' h (by rw [ad.length_toBytes, ad'.length_toBytes])
  exact ⟨hsecrets, Octets.ext hdata⟩

/-- Other secrets or other data of the caller make another input of the derivation. -/
theorem keyInput_ne_or_collides (h : secrets ≠ secrets' ∨ callerData ≠ callerData') :
    keyInput secrets (bindData callerData) ≠ keyInput secrets' (bindData callerData') ∨
      Collides Sha256.digest (callerData ++ label) (callerData' ++ label) := by
  by_cases hinput : keyInput secrets (bindData callerData) =
      keyInput secrets' (bindData callerData')
  · obtain ⟨hsecrets, hdata⟩ := keyInput_inj hinput
    have hcaller : callerData ≠ callerData' := h.resolve_left (not_not.mpr hsecrets)
    exact .inr ⟨fun hsame => hcaller (List.append_cancel_right hsame), hdata⟩
  · exact .inl hinput

/-- The blocks of the derivation have one length each, and so has what follows them. -/
theorem digests_of_sessionId
    (h : (hashed secrets callerData).sessionId = (hashed secrets' callerData').sessionId) :
    Sha512.digest (hashed secrets callerData).initiatorKey =
      Sha512.digest (hashed secrets' callerData').initiatorKey := by
  unfold hashed at h
  simp only [List.append_assoc] at h
  exact Octets.ext (List.append_inj_left h
    ((Octets.length_toBytes _).trans (Octets.length_toBytes _).symm))

/-- What has come of different inputs is only the same by a collision. -/
theorem collision_of_same {role role' : Role}
    (h : secrets ≠ secrets' ∨ callerData ≠ callerData')
    (hsame : (establish secrets callerData role).sessionId =
        (establish secrets' callerData' role').sessionId ∨
      (establish secrets callerData role).initiatorKey =
        (establish secrets' callerData' role').initiatorKey ∨
      (establish secrets callerData role).responderKey =
        (establish secrets' callerData' role').responderKey) :
    (hashed secrets callerData).Collision (hashed secrets' callerData') := by
  simp only [establish_eq] at hsame
  obtain hinput | hcollides := keyInput_ne_or_collides h
  case inr => exact .inr (.inr (.inl hcollides))
  have hblock (counter : Nat) : keyInput secrets (bindData callerData) ++
      Bytes.bigEndian 4 counter ≠ keyInput secrets' (bindData callerData') ++
        Bytes.bigEndian 4 counter := fun hblock => hinput (List.append_cancel_right hblock)
  obtain hid | hinitiator | hresponder := hsame
  · by_cases hinputs : (hashed secrets callerData).sessionId =
        (hashed secrets' callerData').sessionId
    · exact .inl ⟨hblock 1, digests_of_sessionId hinputs⟩
    · exact .inr (.inr (.inr ⟨hinputs, hid⟩))
  · exact .inl ⟨hblock 1, hinitiator⟩
  · exact .inr (.inl ⟨hblock 2, hresponder⟩)

end Inputs

section Lengths

variable {identity ephemeral : Ed25519PrivateKey} {own : ResponderKeys} {bundle : PrekeyBundle}
  {hello : InitiatorHello} {secrets : Bytes}

/-- Three secrets, and a fourth one where there is a one-time key. -/
def secretsLength (oneTime : Bool) : Nat := if oneTime then 128 else 96

theorem length_secrets {α : Type} {x : Option α} {f : α → Except Failure (Octets 32)}
    {fourth : Option (Octets 32)} (h : x.mapM f = .ok fourth) (first second third : Octets 32) :
    (first.toBytes ++ second.toBytes ++ third.toBytes ++
      (fourth.map Octets.toBytes).getD []).length = secretsLength x.isSome := by
  cases x with
  | none =>
      cases h
      simp [secretsLength]
  | some a =>
      obtain ⟨shared, -, hshared⟩ := bind_eq_ok.mp h
      cases hshared
      simp [secretsLength]

theorem length_initiatorSecrets (h : initiatorSecrets identity ephemeral bundle = .ok secrets) :
    secrets.length = secretsLength bundle.oneTime.isSome := by
  simp only [initiatorSecrets, bind_eq_ok] at h
  obtain ⟨first, -, second, -, third, -, fourth, hfourth, hsecrets⟩ := h
  cases hsecrets
  exact length_secrets hfourth first second third

theorem length_responderSecrets (h : responderSecrets own hello = .ok secrets) :
    secrets.length = secretsLength own.oneTime.isSome := by
  simp only [responderSecrets, bind_eq_ok] at h
  obtain ⟨first, -, second, -, third, -, fourth, hfourth, hsecrets⟩ := h
  cases hsecrets
  exact length_secrets hfourth first second third

theorem secretsLength_inj {b b' : Bool} (h : secretsLength b = secretsLength b') : b = b' := by
  cases b <;> cases b' <;> simp [secretsLength] at h ⊢

end Lengths

/-- Where both sides get a session, but only one of them has used a one-time key or their callers'
data differ, the derivations of the two have different inputs, or the data collide under SHA-256.
If nevertheless the identifiers are the same, or the keys of one direction, two of the inputs that
have been hashed collide: for the keys under SHA-512, for the identifiers or the data under SHA-256.
This is so whatever the keys of the two sides are. -/
theorem mismatch_noticed {identity ephemeral : Ed25519PrivateKey} {own : ResponderKeys}
    {bundle : PrekeyBundle} {hello : InitiatorHello} {callerData callerData' : Bytes}
    {s t : Session} (hstart : start identity ephemeral bundle callerData = .ok s)
    (hreceive : receive own hello callerData' = .ok t)
    (hmismatch : bundle.oneTime.isSome ≠ own.oneTime.isSome ∨ callerData ≠ callerData') :
    ∃ secrets secrets', initiatorSecrets identity ephemeral bundle = .ok secrets ∧
      responderSecrets own hello = .ok secrets' ∧
      s = (hashed secrets callerData).session .initiator ∧
      t = (hashed secrets' callerData').session .responder ∧
      (keyInput secrets s.additionalData ≠ keyInput secrets' t.additionalData ∨
        Collides Sha256.digest (callerData ++ label) (callerData' ++ label)) ∧
      (s.sessionId = t.sessionId ∨ s.initiatorKey = t.initiatorKey ∨
          s.responderKey = t.responderKey →
        (hashed secrets callerData).Collision (hashed secrets' callerData')) := by
  obtain ⟨secrets, hsecrets, rfl⟩ := map_eq_ok.mp hstart
  obtain ⟨secrets', hsecrets', rfl⟩ := map_eq_ok.mp hreceive
  have hdiffer : secrets ≠ secrets' ∨ callerData ≠ callerData' := by
    refine hmismatch.imp_left fun honeTime hsame => honeTime (secretsLength_inj ?_)
    rw [← length_initiatorSecrets hsecrets, ← length_responderSecrets hsecrets', hsame]
  exact ⟨secrets, secrets', hsecrets, hsecrets', establish_eq _ _ _, establish_eq _ _ _,
    keyInput_ne_or_collides hdiffer, collision_of_same hdiffer⟩

section Sample

theorem agree_of_sharedSecret? {key other : Ed25519PrivateKey} {publicKey : Ed25519PublicKey}
    {shared : Octets 32} (howns : other.Owns publicKey)
    (h : key.sharedSecret? other = some shared) (operation : Operation) :
    key.agree operation publicKey = .ok shared := by
  have hyields := yields_agree howns operation key
  rw [h] at hyields
  exact hyields

/-- The keys of sevens and of eights agree, from either side. -/
theorem agree_sevens_eights : ∃ shared, ∀ operation,
    sevenKey.agree operation eightPublicKey = .ok shared ∧
      eightKey.agree operation sevenPublicKey = .ok shared := by
  obtain ⟨shared, hsecret, hother⟩ := sharedSecret?_sevens_eights
  exact ⟨shared, fun operation =>
    ⟨agree_of_sharedSecret? (.inl publicKey_eightKey) hsecret operation,
      agree_of_sharedSecret? (.inl publicKey_sevenKey) hother operation⟩⟩

/-- The initiator has used the one-time key of the bundle, the responder does not have it. -/
theorem mismatch_noticed_sevens : ∃ s t secrets secrets',
    start sevenKey sevenKey ⟨eightPublicKey, eightPublicKey, some eightPublicKey⟩ [9] = .ok s ∧
      receive { eightKeys with oneTime := none } ⟨sevenPublicKey, sevenPublicKey⟩ [9] = .ok t ∧
      s = (hashed secrets [9]).session .initiator ∧
      t = (hashed secrets' [9]).session .responder ∧
      keyInput secrets s.additionalData ≠ keyInput secrets' t.additionalData := by
  obtain ⟨shared, hshared⟩ := agree_sevens_eights
  have hinitiator : ∃ secrets, initiatorSecrets sevenKey sevenKey
      ⟨eightPublicKey, eightPublicKey, some eightPublicKey⟩ = .ok secrets := by
    simp [initiatorSecrets, (hshared _).1, ok_bind]
  have hresponder : ∃ secrets, responderSecrets { eightKeys with oneTime := none }
      ⟨sevenPublicKey, sevenPublicKey⟩ = .ok secrets := by
    simp [responderSecrets, eightKeys, (hshared _).2, ok_bind]
  obtain ⟨initiators, hinitiator⟩ := hinitiator
  obtain ⟨responders, hresponder⟩ := hresponder
  have hstart : start sevenKey sevenKey
      ⟨eightPublicKey, eightPublicKey, some eightPublicKey⟩ [9] = .ok _ :=
    map_eq_ok.mpr ⟨initiators, hinitiator, rfl⟩
  have hreceive : receive { eightKeys with oneTime := none }
      ⟨sevenPublicKey, sevenPublicKey⟩ [9] = .ok _ :=
    map_eq_ok.mpr ⟨responders, hresponder, rfl⟩
  have honeTime : (some eightPublicKey).isSome ≠ (none : Option Ed25519PrivateKey).isSome := by
    decide
  obtain ⟨secrets, secrets', -, -, hsession, hsession', hinputs, -⟩ :=
    mismatch_noticed hstart hreceive (.inl honeTime)
  have hinput := hinputs.resolve_right fun hcollides => hcollides.1 rfl
  exact ⟨_, _, secrets, secrets', hstart, hreceive, hsession, hsession', hinput⟩

end Sample

end Session

end SealedEnvelope
