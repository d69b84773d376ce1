import SealedEnvelope.Proofs.Envelope.Alike
import SealedEnvelope.Session.Handshake

/-!
The two sides of a handshake. What each side computes is the secrets that the keys of
both agree on in pairs, in one order; so both sides get the same session, or neither
gets one.
-/

namespace SealedEnvelope

namespace Ed25519PrivateKey

/-- The public key that belongs to a private key. To the empty key belongs the empty one. -/
def Owns (key : Ed25519PrivateKey) (publicKey : Ed25519PublicKey) : Prop :=
  key.publicKey = .ok publicKey ∨ key.isEmpty = true ∧ publicKey.isEmpty = true

/-- The public key, if there is one, is on the curve and not of small order. -/
def HasPoint (key : Ed25519PrivateKey) : Prop :=
  ∀ publicKey, key.publicKey = .ok publicKey → ∃ point, publicKey.toX25519 .agreeKeys = .ok point

/-- The private key of either with the point of the other gives the same. -/
def AgreesWith (key other : Ed25519PrivateKey) : Prop :=
  ∀ publicKey otherPublicKey point otherPoint,
    key.publicKey = .ok publicKey → publicKey.toX25519 .agreeKeys = .ok point →
    other.publicKey = .ok otherPublicKey → otherPublicKey.toX25519 .agreeKeys = .ok otherPoint →
      X25519.multiply (x25519Scalar key.seed) otherPoint =
        X25519.multiply (x25519Scalar other.seed) point

/-- The secret of two keys. There is none if one of them is empty or the secret would be zero. -/
def sharedSecret? (key other : Ed25519PrivateKey) : Option (Octets 32) := do
  let publicKey ← other.publicKey.toOption
  (key.agree .agreeKeys publicKey).toOption

end Ed25519PrivateKey

/-- The result is what there is, or the failure of an unusable key if there is nothing. -/
def Yields {α : Type} (x : Except Failure α) (value? : Option α) : Prop :=
  match value? with
  | some a => x = .ok a
  | none => ∃ failure, x = .error failure ∧ failure.kind = .invalidKey

namespace Yields

variable {α β : Type} {x : Except Failure α} {value? : Option α}

theorem pure (a : α) : Yields (.ok a) (some a) := rfl

theorem bind {f : α → Except Failure β} {g : α → Option β} (h : Yields x value?)
    (hf : ∀ a, Yields (f a) (g a)) : Yields (x >>= f) (value? >>= g) := by
  cases value? with
  | none =>
      obtain ⟨failure, rfl, hkind⟩ := h
      exact ⟨failure, rfl, hkind⟩
  | some a =>
      obtain rfl : x = .ok a := h
      exact hf a

theorem map (f : α → β) (h : Yields x value?) : Yields (x.map f) (value?.map f) := by
  cases value? with
  | none =>
      obtain ⟨failure, rfl, hkind⟩ := h
      exact ⟨failure, rfl, hkind⟩
  | some a =>
      obtain rfl : x = .ok a := h
      rfl

theorem congr {y : Except Failure α} (h : Yields x value?) (halike : Alike x y) :
    Yields y value? := by
  cases value? with
  | none =>
      obtain ⟨failure, hfailure, hkind⟩ := h
      obtain ⟨failure', hfailure', hsame⟩ := halike.exists_error hfailure
      exact ⟨failure', hfailure', hsame.trans hkind⟩
  | some a => exact halike.eq_ok_iff.mp h

/-- It is enough that failures are those of unusable keys. -/
theorem toOption (h : ∀ failure, x = .error failure → failure.kind = .invalidKey) :
    Yields x x.toOption := by
  cases x with
  | error failure => exact ⟨failure, rfl, h failure rfl⟩
  | ok a => rfl

end Yields

section Agreement

variable {key other : Ed25519PrivateKey} {publicKey : Ed25519PublicKey} {operation : Operation}

theorem kind_of_point {failure : Failure} (h : publicKey.point operation = .error failure) :
    failure.kind = .invalidKey := by
  rw [Ed25519PublicKey.point] at h
  split at h
  · cases h
    rfl
  · cases hpoint : EdwardsPoint.ofBytes? publicKey.bytes with
    | none =>
        rw [hpoint] at h
        cases h
        rfl
    | some point =>
        rw [hpoint] at h
        dsimp only at h
        split at h <;> cases h
        rfl

theorem kind_of_agree {failure : Failure} (h : key.agree operation publicKey = .error failure) :
    failure.kind = .invalidKey := by
  rcases bind_eq_error.mp h with hpoint | ⟨point, -, h⟩
  · exact kind_of_point (map_eq_error.mp hpoint)
  · rcases bind_eq_error.mp h with hseed | ⟨seed, -, hshared⟩
    · rw [Ed25519PrivateKey.usableSeed] at hseed
      split at hseed <;> cases hseed
      rfl
    · rw [agreeX25519] at hshared
      split at hshared <;> cases hshared
      rfl

theorem alike_agree (operation operation' : Operation) (key : Ed25519PrivateKey)
    (publicKey : Ed25519PublicKey) :
    Alike (key.agree operation publicKey) (key.agree operation' publicKey) :=
  (alike_toX25519 operation operation' publicKey).bind fun point =>
    alike_agreeWithPoint operation operation' key point

/-- With the public key of another, a key gives the secret of the two. -/
theorem yields_agree (h : other.Owns publicKey) (operation : Operation)
    (key : Ed25519PrivateKey) :
    Yields (key.agree operation publicKey) (key.sharedSecret? other) := by
  rcases h with hkey | ⟨hother, hpublic⟩
  · have hsecret : key.sharedSecret? other = (key.agree .agreeKeys publicKey).toOption := by
      rw [Ed25519PrivateKey.sharedSecret?, hkey]
      rfl
    rw [hsecret]
    apply (Yields.toOption fun failure => kind_of_agree).congr
    exact alike_agree .agreeKeys operation key publicKey
  · have hsecret : key.sharedSecret? other = none := by
      rw [Ed25519PrivateKey.sharedSecret?, Ed25519PrivateKey.publicKey,
        Ed25519PrivateKey.usableSeed, if_pos hother]
      rfl
    rw [hsecret, Ed25519PrivateKey.agree, Ed25519PublicKey.toX25519, Ed25519PublicKey.point,
      if_pos hpublic]
    exact ⟨_, rfl, rfl⟩

theorem sharedSecret?_of_publicKey {otherPublicKey : Ed25519PublicKey} {otherPoint : Octets 32}
    (hkey : key.publicKey = .ok publicKey) (hother : other.publicKey = .ok otherPublicKey)
    (hpoint : otherPublicKey.toX25519 .agreeKeys = .ok otherPoint) :
    key.sharedSecret? other = (agreeX25519 .agreeKeys
      (Ed25519PrivateKey.x25519Scalar key.seed) otherPoint).toOption := by
  have hseed : key.usableSeed .agreeKeys = .ok key.seed :=
    usableSeed_eq_ok.mpr ⟨isEmpty_of_publicKey hkey, rfl⟩
  have hagree : key.agree .agreeKeys otherPublicKey =
      agreeX25519 .agreeKeys (Ed25519PrivateKey.x25519Scalar key.seed) otherPoint := by
    rw [Ed25519PrivateKey.agree, hpoint, ok_bind, Ed25519PrivateKey.agreeWithPoint, hseed, ok_bind]
  rw [Ed25519PrivateKey.sharedSecret?, hother, ← hagree]
  rfl

theorem sharedSecret?_of_error {failure : Failure}
    (h : key.publicKey = .error failure ∨ other.publicKey = .error failure) :
    key.sharedSecret? other = none := by
  cases hother : other.publicKey with
  | error failure' =>
      rw [Ed25519PrivateKey.sharedSecret?, hother]
      rfl
  | ok otherPublicKey =>
      have hkey : key.publicKey = .error failure := h.resolve_right (by rw [hother]; nofun)
      rw [Ed25519PrivateKey.sharedSecret?, hother]
      change (key.agree .agreeKeys otherPublicKey).toOption = none
      cases hagree : key.agree .agreeKeys otherPublicKey with
      | error failure' => rfl
      | ok secret =>
          obtain ⟨point, -, hsecret⟩ := bind_eq_ok.mp hagree
          obtain ⟨seed, hseed, -⟩ := bind_eq_ok.mp hsecret
          have hpublic : key.publicKey = .ok ⟨Ed25519.publicPoint key.seed⟩ :=
            map_eq_ok.mpr ⟨key.seed, usableSeed_eq_ok.mpr ⟨(usableSeed_eq_ok.mp hseed).1, rfl⟩, rfl⟩
          rw [hkey] at hpublic
          cases hpublic

/-- The secret is the same from either side. -/
theorem sharedSecret?_comm (hkey : key.HasPoint) (hother : other.HasPoint)
    (hagree : key.AgreesWith other) : key.sharedSecret? other = other.sharedSecret? key := by
  cases hpublic : key.publicKey with
  | error failure =>
      rw [sharedSecret?_of_error (.inl hpublic), sharedSecret?_of_error (.inr hpublic)]
  | ok publicKey =>
      cases hotherPublic : other.publicKey with
      | error failure =>
          rw [sharedSecret?_of_error (.inr hotherPublic),
            sharedSecret?_of_error (.inl hotherPublic)]
      | ok otherPublicKey =>
          obtain ⟨point, hpoint⟩ := hkey publicKey hpublic
          obtain ⟨otherPoint, hotherPoint⟩ := hother otherPublicKey hotherPublic
          rw [sharedSecret?_of_publicKey hpublic hotherPublic hotherPoint,
            sharedSecret?_of_publicKey hotherPublic hpublic hpoint, agreeX25519, agreeX25519,
            hagree _ _ _ _ hpublic hpoint hotherPublic hotherPoint]

end Agreement

/-- The public keys in a bundle are those of the responder's keys; there is a one-time key on both
sides or on neither. -/
structure PrekeyBundle.OfKeys (bundle : PrekeyBundle) (own : ResponderKeys) : Prop where
  identity : own.identity.Owns bundle.identity
  longTerm : own.longTerm.Owns bundle.longTerm
  oneTime : Option.Rel Ed25519PrivateKey.Owns own.oneTime bundle.oneTime

structure InitiatorHello.OfKeys (hello : InitiatorHello) (identity ephemeral : Ed25519PrivateKey) :
    Prop where
  identity : identity.Owns hello.identity
  ephemeral : ephemeral.Owns hello.ephemeral

namespace Session

/-- The keys that agree on a secret in a handshake, in order: first the initiator's. -/
def handshakePairs (identity ephemeral : Ed25519PrivateKey) (own : ResponderKeys) :
    List (Ed25519PrivateKey × Ed25519PrivateKey) :=
  [(identity, own.longTerm), (ephemeral, own.identity), (ephemeral, own.longTerm)] ++
    own.oneTime.toList.map fun oneTime => (ephemeral, oneTime)

/-- The secrets of all pairs one behind the other, if there are all. -/
def handshakeSecrets? (identity ephemeral : Ed25519PrivateKey) (own : ResponderKeys) :
    Option Bytes :=
  ((handshakePairs identity ephemeral own).mapM
      fun pair : Ed25519PrivateKey × Ed25519PrivateKey => pair.1.sharedSecret? pair.2).map
    fun secrets => secrets.flatMap Octets.toBytes

variable {identity ephemeral : Ed25519PrivateKey} {own : ResponderKeys} {bundle : PrekeyBundle}
  {hello : InitiatorHello}

theorem handshakeSecrets?_eq :
    handshakeSecrets? identity ephemeral own = (do
      let first ← identity.sharedSecret? own.longTerm
      let second ← ephemeral.sharedSecret? own.identity
      let third ← ephemeral.sharedSecret? own.longTerm
      let fourth ← own.oneTime.mapM fun oneTime => ephemeral.sharedSecret? oneTime
      return first.toBytes ++ second.toBytes ++ third.toBytes ++
        (fourth.map Octets.toBytes).getD []) := by
  rw [handshakeSecrets?, handshakePairs]
  cases own.oneTime <;>
    simp [List.mapM_cons, Option.map_bind, Option.bind_assoc, Option.bind_map]

theorem yields_initiatorSecrets (hbundle : bundle.OfKeys own) :
    Yields (initiatorSecrets identity ephemeral bundle)
      (handshakeSecrets? identity ephemeral own) := by
  rw [handshakeSecrets?_eq]
  apply (yields_agree hbundle.longTerm _ identity).bind
  intro first
  apply (yields_agree hbundle.identity _ ephemeral).bind
  intro second
  apply (yields_agree hbundle.longTerm _ ephemeral).bind
  intro third
  refine Yields.bind ?_ fun fourth => .pure _
  obtain ⟨-, -, honeTime⟩ := hbundle
  generalize own.oneTime = own at honeTime ⊢
  generalize bundle.oneTime = published at honeTime ⊢
  cases honeTime with
  | none => exact .pure none
  | some howns => exact (yields_agree howns _ ephemeral).map some

theorem yields_responderSecrets (hhello : hello.OfKeys identity ephemeral)
    (hpoints : ∀ pair ∈ handshakePairs identity ephemeral own, pair.1.HasPoint ∧ pair.2.HasPoint)
    (hagree : ∀ pair ∈ handshakePairs identity ephemeral own, pair.1.AgreesWith pair.2) :
    Yields (responderSecrets own hello) (handshakeSecrets? identity ephemeral own) := by
  have hcomm : ∀ pair ∈ handshakePairs identity ephemeral own,
      pair.1.sharedSecret? pair.2 = pair.2.sharedSecret? pair.1 := fun pair hpair =>
    sharedSecret?_comm (hpoints pair hpair).1 (hpoints pair hpair).2 (hagree pair hpair)
  rw [handshakePairs, List.forall_mem_append] at hcomm
  obtain ⟨hfixed, honeTime⟩ := hcomm
  simp only [List.forall_mem_cons] at hfixed
  obtain ⟨hfirst, hsecond, hthird, -⟩ := hfixed
  rw [handshakeSecrets?_eq, hfirst, hsecond, hthird]
  apply (yields_agree hhello.identity _ own.longTerm).bind
  intro first
  apply (yields_agree hhello.ephemeral _ own.identity).bind
  intro second
  apply (yields_agree hhello.ephemeral _ own.longTerm).bind
  intro third
  refine Yields.bind ?_ fun fourth => .pure _
  cases hown : own.oneTime with
  | none => exact .pure none
  | some oneTime =>
      have hfourth := honeTime (ephemeral, oneTime) (by simp [hown])
      change Yields _ ((ephemeral.sharedSecret? oneTime).map some)
      rw [hfourth]
      exact (yields_agree hhello.ephemeral _ oneTime).map some

/-- Two sessions from the two sides of one handshake. -/
structure Paired (s t : Session) : Prop where
  initiatorKey : s.initiatorKey = t.initiatorKey
  responderKey : s.responderKey = t.responderKey
  additionalData : s.additionalData = t.additionalData
  sessionId : s.sessionId = t.sessionId
  role : s.role = .initiator
  peerRole : t.role = .responder

/-- The two sides of what the same secrets make. -/
theorem paired_establish (secrets callerData : Bytes) :
    Paired (establish secrets callerData .initiator) (establish secrets callerData .responder) :=
  ⟨rfl, rfl, rfl, rfl, rfl, rfl⟩

end Session

end SealedEnvelope
