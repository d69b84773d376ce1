import SealedEnvelope.Proofs.Computation
import SealedEnvelope.Toolkit.Envelopes
import SealedEnvelope.Toolkit.Keys
import SealedEnvelope.Toolkit.Payloads
import SealedEnvelope.Toolkit.Sessions

/-!
Requests to a toolkit as values: one constructor for each operation. The same
requests are made with keys of any algorithm, as they are handed in, and with keys
that can be used; resolving a request takes the one to the other or fails for the
first key that cannot be used.
-/

namespace SealedEnvelope

/-- A key as it is handed in. -/
inductive AnyKey where
  | publicKey (key : PublicKey)
  | privateKey (key : PrivateKey)

namespace AnyKey

/-- Why an operation cannot use a key, if it cannot. -/
def fault? (operation : Operation) : AnyKey → Option Failure
  | .publicKey (.ed25519 key) =>
      if key.isEmpty then some (.invalidKey operation .publicEmpty) else none
  | .privateKey (.ed25519 key) =>
      if key.isEmpty then some (.invalidKey operation .privateEmpty) else none
  | .publicKey (.foreign key) | .privateKey (.foreign key) =>
      some (.unsupportedKeyType operation (.named key.algorithm))

/-- The identifier by which a key that can be used is known. -/
def usableId? (algorithm : FingerprintAlgorithm) : AnyKey → Option KeyId
  | .publicKey (.ed25519 key) => if key.isEmpty then none else some (key.identifier algorithm)
  | .privateKey (.ed25519 key) =>
      if key.isEmpty then none
      else some ((⟨Ed25519.publicPoint key.seed⟩ : Ed25519PublicKey).identifier algorithm)
  | .publicKey (.foreign _) | .privateKey (.foreign _) => none

/-- Just the keys that can be used have an identifier. -/
theorem isSome_usableId?_iff (algorithm : FingerprintAlgorithm) (operation : Operation)
    (key : AnyKey) : (key.usableId? algorithm).isSome ↔ key.fault? operation = none := by
  rcases key with (key | key) | (key | key)
  · rw [usableId?, fault?]
    cases key.isEmpty <;> simp
  · simp [usableId?, fault?]
  · rw [usableId?, fault?]
    cases key.isEmpty <;> simp
  · simp [usableId?, fault?]

theorem isSome_bind_usableId?_iff (algorithm : FingerprintAlgorithm) (operation : Operation)
    (key? : Option AnyKey) : (key?.bind (usableId? algorithm)).isSome ↔
      ∃ key, key? = some key ∧ key.fault? operation = none := by
  cases key? with
  | none => simp
  | some key => simp [isSome_usableId?_iff algorithm operation]

end AnyKey

/-- A request with public keys, private keys and recipients of the given types, by what it gives.
A stream is read from a source and written to a sink, which come on top. -/
inductive Request (Pub Priv Rec : Type) : Type → Type where
  | generateKeypair : Request Pub Priv Rec Keypair
  | importPrivateKey (data password : Bytes) : Request Pub Priv Rec PrivateKey
  | exportPrivateKey (key : Priv) (password : Bytes) : Request Pub Priv Rec Bytes
  | importPublicKey (data : Bytes) : Request Pub Priv Rec PublicKey
  | exportPublicKey (key : Pub) : Request Pub Priv Rec Bytes
  | extractPublicKey (key : Priv) : Request Pub Priv Rec PublicKey
  | fingerprint (data : Bytes) : Request Pub Priv Rec Bytes
  | keyIdentifier (key : Pub) : Request Pub Priv Rec KeyId
  | encrypt (data : Bytes) (recipients : List Pub) : Request Pub Priv Rec Bytes
  | encryptFor (data : Bytes) (recipients : List Rec) : Request Pub Priv Rec Bytes
  | decrypt (data : Bytes) (key : Priv) : Request Pub Priv Rec Bytes
  | decryptWithPassword (data phrase : Bytes) : Request Pub Priv Rec Bytes
  | signThenEncrypt (data : Bytes) (signer : Priv) (recipients : List Pub) :
      Request Pub Priv Rec Bytes
  | decryptThenVerify (data : Bytes) (key : Priv) (verifiers : List Pub) :
      Request Pub Priv Rec Bytes
  | encryptStream (recipients : List Rec) : Request Pub Priv Rec Nat
  | decryptStream (key : Priv) : Request Pub Priv Rec Nat
  | decryptStreamWithPassword (phrase : Bytes) : Request Pub Priv Rec Nat
  | signThenEncryptStream (signer : Priv) (recipients : List Rec) : Request Pub Priv Rec Nat
  | decryptThenVerifyStream (key : Priv) (verifiers : List Pub) : Request Pub Priv Rec Nat
  | sign (data : Bytes) (key : Priv) : Request Pub Priv Rec Bytes
  | verifySignature (data signature : Bytes) (key : Pub) : Request Pub Priv Rec Unit
  | signStream (key : Priv) : Request Pub Priv Rec Bytes
  | verifyStream (signature : Bytes) (key : Pub) : Request Pub Priv Rec Unit
  | chunkEncrypt (keys : SegmentKeys) : Request Pub Priv Rec Nat
  | chunkDecrypt (keys : SegmentKeys) : Request Pub Priv Rec Nat
  | streamEncrypt (keys : SegmentKeys) : Request Pub Priv Rec Nat
  | streamDecrypt (keys : SegmentKeys) : Request Pub Priv Rec Nat
  | startSession (identity ephemeral : Priv) (peerIdentity peerLongTerm : Pub)
      (peerOneTime : Option Pub) (callerData : Bytes) : Request Pub Priv Rec Session
  | receiveSession (identity longTerm : Priv) (oneTime : Option Priv)
      (peerIdentity peerEphemeral : Pub) (callerData : Bytes) : Request Pub Priv Rec Session
  | sessionEncrypt (session : Session) (text : Bytes) : Request Pub Priv Rec SessionMessage
  | sessionDecrypt (session : Session) (message : SessionMessage) : Request Pub Priv Rec Bytes

/-- A request as it is made, with keys of any algorithm. -/
abbrev MadeRequest := Request PublicKey PrivateKey EnvelopeRecipient

/-- A request all of whose keys are Ed25519 keys. -/
abbrev ResolvedRequest := Request Ed25519PublicKey Ed25519PrivateKey Recipient

namespace Request

variable {Pub Priv Rec α : Type}

/-- The operation that failures and events name. The fingerprint has no name; it cannot fail and
is not reported. -/
def operation? : Request Pub Priv Rec α → Option Operation
  | .generateKeypair => some .generateKeypair
  | .importPrivateKey _ _ => some .importPrivateKey
  | .exportPrivateKey _ _ => some .exportPrivateKey
  | .importPublicKey _ => some .importPublicKey
  | .exportPublicKey _ => some .exportPublicKey
  | .extractPublicKey _ => some .extractPublicKey
  | .fingerprint _ => none
  | .keyIdentifier _ => some .keyIdentifier
  | .encrypt _ _ | .encryptFor _ _ => some .encrypt
  | .decrypt _ _ => some .decrypt
  | .decryptWithPassword _ _ => some .decryptWithPassword
  | .signThenEncrypt _ _ _ => some .signThenEncrypt
  | .decryptThenVerify _ _ _ => some .decryptThenVerify
  | .encryptStream _ => some .encryptStream
  | .decryptStream _ => some .decryptStream
  | .decryptStreamWithPassword _ => some .decryptStreamWithPassword
  | .signThenEncryptStream _ _ => some .signThenEncryptStream
  | .decryptThenVerifyStream _ _ => some .decryptThenVerifyStream
  | .sign _ _ => some .sign
  | .verifySignature _ _ _ => some .verify
  | .signStream _ => some .signStream
  | .verifyStream _ _ => some .verifyStream
  | .chunkEncrypt _ => some .chunkEncrypt
  | .chunkDecrypt _ => some .chunkDecrypt
  | .streamEncrypt _ => some .streamEncrypt
  | .streamDecrypt _ => some .streamDecrypt
  | .startSession _ _ _ _ _ _ => some .startPfsSession
  | .receiveSession _ _ _ _ _ _ => some .receivePfsSession
  | .sessionEncrypt _ _ => some .sessionEncrypt
  | .sessionDecrypt _ _ => some .sessionDecrypt

end Request

/-- A recipient's key; a password has none. -/
def EnvelopeRecipient.keys : EnvelopeRecipient → List AnyKey
  | .key publicKey => [.publicKey publicKey]
  | .password _ => []

namespace MadeRequest

variable {α : Type}

/-- All keys in a request, in the order in which they are checked. -/
def keys : MadeRequest α → List AnyKey
  | .exportPrivateKey key _ | .extractPublicKey key | .decrypt _ key | .decryptStream key
  | .sign _ key | .signStream key => [.privateKey key]
  | .exportPublicKey key | .keyIdentifier key | .verifySignature _ _ key | .verifyStream _ key =>
      [.publicKey key]
  | .encrypt _ recipients => recipients.map .publicKey
  | .encryptFor _ recipients | .encryptStream recipients =>
      recipients.flatMap EnvelopeRecipient.keys
  | .signThenEncrypt _ signer recipients => .privateKey signer :: recipients.map .publicKey
  | .signThenEncryptStream signer recipients =>
      .privateKey signer :: recipients.flatMap EnvelopeRecipient.keys
  | .decryptThenVerify _ key verifiers | .decryptThenVerifyStream key verifiers =>
      .privateKey key :: verifiers.map .publicKey
  | .startSession identity ephemeral peerIdentity peerLongTerm peerOneTime _ =>
      [.publicKey peerIdentity, .publicKey peerLongTerm] ++ peerOneTime.toList.map .publicKey ++
        [.privateKey identity, .privateKey ephemeral]
  | .receiveSession identity longTerm oneTime peerIdentity peerEphemeral _ =>
      [.privateKey identity, .privateKey longTerm] ++ oneTime.toList.map .privateKey ++
        [.publicKey peerIdentity, .publicKey peerEphemeral]
  | .generateKeypair | .importPrivateKey _ _ | .importPublicKey _ | .fingerprint _
  | .decryptWithPassword _ _ | .decryptStreamWithPassword _ | .chunkEncrypt _ | .chunkDecrypt _
  | .streamEncrypt _ | .streamDecrypt _ | .sessionEncrypt _ _ | .sessionDecrypt _ _ => []

/-- What is wrong with the first key that cannot be used, if there is one. -/
def fault? (r : MadeRequest α) : Option Failure :=
  r.operation?.bind fun operation => r.keys.findSome? (AnyKey.fault? operation)

/-- Checks all keys in order. -/
def resolve : MadeRequest α → Except Failure (ResolvedRequest α)
  | .generateKeypair => .ok .generateKeypair
  | .importPrivateKey data password => .ok (.importPrivateKey data password)
  | .exportPrivateKey key password =>
      return .exportPrivateKey (← key.resolve .exportPrivateKey) password
  | .importPublicKey data => .ok (.importPublicKey data)
  | .exportPublicKey key => return .exportPublicKey (← key.resolve .exportPublicKey)
  | .extractPublicKey key => return .extractPublicKey (← key.resolve .extractPublicKey)
  | .fingerprint data => .ok (.fingerprint data)
  | .keyIdentifier key => return .keyIdentifier (← key.resolve .keyIdentifier)
  | .encrypt data recipients => return .encrypt data (← recipients.mapM (·.resolve .encrypt))
  | .encryptFor data recipients =>
      return .encryptFor data (← recipients.mapM (·.resolve .encrypt))
  | .decrypt data key => return .decrypt data (← key.resolve .decrypt)
  | .decryptWithPassword data phrase => .ok (.decryptWithPassword data phrase)
  | .signThenEncrypt data signer recipients => do
      let signer ← signer.resolve .signThenEncrypt
      return .signThenEncrypt data signer (← recipients.mapM (·.resolve .signThenEncrypt))
  | .decryptThenVerify data key verifiers => do
      let key ← key.resolve .decryptThenVerify
      return .decryptThenVerify data key (← verifiers.mapM (·.resolve .decryptThenVerify))
  | .encryptStream recipients =>
      return .encryptStream (← recipients.mapM (·.resolve .encryptStream))
  | .decryptStream key => return .decryptStream (← key.resolve .decryptStream)
  | .decryptStreamWithPassword phrase => .ok (.decryptStreamWithPassword phrase)
  | .signThenEncryptStream signer recipients => do
      let signer ← signer.resolve .signThenEncryptStream
      return .signThenEncryptStream signer
        (← recipients.mapM (·.resolve .signThenEncryptStream))
  | .decryptThenVerifyStream key verifiers => do
      let key ← key.resolve .decryptThenVerifyStream
      return .decryptThenVerifyStream key
        (← verifiers.mapM (·.resolve .decryptThenVerifyStream))
  | .sign data key => return .sign data (← key.resolve .sign)
  | .verifySignature data signature key =>
      return .verifySignature data signature (← key.resolve .verify)
  | .signStream key => return .signStream (← key.resolve .signStream)
  | .verifyStream signature key => return .verifyStream signature (← key.resolve .verifyStream)
  | .chunkEncrypt keys => .ok (.chunkEncrypt keys)
  | .chunkDecrypt keys => .ok (.chunkDecrypt keys)
  | .streamEncrypt keys => .ok (.streamEncrypt keys)
  | .streamDecrypt keys => .ok (.streamDecrypt keys)
  | .startSession identity ephemeral peerIdentity peerLongTerm peerOneTime callerData => do
      let bundle ← PeerPrekeys.resolve .startPfsSession ⟨peerIdentity, peerLongTerm, peerOneTime⟩
      let identity ← identity.resolve .startPfsSession
      let ephemeral ← ephemeral.resolve .startPfsSession
      return .startSession identity ephemeral bundle.identity bundle.longTerm bundle.oneTime
        callerData
  | .receiveSession identity longTerm oneTime peerIdentity peerEphemeral callerData => do
      let own ← OwnPrekeys.resolve .receivePfsSession ⟨identity, longTerm, oneTime⟩
      let peerIdentity ← peerIdentity.resolve .receivePfsSession
      let peerEphemeral ← peerEphemeral.resolve .receivePfsSession
      return .receiveSession own.identity own.longTerm own.oneTime peerIdentity peerEphemeral
        callerData
  | .sessionEncrypt session text => .ok (.sessionEncrypt session text)
  | .sessionDecrypt session message => .ok (.sessionDecrypt session message)

end MadeRequest

/-- A recipient as it is handed in. -/
def Recipient.handedIn : Recipient → EnvelopeRecipient
  | .key publicKey => .key (.ed25519 publicKey)
  | .password phrase => .password phrase

theorem Recipient.handedIn_injective : Function.Injective Recipient.handedIn := by
  intro r r' h
  cases r <;> cases r' <;> simp_all [Recipient.handedIn]

/-- The request with the same keys as they are handed in. -/
def ResolvedRequest.made {α : Type} : ResolvedRequest α → MadeRequest α
  | .generateKeypair => .generateKeypair
  | .importPrivateKey data password => .importPrivateKey data password
  | .exportPrivateKey key password => .exportPrivateKey (.ed25519 key) password
  | .importPublicKey data => .importPublicKey data
  | .exportPublicKey key => .exportPublicKey (.ed25519 key)
  | .extractPublicKey key => .extractPublicKey (.ed25519 key)
  | .fingerprint data => .fingerprint data
  | .keyIdentifier key => .keyIdentifier (.ed25519 key)
  | .encrypt data recipients => .encrypt data (recipients.map .ed25519)
  | .encryptFor data recipients => .encryptFor data (recipients.map Recipient.handedIn)
  | .decrypt data key => .decrypt data (.ed25519 key)
  | .decryptWithPassword data phrase => .decryptWithPassword data phrase
  | .signThenEncrypt data signer recipients =>
      .signThenEncrypt data (.ed25519 signer) (recipients.map .ed25519)
  | .decryptThenVerify data key verifiers =>
      .decryptThenVerify data (.ed25519 key) (verifiers.map .ed25519)
  | .encryptStream recipients => .encryptStream (recipients.map Recipient.handedIn)
  | .decryptStream key => .decryptStream (.ed25519 key)
  | .decryptStreamWithPassword phrase => .decryptStreamWithPassword phrase
  | .signThenEncryptStream signer recipients =>
      .signThenEncryptStream (.ed25519 signer) (recipients.map Recipient.handedIn)
  | .decryptThenVerifyStream key verifiers =>
      .decryptThenVerifyStream (.ed25519 key) (verifiers.map .ed25519)
  | .sign data key => .sign data (.ed25519 key)
  | .verifySignature data signature key => .verifySignature data signature (.ed25519 key)
  | .signStream key => .signStream (.ed25519 key)
  | .verifyStream signature key => .verifyStream signature (.ed25519 key)
  | .chunkEncrypt keys => .chunkEncrypt keys
  | .chunkDecrypt keys => .chunkDecrypt keys
  | .streamEncrypt keys => .streamEncrypt keys
  | .streamDecrypt keys => .streamDecrypt keys
  | .startSession identity ephemeral peerIdentity peerLongTerm peerOneTime callerData =>
      .startSession (.ed25519 identity) (.ed25519 ephemeral) (.ed25519 peerIdentity)
        (.ed25519 peerLongTerm) (peerOneTime.map .ed25519) callerData
  | .receiveSession identity longTerm oneTime peerIdentity peerEphemeral callerData =>
      .receiveSession (.ed25519 identity) (.ed25519 longTerm) (oneTime.map .ed25519)
        (.ed25519 peerIdentity) (.ed25519 peerEphemeral) callerData
  | .sessionEncrypt session text => .sessionEncrypt session text
  | .sessionDecrypt session message => .sessionDecrypt session message

theorem PrivateKey.resolve_eq_ok {operation : Operation} {key resolved : Ed25519PrivateKey} :
    (PrivateKey.ed25519 key).resolve operation = .ok resolved ↔
      key.isEmpty = false ∧ resolved = key := by
  rw [resolve]
  cases key.isEmpty <;> simp [eq_comm]

theorem PublicKey.resolve_eq_ok {operation : Operation} {key resolved : Ed25519PublicKey} :
    (PublicKey.ed25519 key).resolve operation = .ok resolved ↔
      key.isEmpty = false ∧ resolved = key := by
  rw [resolve]
  cases key.isEmpty <;> simp [eq_comm]

/-- A computation checks keys in order: it fails for the first that cannot be used, and if all can
be used, it gives something with a property. -/
def Checks {β : Type} (operation : Operation) (keys : List AnyKey) (x : Except Failure β)
    (P : β → Prop) : Prop :=
  match keys.findSome? (AnyKey.fault? operation) with
  | some failure => x = .error failure
  | none => ∃ b, x = .ok b ∧ P b

namespace Checks

variable {β γ : Type} {operation : Operation} {keys keys' : List AnyKey} {x : Except Failure β}
  {P : β → Prop} {Q : γ → Prop}

theorem pure {b : β} (h : P b) : Checks operation [] (.ok b) P := ⟨b, rfl, h⟩

theorem bind {f : β → Except Failure γ} (h : Checks operation keys x P)
    (hf : ∀ b, P b → Checks operation keys' (f b) Q) :
    Checks operation (keys ++ keys') (x >>= f) Q := by
  rw [Checks, List.findSome?_append]
  rw [Checks] at h
  cases hfault : keys.findSome? (AnyKey.fault? operation) with
  | some failure =>
      rw [hfault] at h
      rw [h]
      rfl
  | none =>
      rw [hfault] at h
      obtain ⟨b, rfl, hb⟩ := h
      exact hf b hb

/-- The first of the keys may be the only one that is checked at first. -/
theorem cons {key : AnyKey} {f : β → Except Failure γ} (h : Checks operation [key] x P)
    (hf : ∀ b, P b → Checks operation keys' (f b) Q) :
    Checks operation (key :: keys') (x >>= f) Q :=
  h.bind hf

theorem map {f : β → γ} (h : Checks operation keys x P) (hf : ∀ b, P b → Q (f b)) :
    Checks operation keys (x >>= fun b => .ok (f b)) Q := by
  rw [← List.append_nil keys]
  exact h.bind fun b hb => .pure (hf b hb)

theorem exists_ok (h : Checks operation keys x P)
    (hall : ∀ key ∈ keys, key.fault? operation = none) : ∃ b, x = .ok b ∧ P b := by
  rw [Checks, List.findSome?_eq_none_iff.mpr hall] at h
  exact h

theorem of_ok {b : β} (h : Checks operation keys (.ok b) P) : P b := by
  rw [Checks] at h
  split at h
  · cases h
  · obtain ⟨b', hsame, hb⟩ := h
    cases hsame
    exact hb

theorem publicKey (key : PublicKey) :
    Checks operation [.publicKey key] (key.resolve operation) fun b => .ed25519 b = key := by
  rw [Checks, List.findSome?_singleton]
  cases key with
  | foreign key => rfl
  | ed25519 key =>
      rw [PublicKey.resolve, AnyKey.fault?]
      cases key.isEmpty with
      | true => rfl
      | false => exact ⟨key, rfl, rfl⟩

theorem privateKey (key : PrivateKey) :
    Checks operation [.privateKey key] (key.resolve operation) fun b => .ed25519 b = key := by
  rw [Checks, List.findSome?_singleton]
  cases key with
  | foreign key => rfl
  | ed25519 key =>
      rw [PrivateKey.resolve, AnyKey.fault?]
      cases key.isEmpty with
      | true => rfl
      | false => exact ⟨key, rfl, rfl⟩

theorem recipient (r : EnvelopeRecipient) :
    Checks operation r.keys (r.resolve operation) fun b => b.handedIn = r := by
  cases r with
  | password phrase => exact .pure rfl
  | key key => exact (publicKey key).map fun b hb => congrArg EnvelopeRecipient.key hb

/-- A list is checked front to back. -/
theorem list {f : γ → Except Failure β} {each : γ → List AnyKey} {back : β → γ}
    (h : ∀ c, Checks operation (each c) (f c) fun b => back b = c) (cs : List γ) :
    Checks operation (cs.flatMap each) (cs.mapM f) fun bs => bs.map back = cs := by
  induction cs with
  | nil => exact .pure rfl
  | cons c cs ih =>
      rw [List.mapM_cons]
      refine (h c).bind fun b hb => ih.map fun bs hbs => ?_
      rw [List.map_cons, hb, hbs]

theorem option {f : γ → Except Failure β} {key : γ → AnyKey} {back : β → γ}
    (h : ∀ c, Checks operation [key c] (f c) fun b => back b = c) (c? : Option γ) :
    Checks operation (c?.toList.map key) (c?.mapM f) fun b? => b?.map back = c? := by
  cases c? with
  | none => exact .pure rfl
  | some c => exact (h c).map fun b hb => congrArg some hb

theorem publicKeys (keys : List PublicKey) :
    Checks operation (keys.map .publicKey) (keys.mapM (·.resolve operation))
      fun bs => bs.map .ed25519 = keys := by
  rw [List.map_eq_flatMap]
  exact list publicKey keys

theorem recipients (recipients : List EnvelopeRecipient) :
    Checks operation (recipients.flatMap EnvelopeRecipient.keys)
      (recipients.mapM (·.resolve operation)) fun bs => bs.map Recipient.handedIn = recipients :=
  list recipient recipients

theorem peerPrekeys (p : PeerPrekeys) :
    Checks operation
      (.publicKey p.identity :: .publicKey p.longTerm :: p.oneTime.toList.map .publicKey)
      (p.resolve operation) fun b => p = ⟨.ed25519 b.identity, .ed25519 b.longTerm,
        b.oneTime.map .ed25519⟩ := by
  refine (publicKey p.identity).cons fun identity hidentity => ?_
  refine (publicKey p.longTerm).cons fun longTerm hlongTerm => ?_
  refine (option publicKey p.oneTime).map fun oneTime honeTime => ?_
  rw [hidentity, hlongTerm, honeTime]

theorem ownPrekeys (p : OwnPrekeys) :
    Checks operation
      (.privateKey p.identity :: .privateKey p.longTerm :: p.oneTime.toList.map .privateKey)
      (p.resolve operation) fun b => p = ⟨.ed25519 b.identity, .ed25519 b.longTerm,
        b.oneTime.map .ed25519⟩ := by
  refine (privateKey p.identity).cons fun identity hidentity => ?_
  refine (privateKey p.longTerm).cons fun longTerm hlongTerm => ?_
  refine (option privateKey p.oneTime).map fun oneTime honeTime => ?_
  rw [hidentity, hlongTerm, honeTime]

end Checks

/-- A request is resolved if all its keys can be used, and to just these keys; otherwise for the
first that cannot be used there is the failure. -/
theorem MadeRequest.checks_resolve {α : Type} {operation : Operation} (r : MadeRequest α)
    (h : r.operation? = some operation) :
    Checks operation r.keys r.resolve fun resolved => r = resolved.made := by
  cases r with
  | generateKeypair | importPrivateKey data password | importPublicKey data | fingerprint data
  | decryptWithPassword data phrase | decryptStreamWithPassword phrase | chunkEncrypt keys
  | chunkDecrypt keys | streamEncrypt keys | streamDecrypt keys | sessionEncrypt session text
  | sessionDecrypt session message => exact .pure rfl
  | exportPrivateKey key password | extractPublicKey key | decrypt data key | decryptStream key
  | sign data key | signStream key =>
      cases h
      exact (Checks.privateKey key).map fun _ hkey => by rw [ResolvedRequest.made, hkey]
  | exportPublicKey key | keyIdentifier key | verifySignature data signature key
  | verifyStream signature key =>
      cases h
      exact (Checks.publicKey key).map fun _ hkey => by rw [ResolvedRequest.made, hkey]
  | encrypt data recipients =>
      cases h
      exact (Checks.publicKeys recipients).map fun _ hkeys => by rw [ResolvedRequest.made, hkeys]
  | encryptFor data recipients | encryptStream recipients =>
      cases h
      exact (Checks.recipients recipients).map fun _ hkeys => by rw [ResolvedRequest.made, hkeys]
  | signThenEncrypt data key keys | decryptThenVerify data key keys
  | decryptThenVerifyStream key keys =>
      cases h
      refine (Checks.privateKey key).cons fun _ hkey => ?_
      exact (Checks.publicKeys keys).map fun _ hkeys => by
        rw [ResolvedRequest.made, hkey, hkeys]
  | signThenEncryptStream signer recipients =>
      cases h
      refine (Checks.privateKey signer).cons fun _ hsigner => ?_
      exact (Checks.recipients recipients).map fun _ hkeys => by
        rw [ResolvedRequest.made, hsigner, hkeys]
  | startSession identity ephemeral peerIdentity peerLongTerm peerOneTime callerData =>
      cases h
      refine (Checks.peerPrekeys ⟨peerIdentity, peerLongTerm, peerOneTime⟩).bind ?_
      intro bundle hbundle
      refine (Checks.privateKey identity).cons fun _ hidentity => ?_
      refine (Checks.privateKey ephemeral).map fun _ hephemeral => ?_
      cases hbundle
      rw [ResolvedRequest.made, hidentity, hephemeral]
  | receiveSession identity longTerm oneTime peerIdentity peerEphemeral callerData =>
      cases h
      refine (Checks.ownPrekeys ⟨identity, longTerm, oneTime⟩).bind ?_
      intro own hown
      refine (Checks.publicKey peerIdentity).cons fun _ hidentity => ?_
      refine (Checks.publicKey peerEphemeral).map fun _ hephemeral => ?_
      cases hown
      rw [ResolvedRequest.made, hidentity, hephemeral]

/-- The same by the fault of the first key that cannot be used. -/
theorem MadeRequest.resolve_cases {α : Type} (r : MadeRequest α) :
    (∀ failure, r.fault? = some failure → r.resolve = .error failure) ∧
      (r.fault? = none → ∃ resolved, r.resolve = .ok resolved ∧ r = resolved.made) := by
  cases hoperation : r.operation? with
  | none =>
      have hfault : r.fault? = none := by rw [fault?, hoperation, Option.bind_none]
      refine ⟨fun failure h => ?_, fun _ => ?_⟩
      · rw [hfault] at h
        cases h
      · cases r with
        | fingerprint data => exact ⟨.fingerprint data, rfl, rfl⟩
        | _ => cases hoperation
  | some operation =>
      have hchecks := r.checks_resolve hoperation
      have hfault : r.fault? = r.keys.findSome? (AnyKey.fault? operation) := by
        rw [fault?, hoperation, Option.bind_some]
      rw [Checks, ← hfault] at hchecks
      cases h : r.fault? with
      | some failure =>
          rw [h] at hchecks
          exact ⟨fun _ hfailure => by cases hfailure; exact hchecks, nofun⟩
      | none =>
          rw [h] at hchecks
          exact ⟨nofun, fun _ => hchecks⟩

end SealedEnvelope
