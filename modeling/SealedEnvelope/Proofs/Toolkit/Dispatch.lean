import SealedEnvelope.Proofs.Segment.Run
import SealedEnvelope.Proofs.Toolkit.Request

/-!
What a toolkit adds to the ciphers that its settings describe: it checks all keys
before anything else happens, and it records how a request ended. All the rest is
the work of the ciphers.
-/

namespace SealedEnvelope

/-- What does the work of requests. -/
structure Engine where
  envelope : EnvelopeCipher
  chunk : ChunkCipher

/-- The fingerprint, the costs and the sizes are those of the settings. -/
structure Engine.Follows (engine : Engine) (settings : Settings) : Prop where
  fingerprint : engine.envelope.fingerprint = settings.fingerprint
  passwordCosts : engine.envelope.passwordCosts = settings.passwordCosts
  segmentSize : engine.envelope.stream.bufferSize.val = settings.streamBufferSize
  chunkSize : engine.chunk.chunkSize.val = settings.chunkSize

/-- A result with nothing to write. -/
def given {α : Type} (x : Random α) : Random (Emission α) := pure <$> x

theorem given_bind {α β : Type} (x : Random β) (f : β → Random α) :
    given (x >>= f) = x >>= fun b => given (f b) :=
  map_bind _ _ _

namespace Engine

variable {α : Type}

/-- The work of a request: all randomness is drawn, then there is something to write or just a
result. -/
def work (engine : Engine) (source : Source) : ResolvedRequest α → Random (Emission α)
  | .generateKeypair => given do
      let pair ← Ed25519Keypair.generate
      return ⟨.ed25519 pair.privateKey, .ed25519 pair.publicKey⟩
  | .importPrivateKey data password =>
      given (Random.lift ((ProtectedKey.recover data password).map .ed25519))
  | .exportPrivateKey key password => given (ProtectedKey.protect key password)
  | .importPublicKey data => given (Random.lift ((Ed25519PublicKey.decode data).map .ed25519))
  | .exportPublicKey key => given (pure key.encode)
  | .extractPublicKey key => given (Random.lift do return .ed25519 (← key.publicKey))
  | .fingerprint data => given (pure (engine.envelope.fingerprint.fingerprint data))
  | .keyIdentifier key => given (pure (key.identifier engine.envelope.fingerprint))
  | .encrypt data recipients => given (engine.envelope.encrypt data (recipients.map .key))
  | .encryptFor data recipients => given (engine.envelope.encrypt data recipients)
  | .decrypt data key => given (Random.lift (engine.envelope.decrypt data key))
  | .decryptWithPassword data phrase =>
      given (Random.lift (EnvelopeCipher.decryptWithPassword data phrase))
  | .signThenEncrypt data signer recipients =>
      given (engine.envelope.signThenEncrypt data signer (recipients.map .key))
  | .decryptThenVerify data key verifiers =>
      given (Random.lift (engine.envelope.decryptThenVerify data key verifiers))
  | .encryptStream recipients => do return (← engine.envelope.encryptStream recipients) source
  | .decryptStream key => pure (engine.envelope.decryptStream key source)
  | .decryptStreamWithPassword phrase =>
      pure (EnvelopeCipher.decryptStreamWithPassword phrase source)
  | .signThenEncryptStream signer recipients => do
      return (← engine.envelope.signThenEncryptStream signer recipients) source
  | .decryptThenVerifyStream key verifiers =>
      pure (engine.envelope.decryptThenVerifyStream key verifiers source)
  | .sign data key => given (Random.lift do return (← Signature.sign data key).toBytes)
  | .verifySignature data signature key =>
      given (Random.lift (Signature.verify data signature key))
  | .signStream key => given (Random.lift do return (← Signature.signStream source key).toBytes)
  | .verifyStream signature key =>
      given (Random.lift (Signature.verifyStream source signature key))
  | .chunkEncrypt keys => pure (engine.chunk.encrypt keys source)
  | .chunkDecrypt keys => pure (engine.chunk.decrypt keys source)
  | .streamEncrypt keys => pure (engine.envelope.stream.encrypt keys source)
  | .streamDecrypt keys => pure (engine.envelope.stream.decrypt keys source).1
  | .startSession identity ephemeral peerIdentity peerLongTerm peerOneTime callerData =>
      given (Random.lift (Session.start identity ephemeral
        ⟨peerIdentity, peerLongTerm, peerOneTime⟩ callerData))
  | .receiveSession identity longTerm oneTime peerIdentity peerEphemeral callerData =>
      given (Random.lift (Session.receive ⟨identity, longTerm, oneTime⟩
        ⟨peerIdentity, peerEphemeral⟩ callerData))
  | .sessionEncrypt session text => given (session.encrypt text)
  | .sessionDecrypt session message => given (Random.lift (session.decrypt message))

end Engine

/-- What comes of work that may write: the result, the sink afterwards, and what is left of the
random source. -/
def settle {α : Type} (work : Random (Emission α)) (sink : Sink) (entropy : Entropy) :
    (Except Failure α × Sink) × Entropy :=
  match work entropy with
  | (.ok emission, next) => (sink.deliver emission, next)
  | (.error failure, next) => ((.error failure, sink), next)

/-- Performs a request on keys that can be used. -/
def Engine.perform {α : Type} (engine : Engine) (r : ResolvedRequest α) (source : Source) :
    Sink → Entropy → (Except Failure α × Sink) × Entropy :=
  settle (engine.work source r)

/-- The key that a request is about: one of its own, or the one that it has produced. -/
def MadeRequest.subject? {α : Type} : MadeRequest α → Except Failure α → Option AnyKey
  | .generateKeypair, result => result.toOption.map fun pair => .publicKey pair.publicKey
  | .importPrivateKey _ _, result => result.toOption.map .privateKey
  | .importPublicKey _, result | .extractPublicKey _, result => result.toOption.map .publicKey
  | .exportPrivateKey key _, _ | .decrypt _ key, _ | .signThenEncrypt _ key _, _
  | .decryptThenVerify _ key _, _ | .decryptStream key, _ | .signThenEncryptStream key _, _
  | .decryptThenVerifyStream key _, _ | .sign _ key, _ | .signStream key, _ =>
      some (.privateKey key)
  | .exportPublicKey key, _ | .keyIdentifier key, _ | .verifySignature _ _ key, _
  | .verifyStream _ key, _ | .startSession _ _ key _ _ _, _ | .receiveSession _ _ _ key _ _, _ =>
      some (.publicKey key)
  | .fingerprint _, _ | .encrypt _ _, _ | .encryptFor _ _, _ | .decryptWithPassword _ _, _
  | .encryptStream _, _ | .decryptStreamWithPassword _, _ | .chunkEncrypt _, _
  | .chunkDecrypt _, _ | .streamEncrypt _, _ | .streamDecrypt _, _ | .sessionEncrypt _ _, _
  | .sessionDecrypt _ _, _ => none

namespace Toolkit

variable {α : Type}

def engine (t : Toolkit) : Engine := ⟨t.envelope, t.chunk⟩

/-- An action that leaves the sink alone. -/
def beside (action : Action α) : Sink → StateM Surroundings (Except Failure α × Sink) :=
  fun sink => do return (← action, sink)

/-- Performs a request. -/
def perform (t : Toolkit) (source : Source) :
    MadeRequest α → Sink → StateM Surroundings (Except Failure α × Sink)
  | .generateKeypair => beside t.generateKeypair
  | .importPrivateKey data password => beside (t.importPrivateKey data password)
  | .exportPrivateKey key password => beside (t.exportPrivateKey key password)
  | .importPublicKey data => beside (t.importPublicKey data)
  | .exportPublicKey key => beside (t.exportPublicKey key)
  | .extractPublicKey key => beside (t.extractPublicKey key)
  | .fingerprint data => beside (draw (pure (t.fingerprint data)))
  | .keyIdentifier key => beside (t.keyIdentifier key)
  | .encrypt data recipients => beside (t.encrypt data recipients)
  | .encryptFor data recipients => beside (t.encryptFor data recipients)
  | .decrypt data key => beside (t.decrypt data key)
  | .decryptWithPassword data phrase => beside (t.decryptWithPassword data phrase)
  | .signThenEncrypt data signer recipients => beside (t.signThenEncrypt data signer recipients)
  | .decryptThenVerify data key verifiers => beside (t.decryptThenVerify data key verifiers)
  | .encryptStream recipients => t.encryptStream recipients source
  | .decryptStream key => t.decryptStream key source
  | .decryptStreamWithPassword phrase => t.decryptStreamWithPassword phrase source
  | .signThenEncryptStream signer recipients => t.signThenEncryptStream signer recipients source
  | .decryptThenVerifyStream key verifiers => t.decryptThenVerifyStream key verifiers source
  | .sign data key => beside (t.sign data key)
  | .verifySignature data signature key => beside (t.verifySignature data signature key)
  | .signStream key => beside (t.signStream source key)
  | .verifyStream signature key => beside (t.verifyStream source signature key)
  | .chunkEncrypt keys => t.chunkEncrypt keys source
  | .chunkDecrypt keys => t.chunkDecrypt keys source
  | .streamEncrypt keys => t.streamEncrypt keys source
  | .streamDecrypt keys => t.streamDecrypt keys source
  | .startSession identity ephemeral peerIdentity peerLongTerm peerOneTime callerData =>
      beside (t.startSession identity ephemeral ⟨peerIdentity, peerLongTerm, peerOneTime⟩
        callerData)
  | .receiveSession identity longTerm oneTime peerIdentity peerEphemeral callerData =>
      beside (t.receiveSession ⟨identity, longTerm, oneTime⟩ peerIdentity peerEphemeral callerData)
  | .sessionEncrypt session text => beside (t.sessionEncrypt session text)
  | .sessionDecrypt session message => beside (t.sessionDecrypt session message)

/-- What the end of a request adds to the events. -/
def recorded (t : Toolkit) (r : MadeRequest α) (result : Except Failure α) : List Event :=
  match t.settings.diagnostics, r.operation? with
  | true, some operation =>
      let keyId := (r.subject? result).bind (AnyKey.usableId? t.settings.fingerprint)
      let failure := match result with
        | .ok _ => none
        | .error failure => some failure
      [⟨operation, keyId, failure⟩]
  | _, _ => []

theorem publicId?_eq (t : Toolkit) (key : PublicKey) :
    t.publicId? key = AnyKey.usableId? t.settings.fingerprint (.publicKey key) := by
  cases key <;> rfl

theorem privateId?_eq (t : Toolkit) (key : PrivateKey) :
    t.privateId? key = AnyKey.usableId? t.settings.fingerprint (.privateKey key) := by
  cases key with
  | foreign key => rfl
  | ed25519 key =>
      rw [privateId?, AnyKey.usableId?, Ed25519PrivateKey.publicKey, Ed25519PrivateKey.usableSeed]
      cases key.isEmpty <;> rfl

theorem resultId_eq {id? : α → Option KeyId} {key : α → AnyKey} {algorithm : FingerprintAlgorithm}
    (h : ∀ a, id? a = AnyKey.usableId? algorithm (key a)) (result : Except Failure α) :
    resultId id? result = (result.toOption.map key).bind (AnyKey.usableId? algorithm) := by
  cases result with
  | error failure => rfl
  | ok a => exact h a

theorem recorded_of_none {t : Toolkit} {r : MadeRequest α} {result : Except Failure α}
    (h : r.operation? = none) : t.recorded r result = [] := by
  unfold recorded
  rw [h]
  cases t.settings.diagnostics <;> rfl

/-- Keys resolve as recipients just as they do alone. -/
theorem mapM_resolve_key (operation : Operation) (keys : List PublicKey) :
    (keys.map EnvelopeRecipient.key).mapM (·.resolve operation) =
      keys.mapM (·.resolve operation) >>= fun resolved => pure (resolved.map .key) := by
  induction keys with
  | nil => rfl
  | cons key keys ih =>
      rw [List.map_cons, List.mapM_cons, List.mapM_cons, ih, EnvelopeRecipient.resolve]
      cases key.resolve operation with
      | error failure => rfl
      | ok resolved => cases keys.mapM (·.resolve operation) <;> rfl

/-- How a request ends: with what came of the work, and recorded. -/
def ended (t : Toolkit) (r : MadeRequest α) (events : List Event)
    (outcome : (Except Failure α × Sink) × Entropy) : (Except Failure α × Sink) × Surroundings :=
  (outcome.1, ⟨outcome.2, events ++ t.recorded r outcome.1.1⟩)

section Ends

variable {t : Toolkit} {r : MadeRequest α} {operation : Operation} {sink : Sink} {s : Surroundings}

theorem record_eq {keyId : Option KeyId} {result : Except Failure α}
    (hoperation : r.operation? = some operation)
    (hid : keyId = (r.subject? result).bind (AnyKey.usableId? t.settings.fingerprint)) :
    t.record operation keyId result s =
      ((), { s with events := s.events ++ t.recorded r result }) := by
  unfold record recorded
  rw [hoperation, hid]
  cases t.settings.diagnostics with
  | true => rfl
  | false =>
      dsimp only
      rw [List.append_nil]
      rfl

/-- The end of what only gives a result. -/
theorem beside_report {keyId : Except Failure α → Option KeyId} {x : Random α}
    {work : Random (Emission α)} (hoperation : r.operation? = some operation)
    (hid : ∀ e, keyId (x e).1 =
      (r.subject? (x e).1).bind (AnyKey.usableId? t.settings.fingerprint))
    (hwork : given x = work) :
    beside (t.report operation keyId (draw x)) sink s =
      t.ended r s.events (settle work sink s.entropy) := by
  have hsettle : settle work sink s.entropy = (((x s.entropy).1, sink), (x s.entropy).2) := by
    rw [← hwork, settle, given, map_eq_pure_bind, Random.bind_apply]
    rcases x s.entropy with ⟨_ | a, next⟩ <;> rfl
  rw [ended, hsettle]
  change (((x s.entropy).1, sink), (t.record operation (keyId (x s.entropy).1) (x s.entropy).1
    { s with entropy := (x s.entropy).2 }).2) = _
  rw [record_eq hoperation (hid s.entropy)]

theorem beside_report_pure {keyId : Except Failure α → Option KeyId} {x : Except Failure α}
    {work : Random (Emission α)} (hoperation : r.operation? = some operation)
    (hid : keyId x = (r.subject? x).bind (AnyKey.usableId? t.settings.fingerprint))
    (hwork : given (Random.lift x) = work) :
    beside (t.report operation keyId (pure x)) sink s =
      t.ended r s.events (settle work sink s.entropy) :=
  beside_report hoperation (fun _ => hid) hwork

/-- What writes is settled with the sink, then recorded. -/
theorem reportStream_eq (t : Toolkit) (operation : Operation) (keyId : Option KeyId)
    (x : Random (Emission Nat)) (sink : Sink) (s : Surroundings) :
    t.reportStream operation keyId (draw x) sink s =
      ((settle x sink s.entropy).1, (t.record operation keyId (settle x sink s.entropy).1.1
        { s with entropy := (settle x sink s.entropy).2 }).2) := by
  rw [settle]
  unfold reportStream draw
  simp only [bind, StateT.bind, pure]
  rcases x s.entropy with ⟨_ | emission, next⟩ <;> rfl

/-- The end of what writes. -/
theorem reportStream_draw {r : MadeRequest Nat} {keyId : Option KeyId}
    {x work : Random (Emission Nat)} (hoperation : r.operation? = some operation)
    (hid : ∀ result, keyId =
      (r.subject? result).bind (AnyKey.usableId? t.settings.fingerprint))
    (hwork : x = work) :
    t.reportStream operation keyId (draw x) sink s =
      t.ended r s.events (settle work sink s.entropy) := by
  rw [reportStream_eq, hwork, record_eq hoperation (hid _), ended]

theorem reportStream_pure {r : MadeRequest Nat} {keyId : Option KeyId}
    {x : Except Failure (Emission Nat)} {work : Random (Emission Nat)}
    (hoperation : r.operation? = some operation)
    (hid : ∀ result, keyId =
      (r.subject? result).bind (AnyKey.usableId? t.settings.fingerprint))
    (hwork : Random.lift x = work) :
    t.reportStream operation keyId (pure x) sink s =
      t.ended r s.events (settle work sink s.entropy) :=
  reportStream_draw hoperation hid hwork

end Ends

/-- A request is performed by checking its keys, having the work done on them, and recording how
it ended. -/
theorem perform_eq (t : Toolkit) (r : MadeRequest α) (source : Source) (sink : Sink)
    (s : Surroundings) :
    t.perform source r sink s = t.ended r s.events
      (settle (Random.lift r.resolve >>= t.engine.work source) sink s.entropy) := by
  cases r with
  | generateKeypair =>
      exact beside_report rfl (fun _ => resultId_eq (fun pair => t.publicId?_eq _) _) rfl
  | importPrivateKey data password =>
      exact beside_report_pure rfl (resultId_eq t.privateId?_eq _) rfl
  | importPublicKey data =>
      exact beside_report_pure rfl (resultId_eq t.publicId?_eq _) rfl
  | extractPublicKey key =>
      refine beside_report_pure rfl (resultId_eq t.publicId?_eq _) ?_
      simp only [MadeRequest.resolve, Engine.work, Random.lift_bind, Random.lift_pure, bind_assoc,
        pure_bind, given_bind]
  | fingerprint data =>
      rw [ended, recorded_of_none rfl, List.append_nil]
      rfl
  | keyIdentifier key =>
      refine beside_report_pure rfl ?_ ?_
      · cases key with
        | foreign key => rfl
        | ed25519 key =>
            rw [MadeRequest.subject?, PublicKey.resolve, Option.bind_some, AnyKey.usableId?]
            cases key.isEmpty <;> rfl
      · simp only [MadeRequest.resolve, Random.lift_map, Random.lift_bind, Random.lift_pure,
          bind_assoc, pure_bind, given_bind]
        rfl
  | exportPrivateKey key password | signThenEncrypt data key recipients =>
      refine beside_report rfl (fun _ => t.privateId?_eq key) ?_
      simp only [MadeRequest.resolve, Random.lift_bind, Random.lift_pure, bind_assoc, pure_bind,
        given_bind]
      rfl
  | decrypt data key | decryptThenVerify data key verifiers =>
      refine beside_report_pure rfl (t.privateId?_eq key) ?_
      simp only [MadeRequest.resolve, Random.lift_bind, Random.lift_pure, bind_assoc, pure_bind,
        given_bind]
      rfl
  | sign data key | signStream key =>
      refine beside_report_pure rfl (t.privateId?_eq key) ?_
      simp only [MadeRequest.resolve, Engine.work, Random.lift_bind, Random.lift_pure, bind_assoc,
        pure_bind, given_bind]
  | exportPublicKey key | verifySignature data signature key | verifyStream signature key =>
      refine beside_report_pure rfl (t.publicId?_eq key) ?_
      simp only [MadeRequest.resolve, Random.lift_map, Random.lift_bind, Random.lift_pure,
        bind_assoc, pure_bind, given_bind]
      rfl
  | encrypt data recipients =>
      refine beside_report rfl (fun _ => rfl) ?_
      simp only [MadeRequest.resolve, mapM_resolve_key, Random.lift_bind, Random.lift_pure,
        bind_assoc, pure_bind, given_bind]
      rfl
  | encryptFor data recipients | sessionEncrypt session text =>
      refine beside_report rfl (fun _ => rfl) ?_
      simp only [MadeRequest.resolve, Random.lift_bind, Random.lift_pure, bind_assoc, pure_bind,
        given_bind]
      rfl
  | decryptWithPassword data phrase | sessionDecrypt session message =>
      exact beside_report_pure rfl rfl rfl
  | encryptStream recipients =>
      refine reportStream_draw rfl (fun _ => rfl) ?_
      simp only [encryption, MadeRequest.resolve, Random.lift_bind, Random.lift_pure, bind_assoc,
        pure_bind]
      rfl
  | signThenEncryptStream signer recipients =>
      refine reportStream_draw rfl (fun _ => t.privateId?_eq signer) ?_
      simp only [signedEncryption, MadeRequest.resolve, Random.lift_bind, Random.lift_pure,
        bind_assoc, pure_bind]
      rfl
  | decryptStream key | decryptThenVerifyStream key verifiers =>
      refine reportStream_pure rfl (fun _ => t.privateId?_eq key) ?_
      simp only [MadeRequest.resolve, Random.lift_bind, Random.lift_pure, bind_assoc, pure_bind]
      rfl
  | decryptStreamWithPassword phrase | chunkEncrypt keys | chunkDecrypt keys | streamEncrypt keys
  | streamDecrypt keys =>
      exact reportStream_pure rfl (fun _ => rfl) rfl
  | startSession identity ephemeral peerIdentity peerLongTerm peerOneTime callerData
  | receiveSession identity longTerm oneTime peerIdentity peerEphemeral callerData =>
      refine beside_report_pure rfl (t.publicId?_eq peerIdentity) ?_
      simp only [MadeRequest.resolve, Random.lift_bind, Random.lift_pure, bind_assoc, pure_bind,
        given_bind]
      rfl

theorem settings_of_ofSettings {settings : Settings} {t : Toolkit}
    (h : ofSettings settings = .ok t) : t.settings = settings := by
  obtain ⟨ciphers, -, rfl⟩ := map_eq_ok.mp h
  rfl

theorem follows_engine {settings : Settings} {t : Toolkit} (h : ofSettings settings = .ok t) :
    t.engine.Follows settings := by
  obtain ⟨⟨stream, chunk⟩, hciphers, rfl⟩ := map_eq_ok.mp h
  rw [Settings.ciphers] at hciphers
  split at hciphers
  case isTrue => cases hciphers
  case isFalse =>
    obtain ⟨stream, hstream, hciphers⟩ := bind_eq_ok.mp hciphers
    obtain ⟨chunk, hchunk, hciphers⟩ := bind_eq_ok.mp hciphers
    cases hciphers
    obtain ⟨bufferSize, hbufferSize, rfl⟩ := map_eq_ok.mp hstream
    obtain ⟨chunkSize, hchunkSize, rfl⟩ := map_eq_ok.mp hchunk
    exact ⟨rfl, rfl, SegmentSize.val_of_ofNat hbufferSize, SegmentSize.val_of_ofNat hchunkSize⟩

end Toolkit

/-- A request with a key that cannot be used fails for the first such key, with its algorithm or
as empty, and under the name of the operation. Nothing has been drawn then, the sink is as it was,
and whatever the source holds or how it fails makes no difference. All other requests are the
engine's on just these keys, and the engine works with the fingerprint, costs and sizes of the
settings. -/
theorem dispatch_exact {settings : Settings} {t : Toolkit}
    (h : Toolkit.ofSettings settings = .ok t) :
    ∃ engine : Engine, engine.Follows settings ∧
      ∀ {α : Type} (r : MadeRequest α) (sink : Sink) (s : Surroundings),
        (∀ failure, r.fault? = some failure → ∃ events, ∀ source,
          t.perform source r sink s = ((.error failure, sink), ⟨s.entropy, events⟩)) ∧
        (r.fault? = none → ∃ resolved : ResolvedRequest α, r = resolved.made ∧ ∀ source,
          ∃ events, t.perform source r sink s =
            ((engine.perform resolved source sink s.entropy).1,
              ⟨(engine.perform resolved source sink s.entropy).2, events⟩)) := by
  refine ⟨t.engine, Toolkit.follows_engine h, ?_⟩
  intro α r sink s
  obtain ⟨hunusable, husable⟩ := r.resolve_cases
  constructor
  · intro failure hfault
    refine ⟨s.events ++ t.recorded r (.error failure), fun source => ?_⟩
    rw [Toolkit.perform_eq, hunusable failure hfault]
    rfl
  · intro hfault
    obtain ⟨resolved, hresolved, hmade⟩ := husable hfault
    refine ⟨resolved, hmade, fun source => ?_⟩
    rw [Toolkit.perform_eq, hresolved, Random.lift_ok, pure_bind]
    exact ⟨_, rfl⟩

/-- The second recipient is of another algorithm, and the third is empty. -/
theorem dispatch_exact_foreign : ∃ t, Toolkit.ofSettings Settings.standard = .ok t ∧
    ∀ sink s, ∃ events, ∀ source,
      t.perform source (.signThenEncryptStream (.ed25519 ⟨.ofPadded 32 [7]⟩)
        [.password [112, 119], .key (.foreign ⟨"x448", []⟩), .key (.ed25519 .empty)]) sink s =
          ((.error (.unsupportedKeyType .signThenEncryptStream (.named "x448")), sink),
            ⟨s.entropy, events⟩) := by
  obtain ⟨t, ht⟩ : ∃ t, Toolkit.ofSettings Settings.standard = .ok t := ⟨_, rfl⟩
  obtain ⟨engine, -, hall⟩ := dispatch_exact ht
  exact ⟨t, ht, fun sink s => (hall _ sink s).1 _ rfl⟩

end SealedEnvelope
