import SealedEnvelope.Toolkit.Basic
import SealedEnvelope.Session.Handshake

/-!
Sessions with keys of any algorithm.
-/

namespace SealedEnvelope

/-- The published keys of a responder, as the initiator sees them. -/
structure PeerPrekeys where
  identity : PublicKey
  longTerm : PublicKey
  oneTime : Option PublicKey

/-- The private keys of a responder. -/
structure OwnPrekeys where
  identity : PrivateKey
  longTerm : PrivateKey
  oneTime : Option PrivateKey

def PeerPrekeys.resolve (operation : Operation) (p : PeerPrekeys) :
    Except Failure PrekeyBundle := do
  let identity ← p.identity.resolve operation
  let longTerm ← p.longTerm.resolve operation
  let oneTime ← p.oneTime.mapM (·.resolve operation)
  return ⟨identity, longTerm, oneTime⟩

def OwnPrekeys.resolve (operation : Operation) (p : OwnPrekeys) :
    Except Failure ResponderKeys := do
  let identity ← p.identity.resolve operation
  let longTerm ← p.longTerm.resolve operation
  let oneTime ← p.oneTime.mapM (·.resolve operation)
  return ⟨identity, longTerm, oneTime⟩

namespace Toolkit

/-- Starts a session. The ephemeral key must be fresh and is to be dropped afterwards. -/
def startSession (t : Toolkit) (identity ephemeral : PrivateKey) (peer : PeerPrekeys)
    (callerData : Bytes) : Action Session :=
  t.report .startPfsSession (fun _ => t.publicId? peer.identity)
    (pure do
      let bundle ← peer.resolve .startPfsSession
      let identity ← identity.resolve .startPfsSession
      let ephemeral ← ephemeral.resolve .startPfsSession
      Session.start identity ephemeral bundle callerData)

/-- Accepts a session. -/
def receiveSession (t : Toolkit) (own : OwnPrekeys) (peerIdentity peerEphemeral : PublicKey)
    (callerData : Bytes) : Action Session :=
  t.report .receivePfsSession (fun _ => t.publicId? peerIdentity)
    (pure do
      let keys ← own.resolve .receivePfsSession
      let identity ← peerIdentity.resolve .receivePfsSession
      let ephemeral ← peerEphemeral.resolve .receivePfsSession
      Session.receive keys ⟨identity, ephemeral⟩ callerData)

def sessionEncrypt (t : Toolkit) (session : Session) (text : Bytes) : Action SessionMessage :=
  t.report .sessionEncrypt (fun _ => none) (draw (session.encrypt text))

def sessionDecrypt (t : Toolkit) (session : Session) (message : SessionMessage) : Action Bytes :=
  t.report .sessionDecrypt (fun _ => none) (pure (session.decrypt message))

end Toolkit

end SealedEnvelope
