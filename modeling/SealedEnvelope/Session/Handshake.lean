import SealedEnvelope.Session.Basic
import SealedEnvelope.Key.Ed25519Key

/-!
The handshake. The initiator combines its identity key and a fresh ephemeral key
with the published keys of the responder: identity, long-term and, where one was
handed out, one-time key. Each side computes the same secrets in the same order.
-/

namespace SealedEnvelope

/-- The published keys of a responder. -/
structure PrekeyBundle where
  identity : Ed25519PublicKey
  longTerm : Ed25519PublicKey
  oneTime : Option Ed25519PublicKey

/-- The public keys that an initiator sends with its first message. -/
structure InitiatorHello where
  identity : Ed25519PublicKey
  ephemeral : Ed25519PublicKey

/-- The private keys of a responder. -/
structure ResponderKeys where
  identity : Ed25519PrivateKey
  longTerm : Ed25519PrivateKey
  oneTime : Option Ed25519PrivateKey

namespace Session

/-- The secrets of the initiator, in the order of the handshake. -/
def initiatorSecrets (identity ephemeral : Ed25519PrivateKey) (peer : PrekeyBundle) :
    Except Failure Bytes := do
  let operation := Operation.startSession
  let first ← identity.agree operation peer.longTerm
  let second ← ephemeral.agree operation peer.identity
  let third ← ephemeral.agree operation peer.longTerm
  let fourth ← peer.oneTime.mapM (ephemeral.agree operation)
  return first.toBytes ++ second.toBytes ++ third.toBytes ++
    (fourth.map Octets.toBytes).getD []

/-- The secrets of the responder, in the order of the handshake. -/
def responderSecrets (keys : ResponderKeys) (hello : InitiatorHello) : Except Failure Bytes := do
  let operation := Operation.receiveSession
  let first ← keys.longTerm.agree operation hello.identity
  let second ← keys.identity.agree operation hello.ephemeral
  let third ← keys.longTerm.agree operation hello.ephemeral
  let fourth ← keys.oneTime.mapM fun key => key.agree operation hello.ephemeral
  return first.toBytes ++ second.toBytes ++ third.toBytes ++
    (fourth.map Octets.toBytes).getD []

/-- Starts a session as the initiator. -/
def start (identity ephemeral : Ed25519PrivateKey) (peer : PrekeyBundle) (callerData : Bytes) :
    Except Failure Session :=
  (initiatorSecrets identity ephemeral peer).map fun secrets =>
    establish secrets callerData .initiator

/-- Accepts a session as the responder. -/
def receive (keys : ResponderKeys) (hello : InitiatorHello) (callerData : Bytes) :
    Except Failure Session :=
  (responderSecrets keys hello).map fun secrets => establish secrets callerData .responder

end Session

end SealedEnvelope
