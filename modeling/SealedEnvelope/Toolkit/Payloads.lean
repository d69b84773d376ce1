import SealedEnvelope.Toolkit.Basic

/-!
Detached signatures, and payloads encrypted in segments under a given key.
-/

namespace SealedEnvelope.Toolkit

def sign (t : Toolkit) (data : Bytes) (key : PrivateKey) : Action Bytes :=
  t.report .sign (fun _ => t.privateId? key)
    (pure do
      let key ← key.resolve .sign
      return (← Signature.sign data key).toBytes)

def verifySignature (t : Toolkit) (data signature : Bytes) (key : PublicKey) : Action Unit :=
  t.report .verify (fun _ => t.publicId? key)
    (pure do
      let key ← key.resolve .verify
      Signature.verify data signature key)

def signStream (t : Toolkit) (source : Source) (key : PrivateKey) : Action Bytes :=
  t.report .signStream (fun _ => t.privateId? key)
    (pure do
      let key ← key.resolve .signStream
      return (← Signature.signStream source key).toBytes)

def verifyStream (t : Toolkit) (source : Source) (signature : Bytes) (key : PublicKey) :
    Action Unit :=
  t.report .verifyStream (fun _ => t.publicId? key)
    (pure do
      let key ← key.resolve .verifyStream
      Signature.verifyStream source signature key)

def chunkEncrypt (t : Toolkit) (keys : SegmentKeys) (source : Source) : StreamAction :=
  t.reportStream .chunkEncrypt none (pure (.ok (t.chunk.encrypt keys source)))

def chunkDecrypt (t : Toolkit) (keys : SegmentKeys) (source : Source) : StreamAction :=
  t.reportStream .chunkDecrypt none (pure (.ok (t.chunk.decrypt keys source)))

def streamEncrypt (t : Toolkit) (keys : SegmentKeys) (source : Source) : StreamAction :=
  t.reportStream .streamEncrypt none (pure (.ok (t.stream.encrypt keys source)))

def streamDecrypt (t : Toolkit) (keys : SegmentKeys) (source : Source) : StreamAction :=
  t.reportStream .streamDecrypt none (pure (.ok (t.stream.decrypt keys source).1))

end SealedEnvelope.Toolkit
