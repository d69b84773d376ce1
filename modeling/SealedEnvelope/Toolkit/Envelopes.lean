import SealedEnvelope.Toolkit.Basic

/-!
Envelopes for keys of any algorithm and for passwords, buffered and streaming.
-/

namespace SealedEnvelope

/-- Whom an envelope is encrypted for, with a key of any algorithm. -/
inductive EnvelopeRecipient where
  | key (publicKey : PublicKey)
  | password (phrase : Bytes)
deriving DecidableEq

/-- The recipient that an operation can use. -/
def EnvelopeRecipient.resolve (operation : Operation) :
    EnvelopeRecipient → Except Failure Recipient
  | .key publicKey => (publicKey.resolve operation).map .key
  | .password phrase => .ok (.password phrase)

namespace Toolkit

def encryptFor (t : Toolkit) (data : Bytes) (recipients : List EnvelopeRecipient) : Action Bytes :=
  t.report .encrypt (fun _ => none)
    (draw do
      let recipients ← Random.lift (recipients.mapM (·.resolve .encrypt))
      t.envelope.encrypt data recipients)

def encrypt (t : Toolkit) (data : Bytes) (recipients : List PublicKey) : Action Bytes :=
  t.encryptFor data (recipients.map .key)

def decrypt (t : Toolkit) (data : Bytes) (key : PrivateKey) : Action Bytes :=
  t.report .decrypt (fun _ => t.privateId? key)
    (pure do
      let key ← key.resolve .decrypt
      t.envelope.decrypt data key)

def decryptWithPassword (t : Toolkit) (data phrase : Bytes) : Action Bytes :=
  t.report .decryptWithPassword (fun _ => none)
    (pure (EnvelopeCipher.decryptWithPassword data phrase))

def signThenEncrypt (t : Toolkit) (data : Bytes) (signer : PrivateKey)
    (recipients : List PublicKey) : Action Bytes :=
  t.report .signThenEncrypt (fun _ => t.privateId? signer)
    (draw do
      let signer ← Random.lift (signer.resolve .signThenEncrypt)
      let recipients ← Random.lift (recipients.mapM (·.resolve .signThenEncrypt))
      t.envelope.signThenEncrypt data signer (recipients.map .key))

def decryptThenVerify (t : Toolkit) (data : Bytes) (key : PrivateKey)
    (verifiers : List PublicKey) : Action Bytes :=
  t.report .decryptThenVerify (fun _ => t.privateId? key)
    (pure do
      let key ← key.resolve .decryptThenVerify
      let verifiers ← verifiers.mapM (·.resolve .decryptThenVerify)
      t.envelope.decryptThenVerify data key verifiers)

/-- What encrypting a stream will do with a source, after everything has been drawn for it. -/
def encryption (t : Toolkit) (recipients : List EnvelopeRecipient) :
    Random (Source → Emission Nat) := do
  let recipients ← Random.lift (recipients.mapM (·.resolve .encryptStream))
  t.envelope.encryptStream recipients

/-- The same for a signed stream. -/
def signedEncryption (t : Toolkit) (signer : PrivateKey) (recipients : List EnvelopeRecipient) :
    Random (Source → Emission Nat) := do
  let signer ← Random.lift (signer.resolve .signThenEncryptStream)
  let recipients ← Random.lift (recipients.mapM (·.resolve .signThenEncryptStream))
  t.envelope.signThenEncryptStream signer recipients

def encryptStream (t : Toolkit) (recipients : List EnvelopeRecipient) (source : Source) :
    StreamAction :=
  t.reportStream .encryptStream none
    (draw do return (← t.encryption recipients) source)

def decryptStream (t : Toolkit) (key : PrivateKey) (source : Source) : StreamAction :=
  t.reportStream .decryptStream (t.privateId? key)
    (pure do
      let key ← key.resolve .decryptStream
      return t.envelope.decryptStream key source)

def decryptStreamWithPassword (t : Toolkit) (phrase : Bytes) (source : Source) : StreamAction :=
  t.reportStream .decryptStreamWithPassword none
    (pure (.ok (EnvelopeCipher.decryptStreamWithPassword phrase source)))

def signThenEncryptStream (t : Toolkit) (signer : PrivateKey)
    (recipients : List EnvelopeRecipient) (source : Source) : StreamAction :=
  t.reportStream .signThenEncryptStream (t.privateId? signer)
    (draw do return (← t.signedEncryption signer recipients) source)

def decryptThenVerifyStream (t : Toolkit) (key : PrivateKey) (verifiers : List PublicKey)
    (source : Source) : StreamAction :=
  t.reportStream .decryptThenVerifyStream (t.privateId? key)
    (pure do
      let key ← key.resolve .decryptThenVerifyStream
      let verifiers ← verifiers.mapM (·.resolve .decryptThenVerifyStream)
      return t.envelope.decryptThenVerifyStream key verifiers source)

end Toolkit

end SealedEnvelope
