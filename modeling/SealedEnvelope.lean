import SealedEnvelope.Main
import SealedEnvelope.Session.Snapshot
import SealedEnvelope.Toolkit.Description
import SealedEnvelope.Toolkit.Sessions
import SealedEnvelope.Proofs.Kdf2
import SealedEnvelope.Proofs.Segment.IntactChunks
import SealedEnvelope.Proofs.Segment.Tampering
import SealedEnvelope.Proofs.Envelope.Binding
import SealedEnvelope.Proofs.Envelope.Freshness
import SealedEnvelope.Proofs.Envelope.HeaderFormat
import SealedEnvelope.Proofs.Envelope.Schedules
import SealedEnvelope.Proofs.Envelope.SignedRoundTrip
import SealedEnvelope.Proofs.Envelope.Checked
import SealedEnvelope.Proofs.Envelope.Untrusted
import SealedEnvelope.Proofs.Envelope.Passwords
import SealedEnvelope.Proofs.Envelope.Untouched
import SealedEnvelope.Proofs.Envelope.Trailer
import SealedEnvelope.Proofs.Session.Handshake
import SealedEnvelope.Proofs.Session.Snapshot
import SealedEnvelope.Proofs.Session.Restoring
import SealedEnvelope.Proofs.Session.Conversation
import SealedEnvelope.Proofs.Session.Divergence
import SealedEnvelope.Proofs.Session.Verdicts
import SealedEnvelope.Proofs.StoredKeys
import SealedEnvelope.Proofs.Toolkit.Dispatch
import SealedEnvelope.Proofs.Toolkit.Diagnostics
import SealedEnvelope.Proofs.Transfer.Checked
import SealedEnvelope.Proofs.Command.Files
import SealedEnvelope.Proofs.Command.Decryption
import SealedEnvelope.Proofs.Command.Encryption
import SealedEnvelope.Proofs.Command.RoundTrip
import SealedEnvelope.Proofs.Command.Outcome
import SealedEnvelope.Proofs.Command.Gathering
import SealedEnvelope.Proofs.Command.Keygen
import SealedEnvelope.Proofs.Command.PasswordFiles
import SealedEnvelope.Proofs.Command.KeyFiles
