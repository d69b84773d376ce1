import SealedEnvelope.Proofs.Command.Encryption

/-!
Files that have been encrypted come back. Everyone who is listed gets the bytes that the input
held when it was encrypted, whatever the paths are, as long as the output is another file than
the input. A file that is encrypted into itself is lost.
-/

namespace SealedEnvelope

theorem Command.runWith_of_ofSettings {settings : Settings} {t : Toolkit}
    (h : Toolkit.ofSettings settings = .ok t) (command : Command) :
    command.runWith settings = command.run t := by
  rw [runWith, h]

/-- A command is only carried out under settings that can be. -/
theorem Command.runWith_eq_ok {settings : Settings} {command : Command} {printed : String}
    {w after : Workplace} (h : command.runWith settings w = (.ok printed, after)) :
    ∃ t, Toolkit.ofSettings settings = .ok t ∧ command.run t w = (.ok printed, after) := by
  rw [runWith] at h
  cases hsettings : Toolkit.ofSettings settings with
  | error failure =>
      rw [hsettings] at h
      cases h
  | ok t =>
      rw [hsettings] at h
      exact ⟨t, rfl, h⟩

/-- Envelopes are made with the fingerprints that are asked for, and at costs that a reader pays. -/
theorem Invocation.envelope_of_ofSettings {t : Toolkit} (i : Invocation)
    (h : Toolkit.ofSettings i.settings = .ok t) :
    t.envelope.fingerprint = i.fingerprint ∧
      RecipientEntry.costsTooHigh t.envelope.passwordCosts = false := by
  have hdefault : RecipientEntry.costsTooHigh Settings.defaultCosts = false := by decide
  rw [Toolkit.envelope, Toolkit.settings_of_ofSettings h]
  exact ⟨rfl, hdefault⟩

/-- With a key it is relied on that the reader knows keys by the same fingerprints as the writer,
and that whoever agrees on a secret with an ephemeral key of this source has the secret that the
ephemeral key has with them. -/
def Access.Agrees (writer reader : FingerprintAlgorithm) (e : Entropy) : Access → Prop
  | .key (.ed25519 privateKey) _ =>
      reader = writer ∧ ∀ position, Commutes privateKey (e.window position 32)
  | .key (.foreign _) _ | .password _ => True

/-- Everyone listed gets the text of an envelope that has been made for them. -/
theorem Addressing.recovers_of_run {settings : Settings} {t : Toolkit} {c : EnvelopeCipher}
    {files : FileTree} {a : Addressing} {targets : List EnvelopeRecipient}
    {signer : Option Ed25519PrivateKey} {recipients : List Recipient} {source : Source}
    {e last : Entropy} {envelope : Bytes} {n : Nat} {access : Access}
    (ht : Toolkit.ofSettings settings = .ok t)
    (hcosts : RecipientEntry.costsTooHigh c.passwordCosts = false) (hne : envelope ≠ [])
    (htargets : a.targets files = .ok targets)
    (hrecipients : recipients.map Recipient.handedIn = targets)
    (hsigner : a.signingKey files = .ok (signer.map .ed25519))
    (hrun : (Encryption.streamed signer source).run c recipients e = (.ok (envelope, n), last))
    (hunique : ∀ key other, a.ListsKey files key → a.ListsKey files other →
      other.identifier c.fingerprint = key.identifier c.fingerprint → other = key)
    (hagrees : access.Agrees c.fingerprint settings.fingerprint e)
    (hverifies : ∀ signer, a.signingKey files = .ok (some (.ed25519 signer)) →
      SelfVerifies signer (Sha512.digest source.bytes).toBytes)
    (hlists : a.Lists files access) : access.Recovers settings envelope source.bytes := by
  have htext : (Encryption.streamed signer source).text = source.bytes := Encryption.text_streamed
  apply Access.recovers_of_delivers ht hne
  intro husable
  rw [← htext]
  cases access with
  | password phrase =>
      have hmem := (password_mem_recipients htargets hrecipients).mpr hlists
      refine Access.delivers_password hrun hcosts hmem fun other hother => ?_
      obtain ⟨path, hpath, hread⟩ := hlists
      obtain ⟨path', hpath', hread'⟩ := (password_mem_recipients htargets hrecipients).mp hother
      rw [hpath] at hpath'
      cases hpath'
      rw [hread] at hread'
      exact (Except.ok.inj hread').symm
  | key key verifiers =>
      obtain ⟨privateKey, publicKey, rfl, hkey, hlisted, hsigned⟩ := hlists
      obtain ⟨hfingerprint, hcommutes⟩ := hagrees
      have hmem := (key_mem_recipients htargets hrecipients).mpr hlisted
      refine Access.delivers_key hrun hkey hmem (fun other hother => ?_)
        hcommutes ?_ husable ?_
      · exact hunique publicKey other hlisted ((key_mem_recipients htargets hrecipients).mp hother)
      · rw [← hfingerprint, ← Toolkit.settings_of_ofSettings ht]
        rfl
      · refine hsigned.imp_right ?_
        rintro ⟨s, verifier, hs, hverifier, hmem⟩
        have hsame : signer = some s := by
          rw [hsigner] at hs
          cases signer with
          | none => cases hs
          | some signer =>
              cases hs
              rfl
        subst hsame
        exact ⟨source, s, verifier, rfl, hverifier, hmem, htext ▸ hverifies s hs⟩

/-- A file that has been encrypted into another comes back to everyone who is listed, just as it
was. Of one that has been encrypted into itself nothing comes back, as long as the header fits into
the buffer of the writer. -/
theorem encrypted_file_recovered_unless_in_place {writer reader : Invocation} {t : Toolkit}
    {a : Addressing} {input output printed : String} {location : Location} {w after : Workplace}
    (hrun : (a.command input output).runWith writer.settings w = (.ok printed, after))
    (houtput : w.files.target output = .ok (.file location))
    (hreader : Toolkit.ofSettings reader.settings = .ok t)
    (hunique : ∀ key other, a.ListsKey w.files key → a.ListsKey w.files other →
      other.identifier writer.fingerprint = key.identifier writer.fingerprint → other = key) :
    ∃ envelope text, after.files.read output = .ok envelope ∧
      (w.files.find input ≠ .ok (.file location) → w.files.read input = .ok text) ∧
      (w.files.find input = .ok (.file location) →
        (∃ header offset, EnvelopeHeader.decode envelope = .ok (header, offset) ∧
          offset < WriteBuffer.capacity) → text = []) ∧
      ∀ access, a.Lists w.files access →
        access.Agrees writer.fingerprint reader.fingerprint w.surroundings.entropy →
        (∀ signer, a.signingKey w.files = .ok (some (.ed25519 signer)) →
          SelfVerifies signer (Sha512.digest text).toBytes) →
        access.Recovers reader.settings envelope text := by
  obtain ⟨t₀, hwriter, hencrypt⟩ := Command.runWith_eq_ok hrun
  obtain ⟨targets, signer, opened, emit, next, envelope, n, htargets, hsigner, hopened, hwork,
    hcollect, hafter⟩ := Task.encrypt_eq_ok houtput hencrypt
  obtain ⟨key, recipients, rfl, hrecipients, hdraw⟩ := Toolkit.work_eq_ok hwork
  obtain ⟨hfault, header, encoded, hdecode, -, hsteps⟩ :=
    Encryption.exists_header_of_collect hdraw hcollect
  -- The text is what is found behind the input once the output has been emptied.
  refine ⟨envelope, ((w.files.put location []).textBehind location opened (.ok emit)).bytes,
    ?_, ?_, ?_, ?_⟩
  · rw [hafter]
    exact FileTree.read_put_of_target houtput envelope
  · intro hother
    exact FileTree.read_of_textBehind hopened (fun hsame => hother (hsame ▸ hopened)) hfault
  · rintro hsame ⟨header', offset, hdecode', hshort⟩
    rw [hopened] at hsame
    rw [hdecode] at hdecode'
    cases hsame
    cases hdecode'
    rw [FileTree.textBehind_self hsteps hshort]
    rfl
  · intro access hlists hagrees hverifies
    have hne : envelope ≠ [] := by
      rintro rfl
      cases hdecode
    obtain ⟨hprint, hcosts⟩ := writer.envelope_of_ofSettings hwriter
    rw [← hprint] at hunique hagrees
    exact a.recovers_of_run hreader hcosts hne htargets hrecipients hsigner
      ((Encryption.run_streamed hdraw).mpr hcollect) hunique hagrees hverifies hlists

section Sample

/-- A text, a password with a line end behind it, and a key in its two files. -/
def sampleFiles (publicKey privateKey : Bytes) : FileTree :=
  ⟨[], [(["plain"], shortText), (["pw"], sevenPhrase ++ [10]), (["k.pub"], publicKey),
    (["k.key"], privateKey)]⟩

/-- The key is that of sevens, the private one stored under the password. -/
def sevenPlace : Workplace where
  files := sampleFiles sevenPublicKey.encode
    (ProtectedKey.wrap (sevens.peek 32) sevenKey sevenPhrase)
  surroundings := ⟨sevens, []⟩

/-- For whoever holds that key or knows the password, and signed with the key. -/
def sevenAddressing : Addressing := ⟨["k.pub"], some "pw", some ("k.key", "pw")⟩

def sevenInvocation : Invocation :=
  ⟨"warn", .sha256, 65536, sevenAddressing.command "plain" "sealed"⟩

def sevenRecipients : List Recipient := [.key sevenPublicKey, .password sevenPhrase]

theorem password_sevenPlace : sevenPlace.files.password "pw" = .ok sevenPhrase := rfl

theorem publicKey_sevenPlace :
    sevenPlace.files.publicKey "k.pub" = .ok (.ed25519 sevenPublicKey) := by
  obtain ⟨point, hpoint, -⟩ := equations_sevens
  exact FileTree.publicKey_of_read hpoint rfl

theorem privateKey_sevenPlace :
    sevenPlace.files.privateKey "k.key" "pw" = .ok (.ed25519 sevenKey) :=
  FileTree.privateKey_of_read (isEmpty_of_publicKey publicKey_sevenKey) password_sevenPlace rfl

theorem targets_sevenPlace : sevenAddressing.targets sevenPlace.files =
    .ok (sevenRecipients.map Recipient.handedIn) :=
  bind_eq_ok.mpr ⟨[.ed25519 sevenPublicKey],
    bind_eq_ok.mpr ⟨_, publicKey_sevenPlace, rfl⟩, rfl⟩

theorem signingKey_sevenPlace :
    sevenAddressing.signingKey sevenPlace.files = .ok (some (.ed25519 sevenKey)) :=
  Addressing.signingKey_of_privateKey rfl privateKey_sevenPlace

theorem listsKey_sevenPlace {key : Ed25519PublicKey} :
    sevenAddressing.ListsKey sevenPlace.files key ↔ key = sevenPublicKey := by
  simp [Addressing.ListsKey, sevenAddressing, publicKey_sevenPlace, eq_comm]

/-- Short texts can be encrypted for these recipients. -/
theorem exists_sevenWork {signer : Option Ed25519PrivateKey}
    (h : ∀ s, signer = some s → s.isEmpty = false) : ∃ t emit next,
      Toolkit.ofSettings sevenInvocation.settings = .ok t ∧
      t.work (signer.map .ed25519) (sevenRecipients.map Recipient.handedIn) sevens =
        (.ok emit, next) ∧
      t.envelope.streaming signer sevenRecipients sevens = (.ok emit, next) ∧
      ∀ text : Bytes, text.length ≤ 65536 →
        ∃ envelope, (emit (.ofBytes text)).collect = .ok (envelope, text.length) := by
  obtain ⟨t, ht, hsize, hcosts⟩ : ∃ t, Toolkit.ofSettings sevenInvocation.settings = .ok t ∧
      t.envelope.stream.bufferSize.val = 65536 ∧
      t.envelope.passwordCosts = Settings.defaultCosts := ⟨_, rfl, rfl, rfl⟩
  have hwrappable : ∀ recipient ∈ sevenRecipients,
      recipient.Wrappable sevens t.envelope.passwordCosts := by
    rw [sevenRecipients, List.forall_mem_cons, List.forall_mem_singleton, hcosts]
    have hfault : Settings.defaultCosts.fault? = none := by decide
    exact ⟨wrappable_sevenPublicKey _ (List.mem_singleton_self _), hfault⟩
  have hmax : t.envelope.stream.bufferSize.val ≤ maxStreamBufferSize := by
    rw [hsize]
    decide
  obtain ⟨emit, next, hwork, hdraw, hcollect⟩ := t.exists_work h rfl (by simp [sevenRecipients])
    hwrappable (by simp [sevenRecipients]) hmax
  refine ⟨t, emit, next, ht, hwork, hdraw, fun text hlength => hcollect text ?_⟩
  rw [hsize]
  by_cases htext : text = []
  · subst htext
    rw [Bytes.cut_nil]
    exact ⟨by decide, by decide⟩
  · rw [Bytes.cut_of_length_le htext hlength]
    apply SegmentKeys.fits_flagLast (List.cons_ne_nil _ _)
    · exact List.forall_mem_singleton.mpr (hlength.trans (by decide))
    · rw [List.length_singleton]
      decide

/-- What has been signed and encrypted for a key and a password comes back to both. -/
theorem encrypted_file_recovered_sevens : ∃ printed after envelope,
    (sevenAddressing.command "plain" "sealed").runWith sevenInvocation.settings sevenPlace =
        (.ok printed, after) ∧ after.files.read "sealed" = .ok envelope ∧
      ∀ access ∈ [Access.key (.ed25519 sevenKey) [.ed25519 sevenPublicKey],
          .password sevenPhrase],
        access.Recovers sevenInvocation.settings envelope shortText := by
  obtain ⟨t, emit, next, ht, hwork, -, hcollect⟩ := @exists_sevenWork (some sevenKey)
    (by rintro _ ⟨⟩; exact isEmpty_of_publicKey publicKey_sevenKey)
  have houtput : sevenPlace.files.target "sealed" = .ok (.file ["sealed"]) := rfl
  have hopened : sevenPlace.files.find "plain" = .ok (.file ["plain"]) := rfl
  obtain ⟨envelope, henvelope⟩ := hcollect shortText (by decide)
  obtain ⟨after, hrun, -⟩ := Task.encrypt_of_collect houtput targets_sevenPlace
    (by simp [sevenRecipients]) signingKey_sevenPlace hopened hwork henvelope
  have hrunWith : (sevenAddressing.command "plain" "sealed").runWith sevenInvocation.settings
      sevenPlace = (.ok "", after) := by
    rw [Command.runWith, ht]
    exact hrun
  obtain ⟨envelope', text, hread, hother, -, hall⟩ :=
    encrypted_file_recovered_unless_in_place hrunWith houtput ht (by
      intro key other hkey hother _
      rw [listsKey_sevenPlace.mp hkey, listsKey_sevenPlace.mp hother])
  have htext : sevenPlace.files.read "plain" = .ok text := hother (by simp [hopened])
  cases htext
  have hverifies : ∀ signer, sevenAddressing.signingKey sevenPlace.files =
      .ok (some (.ed25519 signer)) → SelfVerifies signer (Sha512.digest shortText).toBytes := by
    intro signer hsigner
    rw [signingKey_sevenPlace] at hsigner
    cases hsigner
    exact selfVerifies_sevenKey.2
  refine ⟨"", after, envelope', hrunWith, hread, ?_⟩
  rw [List.forall_mem_cons, List.forall_mem_singleton]
  constructor
  · refine hall _ ?_ ⟨rfl, commutes_sevenKey⟩ hverifies
    exact ⟨sevenKey, sevenPublicKey, rfl, publicKey_sevenKey, listsKey_sevenPlace.mpr rfl,
      .inr ⟨sevenKey, sevenPublicKey, signingKey_sevenPlace, publicKey_sevenKey,
        List.mem_singleton_self _⟩⟩
  · exact hall _ ⟨"pw", rfl, password_sevenPlace⟩ trivial hverifies

/-- Encrypted into itself for the key and the password, the text is lost: what the password gives
back is empty. -/
theorem encrypted_in_place_lost : ∃ after last,
    (Addressing.command "plain" "plain" { sevenAddressing with signer := none }).runWith
        sevenInvocation.settings sevenPlace = (.ok "", after) ∧
      ((Opener.password "pw").command "plain" "out").runWith sevenInvocation.settings after =
        (.ok "", last) ∧
      sevenPlace.files.read "plain" = .ok shortText ∧ last.files.read "out" = .ok [] := by
  obtain ⟨t, emit, next, ht, hwork, hdraw, hcollect⟩ :=
    @exists_sevenWork none (fun _ hnone => nomatch hnone)
  obtain ⟨envelope, henvelope⟩ := hcollect [] (by decide)
  obtain ⟨-, header, encoded, hdecode, hlength, hsteps⟩ :=
    Encryption.exists_header_of_collect hdraw henvelope
  have hshort : encoded.length < WriteBuffer.capacity := hlength.trans_lt (by decide)
  have houtput : sevenPlace.files.target "plain" = .ok (.file ["plain"]) := rfl
  have hopened : sevenPlace.files.find "plain" = .ok (.file ["plain"]) := rfl
  obtain ⟨after, hrun, hfiles⟩ := Task.encrypt_of_collect
    (a := { sevenAddressing with signer := none }) houtput targets_sevenPlace
    (by simp [sevenRecipients]) rfl hopened hwork
    (by rw [FileTree.textBehind_self hsteps hshort]; exact henvelope)
  have hcosts := (sevenInvocation.envelope_of_ofSettings ht).2
  have hne : envelope ≠ [] := by
    rintro rfl
    cases hdecode
  have hsealed : (Encryption.streamed none (.ofBytes [])).run t.envelope sevenRecipients sevens =
      (.ok (envelope, 0), next) := (Encryption.run_streamed hdraw).mpr henvelope
  have hrecovers : (Access.password sevenPhrase).Recovers sevenInvocation.settings envelope [] :=
    Access.recovers_of_delivers ht hne fun _ => Access.delivers_password hsealed hcosts
      (by simp [sevenRecipients]) (by simp [sevenRecipients])
  have htarget : after.files.target "out" = .ok (.file ["out"]) := by
    rw [hfiles]
    rfl
  obtain ⟨last, hdecrypt, hread⟩ := hrecovers (.password "pw") after "plain" "out" ["out"] htarget
    (by rw [hfiles]; rfl) (by rw [hfiles]; rfl)
  refine ⟨after, last, ?_, hdecrypt, rfl, hread⟩
  rw [Command.runWith, ht]
  exact hrun

end Sample

end SealedEnvelope
