import SealedEnvelope.Command.Run
import SealedEnvelope.Proofs.StoredKeys

/-!
Files, and the parts of commands that only read them. Where a path leads is settled by
the folders, so replacing a file changes what is read from that file alone; and the keys
and passwords that a command loads are settled by the files as they are then.
-/

namespace SealedEnvelope

namespace FileTree

variable {t t' : FileTree} {path : String} {location : Location} {content : Bytes} {place : Place}

@[simp]
theorem folders_put (t : FileTree) (location : Location) (content : Bytes) :
    (t.put location content).folders = t.folders := rfl

section Folders

variable (h : t'.folders = t.folders)

include h

theorem isFolder_of_folders : t'.isFolder = t.isFolder := by
  funext location
  rw [isFolder, isFolder, h]

theorem step_of_folders : t'.step = t.step := by
  funext here name
  rw [step, step, placeAt, placeAt, isFolder_of_folders h]

theorem arrive_of_folders : t'.arrive = t.arrive := by
  funext here path
  simp only [arrive, step_of_folders h]

theorem enter_of_folders {here next : Location} {name : String}
    (hok : t.enter here name = .ok next) : t'.enter here name = .ok next := by
  simp only [enter, bind_eq_ok] at hok
  obtain ⟨place, hstep, hplace⟩ := hok
  simp only [enter, step_of_folders h, hstep, ok_bind]
  cases place with
  | folder => exact hplace
  | nullDevice => cases hplace
  | file location => cases hplace

theorem approach_of_folders {here : Location} (hok : t.approach path = .ok here) :
    t'.approach path = .ok here := by
  have hsteps : ∀ (steps : List String) (start : Location),
      steps.foldlM t.enter start = .ok here → steps.foldlM t'.enter start = .ok here := by
    intro steps
    induction steps with
    | nil => exact fun _ hstart => hstart
    | cons name steps ih =>
        intro start hstart
        rw [List.foldlM_cons, bind_eq_ok] at hstart ⊢
        obtain ⟨next, henter, hrest⟩ := hstart
        exact ⟨next, enter_of_folders h henter, ih next hrest⟩
  rw [approach] at hok ⊢
  split_ifs at hok ⊢
  exact hsteps _ _ hok

/-- Where a file can be made does not depend on the files that there are. -/
theorem target_of_folders (hok : t.target path = .ok place) : t'.target path = .ok place := by
  simp only [target, bind_eq_ok] at hok ⊢
  obtain ⟨here, happroach, hplace⟩ := hok
  refine ⟨here, approach_of_folders h happroach, ?_⟩
  rwa [arrive_of_folders h]

/-- What is found is found again, unless it is no longer there. -/
theorem find_of_folders (hok : t.find path = .ok place) (hholds : t'.holds place = true) :
    t'.find path = .ok place := by
  simp only [find, bind_eq_ok] at hok ⊢
  obtain ⟨here, happroach, found, harrive, hplace⟩ := hok
  refine ⟨here, approach_of_folders h happroach, found, by rwa [arrive_of_folders h], ?_⟩
  split_ifs at hplace with hheld hslash
  cases hplace
  rw [if_pos hholds, if_neg hslash]
  rfl

end Folders

theorem read_eq_ok :
    t.read path = .ok content ↔
      ∃ place, t.find path = .ok place ∧ place ≠ .folder ∧ t.contentOf place = content := by
  rw [read, bind_eq_ok]
  refine exists_congr fun place => and_congr_right fun _ => ?_
  cases place <;> simp [pure, Except.pure]

/-- A file that is there is found where it can be replaced. -/
theorem find_of_target (hok : t.target path = .ok (.file location))
    (hholds : t.holds (.file location) = true) : t.find path = .ok (.file location) := by
  simp only [target, find, bind_eq_ok] at hok ⊢
  obtain ⟨here, happroach, hplace⟩ := hok
  split_ifs at hplace with hslash
  obtain ⟨place, harrive, hplace⟩ := bind_eq_ok.mp hplace
  cases place with
  | folder => cases hplace
  | nullDevice => cases hplace
  | file other =>
      cases hplace
      refine ⟨here, happroach, _, harrive, ?_⟩
      rw [if_pos hholds, if_neg (fun hboth => hslash hboth.1)]
      rfl

theorem contentOf_put_self (t : FileTree) (location : Location) (content : Bytes) :
    (t.put location content).contentOf (.file location) = content := by
  rw [contentOf, content?_put, if_pos rfl, Option.getD_some]

theorem contentOf_put_of_ne (hne : place ≠ .file location) :
    (t.put location content).contentOf place = t.contentOf place := by
  cases place with
  | folder => rfl
  | nullDevice => rfl
  | file other => rw [contentOf, contentOf, content?_put, if_neg fun h => hne (congrArg _ h)]

theorem holds_put_of_ne (hne : place ≠ .file location) :
    (t.put location content).holds place = t.holds place := by
  cases place with
  | folder => rfl
  | nullDevice => rfl
  | file other => rw [holds, holds, content?_put, if_neg fun h => hne (congrArg _ h)]

theorem holds_put_self (t : FileTree) (location : Location) (content : Bytes) :
    (t.put location content).holds (.file location) = true := by
  rw [holds, content?_put, if_pos rfl]
  rfl

/-- A file can be replaced as often as wanted, and has its last content. -/
@[simp]
theorem put_put (t : FileTree) (location : Location) (first second : Bytes) :
    (t.put location first).put location second = t.put location second := by
  simp [put, List.filter_filter]

theorem erase_put (t : FileTree) (location : Location) (content : Bytes) :
    (t.put location content).erase location = t.erase location := by
  simp [put, erase, List.filter_filter]

/-- No file is made in the place of a folder. -/
theorem target_ne_folder : t.target path ≠ .ok .folder := by
  intro h
  obtain ⟨here, -, h⟩ := bind_eq_ok.mp h
  split_ifs at h
  obtain ⟨place, -, h⟩ := bind_eq_ok.mp h
  cases place <;> cases h

/-- What is written to the null device is gone. -/
theorem write_eq_ok : t.write path content = .ok t' ↔
    (∃ location, t.target path = .ok (.file location) ∧ t' = t.put location content) ∨
      t.target path = .ok .nullDevice ∧ t' = t := by
  rw [write]
  rcases htarget : t.target path with fault | place
  · simp [bind, Except.bind]
  · cases place with
    | folder => exact absurd htarget target_ne_folder
    | nullDevice => simp [bind, Except.bind, pure, Except.pure, eq_comm]
    | file location => simp [bind, Except.bind, pure, Except.pure, eq_comm]

theorem write_of_target (hok : t.target path = .ok (.file location)) (content : Bytes) :
    t.write path content = .ok (t.put location content) := by
  rw [write, hok]
  rfl

section Written

variable (h : t.write path content = .ok t')

include h

theorem target_of_write : t'.target path = t.target path := by
  obtain ⟨location, htarget, rfl⟩ | ⟨htarget, rfl⟩ := write_eq_ok.mp h
  · rw [htarget]
    exact target_of_folders (folders_put t location content) htarget
  · rfl

/-- What is written last counts. -/
theorem write_of_write (second : Bytes) : t'.write path second = t.write path second := by
  rw [write, write, target_of_write h]
  obtain ⟨location, htarget, rfl⟩ | ⟨htarget, rfl⟩ := write_eq_ok.mp h
  · simp only [htarget, ok_bind, put_put]
  · rfl

theorem exists_write_of_write (second : Bytes) : ∃ last, t.write path second = .ok last := by
  obtain ⟨location, htarget, -⟩ | ⟨htarget, -⟩ := write_eq_ok.mp h
  · exact ⟨_, write_eq_ok.mpr (Or.inl ⟨location, htarget, rfl⟩)⟩
  · exact ⟨t, write_eq_ok.mpr (Or.inr ⟨htarget, rfl⟩)⟩

theorem remove_of_write : t'.remove path = t.remove path := by
  rw [remove, remove, target_of_write h]
  obtain ⟨location, htarget, rfl⟩ | ⟨htarget, rfl⟩ := write_eq_ok.mp h
  · simp only [htarget, erase_put]
  · rfl

end Written

/-- What has been written is read back. -/
theorem read_put_of_target (hok : t.target path = .ok (.file location)) (content : Bytes) :
    (t.put location content).read path = .ok content := by
  have htarget : (t.put location content).target path = .ok (.file location) :=
    target_of_folders (folders_put t location content) hok
  have hfound := find_of_target htarget (holds_put_self t location content)
  exact read_eq_ok.mpr ⟨_, hfound, nofun, contentOf_put_self t location content⟩

theorem holds_of_find (h : t.find path = .ok place) : t.holds place = true := by
  simp only [find, bind_eq_ok] at h
  obtain ⟨_, -, found, -, hfound⟩ := h
  split_ifs at hfound with hheld
  cases hfound
  exact hheld

/-- What has been read is still read once a file has been replaced, unless it was that file. -/
theorem read_put_of_read {new : Bytes} (hread : t.read path = .ok content) :
    (t.put location new).read path =
      .ok (if t.find path = .ok (.file location) then new else content) := by
  obtain ⟨place, hfind, hfolder, rfl⟩ := read_eq_ok.mp hread
  by_cases hplace : place = .file location
  · subst hplace
    have hfound := find_of_folders (folders_put t location new) hfind (holds_put_self t location new)
    rw [if_pos hfind]
    exact read_eq_ok.mpr ⟨_, hfound, hfolder, contentOf_put_self t location new⟩
  · have hholds : (t.put location new).holds place = true :=
      (holds_put_of_ne hplace).trans (holds_of_find hfind)
    rw [if_neg (fun hsame => hplace (Except.ok.inj (hfind.symm.trans hsame)))]
    exact read_eq_ok.mpr ⟨_, find_of_folders (folders_put t location new) hfind hholds, hfolder,
      contentOf_put_of_ne hplace⟩

/-- What is read from another file than the one that has been emptied was there before. -/
theorem find_of_read_put (hread : (t.put location []).read path = .ok content)
    (hne : content ≠ []) :
    ∃ place, t.find path = .ok place ∧ place ≠ .folder ∧ place ≠ .file location ∧
      t.contentOf place = content := by
  obtain ⟨place, hfind, hfolder, rfl⟩ := read_eq_ok.mp hread
  have hplace : place ≠ .file location := by
    rintro rfl
    exact hne (contentOf_put_self t location [])
  have hholds := holds_of_find hfind
  rw [holds_put_of_ne hplace] at hholds
  exact ⟨place, find_of_folders (folders_put t location []).symm hfind hholds, hfolder, hplace,
    (contentOf_put_of_ne hplace).symm⟩

/-- What is read now behind a place that has been opened. -/
def sourceOf (t : FileTree) : Place → Source
  | .folder => ⟨[], some (.device FileFault.isFolder.message)⟩
  | place => .ofBytes (t.contentOf place)

theorem sourceOf_of_ne_folder (t : FileTree) (h : place ≠ .folder) :
    t.sourceOf place = .ofBytes (t.contentOf place) := by
  cases place with
  | folder => exact absurd rfl h
  | nullDevice => rfl
  | file location => rfl

/-- The content of a password file without the line ends at its end. -/
def password (t : FileTree) (path : String) : Except CommandFailure Bytes := do
  let content ← (t.read path).mapError (.file path)
  return (content.reverse.dropWhile fun byte => byte = 10 ∨ byte = 13).reverse

/-- The public key in a file. -/
def publicKey (t : FileTree) (path : String) : Except CommandFailure PublicKey := do
  let content ← (t.read path).mapError (.file path)
  ((Ed25519PublicKey.decode content).map .ed25519).mapError .crypto

/-- The private key in a file, under the password in another. -/
def privateKey (t : FileTree) (path passwordFile : String) :
    Except CommandFailure PrivateKey := do
  let password ← t.password passwordFile
  let content ← (t.read path).mapError (.file path)
  ((ProtectedKey.recover content password).map .ed25519).mapError .crypto

theorem publicKey_of_read {key : Ed25519PublicKey} {operation : Operation} {point : EdwardsPoint}
    (hpoint : key.point operation = .ok point) (hread : t.read path = .ok key.encode) :
    t.publicKey path = .ok (.ed25519 key) := by
  rw [publicKey, hread]
  exact mapError_eq_ok.mpr (map_eq_ok.mpr ⟨key, Ed25519PublicKey.decode_encode hpoint, rfl⟩)

theorem privateKey_of_read {key : Ed25519PrivateKey} {salt : Octets 32} {phrase : Bytes}
    {passwordFile : String} (hempty : key.isEmpty = false)
    (hpassword : t.password passwordFile = .ok phrase)
    (hread : t.read path = .ok (ProtectedKey.wrap salt key phrase)) :
    t.privateKey path passwordFile = .ok (.ed25519 key) := by
  rw [privateKey, hpassword, ok_bind, hread]
  exact mapError_eq_ok.mpr
    (map_eq_ok.mpr ⟨key, ProtectedKey.recover_wrap hempty salt phrase, rfl⟩)

theorem privateKey_of_error {stored phrase : Bytes} {passwordFile : String} {failure : Failure}
    (hpassword : t.password passwordFile = .ok phrase) (hread : t.read path = .ok stored)
    (h : ProtectedKey.recover stored phrase = .error failure) :
    t.privateKey path passwordFile = .error (.crypto failure) := by
  rw [privateKey, hpassword, ok_bind, hread]
  exact mapError_eq_error.mpr ⟨failure, map_eq_error.mpr h, rfl⟩

end FileTree

/-- To record how an operation ended changes nothing but the events. -/
theorem Toolkit.exists_record {α : Type} (t : Toolkit) (operation : Operation)
    (keyId : Option KeyId) (result : Except Failure α) (s : Surroundings) :
    ∃ events, t.record operation keyId result s = ((), { s with events }) := by
  unfold record
  split
  · exact ⟨_, rfl⟩
  · exact ⟨s.events, rfl⟩

/-- The same files and randomness with other events recorded. -/
def Workplace.recording (w : Workplace) (events : List Event) : Workplace :=
  { w with surroundings := { w.surroundings with events } }

namespace Task

/-- A part of a command that only reads: its result is settled by the files, and all that it
changes is what has been recorded. -/
def Reads {α : Type} (task : Task α) (result : FileTree → Except CommandFailure α) : Prop :=
  ∀ w, ∃ events, task w = (result w.files, w.recording events)

namespace Reads

variable {α β : Type} {task : Task α} {result : FileTree → Except CommandFailure α}

theorem pure (a : α) : Reads (Pure.pure a : Task α) fun _ => .ok a :=
  fun w => ⟨w.surroundings.events, rfl⟩

theorem bind {next : α → Task β} {nextResult : α → FileTree → Except CommandFailure β}
    (h : Reads task result) (hnext : ∀ a, Reads (next a) (nextResult a)) :
    Reads (task >>= next) fun t => result t >>= fun a => nextResult a t := by
  intro w
  obtain ⟨events, htask⟩ := h w
  rw [Stateful.bind_apply, htask]
  beta_reduce
  cases hresult : result w.files with
  | error failure => exact ⟨events, rfl⟩
  | ok a =>
      obtain ⟨later, hlater⟩ := hnext a (w.recording events)
      exact ⟨later, hlater⟩

theorem list {f : β → Task α} {each : β → FileTree → Except CommandFailure α}
    (h : ∀ b, Reads (f b) (each b)) (bs : List β) :
    Reads (bs.mapM f) fun t => bs.mapM fun b => each b t := by
  induction bs with
  | nil => exact .pure []
  | cons b bs ih =>
      simp only [List.mapM_cons]
      exact (h b).bind fun a => ih.bind fun as => .pure (a :: as)

theorem option {f : β → Task α} {each : β → FileTree → Except CommandFailure α}
    (h : ∀ b, Reads (f b) (each b)) (b? : Option β) :
    Reads (b?.mapM f) fun t => b?.mapM fun b => each b t := by
  cases b? with
  | none => exact .pure none
  | some b => exact (h b).bind fun a => .pure (some a)

/-- What a part that only reads has given, and what it has left. -/
theorem of_ok (h : Reads task result) {w next : Workplace} {a : α}
    (hok : task w = (.ok a, next)) :
    result w.files = .ok a ∧ ∃ events, next = w.recording events := by
  obtain ⟨events, htask⟩ := h w
  rw [htask] at hok
  obtain ⟨hresult, rfl⟩ := Prod.mk.inj hok
  exact ⟨hresult, events, rfl⟩

theorem exists_ok (h : Reads task result) {w : Workplace} {a : α}
    (hok : result w.files = .ok a) : ∃ events, task w = (.ok a, w.recording events) := by
  obtain ⟨events, htask⟩ := h w
  rw [hok] at htask
  exact ⟨events, htask⟩

theorem exists_error (h : Reads task result) {w : Workplace} {failure : CommandFailure}
    (herror : result w.files = .error failure) :
    ∃ events, task w = (.error failure, w.recording events) := by
  obtain ⟨events, htask⟩ := h w
  rw [herror] at htask
  exact ⟨events, htask⟩

theorem readFile (path : String) :
    Reads (Task.readFile path) fun t => (t.read path).mapError (.file path) :=
  fun w => ⟨w.surroundings.events, rfl⟩

theorem openFile (path : String) :
    Reads (Task.openFile path) fun t => (t.find path).mapError (.file path) :=
  fun w => ⟨w.surroundings.events, rfl⟩

/-- An operation that draws nothing leaves the files and the randomness alone. -/
theorem ofReport (t : Toolkit) (operation : Operation) (keyId : Except Failure α → Option KeyId)
    (x : Except Failure α) :
    Reads (ofAction (t.report operation keyId (Pure.pure x))) fun _ => x.mapError .crypto := by
  intro w
  obtain ⟨events, hrecord⟩ := t.exists_record operation (keyId x) x w.surroundings
  refine ⟨events, ?_⟩
  change (x.mapError CommandFailure.crypto,
    ({ w with surroundings := (t.record operation (keyId x) x w.surroundings).2 } :
      Workplace)) = _
  rw [hrecord]
  rfl

theorem sourceOf (place : Place) : Reads (Task.sourceOf place) fun t => .ok (t.sourceOf place) := by
  intro w
  refine ⟨w.surroundings.events, ?_⟩
  cases place <;> rfl

theorem readPassword (path : String) : Reads (Task.readPassword path) (·.password path) :=
  (readFile path).bind fun _ => .pure _

theorem loadPublic (t : Toolkit) (path : String) :
    Reads (Task.loadPublic t path) (·.publicKey path) :=
  (readFile path).bind fun _ => ofReport t _ _ _

theorem loadPrivate (t : Toolkit) (path passwordFile : String) :
    Reads (Task.loadPrivate t path passwordFile) (·.privateKey path passwordFile) :=
  (readPassword passwordFile).bind fun _ => (readFile path).bind fun _ => ofReport t _ _ _

end Reads

end Task

end SealedEnvelope
