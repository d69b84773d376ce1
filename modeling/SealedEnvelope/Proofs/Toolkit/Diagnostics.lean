import SealedEnvelope.Proofs.Toolkit.Dispatch

/-!
Diagnostics. Whoever makes requests to a toolkit gets the same from it whether or
not events are recorded. Where they are, every request leaves one event, which says
what was asked, how it ended, and which key it was about if that can be used.
-/

namespace SealedEnvelope

/-- Trouble with the surroundings: the random source, a reader or a writer. -/
def Failure.ofSurroundings : Failure → Bool
  | .randomSource | .io _ _ => true
  | _ => false

/-- The level and the message of an event are those that a result calls for. -/
def Event.Tells {α : Type} (event : Event) : Except Failure α → Prop
  | .ok _ => event.level = .debug ∧ event.message = "ok"
  | .error failure =>
      event.level = (if failure.ofSurroundings then .error else .warn) ∧
        event.message = failure.message

/-- A client of a toolkit: what it asks for next depends on what it has got. -/
inductive Client : Type 1 where
  | done
  | call {α : Type} (request : MadeRequest α) (source : Source) (sink : Sink)
      (next : Except Failure α × Sink → Client)

/-- A request of a client, what came of it, and what was then left of the random source. -/
structure Call : Type 1 where
  {α : Type}
  request : MadeRequest α
  result : Except Failure α
  sink : Sink
  entropy : Entropy

/-- An event reports a call: by its operation, the end of it, and the identifier of the key that it
was about. There is an identifier just if there is such a key and the operation can use it. -/
structure Call.ReportedBy (algorithm : FingerprintAlgorithm) (c : Call) (event : Event) :
    Prop where
  operation : c.request.operation? = some event.operation
  ending : event.Tells c.result
  keyId : event.keyId = (c.request.subject? c.result).bind (AnyKey.usableId? algorithm)
  usable : event.keyId.isSome ↔
    ∃ key, c.request.subject? c.result = some key ∧ key.fault? event.operation = none

namespace Client

/-- All calls of a client in order, and the surroundings afterwards. -/
def run (t : Toolkit) : Client → Surroundings → List Call × Surroundings
  | .done, s => ([], s)
  | .call request source sink next, s =>
      let (outcome, after) := t.perform source request sink s
      let (calls, last) := (next outcome).run t after
      (⟨request, outcome.1, outcome.2, after.entropy⟩ :: calls, last)

end Client

namespace Toolkit

variable {α : Type} {t : Toolkit}

/-- A toolkit that records leaves one event for every request with a name. -/
theorem exists_recorded {r : MadeRequest α} {operation : Operation}
    (hdiagnostics : t.settings.diagnostics = true) (hoperation : r.operation? = some operation)
    (result : Except Failure α) :
    ∃ event, t.recorded r result = [event] ∧ event.operation = operation ∧ event.Tells result ∧
      event.keyId = (r.subject? result).bind (AnyKey.usableId? t.settings.fingerprint) := by
  unfold recorded
  rw [hdiagnostics, hoperation]
  refine ⟨_, rfl, rfl, ?_, rfl⟩
  cases result with
  | ok a => exact ⟨rfl, rfl⟩
  | error failure => cases failure <;> exact ⟨rfl, rfl⟩

theorem recorded_of_silent (h : t.settings.diagnostics = false) (r : MadeRequest α)
    (result : Except Failure α) : t.recorded r result = [] := by
  unfold recorded
  rw [h]

/-- The settings but for the diagnostics determine the engine. -/
theorem engine_eq {settings : Settings} {silent telling : Toolkit}
    (hsilent : ofSettings { settings with diagnostics := false } = .ok silent)
    (htelling : ofSettings { settings with diagnostics := true } = .ok telling) :
    silent.engine = telling.engine := by
  obtain ⟨ciphers, hciphers, rfl⟩ := map_eq_ok.mp hsilent
  obtain ⟨ciphers', hciphers', rfl⟩ := map_eq_ok.mp htelling
  have hsame : Except.ok ciphers = Except.ok ciphers' := hciphers.symm.trans hciphers'
  cases hsame
  rfl

end Toolkit

namespace Client

variable {silent telling : Toolkit}

/-- The calls of two toolkits with one engine are the same, call by call: what the next request is,
depends on what came of the last, and not on what is recorded. -/
theorem run_of_engine_eq (hengine : silent.engine = telling.engine)
    (hsilent : silent.settings.diagnostics = false)
    (htelling : telling.settings.diagnostics = true) (client : Client) (entropy : Entropy)
    (events events' : List Event) : ∃ calls last reports,
      client.run telling ⟨entropy, events⟩ = (calls, ⟨last, events ++ reports⟩) ∧
        client.run silent ⟨entropy, events'⟩ = (calls, ⟨last, events'⟩) ∧
        List.Forall₂ (Call.ReportedBy telling.settings.fingerprint)
          (calls.filter fun c => c.request.operation?.isSome) reports := by
  induction client generalizing entropy events events' with
  | done => exact ⟨[], entropy, [], by rw [run, List.append_nil], rfl, .nil⟩
  | call request source sink next ih =>
      obtain ⟨outcome, after, hsettle⟩ : ∃ outcome after,
          settle (Random.lift request.resolve >>= telling.engine.work source) sink entropy =
            (outcome, after) := ⟨_, _, rfl⟩
      have htold : telling.perform source request sink ⟨entropy, events⟩ =
          (outcome, ⟨after, events ++ telling.recorded request outcome.1⟩) := by
        rw [Toolkit.perform_eq, hsettle, Toolkit.ended]
      have hnot : silent.perform source request sink ⟨entropy, events'⟩ =
          (outcome, ⟨after, events'⟩) := by
        rw [Toolkit.perform_eq, hengine, hsettle, Toolkit.ended,
          Toolkit.recorded_of_silent hsilent, List.append_nil]
      obtain ⟨calls, last, reports, hrun, hrun', hreports⟩ :=
        ih outcome after (events ++ telling.recorded request outcome.1) events'
      refine ⟨⟨request, outcome.1, outcome.2, after⟩ :: calls, last,
        telling.recorded request outcome.1 ++ reports, ?_, ?_, ?_⟩
      · rw [run, htold]
        dsimp only
        rw [hrun, List.append_assoc]
      · rw [run, hnot]
        dsimp only
        rw [hrun']
      · cases hoperation : request.operation? with
        | none =>
            rw [Toolkit.recorded_of_none hoperation, List.nil_append,
              List.filter_cons_of_neg (by rw [hoperation]; exact Bool.false_ne_true)]
            exact hreports
        | some operation =>
            obtain ⟨event, hrecorded, hname, htells, hkey⟩ :=
              Toolkit.exists_recorded htelling hoperation outcome.1
            rw [hrecorded, List.singleton_append,
              List.filter_cons_of_pos (by rw [hoperation]; rfl)]
            have husable : event.keyId.isSome ↔ ∃ key,
                request.subject? outcome.1 = some key ∧ key.fault? event.operation = none := by
              rw [hkey]
              exact AnyKey.isSome_bind_usableId?_iff _ _ _
            exact .cons ⟨by rw [hoperation, hname], htells, hkey, husable⟩ hreports

end Client

/-- Two toolkits with the same settings, of which one records, give a client the same results,
leave the same in its sinks, and draw the same random bytes, at every one of its calls. The one
adds exactly one event for each call but those for a fingerprint, in order: with the operation, with
level and message by how it ended, and with the identifier of the key that it was about if that can
be used. The other adds none. -/
theorem diagnostics_transparent {settings : Settings} {silent telling : Toolkit}
    (hsilent : Toolkit.ofSettings { settings with diagnostics := false } = .ok silent)
    (htelling : Toolkit.ofSettings { settings with diagnostics := true } = .ok telling)
    (client : Client) (entropy : Entropy) (events events' : List Event) :
    ∃ calls last reports,
      client.run telling ⟨entropy, events⟩ = (calls, ⟨last, events ++ reports⟩) ∧
        client.run silent ⟨entropy, events'⟩ = (calls, ⟨last, events'⟩) ∧
        List.Forall₂ (Call.ReportedBy settings.fingerprint)
          (calls.filter fun c => c.request.operation?.isSome) reports := by
  have hsettings := Toolkit.settings_of_ofSettings htelling
  have hfingerprint : settings.fingerprint = telling.settings.fingerprint := by rw [hsettings]
  rw [hfingerprint]
  refine Client.run_of_engine_eq (Toolkit.engine_eq hsilent htelling) ?_ ?_ client entropy events
    events'
  · rw [Toolkit.settings_of_ofSettings hsilent]
  · rw [hsettings]

/-- Asks for a fingerprint, and then for a key, which it exports if it gets one. -/
def keySeeker : Client :=
  .call (.fingerprint [1, 2, 3]) (.ofBytes []) .unlimited fun _ =>
    .call .generateKeypair (.ofBytes []) .unlimited fun
      | (.ok pair, sink) => .call (.exportPublicKey pair.publicKey) (.ofBytes []) sink fun _ => .done
      | (.error _, _) => .done

/-- The random source is exhausted, and that is all that is recorded. -/
theorem diagnostics_transparent_exhausted : ∃ silent telling calls last,
    Toolkit.ofSettings { Settings.standard with diagnostics := false } = .ok silent ∧
      Toolkit.ofSettings { Settings.standard with diagnostics := true } = .ok telling ∧
      keySeeker.run telling ⟨⟨fun _ => 0, some 0, 0⟩, []⟩ =
        (calls, ⟨last, [⟨.generateKeypair, none, some .randomSource⟩]⟩) ∧
      keySeeker.run silent ⟨⟨fun _ => 0, some 0, 0⟩, []⟩ = (calls, ⟨last, []⟩) := by
  obtain ⟨silent, hsilent⟩ : ∃ silent,
    Toolkit.ofSettings { Settings.standard with diagnostics := false } = .ok silent := ⟨_, rfl⟩
  obtain ⟨telling, htelling⟩ : ∃ telling,
    Toolkit.ofSettings { Settings.standard with diagnostics := true } = .ok telling := ⟨_, rfl⟩
  obtain ⟨calls, last, reports, hrun, hrun', -⟩ :=
    diagnostics_transparent hsilent htelling keySeeker ⟨fun _ => 0, some 0, 0⟩ [] []
  have hreports : reports = [⟨.generateKeypair, none, some .randomSource⟩] := by
    cases htelling
    exact congrArg (fun x => x.2.events) hrun.symm
  rw [hreports] at hrun
  exact ⟨silent, telling, calls, last, hsilent, htelling, hrun, hrun'⟩

end SealedEnvelope
