import Eebus.Limitation.GuardIdentity
import Eebus.Spine.Filing

/-!
From the engine's queue to the actor's decision: which of the writes that were put to it the actor
decides on.
-/

namespace Eebus.Limitation

open Eebus.Library Eebus.Model Eebus.Spine

variable {S : Schema}

/-- The engine has stored and notified: nothing is answered, and the queue is left alone. -/
structure Announces (e e' : Engine S) : Prop where
  events : e'.events = e.events
  deferred : e'.deferred = e.deferred
  nextToken : e'.nextToken = e.nextToken
  sent : ∃ sent, e'.outbox = e.outbox ++ sent ∧ ∀ d ∈ sent, Datagram.unreferring d

variable {put : List (WriteRequest S)}

namespace Announces

variable {e e' e'' : Engine S}

theorem refl (e : Engine S) : Announces e e := ⟨rfl, rfl, rfl, [], by simp, by simp⟩

theorem trans (h : Announces e e') (h' : Announces e' e'') : Announces e e'' := by
  obtain ⟨sent, hsent, hquiet⟩ := h.sent
  obtain ⟨sent', hsent', hquiet'⟩ := h'.sent
  refine ⟨h'.events.trans h.events, h'.deferred.trans h.deferred, h'.nextToken.trans h.nextToken,
    sent ++ sent', by rw [hsent', hsent, List.append_assoc], fun d hd => ?_⟩
  cases List.mem_append.mp hd with
  | inl hfirst => exact hquiet d hfirst
  | inr hlater => exact hquiet' d hlater

theorem of_notify (e : Engine S) (feature : FeatureAddress) (function : Function S.Other) :
    Announces e (e.notify feature function) := by
  have hsends := e.sends_notify feature function
  obtain ⟨sent, hsent, -, hquiet⟩ := e.unreferring_notify feature function
  exact ⟨hsends.events, hsends.deferred, hsends.nextToken, sent, hsent, hquiet⟩

theorem of_notifyIf (e : Engine S) (changed : Bool) (feature : FeatureAddress)
    (function : Function S.Other) :
    Announces e (if changed then e.notify feature function else e) := by
  split
  · exact of_notify e feature function
  · exact refl e

theorem of_offerOne (e : Engine S) (address : FeatureAddress) (data : CmdData S) :
    Announces e (offerOne e address data) := by
  unfold offerOne
  split
  · exact refl e
  · exact ⟨rfl, rfl, rfl, [], (List.append_nil _).symm, by simp⟩

theorem of_offerBoth (e : Engine S) (address : FeatureAddress) (description values : CmdData S) :
    Announces e (offerBoth e address description values).1 := by
  unfold offerBoth
  split
  · exact refl e
  · exact ⟨rfl, rfl, rfl, [], (List.append_nil _).symm, by simp⟩

theorem of_publish (actor : ControllableSystemActor) (e : Engine S) :
    Announces e (actor.publish e) := by
  have hoffered := (of_offerBoth e actor.features.loadControl
    (limitDescription actor.direction) (limitData actor.system)).trans
      (of_offerBoth _ actor.features.deviceConfiguration
        (failsafeDescriptions actor.direction) (failsafeValues actor.system))
  simp only [ControllableSystemActor.publish]
  refine .trans ?_ (of_notifyIf _ _ _ _)
  refine .trans ?_ (of_notifyIf _ _ _ _)
  split
  · exact hoffered
  · exact hoffered.trans (of_offerOne _ _ _)

theorem of_tick (p : HeartbeatProducer) (e : Engine S) (feature : FeatureAddress) (now : Nat) :
    Announces e (p.tick e feature now).2 := by
  unfold HeartbeatProducer.tick
  split
  · exact refl e
  · exact (of_offerOne e _ _).trans (of_notify _ _ _)

theorem journal (h : Announces e e') (hjournal : Journal put e) : Journal put e' :=
  hjournal.of_same (h.events ▸ List.suffix_refl _) h.deferred h.nextToken

end Announces

section Deciding

variable {put : List (WriteRequest S)} {e : Engine S}

theorem follow_journal (h : Journal put e) (b : Belief) (features : CsFeatures) (now : Nat) :
    Journal put (b.follow e features now).2 := by
  unfold Belief.follow
  repeat' split
  all_goals first | exact h | exact h.request _ _ _ _ _ now

theorem decision_takes {actor : ControllableSystemActor} {token : Nat}
    {result : ControllableSystemActor × Engine S × CsEvent} (h : Journal put e)
    (hresult : actor.Decision e token result) :
    Journal put result.2.1 ∧ result.2.1.findDeferred token = none := by
  rcases hresult.engine with ⟨error, hrejected⟩ | ⟨speaker, haccepted⟩
  · rw [hrejected]
    exact ⟨h.rejectWrite _ _, h.findDeferred_of_dropped (e.deferred_rejectWrite _ _)⟩
  · rw [haccepted]
    have hannounces := Announces.of_publish speaker (e.acceptWrite token).1
    refine ⟨hannounces.journal (h.finishWrite _ _), h.findDeferred_of_dropped ?_⟩
    rw [hannounces.deferred]
    exact e.deferred_finishWrite _ _

theorem handleEvent_journal (h : Journal put e) (actor : ControllableSystemActor)
    (event : SpineEvent S) (now : Nat) : Journal put (actor.handleEvent e event now).2.1 := by
  have hdata : ∀ feature resolved, Journal put (actor.onData e feature resolved now).2.1 := by
    intro feature resolved
    unfold ControllableSystemActor.onData
    dsimp only
    split <;> exact h
  unfold ControllableSystemActor.handleEvent
  cases event with
  | dataNotified feature data resolved => exact hdata feature resolved
  | replyReceived feature data resolved => exact hdata feature resolved
  | bindingGranted client server => exact follow_journal h _ _ now
  | discoveryUpdated device => exact follow_journal h _ _ now
  | writeRequested write =>
    dsimp only
    split
    · exact (decision_takes h (actor.decideLimit_decision e write now)).1
    · split
      · exact (decision_takes h (actor.decideFailsafe_decision e write now)).1
      · exact h
  | _ => exact h

end Deciding

/-- What can happen to an actor and its engine: the calls on the actor, with an event of the
application's choice or the next one of the engine, and every operation on the engine itself. -/
inductive HostCall (S : Schema)
  | handleEvent (event : SpineEvent S) (now : Nat)
  | handleTimeout (now : Nat)
  | relay (now : Nat)
  | interrupt (reason : RejectReason) (now : Nat)
  | engine (op : EngineOp S)

namespace Running

def serve (s : Running S) : HostCall S → Running S × Option CsEvent
  | .handleEvent event now => s.perform (.handleEvent event now)
  | .handleTimeout now => s.perform (.handleTimeout now)
  | .relay now => s.perform (.relay now)
  | .interrupt reason now =>
    let (actor, e, _) := s.actor.interrupt s.engine reason now
    (⟨actor, e⟩, none)
  | .engine op => ({ s with engine := s.engine.perform op }, none)

def host : Machine (Running S) (HostCall S) (Option CsEvent) where
  step := serve

def puts (s : Running S) : HostCall S → List (WriteRequest S)
  | .engine op => s.engine.puts op
  | _ => []

theorem serve_journal {s : Running S} (h : Journal put s.engine)
    (call : HostCall S) : Journal (put ++ s.puts call) (s.serve call).1.engine := by
  have hsilent : ∀ {e : Engine S}, Journal put e → Journal (put ++ []) e := fun h => by
    rwa [List.append_nil]
  cases call with
  | engine op => exact h.perform op
  | handleEvent event now => exact hsilent (handleEvent_journal h s.actor event now)
  | handleTimeout now =>
    refine hsilent ?_
    have hticked := Announces.of_tick s.actor.heartbeat s.engine s.actor.features.deviceDiagnosis now
    simp only [serve, perform, of, ControllableSystemActor.handleTimeout]
    split
    · exact hticked.journal h
    · exact (hticked.trans (.of_publish _ _)).journal h
  | interrupt reason now =>
    refine hsilent ?_
    simp only [serve, ControllableSystemActor.interrupt]
    split
    · exact h
    · exact (Announces.of_publish _ _).journal h
  | relay now =>
    refine hsilent ?_
    simp only [serve, perform]
    split
    · exact h
    case h_2 event rest hevents =>
      have hpolled : Journal put { s.engine with events := rest } :=
        h.of_same (hevents ▸ List.suffix_cons event rest) rfl rfl
      exact handleEvent_journal hpolled s.actor event now

theorem install_journal {e : Engine S} (h : Journal put e)
    (actor : ControllableSystemActor) (start : Nat) :
    Journal put (install actor e start).engine := by
  have hbound : Journal put { e with
      relations := e.relations.bindTogether
        [actor.features.loadControl, actor.features.deviceConfiguration] } :=
    h.of_same (List.suffix_refl _) rfl rfl
  exact (Announces.of_publish _ _).journal hbound

theorem host_journal {s : Running S} (h : Journal put s.engine) (calls : List (HostCall S)) :
    Journal (put ++ host.collect puts s calls) (host.run s calls).engine := by
  induction calls generalizing s put with
  | nil =>
    rw [Machine.collect, List.append_nil]
    exact h
  | cons call rest ih =>
    have hall := ih (serve_journal h call)
    rwa [List.append_assoc] at hall

theorem serve_features (s : Running S) (call : HostCall S) :
    (s.serve call).1.actor.features = s.actor.features := by
  cases call with
  | handleEvent event now => exact (handleEvent_attends s.actor s.engine event now).features
  | handleTimeout now =>
    simp only [serve, perform, of, ControllableSystemActor.handleTimeout]
    split <;> rfl
  | relay now => exact (s.relay_outlook now).1
  | interrupt reason now =>
    simp only [serve, ControllableSystemActor.interrupt]
    split <;> rfl
  | engine => rfl

theorem host_features (s : Running S) (calls : List (HostCall S)) :
    (host.run s calls).actor.features = s.actor.features :=
  host.run_invariant (fun _ _ => True) (fun t => t.actor.features = s.actor.features)
    (fun t call ht _ => (t.serve_features call).trans ht) calls s rfl
    (host.admits_of_forall (fun _ _ => trivial) calls s)

end Running

/-- The write is off the queue, and one event says what was decided. -/
def Resolves (result : ControllableSystemActor × Engine S × Option CsEvent) (token : Nat) : Prop :=
  result.2.2.isSome = true ∧ result.2.1.findDeferred token = none

instance {result : ControllableSystemActor × Engine S × Option CsEvent} {token : Nat} :
    Decidable (Resolves result token) := inferInstanceAs (Decidable (_ ∧ _ = none))

theorem handleEvent_resolves {e : Engine S} (h : Journal put e)
    (actor : ControllableSystemActor) (write : WriteRequest S) (now : Nat) :
    Resolves (actor.handleEvent e (.writeRequested write) now) write.token ↔
      write.feature = actor.features.loadControl ∨
        write.feature = actor.features.deviceConfiguration := by
  simp only [Resolves, ControllableSystemActor.handleEvent]
  split
  case isTrue hlimit => simp [hlimit, (decision_takes h (actor.decideLimit_decision e write now)).2]
  case isFalse hlimit =>
    split
    case isTrue hfailsafe => simp [hfailsafe, (decision_takes h (actor.decideFailsafe_decision e write now)).2]
    case isFalse hfailsafe => simp [hlimit, hfailsafe]

theorem destination_of_put {e : Engine S} {datagram : Datagram S} {now : Nat} {write : WriteRequest S}
    (h : write ∈ e.puts (.handleDatagram datagram now)) :
    datagram.header.bind Header.addressDestination = some write.feature := by
  rw [Engine.puts] at h
  cases e.handleDatagram_puts datagram now with
  | inl hnone =>
    rw [hnone.1] at h
    exact absurd h List.not_mem_nil
  | inr hsome =>
    obtain ⟨w, put, filed, hdeferral⟩ := hsome
    rw [hdeferral.told] at h
    obtain ⟨header, hheader, -, -, -, hdestination, -⟩ := hdeferral.admitted.takenUp.header
    rw [List.mem_singleton.mp h, hdeferral.feature, hheader]
    exact hdestination

/-- Whenever in a run its event is handed to the actor, a deferred write is decided in that call if and
only if its datagram was sent to the very address of one of the two features. -/
theorem decided_iff_addressed_in_full (actor : ControllableSystemActor) (device : LocalDevice S)
    (earlier : List (EngineOp S)) (start : Nat) (before after : List (HostCall S))
    (datagram : Datagram S) (now later : Nat) (write : WriteRequest S) :
    let installed : Running S := .install actor (Engine.machine.run (Engine.new device) earlier) start
    let s := Running.host.run installed (before ++ .engine (.handleDatagram datagram now) :: after)
    write ∈ (Running.host.run installed before).engine.puts (.handleDatagram datagram now) →
      (Resolves (s.actor.handleEvent s.engine (.writeRequested write) later) write.token ↔
        datagram.header.bind Header.addressDestination = some actor.features.loadControl ∨
        datagram.header.bind Header.addressDestination = some actor.features.deviceConfiguration) := by
  intro installed s hput
  have hjournal : Journal _ s.engine := Running.host_journal
    (Running.install_journal ((Journal.new device).run earlier) actor start) _
  have hfeatures : s.actor.features = actor.features := Running.host_features installed _
  rw [handleEvent_resolves hjournal, hfeatures, destination_of_put hput, Option.some_inj,
    Option.some_inj]

namespace Scenario

/-- What led to the manager's control, as the host sees it. -/
def hosted : List (HostCall Schema.limitsOnly) :=
  opening.map fun
    | .handleEvent event now => .handleEvent event now
    | .handleTimeout now => .handleTimeout now
    | .relay now => .relay now
    | .datagram datagram now => .engine (.handleDatagram datagram now)
    | .engineTimeout now => .engine (.handleTimeout now)
    | .removePeer device => .engine (.removePeer device)

/-- The manager's second limit, sent to this address. -/
def limitAt (destination : FeatureAddress) : Datagram Schema.limitsOnly :=
  Datagram.carrying managerClient destination .write 6 (Cmd.withData
    ⟨.loadControlLimitListData, ⟨some [⟨some limitId, none, some true, none,
      some (.new 2000 0)⟩]⟩⟩)

/-- Sent to the full address, it is decided. -/
theorem decided_iff_addressed_in_full_limit :
    ∃ write, (Running.host.run started hosted).engine.puts
        (.handleDatagram (limitAt features.loadControl) (fromSecs 3)) = [write] ∧
      let s := Running.host.run started
        (hosted ++ [.engine (.handleDatagram (limitAt features.loadControl) (fromSecs 3))])
      Resolves (s.actor.handleEvent s.engine (.writeRequested write) (fromSecs 3)) write.token := by
  have hput : ((Running.host.run started hosted).engine.puts
      (.handleDatagram (limitAt features.loadControl) (fromSecs 3))).length = 1 := by decide +kernel
  obtain ⟨write, hwrite⟩ := List.length_eq_one_iff.mp hput
  have hmem : write ∈ (Running.host.run started hosted).engine.puts
      (.handleDatagram (limitAt features.loadControl) (fromSecs 3)) := by
    rw [hwrite]
    exact List.mem_singleton_self write
  refine ⟨write, hwrite, ?_⟩
  exact (decided_iff_addressed_in_full (.builder (.new config 0) .consumption features) device [] 0
    hosted [] (limitAt features.loadControl) (fromSecs 3) (fromSecs 3) write
    hmem).mpr (.inl rfl)

/-- Sent to the same feature without naming the device, it is deferred all the same, and nobody
decides it. -/
theorem deviceless_limit_is_left_undecided :
    let destination : FeatureAddress := { features.loadControl with device := none }
    let puts := (Running.host.run started hosted).engine.puts
      (.handleDatagram (limitAt destination) (fromSecs 3))
    let s := Running.host.run started
      (hosted ++ [.engine (.handleDatagram (limitAt destination) (fromSecs 3))])
    puts.length = 1 ∧ sameFeature destination features.loadControl = true ∧
      ∀ write ∈ puts,
        ¬ Resolves (s.actor.handleEvent s.engine (.writeRequested write) (fromSecs 3)) write.token := by
  decide +kernel

end Scenario

end Eebus.Limitation
