import Eebus.Cob.Spans
import Eebus.Limitation.Spans

/-!
A site with an engine, the Controllable System on it, and the inverter of a battery. Whatever a peer
sends, the instants the site works out are ones a `Duration` holds, as long as the durations its
payloads bring in can be added to the clock.
-/

namespace Eebus.Cob

open Eebus.Library Eebus.Model Eebus.Spine
open Eebus.Limitation (ControllableSystem ControllableSystemActor CsConfig CsFeatures Direction
  RejectReason)

variable {S : Schema}

structure Site (S : Schema) where
  engine : Engine S
  actor : ControllableSystemActor
  battery : BatteryControl
  /-- Where the control-mode setpoint is served. -/
  setpoint : FeatureAddress

/-- What happens at a site. -/
inductive SiteCall (S : Schema)
  | engine (op : EngineOp S)
  | actorTimeout (now : Nat)
  | interrupt (reason : RejectReason) (now : Nat)
  | battery (call : Call)
  /-- Hands the actor and the inverter the next event of the engine; `accepted` is what the inverter
  itself makes of a setpoint. -/
  | relay (accepted : Bool) (now : Nat)

def BatteryControl.answer (bc : BatteryControl) (e : Engine S) (setpoint : FeatureAddress)
    (event : SpineEvent S) (accepted : Bool) (now : Nat) : BatteryControl × Engine S :=
  match event with
  | .writeRequested write =>
    if write.feature = setpoint then
      match readSetpointWrite write.resolved with
      | none => (bc, (e.rejectWrite write.token .commandRejected).1)
      | some change =>
        let (bc, outcome) := bc.onSetpoint change accepted now
        (bc, if outcome = .accepted then (e.acceptWrite write.token).1
          else (e.rejectWrite write.token .commandRejected).1)
    else (bc, e)
  | _ => (bc, e)

namespace Site

/-- A site as it comes up: a fresh engine, an actor put on it, an inverter without a setpoint. -/
def start (device : LocalDevice S) (config : CsConfig) (direction : Direction)
    (features : CsFeatures) (battery : CobConfig) (setpoint : FeatureAddress) (now : Nat) : Site S :=
  let (actor, e) := (ControllableSystemActor.builder (.new config now) direction features).install
    (Engine.new device) now
  ⟨e, actor, .new battery now, setpoint⟩

def perform (s : Site S) : SiteCall S → Site S
  | .engine op => { s with engine := s.engine.perform op }
  | .actorTimeout now =>
    let (actor, e, _) := s.actor.handleTimeout s.engine now
    { s with actor := actor, engine := e }
  | .interrupt reason now =>
    let (actor, e, _) := s.actor.interrupt s.engine reason now
    { s with actor := actor, engine := e }
  | .battery call => { s with battery := system.next s.battery call }
  | .relay accepted now =>
    match s.engine.events with
    | [] => s
    | event :: rest =>
      let (actor, e, _) := s.actor.handleEvent { s.engine with events := rest } event now
      let (battery, e) := s.battery.answer e s.setpoint event accepted now
      { s with engine := e, actor := actor, battery := battery }

def machine : Machine (Site S) (SiteCall S) Unit where
  step s call := (s.perform call, ())

def instants (s : Site S) : List Nat :=
  s.engine.instants ++ s.actor.instants ++ s.battery.instants

/-- The instants a call works out: those it leaves, and the expiry of a limit that the engine then
does not store. -/
def worksOut (s : Site S) (call : SiteCall S) : List Nat :=
  (s.perform call).instants ++
    match call with
    | .relay _ now =>
      match s.engine.events with
      | [] => []
      | event :: _ => s.actor.expiries event now
    | _ => []

structure Timed (horizon : Nat) (s : Site S) : Prop where
  engine : s.engine.Timed horizon
  actor : s.actor.Timed horizon
  battery : s.battery.Timed horizon

end Site

/-- The durations a call brings in can be added to every instant up to the horizon, and the call
itself is not later. -/
def SiteCall.Timed (horizon : Nat) (s : Site S) : SiteCall S → Prop
  | .engine op => op.Timed (Addable horizon) s.engine ∧ ∀ now, op.time = some now → now ≤ horizon
  | .actorTimeout now | .interrupt _ now | .relay _ now => now ≤ horizon
  | .battery call => call.op.Timed horizon ∧ call.now ≤ horizon

section Answers

variable {horizon now : Nat} {bc : BatteryControl} {e : Engine S}

theorem answer_timed (h : bc.Timed horizon) (he : e.Timed horizon) (hnow : now ≤ horizon)
    (setpoint : FeatureAddress) {event : SpineEvent S} (hevent : event.Timed (Addable horizon))
    (accepted : Bool) : (bc.answer e setpoint event accepted now).1.Timed horizon ∧
      (bc.answer e setpoint event accepted now).2.Timed horizon := by
  unfold BatteryControl.answer
  split
  case h_2 => exact ⟨h, he⟩
  case h_1 write =>
    split
    case isFalse => exact ⟨h, he⟩
    split
    case h_1 => exact ⟨h, he.rejectWrite _ _⟩
    case h_2 change hread =>
      refine ⟨h.onSetpoint hnow (readSetpointWrite_lasting hevent hread) accepted, ?_⟩
      dsimp only
      split
      · exact he.acceptWrite write.token
      · exact he.rejectWrite _ _

end Answers

namespace Site.Timed

variable {horizon : Nat} {s : Site S}

theorem start {device : LocalDevice S} (hdevice : device.Timed (Addable horizon))
    {config : CsConfig} (hconfig : Addable horizon config.failsafeDuration) {battery : CobConfig}
    (hbattery : Addable horizon battery.failsafeDuration)
    (hday : Addable horizon (fromSecs 86400)) {now : Nat} (hnow : now ≤ horizon)
    (direction : Direction) (features : CsFeatures) (setpoint : FeatureAddress) :
    (Site.start device config direction features battery setpoint now).Timed horizon := by
  have hdelay : Addable horizon defaultMaxResponseDelay := hday.of_le (by decide)
  have hengine : (Engine.new device).Timed horizon :=
    ⟨hdelay, hdevice, by simp [Engine.new], by simp [Engine.new], by simp [Engine.new],
      by simp [Engine.new]⟩
  have hperiod : Addable horizon Limitation.defaultHeartbeatPeriod := hday.of_le (by decide)
  have hbuilt : (ControllableSystemActor.builder (.new config now) direction features).Timed
      horizon := by
    refine ⟨.new hconfig hnow, ?_, hperiod⟩
    exact hperiod.sum_le (Nat.zero_le horizon)
  obtain ⟨hactor, hinstalled⟩ := hbuilt.install hengine hday hnow
  exact ⟨hinstalled, hactor, .new hbattery hnow⟩

theorem instants (h : s.Timed horizon) (hday : Addable horizon (fromSecs 86400)) :
    ∀ t ∈ s.instants, t ≤ durationMax := by
  intro t ht
  rcases List.mem_append.mp ht with ht | ht
  · exact (List.mem_append.mp ht).elim (h.engine.instants t) (h.actor.instants hday t)
  · exact h.battery.instants hday t ht

theorem perform (h : s.Timed horizon) (hday : Addable horizon (fromSecs 86400)) {call : SiteCall S}
    (hcall : call.Timed horizon s) : (s.perform call).Timed horizon := by
  cases call with
  | engine op => exact ⟨h.engine.perform hday hcall.1 hcall.2, h.actor, h.battery⟩
  | actorTimeout now =>
    obtain ⟨hactor, hengine⟩ := h.actor.handleTimeout h.engine hcall
    exact ⟨hengine, hactor, h.battery⟩
  | interrupt reason now =>
    obtain ⟨hactor, hengine⟩ := h.actor.interrupt h.engine hcall reason
    exact ⟨hengine, hactor, h.battery⟩
  | battery call => exact ⟨h.engine, h.actor, h.battery.next hday hcall.1 hcall.2⟩
  | relay accepted now =>
    simp only [Site.perform]
    split
    · exact h
    case h_2 event rest hevents =>
      have hevent := h.engine.events event (by simp [hevents])
      have hpolled : { s.engine with events := rest }.Timed horizon :=
        ⟨h.engine.delay, h.engine.device, h.engine.peer, h.engine.deferred, h.engine.pending,
          fun other hother => h.engine.events other (by simp [hevents, hother])⟩
      obtain ⟨hactor, hengine⟩ := h.actor.handleEvent hpolled hday hcall hevent
      obtain ⟨hbattery, hanswered⟩ :=
        answer_timed h.battery hengine hcall s.setpoint hevent accepted
      exact ⟨hanswered, hactor, hbattery⟩

theorem worksOut (h : s.Timed horizon) (hday : Addable horizon (fromSecs 86400)) {call : SiteCall S}
    (hcall : call.Timed horizon s) : ∀ t ∈ s.worksOut call, t ≤ durationMax := by
  intro t ht
  rcases List.mem_append.mp ht with ht | ht
  · exact (h.perform hday hcall).instants hday t ht
  cases call with
  | relay accepted now =>
    dsimp only at ht
    split at ht
    · simp at ht
    case h_2 event rest hevents =>
      exact h.actor.expiries hcall (h.engine.events event (by simp [hevents])) t ht
  | _ => simp at ht

end Site.Timed

/-- No run of a site works out an instant a `Duration` does not hold, as long as every duration that
is brought in can be added to the latest time of the run. -/
theorem additions_stay_in_range {horizon : Nat} (hhorizon : horizon < fromSecs (2 ^ 63))
    {device : LocalDevice S} (hdevice : device.Timed (Addable horizon)) {config : CsConfig}
    (hconfig : Addable horizon config.failsafeDuration) {battery : CobConfig}
    (hbattery : Addable horizon battery.failsafeDuration) {now : Nat} (hnow : now ≤ horizon)
    (direction : Direction) (features : CsFeatures) (setpoint : FeatureAddress)
    {calls : List (SiteCall S)}
    (hcalls : Site.machine.Admits (fun s call => call.Timed horizon s)
      (Site.start device config direction features battery setpoint now) calls) :
    ∀ before call, before ++ [call] <+: calls →
      ∀ t ∈ (Site.machine.run (Site.start device config direction features battery setpoint now)
        before).worksOut call, t ≤ durationMax := by
  have hday : Addable horizon (fromSecs 86400) := by
    simp only [Addable, durationMax, fromSecs] at hhorizon ⊢
    omega
  exact Site.machine.run_steps (Site.Timed horizon) (fun s call hs hcall => hs.perform hday hcall)
    (fun s call hs hcall => hs.worksOut hday hcall)
    (.start hdevice hconfig hbattery hday hnow direction features setpoint) hcalls

namespace Scenario

open Limitation (ActorCall limitId)
open Limitation.Scenario (heatPump managerClient sends)

def atSite : ActorCall Schema.limitsOnly → SiteCall Schema.limitsOnly
  | .datagram datagram now => .engine (.handleDatagram datagram now)
  | .engineTimeout now => .engine (.handleTimeout now)
  | .removePeer device => .engine (.removePeer device)
  | .handleTimeout now => .actorTimeout now
  | .relay now | .handleEvent _ now => .relay true now

def started : Site Schema.limitsOnly :=
  .start Limitation.Scenario.device Limitation.Scenario.config .consumption
    Limitation.Scenario.features (.new (fromSecs 7200)) (featureAddress heatPump [1] 9) 0

def limitsUntil (endTime : String) (counter : MsgCounter) (now : Nat) :
    ActorCall Schema.limitsOnly :=
  sends managerClient Limitation.Scenario.features.loadControl .write counter
    ⟨.loadControlLimitListData, ⟨some [⟨some limitId, none, some true, some ⟨none, some endTime⟩,
      some (.new 1000 0)⟩]⟩⟩ now

/-- The manager takes control, and limits the heat pump for as long as a duration can say. -/
def longest : List (SiteCall Schema.limitsOnly) :=
  (Limitation.Scenario.opening.take 9 ++
    [limitsUntil "PT18446744073709551615S" 5 (fromSecs 2)]).map atSite

/-- A limit of ten times the age of the universe runs over. -/
theorem limit_expiry_overflows :
    ∃ t ∈ (Site.machine.run started longest).worksOut (.relay true (fromSecs 2)),
      durationMax < t := by
  decide +kernel

/-- The manager limits the heat pump for an hour. -/
def hour : List (SiteCall Schema.limitsOnly) :=
  (Limitation.Scenario.opening.take 9 ++
    [limitsUntil "PT1H" 5 (fromSecs 2), .relay (fromSecs 2)]).map atSite

theorem sends_timed {horizon : Nat} {site : Site Schema.limitsOnly}
    {source destination : FeatureAddress} {classifier : CmdClassifier} {counter : MsgCounter}
    {data : CmdData Schema.limitsOnly} {now : Nat} (hdata : data.Timed (Addable horizon))
    (hnow : now ≤ horizon) :
    (atSite (sends source destination classifier counter data now)).Timed horizon site := by
  refine ⟨fun cmd hcmd other hother => ?_, fun time htime => Option.some.inj htime ▸ hnow⟩
  rw [List.mem_singleton.mp hcmd] at hother
  exact Option.some.inj hother ▸ hdata

/-- The hour is worked out, and in range. -/
theorem additions_stay_in_range_hour :
    fromSecs 3602 ∈ (Site.machine.run started (hour.take 10)).worksOut (.relay true (fromSecs 2)) ∧
      fromSecs 3602 ≤ durationMax := by
  have hdevice : Limitation.Scenario.device.Timed (Addable (fromSecs 10)) := by
    have hempty : ∀ entity ∈ Limitation.Scenario.device.entities, ∀ f ∈ entity.features,
        f.maxResponseDelay = none ∧ ∀ entry ∈ f.functions, entry.data.isNone = true := by decide
    intro entity hentity f hf
    obtain ⟨hdelay, hdata⟩ := hempty entity hentity f hf
    refine ⟨fun d hd => by simp [hdelay] at hd, fun entry hentry data hstored => ?_⟩
    simpa [hstored] using hdata entry hentry
  have hcalls : Site.machine.Admits (fun s call => call.Timed (fromSecs 10) s) started hour := by
    refine ⟨sends_timed ⟨trivial, ?_⟩ (by decide), Nat.zero_le _, Nat.zero_le _,
      sends_timed ⟨trivial, trivial⟩ (by decide), Nat.zero_le _,
      sends_timed ⟨trivial, trivial⟩ (by decide), Nat.zero_le _,
      sends_timed ⟨trivial, trivial⟩ (by decide), ?_, sends_timed ⟨?_, trivial⟩ (by decide), ?_,
      trivial⟩
    · intro entry hentry description hdescription text d htext
      rw [List.mem_singleton.mp hentry] at hdescription
      rw [← Option.some.inj hdescription] at htext
      simp at htext
    · exact (by decide : fromSecs 1 ≤ fromSecs 10)
    · intro entry hentry period hperiod text d htext hparse
      rw [List.mem_singleton.mp hentry] at hperiod
      rw [← Option.some.inj hperiod] at htext
      rw [← Option.some.inj htext,
        show parseIso8601Duration "PT1H" = some (fromSecs 3600) by decide +kernel] at hparse
      exact Option.some.inj hparse ▸ by decide
    · exact (by decide : fromSecs 2 ≤ fromSecs 10)
  have hmem : fromSecs 3602 ∈
      (Site.machine.run started (hour.take 10)).worksOut (.relay true (fromSecs 2)) := by
    decide +kernel
  exact ⟨hmem, additions_stay_in_range (by decide) hdevice (by decide) (by decide) (Nat.zero_le _)
    .consumption Limitation.Scenario.features _ hcalls (hour.take 10) _ ⟨[], rfl⟩ _ hmem⟩

end Scenario

end Eebus.Cob
