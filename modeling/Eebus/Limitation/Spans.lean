import Eebus.Limitation.Actor
import Eebus.Spine.Spans

/-! The instants a Controllable System works out: the expiry of a limit, the timers it waits for, and
the next heartbeat of the actor that serves it. -/

namespace Eebus.Limitation

open Eebus.Library Eebus.Model Eebus.Spine

variable {S : Schema} {horizon now : Nat}

namespace ControllableSystem

/-- Every instant the system remembers is in the past of the horizon, its limit expires at an instant
a `Duration` holds, and its failsafe duration can be added to the clock. -/
structure Timed (horizon : Nat) (cs : ControllableSystem) : Prop where
  entered : cs.enteredStateAt ≤ horizon
  heard : ∀ t, cs.lastHeartbeat = some t → t ≤ horizon
  awaiting : ∀ t, cs.awaitingWriteSince = some t → t ≤ horizon
  expiry : ∀ t, cs.limitExpiry = some t → t ≤ durationMax
  failsafe : Addable horizon cs.config.failsafeDuration

def instants (cs : ControllableSystem) : List Nat := cs.limitExpiry.toList ++ cs.deadlines

namespace Timed

variable {cs : ControllableSystem}

theorem new {config : CsConfig} (hconfig : Addable horizon config.failsafeDuration)
    (hnow : now ≤ horizon) : (ControllableSystem.new config now).Timed horizon :=
  ⟨hnow, nofun, nofun, nofun, hconfig⟩

section

variable (h : cs.Timed horizon)

include h

theorem heardFrom : cs.heardFrom ≤ horizon := by
  unfold ControllableSystem.heardFrom
  cases hheard : cs.lastHeartbeat with
  | none => exact h.entered
  | some t => exact h.heard t hheard

theorem instants (hday : Addable horizon (fromSecs 86400)) :
    ∀ t ∈ cs.instants, t ≤ durationMax := by
  have hwait : Addable horizon heartbeatTimeout := hday.of_le (by decide)
  have hexpiry : ∀ t ∈ cs.limitExpiry.toList, t ≤ durationMax :=
    fun t ht => h.expiry t (Option.mem_toList.mp ht)
  have hheard := hwait.sum_le h.heardFrom
  have hsettle : ∀ t ≤ horizon, t + settleTimeout ≤ durationMax := fun t ht => hwait.sum_le ht
  intro t ht
  rcases List.mem_append.mp ht with ht | ht
  · exact hexpiry t ht
  unfold deadlines at ht
  cases hstate : cs.state with
  | limited =>
    simp only [hstate, List.mem_cons] at ht
    exact ht.elim (fun ht => ht ▸ hheard) (hexpiry t)
  | unlimitedControlled =>
    simp only [hstate, List.mem_singleton] at ht
    exact ht ▸ hheard
  | init =>
    simp only [hstate, List.mem_singleton] at ht
    exact ht ▸ hsettle _ h.entered
  | failsafeState =>
    simp only [hstate, List.mem_cons, Option.mem_toList, Option.map_eq_some_iff] at ht
    rcases ht with rfl | ⟨since, hsince, rfl⟩
    · exact h.failsafe.sum_le h.entered
    · exact hsettle since (h.awaiting since hsince)
  | unlimitedAutonomous => simp [hstate] at ht

theorem enter (hnow : now ≤ horizon) (state : LimitationState) :
    (cs.enter state now).Timed horizon := by
  unfold ControllableSystem.enter
  split
  · exact h
  · exact ⟨hnow, h.heard, nofun, h.expiry, h.failsafe⟩

theorem handleTimeout (hnow : now ≤ horizon) : (cs.handleTimeout now).Timed horizon := by
  rcases cs.handleTimeout_cases now with
    ⟨he, -⟩ | ⟨-, -, he⟩ | ⟨-, -, he⟩ | ⟨-, he⟩ | ⟨-, -, he⟩
  · rwa [he]
  all_goals
    rw [he]
    exact h.enter hnow _

theorem onHeartbeat (hnow : now ≤ horizon) :
    (cs.onHeartbeat now).Timed horizon where
  entered := h.entered
  heard t ht := Option.some.inj ht ▸ hnow
  awaiting t ht := by
    simp only [ControllableSystem.onHeartbeat] at ht
    split at ht
    · exact Option.some.inj ht ▸ hnow
    · exact h.awaiting t ht
  expiry := h.expiry
  failsafe := h.failsafe

theorem refuse (hnow : now ≤ horizon) (reason : NackReason) :
    (cs.refuse reason now).1.Timed horizon := by
  have hmoved : (if cs.state.isControlled then cs
      else cs.enter .unlimitedControlled now).Timed horizon := by
    split
    · exact h
    · exact h.enter hnow _
  exact ⟨hmoved.entered, hmoved.heard, nofun, hmoved.expiry, hmoved.failsafe⟩

theorem accept (hnow : now ≤ horizon) {write : LimitWrite}
    (hwrite : ∀ d, write.duration = some d → Addable horizon d) :
    (cs.accept write now).Timed horizon := by
  have hstored : { cs with
      sequenceComplete := true
      awaitingWriteSince := none
      limit := some write
      limitExpiry := write.duration.map (now + ·) }.Timed horizon := by
    refine ⟨h.entered, h.heard, nofun, fun t ht => ?_, h.failsafe⟩
    obtain ⟨d, hd, rfl⟩ := Option.map_eq_some_iff.mp ht
    exact (hwrite d hd).sum_le hnow
  exact hstored.enter hnow _

theorem forget :
    { cs with limit := none, limitExpiry := none }.Timed horizon :=
  ⟨h.entered, h.heard, h.awaiting, nofun, h.failsafe⟩

theorem onLimitWrite (hnow : now ≤ horizon) {write : LimitWrite}
    (hwrite : ∀ d, write.duration = some d → Addable horizon d) (decision : LocalDecision) :
    (cs.onLimitWrite write decision now).1.Timed horizon := by
  have hticked := h.handleTimeout hnow
  unfold ControllableSystem.onLimitWrite
  dsimp only
  split
  · exact hticked
  split
  · exact hticked.refuse hnow _
  · exact hticked.accept hnow hwrite

theorem onUnreadableLimitWrite (hnow : now ≤ horizon) :
    (cs.onUnreadableLimitWrite now).1.Timed horizon := by
  have hticked := h.handleTimeout hnow
  unfold ControllableSystem.onUnreadableLimitWrite
  dsimp only
  split
  · exact hticked
  · exact hticked.refuse hnow _

theorem onUnstoredLimitWrite (hnow : now ≤ horizon) :
    (cs.onUnstoredLimitWrite now).Timed horizon :=
  h.forget.enter hnow _

theorem onFailsafeLimitWrite (hnow : now ≤ horizon) (watts : F64) :
    (cs.onFailsafeLimitWrite watts now).1.Timed horizon := by
  have hticked := h.handleTimeout hnow
  unfold ControllableSystem.onFailsafeLimitWrite
  dsimp only
  split
  · exact hticked
  · repeat' split
    · exact hticked
    · exact hticked
    · exact ⟨hticked.entered, hticked.heard, hticked.awaiting, hticked.expiry, hticked.failsafe⟩

theorem onFailsafeDurationWrite (hday : Addable horizon (fromSecs 86400))
    (hnow : now ≤ horizon) (duration : Nat) :
    (cs.onFailsafeDurationWrite duration now).1.Timed horizon := by
  have hticked := h.handleTimeout hnow
  unfold ControllableSystem.onFailsafeDurationWrite
  dsimp only
  split
  · exact hticked
  · split
    · exact hticked
    case isFalse hrange =>
      refine ⟨hticked.entered, hticked.heard, hticked.awaiting, hticked.expiry, hday.of_le ?_⟩
      rw [not_or, not_not] at hrange
      exact hrange.1.2

theorem interrupt (hnow : now ≤ horizon) (reason : RejectReason) :
    (cs.interrupt reason now).1.Timed horizon := by
  unfold ControllableSystem.interrupt
  repeat' split
  · exact h
  · exact h
  · exact h.forget.enter hnow _

end

end Timed

end ControllableSystem

theorem readLimitEntry_duration {entry : LoadControlLimitData} {limit : LimitWrite}
    (hread : readLimitEntry entry = some limit) {d : Nat} (hd : limit.duration = some d) :
    ∃ text, entry.timePeriod.bind TimePeriod.endTime = some text ∧
      parseIso8601Duration text = some d := by
  simp only [readLimitEntry, Option.bind_eq_bind] at hread
  cases hend : entry.timePeriod.bind TimePeriod.endTime with
  | none => cases hvalue : entry.value <;> simp_all [Option.bind_eq_some_iff] <;> grind
  | some text => cases hvalue : entry.value <;> simp_all [Option.bind_eq_some_iff] <;> grind

theorem readLimitWrite_lasting {P : Nat → Prop} {data : CmdData S} (h : data.Lasting P) {id : Nat}
    {limit : LimitWrite} (hread : readLimitWrite data id = some limit) :
    ∀ d, limit.duration = some d → P d := by
  intro d hd
  obtain ⟨key, list⟩ := data
  cases key with
  | loadControlLimitListData =>
    simp only [readLimitWrite, Option.bind_eq_bind, Option.bind_eq_some_iff] at hread
    obtain ⟨entries, hentries, entry, hentry, hlimit⟩ := hread
    obtain ⟨text, hend, hparse⟩ := readLimitEntry_duration hlimit hd
    obtain ⟨period, hperiod, htext⟩ := Option.bind_eq_some_iff.mp hend
    have hmem : entry ∈ (loadControlLimitListType.entries list).getD [] := by
      change entry ∈ list.loadControlLimitData.getD []
      rw [hentries]
      exact List.mem_of_find?_eq_some hentry
    exact h entry hmem period hperiod text d htext hparse
  | _ => simp [readLimitWrite] at hread

section Publishing

variable {P : Nat → Prop}

theorem limitData_lasting (cs : ControllableSystem) : (limitData cs : CmdData S).Lasting P := by
  intro item hitem
  change item ∈ [limitEntry cs] at hitem
  rw [List.mem_singleton.mp hitem]
  exact lasting_none

theorem offer_timed {f : LocalFeature S} (h : f.Timed P) {data : CmdData S}
    (hdata : data.Lasting P) : (offer f data).1.Timed P := by
  unfold offer
  split
  case h_1 result hset => exact h.setData hdata hset
  case h_2 => exact h

end Publishing

section OnTheEngine

variable {e : Engine S}

theorem offerBoth_timed (h : e.Timed horizon) (address : FeatureAddress)
    (description values : CmdData S) (hdescription : description.Lasting (Addable horizon))
    (hvalues : values.Lasting (Addable horizon)) :
    (offerBoth e address description values).1.Timed horizon := by
  unfold offerBoth
  split
  · exact h
  case h_2 feature hfeature =>
    exact h.storeFeature address
      (offer_timed (offer_timed (h.device.feature hfeature) hdescription) hvalues)

theorem offerOne_timed (h : e.Timed horizon) (address : FeatureAddress) (data : CmdData S)
    (hdata : data.Lasting (Addable horizon)) : (offerOne e address data).Timed horizon := by
  unfold offerOne
  split
  · exact h
  case h_2 feature hfeature =>
    exact h.storeFeature address (offer_timed (h.device.feature hfeature) hdata)

theorem notify_timed (h : e.Timed horizon) (changed : Bool) (feature : FeatureAddress)
    (function : Function S.Other) :
    (if changed then e.notify feature function else e).Timed horizon :=
  h.of_sends (Engine.sends_notifyIf e changed feature function)

theorem publish_timed (actor : ControllableSystemActor) (h : e.Timed horizon) :
    (actor.publish e).Timed horizon := by
  have hlimit := offerBoth_timed h actor.features.loadControl
    (limitDescription actor.direction) (limitData actor.system) trivial (limitData_lasting _)
  have hfailsafe := offerBoth_timed hlimit actor.features.deviceConfiguration
    (failsafeDescriptions actor.direction) (failsafeValues actor.system) trivial trivial
  simp only [ControllableSystemActor.publish]
  refine notify_timed (notify_timed ?_ _ _ _) _ _ _
  split
  · exact hfailsafe
  · exact offerOne_timed hfailsafe _ (constraints actor.system actor.direction) trivial

theorem follow_timed (h : e.Timed horizon) (b : Belief) (features : CsFeatures)
    (hnow : now ≤ horizon) : (b.follow e features now).2.Timed horizon := by
  unfold Belief.follow
  repeat' split
  all_goals first | exact h | exact h.request _ _ _ _ _ hnow

end OnTheEngine

namespace ControllableSystemActor

def instants (actor : ControllableSystemActor) : List Nat :=
  actor.heartbeat.next :: actor.system.instants

/-- The expiry of a limit as the actor works it out, whether or not the engine goes on to store the
limit. -/
def expiries (actor : ControllableSystemActor) (event : SpineEvent S) (now : Nat) : List Nat :=
  match event with
  | .writeRequested write =>
    if write.feature = actor.features.loadControl ∧ (readLimitWrite write.data limitId).isSome then
      ((readLimitWrite write.resolved limitId).bind fun limit =>
        (actor.system.onLimitWrite limit .apply now).1.limitExpiry).toList
    else []
  | _ => []

structure Timed (horizon : Nat) (actor : ControllableSystemActor) : Prop where
  system : actor.system.Timed horizon
  next : actor.heartbeat.next ≤ durationMax
  period : Addable horizon actor.heartbeat.period

namespace Timed

variable {actor : ControllableSystemActor} {e : Engine S}

theorem instants (h : actor.Timed horizon) (hday : Addable horizon (fromSecs 86400)) :
    ∀ t ∈ actor.instants, t ≤ durationMax := by
  intro t ht
  rcases List.mem_cons.mp ht with rfl | ht
  · exact h.next
  · exact h.system.instants hday t ht

theorem expiries (h : actor.Timed horizon) (hnow : now ≤ horizon) {event : SpineEvent S}
    (hevent : event.Timed (Addable horizon)) :
    ∀ t ∈ actor.expiries event now, t ≤ durationMax := by
  intro t ht
  unfold ControllableSystemActor.expiries at ht
  split at ht
  case h_1 write =>
    split at ht
    · obtain ⟨limit, hread, hexpiry⟩ := Option.bind_eq_some_iff.mp (Option.mem_toList.mp ht)
      have hduration := readLimitWrite_lasting hevent hread
      exact (h.system.onLimitWrite hnow hduration .apply).expiry t hexpiry
    · simp at ht
  case h_2 => simp at ht

theorem decide (h : actor.Timed horizon) {system : ControllableSystem}
    (hsystem : system.Timed horizon) : { actor with system := system }.Timed horizon :=
  ⟨hsystem, h.next, h.period⟩

theorem log (h : actor.Timed horizon) (request : MsgCounter) (write : Option LimitWrite)
    (outcome : WriteOutcome) (peer : Option AddressDevice) :
    (actor.log request write outcome peer now).Timed horizon :=
  ⟨h.system, h.next, h.period⟩

theorem refuseUnreadable (h : actor.Timed horizon) (he : e.Timed horizon) (hnow : now ≤ horizon)
    (write : WriteRequest S) (addressed : Bool) :
    (actor.refuseUnreadable e write addressed now).1.Timed horizon ∧
      (actor.refuseUnreadable e write addressed now).2.1.Timed horizon := by
  cases addressed with
  | true =>
    exact ⟨(h.decide (h.system.onUnreadableLimitWrite hnow)).log _ _ _ _, he.rejectWrite _ _⟩
  | false => exact ⟨(h.decide h.system).log _ _ _ _, he.rejectWrite _ _⟩

theorem decideLimit (h : actor.Timed horizon) (he : e.Timed horizon) (hnow : now ≤ horizon)
    {write : WriteRequest S} (hwrite : write.resolved.Lasting (Addable horizon)) :
    (actor.decideLimit e write now).1.Timed horizon ∧
      (actor.decideLimit e write now).2.1.Timed horizon := by
  simp only [ControllableSystemActor.decideLimit]
  split
  · exact h.refuseUnreadable he hnow write _
  case h_2 limit hlimit =>
    have hread : readLimitWrite write.resolved limitId = some limit := by
      split at hlimit
      · exact hlimit
      · simp at hlimit
    have hsystem := h.system.onLimitWrite hnow (readLimitWrite_lasting hwrite hread) .apply
    have haccepted := he.acceptWrite write.token
    simp only [ControllableSystemActor.answerLimit]
    split
    · split
      case h_1 e' heq =>
        rw [heq] at haccepted
        exact ⟨(h.decide hsystem).log _ _ _ _, publish_timed _ haccepted⟩
      case h_2 e' error heq =>
        rw [heq] at haccepted
        exact ⟨(h.decide (hsystem.onUnstoredLimitWrite hnow)).log _ _ _ _,
          publish_timed _ haccepted⟩
    · exact ⟨(h.decide hsystem).log _ _ _ _, he.rejectWrite _ _⟩

theorem decideKey (hday : Addable horizon (fromSecs 86400)) (hnow : now ≤ horizon)
    (resolved : DeviceConfigurationKeyValueListData) {acc : ControllableSystem × WriteOutcome}
    (h : acc.1.Timed horizon) (key : Nat) :
    (ControllableSystemActor.decideKey resolved now acc key).1.Timed horizon := by
  unfold ControllableSystemActor.decideKey
  dsimp only
  split
  · exact h
  case h_2 system outcome hresult =>
    split at hresult
    · have hlimit := h.onFailsafeLimitWrite hnow
        (((((resolved.deviceConfigurationKeyValueData.getD []).find? fun e => e.keyId == some key).bind
          DeviceConfigurationKeyValueData.value).bind
            DeviceConfigurationKeyValueValue.scaledNumber).bind ScaledNumber.toF64 |>.getD
              (F64.ofInt (-1)))
      rwa [Option.some.inj hresult] at hlimit
    · split at hresult
      · have hduration := h.onFailsafeDurationWrite hday hnow
          (((((resolved.deviceConfigurationKeyValueData.getD []).find?
            fun e => e.keyId == some key).bind DeviceConfigurationKeyValueData.value).bind
              DeviceConfigurationKeyValueValue.duration).bind parseIso8601Duration |>.getD 0)
        rwa [Option.some.inj hresult] at hduration
      · simp at hresult

theorem decideFailsafe (h : actor.Timed horizon) (he : e.Timed horizon)
    (hday : Addable horizon (fromSecs 86400)) (hnow : now ≤ horizon) (write : WriteRequest S) :
    (actor.decideFailsafe e write now).1.Timed horizon ∧
      (actor.decideFailsafe e write now).2.1.Timed horizon := by
  have haccepted := he.acceptWrite write.token
  simp only [ControllableSystemActor.decideFailsafe]
  split
  case h_2 => exact ⟨h, he.rejectWrite _ _⟩
  case h_1 written resolved _ _ =>
    have hsystem := List.foldlRecOn
      (motive := fun acc : ControllableSystem × WriteOutcome => acc.1.Timed horizon)
      (writtenKeys written) (ControllableSystemActor.decideKey resolved now)
      (b := (actor.system, .accepted)) h.system
      fun _ hacc key _ => decideKey hday hnow resolved hacc key
    split
    · split
      case h_1 e' heq =>
        rw [heq] at haccepted
        exact ⟨h.decide hsystem, publish_timed _ haccepted⟩
      case h_2 e' error heq =>
        rw [heq] at haccepted
        exact ⟨h.decide hsystem, publish_timed _ haccepted⟩
    · exact ⟨h.decide hsystem, he.rejectWrite _ _⟩

theorem onData (h : actor.Timed horizon) (hnow : now ≤ horizon) (feature : FeatureAddress)
    (resolved : CmdData S) : (actor.onData e feature resolved now).1.Timed horizon := by
  simp only [ControllableSystemActor.onData]
  split
  · exact h.decide (h.system.onHeartbeat hnow)
  · exact h

theorem onData_engine (feature : FeatureAddress) (resolved : CmdData S) :
    (actor.onData e feature resolved now).2.1 = e := by
  simp only [ControllableSystemActor.onData]
  split <;> rfl

theorem handleEvent (h : actor.Timed horizon) (he : e.Timed horizon)
    (hday : Addable horizon (fromSecs 86400)) (hnow : now ≤ horizon) {event : SpineEvent S}
    (hevent : event.Timed (Addable horizon)) : (actor.handleEvent e event now).1.Timed horizon ∧
      (actor.handleEvent e event now).2.1.Timed horizon := by
  have hbelief : ∀ belief : Belief, { actor with belief := belief }.Timed horizon :=
    fun belief => ⟨h.system, h.next, h.period⟩
  unfold ControllableSystemActor.handleEvent
  split
  · exact ⟨h.onData hnow _ _, by rwa [onData_engine]⟩
  · exact ⟨h.onData hnow _ _, by rwa [onData_engine]⟩
  · exact ⟨hbelief _, follow_timed he _ _ hnow⟩
  · exact ⟨hbelief _, follow_timed he _ _ hnow⟩
  · exact ⟨hbelief _, he⟩
  · split
    · exact h.decideLimit he hnow hevent
    · split
      · exact h.decideFailsafe he hday hnow _
      · exact ⟨h, he⟩
  · exact ⟨h, he⟩

theorem handleTimeout (h : actor.Timed horizon) (he : e.Timed horizon) (hnow : now ≤ horizon) :
    (actor.handleTimeout e now).1.Timed horizon ∧
      (actor.handleTimeout e now).2.1.Timed horizon := by
  have hticked : (actor.heartbeat.tick e actor.features.deviceDiagnosis now).1.next ≤ durationMax ∧
      Addable horizon (actor.heartbeat.tick e actor.features.deviceDiagnosis now).1.period ∧
      (actor.heartbeat.tick e actor.features.deviceDiagnosis now).2.Timed horizon := by
    unfold HeartbeatProducer.tick
    split
    · exact ⟨h.next, h.period, he⟩
    · have hbeat := offerOne_timed he actor.features.deviceDiagnosis
        ⟨.deviceDiagnosisHeartbeatData, (actor.heartbeat.beat now).2⟩ trivial
      exact ⟨h.period.sum_le hnow, h.period, hbeat.of_sends (Engine.sends_notify _ _ _)⟩
  have hactor : { actor with
      heartbeat := (actor.heartbeat.tick e actor.features.deviceDiagnosis now).1
      system := actor.system.handleTimeout now }.Timed horizon :=
    ⟨h.system.handleTimeout hnow, hticked.1, hticked.2.1⟩
  simp only [ControllableSystemActor.handleTimeout]
  split
  · exact ⟨hactor, hticked.2.2⟩
  · exact ⟨hactor, publish_timed _ hticked.2.2⟩

theorem interrupt (h : actor.Timed horizon) (he : e.Timed horizon) (hnow : now ≤ horizon)
    (reason : RejectReason) : (actor.interrupt e reason now).1.Timed horizon ∧
      (actor.interrupt e reason now).2.1.Timed horizon := by
  have hsystem := h.system.interrupt hnow reason
  unfold ControllableSystemActor.interrupt
  split
  · exact ⟨h, he⟩
  case h_2 system heq =>
    rw [heq] at hsystem
    exact ⟨h.decide hsystem, publish_timed _ he⟩

theorem install (h : actor.Timed horizon) (he : e.Timed horizon)
    (hday : Addable horizon (fromSecs 86400)) (hnow : now ≤ horizon) :
    (actor.install e now).1.Timed horizon ∧ (actor.install e now).2.Timed horizon := by
  have hperiod : Addable horizon defaultHeartbeatPeriod := hday.of_le (by decide)
  exact ⟨⟨h.system, hperiod.sum_le hnow, hperiod⟩, publish_timed _ (he.relate _)⟩

end Timed

end ControllableSystemActor

end Eebus.Limitation
