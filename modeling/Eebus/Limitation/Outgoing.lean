import Eebus.Limitation.Delivery
import Eebus.Limitation.Diary
import Eebus.Limitation.Publication
import Eebus.Spine.Writing

/-!
What a turn of the guard puts into the outbox of its engine, message by message, against what its diary
notes meanwhile, entry by entry: a limit write says the limit that is noted, and a heartbeat goes to whom
it is noted for.
-/

namespace Eebus.Limitation

open Eebus.Library Eebus.Model Eebus.Spine

variable {S : Schema}

def isLimitWrite (d : Datagram S) : Bool :=
  Datagram.isWrite d && d.commands.any fun cmd =>
    cmd.data.any fun data => data.key == .loadControlLimitListData

theorem writeKind_isLimitWrite : WriteKind (isLimitWrite (S := S)) where
  writes _ h := (Bool.and_eq_true_iff.mp h).1
  counter p _ := by
    unfold isLimitWrite Datagram.isWrite Pending.messageUnder
    cases p.datagram.header <;> rfl

theorem isLimitWrite_of_not_write {d : Datagram S} (h : Datagram.isWrite d = false) :
    isLimitWrite d = false := by
  unfold isLimitWrite
  rw [h, Bool.false_and]

/-- The message says this limit to the peer, and nothing else. -/
structure SaysLimit (client : FeatureAddress) (peer : ControllableSystemPeer) (limitId : Nat)
    (limit : LimitWrite) (d : Datagram S) : Prop where
  isWrite : Datagram.isWrite d = true
  source : d.header.bind Header.addressSource = some client
  destination : d.header.bind Header.addressDestination = some peer.loadControl
  command : d.commands = [limitCommand limit limitId]
  data : (limitCommand limit limitId : Cmd S).data = some (limitsOf ⟨some [limitEntryOf limit limitId]⟩)

theorem limitCommand_data (limit : LimitWrite) (limitId : Nat) :
    (limitCommand limit limitId : Cmd S).data = some (limitPayload limit limitId) := by
  unfold limitCommand limitFilters
  split <;> rfl

theorem SaysLimit.isLimitWrite {client : FeatureAddress} {peer : ControllableSystemPeer} {limitId : Nat}
    {limit : LimitWrite} {d : Datagram S} (h : SaysLimit client peer limitId limit d) :
    Limitation.isLimitWrite d = true := by
  simp [Limitation.isLimitWrite, h.isWrite, h.command, h.data, limitsOf]

structure IsHeartbeat (diagnosis : FeatureAddress) (d : Datagram S) : Prop where
  isNotify : Datagram.isOf .notify d
  source : d.header.bind Header.addressSource = some diagnosis
  command : ∃ beat, d.commands = [Cmd.withData ⟨.deviceDiagnosisHeartbeatData, beat⟩]

theorem IsHeartbeat.not_limitWrite {diagnosis : FeatureAddress} {d : Datagram S}
    (h : IsHeartbeat diagnosis d) : isLimitWrite d = false := by
  refine isLimitWrite_of_not_write ?_
  rw [Datagram.isWrite, show d.header.bind Header.cmdClassifier = some .notify from h.isNotify]
  rfl

def Mark.isWrote : Mark → Bool
  | .wrote _ _ => true
  | _ => false

def Mark.isSaid : Mark → Bool
  | .wrote _ _ | .beat _ => true
  | _ => false

def limitWrites (diary : List Entry) : Nat := diary.countP fun entry => entry.mark.isWrote

namespace Guarding

variable (s : Guarding S)

def outgoing : Nat := s.engine.outbox.countP isLimitWrite

/-- The device is subscribed to the guard's heartbeat, as the guard's engine has it. -/
def Subscribed (device : AddressDevice) : Prop :=
  ∃ client ∈ s.engine.relations.subscribersOf s.actor.diagnosis, client.device = some device

def HasHeartbeat : Prop :=
  ∃ f, s.engine.device.resolve s.actor.diagnosis = some f ∧
    (f.function (.known .deviceDiagnosisHeartbeatData)).isSome

/-- What a heartbeat is: so many messages, to all that are subscribed. -/
structure Publishes (listeners : List AddressDevice) (beats : List (Datagram S)) : Prop where
  heartbeats : ∀ d ∈ beats, IsHeartbeat s.actor.diagnosis d
  listeners : listeners = beats.filterMap Datagram.toDevice
  reached : s.HasHeartbeat → beats.map Datagram.destination =
    (s.engine.relations.subscribersOf s.actor.diagnosis).map some

theorem Publishes.mem_listeners {s : Guarding S} {listeners : List AddressDevice}
    {beats : List (Datagram S)} (h : s.Publishes listeners beats) (hheartbeat : s.HasHeartbeat)
    {device : AddressDevice} (hdevice : s.Subscribed device) : device ∈ listeners := by
  obtain ⟨client, hclient, hat⟩ := hdevice
  have hsent : some client ∈ beats.map Datagram.destination := by
    rw [h.reached hheartbeat]
    exact List.mem_map_of_mem hclient
  obtain ⟨d, hd, hto⟩ := List.mem_map.mp hsent
  rw [h.listeners]
  refine List.mem_filterMap.mpr ⟨d, hd, ?_⟩
  rw [Datagram.toDevice, show d.header.bind Header.addressDestination = some client from hto]
  exact hat

end Guarding

/-- What has been noted since `base`, the latest first, and what has been put into the outbox meanwhile:
a limit write where one is noted, of the limit the peer's record requires, a heartbeat where one is noted,
and else no limit write. `W` is asked of the diary before each limit write. -/
inductive Tells (base : Guarding S) (W : List Entry → AddressDevice → Nat → Nat → LimitWrite → Prop) :
    List Entry → List (Datagram S) → Prop
  | nil : Tells base W [] []
  | noted {entries : List Entry} {sent : List (Datagram S)} (h : Tells base W entries sent)
      (entry : Entry) (hsilent : entry.mark.isSaid = false) : Tells base W (entry :: entries) sent
  | sent {entries : List Entry} {sent : List (Datagram S)} (h : Tells base W entries sent)
      {d : Datagram S} (hd : isLimitWrite d = false) : Tells base W entries (sent ++ [d])
  | beat {entries : List Entry} {sent : List (Datagram S)} (h : Tells base W entries sent) (time : Nat)
      {listeners : List AddressDevice} {beats : List (Datagram S)}
      (hbeats : base.Publishes listeners beats) :
      Tells base W (⟨time, none, .beat listeners⟩ :: entries) (sent ++ beats)
  | wrote {entries : List Entry} {sent : List (Datagram S)} (h : Tells base W entries sent) {t : Tracked}
      (ht : t ∈ base.actor.peers) (time limitId : Nat) {d : Datagram S}
      (hd : SaysLimit base.actor.client t.peer limitId (t.required.getD LimitWrite.deactivated) d)
      (hW : W (entries ++ base.diary) t.peer.device time limitId
        (t.required.getD LimitWrite.deactivated)) :
      Tells base W (⟨time, some t.peer.device, .wrote limitId (t.required.getD LimitWrite.deactivated)⟩ ::
        entries) (sent ++ [d])

/-- On the way from `s` to `s'` the guard has said what it noted, and noted what it said; what its engine
may say again has been said meanwhile or before. -/
def Guarding.Says (s : Guarding S) (W : List Entry → AddressDevice → Nat → Nat → LimitWrite → Prop)
    (s' : Guarding S) : Prop :=
  ∃ entries sent, s'.diary = entries ++ s.diary ∧ s'.engine.outbox = s.engine.outbox ++ sent ∧
    (∀ p ∈ s'.engine.pending, p ∈ s.engine.pending ∨ p.datagram ∈ sent) ∧ Tells s W entries sent

namespace Tells

variable {base : Guarding S} {W W' : List Entry → AddressDevice → Nat → Nat → LimitWrite → Prop}
  {entries : List Entry} {sent : List (Datagram S)}

section

variable (h : Tells base W entries sent)

include h

theorem append {new : List (Datagram S)}
    (hnew : ∀ d ∈ new, isLimitWrite d = false) : Tells base W entries (sent ++ new) := by
  induction new generalizing sent with
  | nil => rwa [List.append_nil]
  | cons d rest ih =>
    rw [List.append_cons]
    exact ih (h.sent (hnew d List.mem_cons_self)) fun d' hd' => hnew d' (List.mem_cons_of_mem d hd')

theorem mono (hW : ∀ newer older device time limitId limit,
      entries = newer ++ ⟨time, some device, .wrote limitId limit⟩ :: older →
        W (older ++ base.diary) device time limitId limit → W' (older ++ base.diary) device time limitId limit) :
    Tells base W' entries sent := by
  induction h with
  | nil => exact .nil
  | noted _ entry hsilent ih =>
    exact (ih fun newer older device time limitId limit heq =>
      hW (entry :: newer) older device time limitId limit (congrArg (entry :: ·) heq)).noted entry hsilent
  | sent _ hd ih => exact (ih hW).sent hd
  | beat _ time hbeats ih =>
    exact (ih fun newer older device time' limitId limit heq =>
      hW (_ :: newer) older device time' limitId limit (congrArg (_ :: ·) heq)).beat time hbeats
  | wrote _ ht time limitId hd hwrote ih =>
    exact (ih fun newer older device time' limitId' limit heq =>
      hW (_ :: newer) older device time' limitId' limit (congrArg (_ :: ·) heq)).wrote ht time limitId hd
        (hW [] _ _ _ _ _ rfl hwrote)

theorem countP : sent.countP isLimitWrite = limitWrites entries := by
  induction h with
  | nil => rfl
  | noted _ entry hsilent ih =>
    have hnone : entry.mark.isWrote = false := by
      cases hmark : entry.mark <;> first | rfl | simp [hmark, Mark.isSaid] at hsilent
    rw [ih, limitWrites, limitWrites, List.countP_cons, hnone]
    rfl
  | sent _ hd ih => rw [List.countP_append, ih, List.countP_singleton, hd]; rfl
  | beat _ time hbeats ih =>
    have hzero := List.countP_eq_zero.mpr fun d hd => Bool.eq_false_iff.mp
      (hbeats.heartbeats d hd).not_limitWrite
    rw [List.countP_append, ih, hzero]
    rfl
  | wrote _ ht time limitId hd _ ih =>
    rw [List.countP_append, ih, List.countP_singleton, hd.isLimitWrite, limitWrites, limitWrites,
      List.countP_cons]
    rfl

theorem asked {newer older : List Entry} {device : AddressDevice}
    {time limitId : Nat} {limit : LimitWrite}
    (heq : entries = newer ++ ⟨time, some device, .wrote limitId limit⟩ :: older) :
    W (older ++ base.diary) device time limitId limit := by
  induction h generalizing newer with
  | nil => cases newer <;> cases heq
  | noted _ entry hsilent ih =>
    cases newer with
    | nil =>
      obtain ⟨rfl, rfl⟩ := List.cons.inj heq
      cases hsilent
    | cons first rest => exact ih (List.cons.inj heq).2
  | sent _ _ ih => exact ih heq
  | beat _ _ _ ih =>
    cases newer with
    | nil => cases heq
    | cons first rest => exact ih (List.cons.inj heq).2
  | wrote _ _ _ _ _ hW ih =>
    cases newer with
    | nil =>
      cases heq
      exact hW
    | cons first rest => exact ih (List.cons.inj heq).2

theorem required_of_wrote {newer older : List Entry} {device : AddressDevice}
    {time limitId : Nat} {limit : LimitWrite}
    (heq : entries = newer ++ ⟨time, some device, .wrote limitId limit⟩ :: older) :
    ∃ t ∈ base.actor.peers, limit = t.required.getD LimitWrite.deactivated := by
  have hrequired : Tells base (fun _ _ _ _ limit => ∃ t ∈ base.actor.peers,
      limit = t.required.getD LimitWrite.deactivated) entries sent := by
    clear heq
    induction h with
    | nil => exact .nil
    | noted _ entry hsilent ih => exact ih.noted entry hsilent
    | sent _ hd ih => exact ih.sent hd
    | beat _ time hbeats ih => exact ih.beat time hbeats
    | wrote _ ht time limitId hd _ ih => exact ih.wrote ht time limitId hd ⟨_, ht, rfl⟩
  exact hrequired.asked heq

theorem noted_of_mem {d : Datagram S} (hd : d ∈ sent) (hlimit : isLimitWrite d = true) :
    ∃ t ∈ base.actor.peers, ∃ newer time limitId older,
      entries = newer ++ ⟨time, some t.peer.device, .wrote limitId
        (t.required.getD LimitWrite.deactivated)⟩ :: older ∧
      SaysLimit base.actor.client t.peer limitId (t.required.getD LimitWrite.deactivated) d ∧
      W (older ++ base.diary) t.peer.device time limitId (t.required.getD LimitWrite.deactivated) := by
  induction h with
  | nil => cases hd
  | noted _ entry _ ih =>
    obtain ⟨t, ht, newer, time, limitId, older, rfl, htold⟩ := ih hd
    exact ⟨t, ht, entry :: newer, time, limitId, older, rfl, htold⟩
  | sent _ hother ih =>
    rcases List.mem_append.mp hd with hmem | hmem
    · exact ih hmem
    · rw [List.mem_singleton.mp hmem, hother] at hlimit
      cases hlimit
  | beat _ time' hbeats ih =>
    rcases List.mem_append.mp hd with hmem | hmem
    · obtain ⟨t, ht, newer, time, limitId, older, rfl, htold⟩ := ih hmem
      exact ⟨t, ht, _ :: newer, time, limitId, older, rfl, htold⟩
    · rw [(hbeats.heartbeats d hmem).not_limitWrite] at hlimit
      cases hlimit
  | wrote _ ht time limitId hsaid hW ih =>
    rcases List.mem_append.mp hd with hmem | hmem
    · obtain ⟨t, ht, newer, time, limitId, older, rfl, htold⟩ := ih hmem
      exact ⟨t, ht, _ :: newer, time, limitId, older, rfl, htold⟩
    · obtain rfl := List.mem_singleton.mp hmem
      exact ⟨_, ht, [], time, limitId, _, rfl, hsaid, hW⟩

end

end Tells

def heartbeats : Function S.Other := .known .deviceDiagnosisHeartbeatData

theorem notification_heartbeats (e : Engine S) (feature subscriber : FeatureAddress) :
    e.notification feature heartbeats subscriber = e.device.data feature heartbeats := by
  unfold Engine.notification
  split <;> rfl

theorem notify_heartbeats {e : Engine S} {feature : FeatureAddress} {data : CmdData S}
    (hdata : e.device.data feature heartbeats = some data) :
    ∃ sent, (e.notify feature heartbeats).outbox = e.outbox ++ sent ∧
      sent.map Datagram.destination = (e.relations.subscribersOf feature).map some ∧
      ∀ d ∈ sent, Datagram.isOf .notify d ∧ d.header.bind Header.addressSource = some feature ∧
        d.commands = [Cmd.withData data] := by
  have hloop : ∀ (subscribers : List FeatureAddress) (e' : Engine S),
      e'.device.data feature heartbeats = some data →
      ∃ sent, (subscribers.foldl (Engine.notifySubscriber feature heartbeats) e').outbox =
          e'.outbox ++ sent ∧ sent.map Datagram.destination = subscribers.map some ∧
        ∀ d ∈ sent, Datagram.isOf .notify d ∧ d.header.bind Header.addressSource = some feature ∧
          d.commands = [Cmd.withData data] := by
    intro subscribers
    induction subscribers with
    | nil => exact fun e' _ => ⟨[], by simp, rfl, by simp⟩
    | cons subscriber rest ih =>
      intro e' he'
      have hfirst : Engine.notifySubscriber feature heartbeats e' subscriber =
          e'.sendCmd feature subscriber .notify none (Cmd.withData data) := by
        rw [Engine.notifySubscriber, notification_heartbeats, he']
      obtain ⟨sent, hsent, hto, hall⟩ := ih (e'.sendCmd feature subscriber .notify none (Cmd.withData data)) he'
      refine ⟨⟨some (Engine.header feature subscriber e'.counters .notify false none),
        some ⟨some [Cmd.withData data]⟩⟩ :: sent, ?_, ?_, ?_⟩
      · rw [List.foldl_cons, hfirst, hsent, List.append_cons]
        rfl
      · rw [List.map_cons, List.map_cons, hto]
        rfl
      · exact List.forall_mem_cons.mpr ⟨⟨rfl, rfl, rfl⟩, hall⟩
  have hopen : (!isNodeManagement feature && (e.device.data feature heartbeats).isNone) = false := by
    rw [hdata, Option.isNone_some, Bool.and_false]
  unfold Engine.notify
  rw [hopen, if_neg Bool.false_ne_true]
  exact hloop _ e hdata

theorem notify_heartbeats_none {e : Engine S} {feature : FeatureAddress}
    (hdata : e.device.data feature heartbeats = none) : (e.notify feature heartbeats).outbox = e.outbox := by
  have hloop : ∀ subscribers : List FeatureAddress,
      (subscribers.foldl (Engine.notifySubscriber feature heartbeats) e) = e := by
    intro subscribers
    induction subscribers with
    | nil => rfl
    | cons subscriber rest ih =>
      rw [List.foldl_cons, Engine.notifySubscriber, notification_heartbeats, hdata]
      exact ih
  unfold Engine.notify
  rw [hloop, ite_self]

theorem data_offerOne (e : Engine S) (feature : FeatureAddress) (beat : DeviceDiagnosisHeartbeatData) :
    (offerOne e feature (⟨.deviceDiagnosisHeartbeatData, beat⟩ : CmdData S)).device.data feature heartbeats =
        some ⟨.deviceDiagnosisHeartbeatData, beat⟩ ∨
      (offerOne e feature (⟨.deviceDiagnosisHeartbeatData, beat⟩ : CmdData S)).device.data feature heartbeats =
          none ∧
        ¬∃ f, e.device.resolve feature = some f ∧ (f.function heartbeats).isSome := by
  unfold offerOne
  cases hfound : e.device.resolve feature with
  | none => exact .inr ⟨by simp [LocalDevice.data, hfound], by simp⟩
  | some f =>
    have hstored := Engine.storeFeature_data hfound
      (offer_shape f (⟨.deviceDiagnosisHeartbeatData, beat⟩ : CmdData S)).address heartbeats
    dsimp only
    rw [hstored]
    by_cases hdeclared : (f.function (heartbeats (S := S))).isSome = true
    · exact .inl (offer_data (d := (⟨.deviceDiagnosisHeartbeatData, beat⟩ : CmdData S)) hdeclared)
    · have hnone : f.function (heartbeats (S := S)) = none := by simpa using hdeclared
      have hshape := (offer_shape f (⟨.deviceDiagnosisHeartbeatData, beat⟩ : CmdData S)).isSome_function
        heartbeats
      rw [hnone, Option.isSome_none, Option.isSome_eq_false_iff, Option.isNone_iff_eq_none] at hshape
      refine .inr ⟨by rw [LocalFeature.data, hshape]; rfl, ?_⟩
      rintro ⟨f', hf', hsome⟩
      obtain rfl := Option.some.inj hf'
      exact hdeclared hsome

namespace Guarding

variable (s : Guarding S)

theorem publishes_beatNow (now : Nat) :
    ∃ listeners beats, (s.beatNow now).diary = ⟨now, none, .beat listeners⟩ :: s.diary ∧
      (s.beatNow now).engine.outbox = s.engine.outbox ++ beats ∧ s.Publishes listeners beats := by
  have hoffered : ∀ data : CmdData S, (offerOne s.engine s.actor.diagnosis data).outbox = s.engine.outbox ∧
      (offerOne s.engine s.actor.diagnosis data).relations = s.engine.relations := fun data => by
    unfold offerOne
    split <;> exact ⟨rfl, rfl⟩
  obtain ⟨houtbox, hrelations⟩ :=
    hoffered ⟨.deviceDiagnosisHeartbeatData, (s.actor.heartbeat.beat now).2⟩
  have hnoted : ∀ beats, (s.beatNow now).engine.outbox = s.engine.outbox ++ beats →
      (s.beatNow now).diary = ⟨now, none, .beat (beats.filterMap Datagram.toDevice)⟩ :: s.diary := by
    intro beats hbeats
    have hdiary : (s.beatNow now).diary = ⟨now, none, .beat (((s.beatNow now).engine.outbox.drop
      s.engine.outbox.length).filterMap Datagram.toDevice)⟩ :: s.diary := rfl
    rw [hdiary, hbeats, List.drop_left]
  rcases data_offerOne s.engine s.actor.diagnosis (s.actor.heartbeat.beat now).2 with hdata | ⟨hdata, hnone⟩
  · obtain ⟨beats, hsent, hto, hall⟩ := notify_heartbeats hdata
    rw [houtbox] at hsent
    rw [hrelations] at hto
    exact ⟨_, beats, hnoted beats hsent, hsent, fun d hd => ⟨(hall d hd).1, (hall d hd).2.1, _, (hall d hd).2.2⟩,
      rfl, fun _ => hto⟩
  · have hsent := (notify_heartbeats_none hdata).trans houtbox
    have hnothing := hsent.trans (List.append_nil _).symm
    exact ⟨_, [], hnoted [] hnothing, hnothing, fun _ hd => absurd hd List.not_mem_nil, rfl,
      fun hheartbeat => absurd hheartbeat hnone⟩

theorem tells_writeLimit (index : Nat) (t : Tracked) (limitId now : Nat) :
    ∃ d, (s.writeLimit index t limitId now).engine.outbox = s.engine.outbox ++ [d] ∧
      SaysLimit s.actor.client t.peer limitId (t.required.getD LimitWrite.deactivated) d := by
  exact ⟨_, rfl, rfl, rfl, rfl, rfl, limitCommand_data _ _⟩

theorem introduce_no_write (t : Tracked) (now : Nat) :
    Requests (fun d => Datagram.isWrite d = false) s.engine (s.introduce t now).2 := by
  have hcall : CmdClassifier.call ≠ .write := nofun
  have hbinding : ∀ (e : Engine S) (feature : FeatureAddress),
      Requests (fun d => Datagram.isWrite d = false) e (e.requestBinding s.actor.client feature now).1 :=
    fun e feature => .of_request e _ _ hcall _ _ _
  have hread : ∀ (e : Engine S) (feature : FeatureAddress) (function : Function S.Other),
      Requests (fun d => Datagram.isWrite d = false) e (e.read feature s.actor.client function now).1 :=
    fun e feature function => .of_request e _ _ (show CmdClassifier.read ≠ .write from nofun) _ _ _
  have hsubscribed : ∀ (features : List FeatureAddress) (e : Engine S),
      Requests (fun d => Datagram.isWrite d = false) e (features.foldl (fun e feature =>
        (e.requestSubscription s.actor.client feature now).1) e) := by
    intro features
    induction features with
    | nil => exact fun e => .refl e
    | cons feature rest ih =>
      intro e
      have hfirst : Requests (fun d => Datagram.isWrite d = false) e
          (e.requestSubscription s.actor.client feature now).1 := .of_request e _ _ hcall _ _ _
      exact hfirst.trans (ih _)
  unfold introduce
  dsimp only [List.foldl_cons, List.foldl_nil]
  have hbound := (hbinding s.engine t.peer.loadControl).trans (hbinding _ t.peer.deviceConfiguration)
  have hdescribed := (hbound.trans (hread _ t.peer.loadControl
    (.known .loadControlLimitDescriptionListData))).trans (hread _ t.peer.deviceConfiguration
      (.known .deviceConfigurationKeyValueDescriptionListData))
  split
  · exact hdescribed.trans (hsubscribed _ _)
  · exact (hdescribed.trans (hsubscribed _ _)).trans (hread _ _ _)

theorem pending_writeLimit (index : Nat) (t : Tracked) (limitId now : Nat) {d : Datagram S}
    (hd : (s.writeLimit index t limitId now).engine.outbox = s.engine.outbox ++ [d]) :
    ∀ p ∈ (s.writeLimit index t limitId now).engine.pending, p ∈ s.engine.pending ∨ p.datagram = d := by
  intro p hp
  rcases List.mem_append.mp hp with hmem | hnew
  · exact .inl (List.mem_of_mem_drop hmem)
  · have hsent : s.engine.outbox ++ [p.datagram] = s.engine.outbox ++ [d] := by
      rw [List.mem_singleton.mp hnew, ← hd]
      rfl
    exact .inr (List.cons.inj (List.append_cancel_left hsent)).1

theorem pending_beatNow (now : Nat) : (s.beatNow now).engine.pending = s.engine.pending := by
  refine (Engine.sends_notify _ _ _).pending.trans ?_
  unfold offerOne
  split <;> rfl

end Guarding

namespace Guarding.Says

variable {s : Guarding S} {W : List Entry → AddressDevice → Nat → Nat → LimitWrite → Prop}

theorem refl (s : Guarding S) : s.Says W s :=
  ⟨[], [], rfl, (List.append_nil _).symm, fun _ hp => .inl hp, .nil⟩

theorem noted {s' : Guarding S} {e : Engine S} (h : Requests (fun d => isLimitWrite d = false) s.engine e)
    (hengine : s'.engine = e) {entry : Entry} (hdiary : s'.diary = entry :: s.diary)
    (hsilent : entry.mark.isSaid = false) : s.Says W s' := by
  obtain ⟨sent, hsent, hnone, hpending⟩ := h
  exact ⟨[entry], sent, hdiary, hengine ▸ hsent, hengine ▸ hpending,
    (Tells.nil.noted entry hsilent).append hnone⟩

theorem attach (s : Guarding S) (peer : ControllableSystemPeer) (now : Nat) :
    s.Says W (s.attach peer now) :=
  .noted ((s.introduce_no_write _ now).mono fun _ => isLimitWrite_of_not_write) rfl rfl rfl

theorem detach (s : Guarding S) (device : AddressDevice) : s.Says W (s.detach device) :=
  .noted (.refl s.engine) rfl rfl rfl

theorem require (s : Guarding S) (device : AddressDevice) (limit : Option LimitWrite) (now : Nat) :
    s.Says W (s.require device limit now) := by
  unfold Guarding.require
  dsimp only
  split <;> exact .noted (.refl s.engine) rfl rfl rfl

theorem requireAll (s : Guarding S) (limit : Option LimitWrite) (now : Nat) :
    s.Says W (s.requireAll limit now) :=
  .noted (.refl s.engine) rfl rfl rfl

theorem writeFailsafe (s : Guarding S) (device : AddressDevice) (key : PeerIds → Option Nat)
    (value : DeviceConfigurationKeyValueValue) (now : Nat) :
    s.Says W (s.writeFailsafe device key value now).1 := by
  unfold Guarding.writeFailsafe
  repeat' split
  all_goals try exact .refl s
  refine ⟨[], [_], rfl, rfl, fun p hp => ?_, Tells.nil.sent rfl⟩
  rcases List.mem_append.mp hp with hmem | hnew
  · exact .inl (List.mem_of_mem_drop hmem)
  · rw [List.mem_singleton.mp hnew]
    exact .inr List.mem_cons_self

end Guarding.Says

end Eebus.Limitation
