import Eebus.Limitation.Turns

/-!
The discipline of the guard's limit writes: whatever is called on it, in whatever order, every write
is in its diary as it has to be.
-/

namespace Eebus.Limitation

open Eebus.Library Eebus.Model Eebus.Spine

variable {S : Schema}

/-- What the record says of the heartbeat: it went out to the peer. -/
def Tracked.Heard (now : Nat) (t : Tracked) (past : List Entry) : Prop :=
  ∀ heard ∈ t.beatSeenAt, heard ≤ now ∧ HeardAt t.peer.device past heard

theorem Tracked.Heard.change {now : Nat} {t t' : Tracked} {past past' : List Entry}
    (hchange : Change True True now t past t' past') (h : t.Heard now past) : t'.Heard now past' := by
  have hlonger : ∀ entry : Entry, t.Heard now (entry :: past) := fun entry heard hheard =>
    ⟨(h heard hheard).1, (h heard hheard).2.cons entry⟩
  cases hchange with
  | unmoved hsame =>
    rw [hsame]
    exact h
  | relearned | observed => exact h
  | learned | subscribed | boundLoadControl | boundConfiguration | requirement | wrote | accepted
  | refused | unanswered => exact hlonger _
  | beat device hheard =>
    by_cases hwatches : t.watchesHeartbeat = true
    · rw [if_pos hwatches]
      intro heard hseen
      obtain rfl := Option.some.inj hseen
      exact ⟨le_refl _, _, List.mem_cons_self, rfl, hheard trivial hwatches⟩
    · rw [if_neg hwatches]
      exact hlonger _

theorem Follows.change {attended : Prop} {now : Nat} {t t' : Tracked} {past past' : List Entry}
    (hnow : now ≤ durationMax) (hchange : Change True attended now t past t' past')
    (h : Follows now t past) : Follows now t' past' := by
  cases hchange with
  | unmoved hsame =>
    rw [hsame]
    exact { h with }
  | relearned ids reads hids => exact { h with limitId := hids.trans h.limitId }
  | observed => exact { h with }
  | learned device ids reads hids => exact { h.learned device hids with }
  | subscribed device => exact h.subscribed device
  | boundLoadControl device => exact h.boundLoadControl device
  | boundConfiguration device => exact h.boundConfiguration device
  | requirement device limit => exact h.requirement device limit
  | beat device => exact h.beat device _
  | wrote device counter limitId hheld => exact h.wrote device hheld counter limitId _
  | accepted device hout => exact h.accepted device _
  | refused device hout due => exact h.refused device hout hnow due
  | unanswered device hout due => exact h.unanswered device hout due

/-- Calls in the order of their times, and what the guard keeps of a peer read off its diary. -/
def discipline : Regime where
  Holds now t past := Follows now t past ∧ t.Heard now past
  Writes := Disciplined
  within := (· ≤ durationMax)
  next := (· ≤ ·)
  surprised := True
  attended := True
  later hle h := ⟨h.1.later hle, fun heard hheard => ⟨(h.2 heard hheard).1.trans hle, (h.2 heard hheard).2⟩⟩
  fresh peer _ := ⟨.attached peer, nofun⟩
  deferred peer limit _ :=
    ⟨{ Follows.attached peer with
      required := fun sent hsent => by
        obtain ⟨given, -, rfl⟩ := Option.map_eq_some_iff.mp hsent
        exact sendable_normalise given }, nofun⟩
  change hnow hchange h := ⟨h.1.change hnow hchange, h.2.change hchange⟩
  heard _ h := h.2
  write h hheld hid := h.1.disciplined hheld hid

/-- How a limit is to be written in a call on `s`: with discipline, and to a peer that listens after a
heartbeat that has gone out to it lately. -/
def Kept (s : Guarding S) (diary : List Entry) (device : AddressDevice) (time limitId : Nat)
    (limit : LimitWrite) : Prop :=
  Disciplined (since device diary) time limitId limit ∧
    (s.Subscribed device → HeardLately device (since device diary) time)

/-- Whatever is called on a guard, at times that do not run backwards: while whomever it takes for a listener
is one, every limit it writes is written as it is to be. -/
theorem limit_writes_disciplined (direction : Direction) (client diagnosis : FeatureAddress)
    (e : Engine S) (start : Nat) (calls : List (GuardCall S))
    (hordered : (start :: calls.filterMap GuardCall.time).Pairwise (· ≤ ·))
    (hbound : ∀ time ∈ calls.filterMap GuardCall.time, time ≤ durationMax)
    (hattended : Guarding.machine.Admits Guarding.Heedful (.start direction client diagnosis e start) calls)
    (before : List (GuardCall S)) (call : GuardCall S) (hbefore : before ++ [call] <+: calls)
    (hop : call.isOfEngine = false) :
    let s := Guarding.machine.run (.start direction client diagnosis e start) before
    s.Says (Kept s) (s.perform call) := by
  have hallowed : Guarding.machine.Admits discipline.Allows (.start direction client diagnosis e start)
      calls := Guarding.machine.admits_mono (fun s call h => ⟨fun _ => trivial, fun _ => h⟩) hattended
  obtain ⟨time, hperforms⟩ :=
    Books.performs_run direction client diagnosis e hordered hbound hallowed hbefore hop
  obtain ⟨entries, sent, hdiary, hsent, hpending, htold⟩ := hperforms.writes
  exact ⟨entries, sent, hdiary, hsent, hpending,
    htold.mono fun _ _ _ _ _ _ _ hboth => ⟨hboth.1, hboth.2 trivial⟩⟩

namespace Scenario

def guardDevice : LocalDevice Schema.limitsOnly :=
  let device := LocalDevice.fromAddress manager "EnergyManagementSystem"
  { device with
    entities := device.entities ++ [⟨[1], .other "CEM",
      [LocalFeature.new 1 .loadControl .client, deviceDiagnosisFeature 2]⟩] }

def limited : ControllableSystemPeer where
  device := heatPump
  loadControl := features.loadControl
  deviceConfiguration := features.deviceConfiguration
  deviceDiagnosis := none
  electricalConnection := none

def calls (data : CmdData Schema.limitsOnly) (counter : MsgCounter) (now : Nat) :
    GuardCall Schema.limitsOnly :=
  .engine (.handleDatagram (Datagram.carrying (nodeManagement heatPump) (nodeManagement manager) .call
    counter (Cmd.withData data)) now)

def listens (counter : MsgCounter) (now : Nat) : List (GuardCall Schema.limitsOnly) :=
  [calls ⟨.nodeManagementSubscriptionRequestCall,
      ⟨some ⟨some features.deviceDiagnosisClient, some managerDiagnosis, none⟩⟩⟩ counter now,
    .engine .pollEvent,
    .handleEvent (.subscriptionGranted features.deviceDiagnosisClient managerDiagnosis) now]

def leaves (counter : MsgCounter) (now : Nat) : List (GuardCall Schema.limitsOnly) :=
  [calls ⟨.nodeManagementSubscriptionDeleteCall,
      ⟨some ⟨some features.deviceDiagnosisClient, some managerDiagnosis⟩⟩⟩ counter now,
    .engine .pollEvent,
    .handleEvent (.subscriptionReleased features.deviceDiagnosisClient managerDiagnosis) now]

/-- All that a write needs, but for the number of the limit. -/
def arriving : List (GuardCall Schema.limitsOnly) :=
  [.attach limited 0, .handleEvent (.resultReceived 1 .none) (fromSecs 1),
    .handleEvent (.resultReceived 2 .none) (fromSecs 1)] ++ listens 1 (fromSecs 1)

/-- The heat pump says how it numbers its limit. -/
def described (now : Nat) : GuardCall Schema.limitsOnly :=
  .handleEvent (.replyReceived features.loadControl (limitDescription .consumption)
    (limitDescription .consumption)) now

def curtailed : LimitWrite := ⟨true, F64.ofInt 4200, none⟩

/-- What is required of the heat pump before the guard has found it, and then all a write needs. -/
def curtailing : List (GuardCall Schema.limitsOnly) :=
  .require heatPump (some curtailed) 0 :: arriving ++ [described (fromSecs 2)]

def guarding (calls : List (GuardCall Schema.limitsOnly)) : Guarding Schema.limitsOnly :=
  Guarding.machine.run
    (.start .consumption managerClient managerDiagnosis (Engine.new guardDevice) 0) calls

theorem limit_writes_disciplined_curtailing :
    ((guarding curtailing).diary.map Entry.mark).take 2 =
        [.wrote limitId curtailed, .beat [heatPump]] ∧
      (guarding (.require heatPump (some curtailed) 0 :: arriving)).Says
        (Kept (guarding (.require heatPump (some curtailed) 0 :: arriving)))
        ((guarding (.require heatPump (some curtailed) 0 :: arriving)).perform (described (fromSecs 2))) := by
  have hattended : Guarding.machine.Admits Guarding.Heedful
      (.start .consumption managerClient managerDiagnosis (Engine.new guardDevice) 0) curtailing := by
    decide +kernel
  have hwrites := limit_writes_disciplined .consumption managerClient managerDiagnosis
    (Engine.new guardDevice) 0 curtailing (by decide) (by decide) hattended
    (.require heatPump (some curtailed) 0 :: arriving) (described (fromSecs 2)) (List.prefix_refl _) rfl
  refine ⟨by decide +kernel, ?_⟩
  unfold guarding
  exact hwrites

/-- The heat pump lets go of its subscription and takes it up again, and a heartbeat goes out meanwhile. -/
def resubscribing : List (GuardCall Schema.limitsOnly) :=
  arriving ++ [described (fromSecs 2), .handleEvent (.resultReceived 9 .none) (fromSecs 3)] ++
    leaves 2 (fromSecs 10) ++ [.handleTimeout (fromSecs 62)] ++ listens 3 (fromSecs 63) ++
      [.require heatPump (some curtailed) (fromSecs 64)]

/-- The heat pump is written to a minute after the last heartbeat that has gone out to it. -/
theorem listener_written_unheard :
    ¬∀ (calls before : List (GuardCall Schema.limitsOnly)) (call : GuardCall Schema.limitsOnly),
      (0 :: calls.filterMap GuardCall.time).Pairwise (· ≤ ·) →
      (∀ time ∈ calls.filterMap GuardCall.time, time ≤ durationMax) → before ++ [call] <+: calls →
      call.isOfEngine = false → (guarding before).Says (Kept (guarding before)) ((guarding before).perform call) := by
  intro h
  have hcall := h (resubscribing ++ [.handleTimeout (fromSecs 64)]) resubscribing
    (.handleTimeout (fromSecs 64)) (by decide) (by decide) (List.prefix_refl _) rfl
  obtain ⟨entries, sent, hdiary, -, -, htold⟩ := hcall
  have hwrote : ((guarding resubscribing).perform (.handleTimeout (fromSecs 64))).diary =
      [⟨fromSecs 64, some heatPump, .wrote limitId curtailed⟩] ++ (guarding resubscribing).diary := by
    decide +kernel
  obtain rfl := List.append_cancel_right (hwrote.symm.trans hdiary)
  have hkept : Kept (guarding resubscribing) (guarding resubscribing).diary heatPump (fromSecs 64) limitId
      curtailed := htold.asked (List.nil_append _).symm
  exact absurd (hkept.2 (by decide +kernel)) (by decide +kernel)

end Scenario

end Eebus.Limitation
