import Eebus.Limitation.WriteDiscipline

/-!
What becomes of a requirement: the guard keeps it with its record of the peer, and with that record
loses it.
-/

namespace Eebus.Limitation

open Eebus.Library Eebus.Model Eebus.Spine

variable {S : Schema}

def anyTimes : Regime where
  Holds _ _ _ := True
  Writes _ _ _ _ := True
  within _ := True
  next _ _ := True
  surprised := True
  attended := False
  later _ _ := trivial
  fresh _ _ := trivial
  deferred _ _ _ := trivial
  change _ _ _ := trivial
  heard hattended := hattended.elim
  write _ _ _ := trivial

theorem anyTimes_allows (s : Guarding S) (call : GuardCall S) : anyTimes.Allows s call :=
  ⟨fun _ => trivial, False.elim⟩

theorem memory_run (direction : Direction) (client diagnosis : FeatureAddress) (e : Engine S)
    (start : Nat) (calls : List (GuardCall S)) :
    let s := Guarding.machine.run (.start direction client diagnosis e start) calls
    Memory (known s.actor.peers) s.actor.deferred s.diary := by
  have hinit := Books.start anyTimes direction client diagnosis e start
  obtain ⟨last, -, hbooks⟩ := hinit.run calls (List.pairwise_of_forall fun _ _ => trivial)
    (fun _ _ => trivial) (Guarding.machine.admits_of_forall anyTimes_allows calls _)
  exact hbooks.memory

/-- The records of the attached peers and the list of those waiting are one table: of what was last
required of each device and has not been dropped. -/
theorem requirements_tabled (direction : Direction) (client diagnosis : FeatureAddress) (e : Engine S)
    (start : Nat) (calls : List (GuardCall S)) (device : AddressDevice) :
    let s := Guarding.machine.run (.start direction client diagnosis e start) calls
    (attachedTo device s.diary = true ↔ ∃ t ∈ s.actor.peers, t.peer.device = device) ∧
      (∀ t ∈ s.actor.peers, t.peer.device = device →
        t.required = ((memory device s.diary).getD none).map normalise) ∧
      (s.actor.deferred.map Prod.fst).Nodup ∧
      (s.actor.deferred.find? fun entry => entry.1 == device).map Prod.snd =
        if attachedTo device s.diary = true then none else memory device s.diary := by
  intro s
  have hmemory : Memory (known s.actor.peers) s.actor.deferred s.diary :=
    memory_run direction client diagnosis e start calls
  refine ⟨?_, ?_, hmemory.apart, hmemory.waiting device⟩
  · rw [hmemory.attached device]
    simp [known]
  · rintro t ht rfl
    exact hmemory.required (t.peer.device, t.required) (List.mem_map.mpr ⟨t, ht, rfl⟩)

theorem carried_memory {device : AddressDevice} {diary : List Entry} {required : Option LimitWrite}
    (h : lastRequired device diary = some required) :
    carried ((memory device diary).getD none) =
      if remembered device diary then carried required else LimitWrite.deactivated := by
  unfold memory
  split
  · rw [h]
    rfl
  · rfl

/-- The limit is written as a deactivation is. -/
structure LimitWrite.ReadsDeactivated (limit : LimitWrite) : Prop where
  isActive : limit.isActive = false
  duration : limit.duration = none
  watts : ScaledNumber.fromF64 limit.watts 0 = ScaledNumber.fromF64 LimitWrite.deactivated.watts 0

theorem LimitWrite.readsDeactivated_iff {limit : LimitWrite} {limitId : Nat} :
    limit.ReadsDeactivated ↔ limitEntryOf limit limitId = limitEntryOf LimitWrite.deactivated limitId := by
  unfold limitEntryOf
  simp only [LoadControlLimitData.mk.injEq, Option.some.injEq, true_and]
  constructor
  · rintro ⟨hactive, hduration, hwatts⟩
    exact ⟨hactive, by rw [hduration]; rfl, hwatts⟩
  · rintro ⟨hactive, hduration, hwatts⟩
    exact ⟨hactive, Option.map_eq_none_iff.mp hduration, hwatts⟩

section Said

variable {client : FeatureAddress} {peer : ControllableSystemPeer} {limitId : Nat} {limit : LimitWrite}
  {d : Datagram S}

theorem SaysLimit.iff_entry (h : SaysLimit client peer limitId limit d) (other : LimitWrite) :
    (∃ otherId, SaysLimit client peer otherId other d) ↔
      limitEntryOf other limitId = limitEntryOf limit limitId := by
  have hentry : ∀ {a b : LimitWrite} {i j : Nat}, (limitCommand a i : Cmd S) = limitCommand b j →
      (limitCommand a i : Cmd S).data = some (limitsOf ⟨some [limitEntryOf a i]⟩) →
      (limitCommand b j : Cmd S).data = some (limitsOf ⟨some [limitEntryOf b j]⟩) →
      limitEntryOf a i = limitEntryOf b j := by
    intro a b i j hcommand ha hb
    rw [hcommand, hb] at ha
    have hlist := eq_of_heq (CmdData.mk.inj (Option.some.inj ha)).2
    exact (List.cons.inj (Option.some.inj (LoadControlLimitListData.mk.inj hlist))).1.symm
  constructor
  · rintro ⟨otherId, hother⟩
    have hsame := hentry (List.cons.inj (hother.command.symm.trans h.command)).1 hother.data h.data
    obtain rfl := Option.some.inj (LoadControlLimitData.mk.inj hsame).1
    exact hsame
  · intro hsame
    have hduration : other.duration.isSome = limit.duration.isSome := by
      have hperiod := congrArg Option.isSome (LoadControlLimitData.mk.inj hsame).2.2.2.1
      rwa [Option.isSome_map, Option.isSome_map] at hperiod
    have hcommand : (limitCommand other limitId : Cmd S) = limitCommand limit limitId := by
      have hpayload : (limitPayload other limitId : CmdData S) = limitPayload limit limitId :=
        congrArg (fun entry => limitsOf ⟨some [entry]⟩) hsame
      unfold limitCommand limitFilters
      rw [hpayload, hduration]
    refine ⟨limitId, h.isWrite, h.source, h.destination, h.command.trans (by rw [hcommand]), ?_⟩
    rw [hcommand, h.data, hsame]

end Said

/-- Whatever is called on a guard: a limit write that is queued goes to a peer, and says what was last
required of it exactly when the peer has not been let go of since, nor attached to anew, or when the
requirement is written as a deactivation is. -/
theorem write_carries_required_iff_remembered (direction : Direction)
    (client diagnosis : FeatureAddress) (e : Engine S) (start : Nat) (calls : List (GuardCall S))
    (call : GuardCall S) (hop : call.isOfEngine = false) :
    let s := Guarding.machine.run (.start direction client diagnosis e start) calls
    ∀ d ∈ s.queued call, isLimitWrite d = true →
      ∃ t ∈ s.actor.peers, Datagram.destination d = some t.peer.loadControl ∧
        ∀ required, lastRequired t.peer.device s.diary = some required →
          ((∃ limitId, SaysLimit s.actor.client t.peer limitId (carried required) d) ↔
            remembered t.peer.device s.diary = true ∨ (carried required).ReadsDeactivated) := by
  intro s d hd hlimit
  have hallowed : Guarding.machine.Admits anyTimes.Allows (.start direction client diagnosis e start)
      (calls ++ [call]) := Guarding.machine.admits_of_forall anyTimes_allows _ _
  obtain ⟨time, hperforms⟩ := Books.performs_run direction client diagnosis e
    (List.pairwise_of_forall fun _ _ => trivial) (fun _ _ => trivial) hallowed (List.prefix_refl _) hop
  obtain ⟨t, ht, limitId, hsaid⟩ := hperforms.of_queued hd hlimit
  have hmemory := memory_run direction client diagnosis e start calls
  have hrequired := hmemory.required (t.peer.device, t.required) (List.mem_map.mpr ⟨t, ht, rfl⟩)
  refine ⟨t, ht, hsaid.destination, fun required hlast => ?_⟩
  have hcarried : t.required.getD LimitWrite.deactivated =
      if remembered t.peer.device s.diary then carried required else LimitWrite.deactivated :=
    (congrArg (Option.getD · LimitWrite.deactivated) hrequired).trans (carried_memory hlast)
  rw [hsaid.iff_entry]
  cases hremembered : remembered t.peer.device s.diary with
  | true =>
    rw [hremembered, if_pos rfl] at hcarried
    rw [hcarried]
    exact ⟨fun _ => .inl rfl, fun _ => rfl⟩
  | false =>
    rw [hremembered, if_neg Bool.false_ne_true] at hcarried
    rw [hcarried, @LimitWrite.readsDeactivated_iff _ limitId]
    exact ⟨.inr, fun h => h.resolve_left Bool.false_ne_true⟩

namespace Scenario

theorem write_carries_required_iff_remembered_curtailing :
    let s := guarding (.require heatPump (some curtailed) 0 :: arriving)
    remembered heatPump s.diary = true ∧
      ∃ d ∈ s.queued (described (fromSecs 2)), isLimitWrite d = true ∧
        ((∃ limitId, SaysLimit managerClient limited limitId (carried (some curtailed)) d) ↔
          remembered heatPump s.diary = true ∨ (carried (some curtailed)).ReadsDeactivated) := by
  intro s
  have hwritten : ∃ d ∈ s.queued (described (fromSecs 2)), isLimitWrite d = true := by decide +kernel
  have hpeers : ∀ t ∈ s.actor.peers, t.peer = limited := by decide +kernel
  have hclient : s.actor.client = managerClient := by decide +kernel
  obtain ⟨d, hd, hlimit⟩ := hwritten
  obtain ⟨t, ht, -, hiff⟩ := write_carries_required_iff_remembered .consumption managerClient
    managerDiagnosis (Engine.new guardDevice) 0 (.require heatPump (some curtailed) 0 :: arriving)
    (described (fromSecs 2)) rfl d hd hlimit
  have hsaid := hiff (some curtailed)
  rw [hpeers t ht] at hsaid
  refine ⟨by decide +kernel, d, hd, hlimit, ?_⟩
  rw [← hclient]
  exact hsaid (by decide +kernel)

/-- The connection to the heat pump is lost and comes back, and everything is as it was before. -/
def reconnecting : List (GuardCall Schema.limitsOnly) :=
  curtailing ++ [.detach heatPump, .attach limited (fromSecs 60),
    .handleEvent (.resultReceived 10 .none) (fromSecs 61),
    .handleEvent (.resultReceived 11 .none) (fromSecs 61)] ++ listens 2 (fromSecs 61)

def activates (d : Datagram Schema.limitsOnly) : Bool :=
  d.commands.any fun cmd => cmd.data.any fun
    | ⟨.loadControlLimitListData, list⟩ =>
      (list.loadControlLimitData.getD []).any fun entry => entry.isLimitActive == some true
    | _ => false

theorem reconnection_lifts_the_limit :
    ¬∀ (calls : List (GuardCall Schema.limitsOnly)) (call : GuardCall Schema.limitsOnly),
      call.isOfEngine = false → ∀ d ∈ (guarding calls).queued call, isLimitWrite d = true →
        ∀ t ∈ (guarding calls).actor.peers, Datagram.destination d = some t.peer.loadControl →
          ∀ required, lastRequired t.peer.device (guarding calls).diary = some required →
            ∃ limitId, SaysLimit managerClient t.peer limitId (carried required) d := by
  intro h
  have hwritten : ∃ d ∈ (guarding reconnecting).queued (described (fromSecs 62)), isLimitWrite d = true ∧
      Datagram.destination d = some limited.loadControl ∧ activates d = false := by decide +kernel
  have hpeer : ∃ t ∈ (guarding reconnecting).actor.peers, t.peer = limited := by decide +kernel
  obtain ⟨d, hd, hlimit, hto, hlifted⟩ := hwritten
  obtain ⟨t, ht, hsame⟩ := hpeer
  have hall := h reconnecting (described (fromSecs 62)) rfl d hd hlimit t ht
  rw [hsame] at hall
  obtain ⟨limitId, hsaid⟩ := hall hto (some curtailed) (by decide +kernel)
  have hactive : (carried (some curtailed)).isActive = true := by decide +kernel
  have hactivates : activates d = true := by
    rw [activates, hsaid.command, List.any_cons, hsaid.data]
    simp [limitsOf, limitEntryOf, hactive]
  rw [hlifted] at hactivates
  cases hactivates

end Scenario

end Eebus.Limitation
