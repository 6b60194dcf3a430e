import Eebus.Limitation.Publication
import Eebus.Spine.Filing

/-!
Writes of the failsafe values. Their keys are applied to the system one by one, each behind its own check,
and the engine stores the write last; nothing is taken back when a later key is refused or the write cannot
be stored.
-/

namespace Eebus.Limitation

open Eebus.Library Eebus.Model Eebus.Spine

variable {S : Schema}

section Asked

variable (resolved : DeviceConfigurationKeyValueListData)

def keyValue (key : Nat) : Option DeviceConfigurationKeyValueValue :=
  ((resolved.deviceConfigurationKeyValueData.getD []).find? fun e => e.keyId == some key).bind
    DeviceConfigurationKeyValueData.value

def writtenLimit : Option F64 :=
  ((keyValue resolved failsafeLimitKeyId).bind DeviceConfigurationKeyValueValue.scaledNumber).bind
    ScaledNumber.toF64

def writtenDuration : Option Nat :=
  ((keyValue resolved failsafeDurationKeyId).bind DeviceConfigurationKeyValueValue.duration).bind
    parseIso8601Duration

/-- The value of the key passes its check. One that is absent or cannot be read does not. -/
def Passes (config : CsConfig) (key : Nat) : Prop :=
  (key = failsafeLimitKeyId → ∃ watts, writtenLimit resolved = some watts ∧
    watts.isFinite = true ∧ watts.isNegative = false) ∧
  (key = failsafeDurationKeyId → ∃ duration, writtenDuration resolved = some duration ∧
    failsafeDurationMin ≤ duration ∧ duration ≤ failsafeDurationMax ∧ duration ≤ config.failsafeDurationMax)

def Holds (config : CsConfig) (key : Nat) : Prop :=
  (key = failsafeLimitKeyId → writtenLimit resolved = some config.failsafeWatts) ∧
  (key = failsafeDurationKeyId → writtenDuration resolved = some config.failsafeDuration)

theorem durationKey_ne_limitKey : failsafeDurationKeyId ≠ failsafeLimitKeyId := by decide

theorem passes_limitKey {config : CsConfig} :
    Passes resolved config failsafeLimitKeyId ↔ ∃ watts, writtenLimit resolved = some watts ∧
      watts.isFinite = true ∧ watts.isNegative = false :=
  ⟨fun h => h.1 rfl, fun h => ⟨fun _ => h, fun hkey => absurd hkey.symm durationKey_ne_limitKey⟩⟩

theorem passes_durationKey {config : CsConfig} :
    Passes resolved config failsafeDurationKeyId ↔ ∃ duration, writtenDuration resolved = some duration ∧
      failsafeDurationMin ≤ duration ∧ duration ≤ failsafeDurationMax ∧
        duration ≤ config.failsafeDurationMax :=
  ⟨fun h => h.2 rfl, fun h => ⟨fun hkey => absurd hkey durationKey_ne_limitKey, fun _ => h⟩⟩

end Asked

namespace ControllableSystem

variable {cs : ControllableSystem} {now : Nat}

theorem handleTimeout_sequenceComplete (h : cs.sequenceComplete = false) (now : Nat) :
    (cs.handleTimeout now).sequenceComplete = false := by
  have henter : ∀ state, (cs.enter state now).sequenceComplete = false := by
    intro state
    unfold enter
    split
    · exact h
    · cases state <;> simp [h]
  obtain ⟨he, -⟩ | ⟨-, -, he⟩ | ⟨-, -, he⟩ | ⟨-, he⟩ | ⟨-, -, he⟩ := cs.handleTimeout_cases now
  · rw [he, h]
  all_goals rw [he, henter]

theorem settled_handleTimeout (h : (cs.handleTimeout now).state.isControlled = true) :
    (cs.handleTimeout now).Settled now := by
  obtain ⟨he, hsettled⟩ | ⟨-, -, he⟩ | ⟨hs, hheard, he⟩ | ⟨-, he⟩ | ⟨-, -, he⟩ := cs.handleTimeout_cases now
  · rwa [he]
  · rw [he, enter_state] at h
    cases h
  · rw [he]
    refine ⟨fun _ => ?_, by simp, by simp, by simp⟩
    rw [heardFrom, enter_lastHeartbeat, enter_enteredStateAt, if_neg (by simp [hs])]
    rw [heardFrom] at hheard
    cases hlast : cs.lastHeartbeat with
    | none => simp [heartbeatTimeout, fromSecs]
    | some last =>
      rw [hlast] at hheard
      exact hheard
  all_goals
    rw [he, enter_state] at h
    cases h

theorem checkSecondaryWrite_eq_none_iff (h : Sequenced cs) (now : Nat) :
    cs.checkSecondaryWrite now = none ↔ cs.sequenceComplete = true := by
  refine ⟨secondary_gate_open, fun hcomplete => ?_⟩
  have hneeds : cs.needsRecentHeartbeat = false := by
    have hcontrolled := h hcomplete
    revert hcontrolled
    unfold needsRecentHeartbeat
    cases cs.state <;> simp [LimitationState.isControlled]
  rw [checkSecondaryWrite, hcomplete, hneeds]
  rfl

end ControllableSystem

section Keys

variable (resolved : DeviceConfigurationKeyValueListData)

/-- What taking up the keys makes of a configuration: a value that passes is taken, and all else kept. -/
structure TakesUp (keys : List Nat) (before after : CsConfig) : Prop where
  takesLimit : failsafeLimitKeyId ∈ keys → Passes resolved before failsafeLimitKeyId →
    writtenLimit resolved = some after.failsafeWatts
  keepsLimit : (failsafeLimitKeyId ∈ keys → ¬Passes resolved before failsafeLimitKeyId) →
    after.failsafeWatts = before.failsafeWatts
  takesDuration : failsafeDurationKeyId ∈ keys → Passes resolved before failsafeDurationKeyId →
    writtenDuration resolved = some after.failsafeDuration
  keepsDuration : (failsafeDurationKeyId ∈ keys → ¬Passes resolved before failsafeDurationKeyId) →
    after.failsafeDuration = before.failsafeDuration
  max : after.failsafeDurationMax = before.failsafeDurationMax

namespace TakesUp

variable {resolved} {keys : List Nat} {key : Nat} {a b c : CsConfig}

theorem nothing (hrefused : ∀ key ∈ keys, key = failsafeLimitKeyId ∨ key = failsafeDurationKeyId →
    ¬Passes resolved a key) : TakesUp resolved keys a a where
  takesLimit hmem hpasses := absurd hpasses (hrefused _ hmem (.inl rfl))
  keepsLimit _ := rfl
  takesDuration hmem hpasses := absurd hpasses (hrefused _ hmem (.inr rfl))
  keepsDuration _ := rfl
  max := rfl

theorem passes_iff (h : TakesUp resolved keys a b) (key : Nat) :
    Passes resolved b key ↔ Passes resolved a key := by
  rw [Passes, Passes, h.max]

theorem cons (h : TakesUp resolved [key] a b) (hrest : TakesUp resolved keys b c) :
    TakesUp resolved (key :: keys) a c where
  takesLimit hmem hpasses := by
    have hpasses' := (h.passes_iff _).mpr hpasses
    by_cases hlater : failsafeLimitKeyId ∈ keys
    · exact hrest.takesLimit hlater hpasses'
    · have hhead : failsafeLimitKeyId ∈ [key] := by simpa [hlater] using hmem
      rw [hrest.keepsLimit fun hmem => absurd hmem hlater]
      exact h.takesLimit hhead hpasses
  keepsLimit hrefused := by
    rw [hrest.keepsLimit fun hmem hpasses => hrefused (List.mem_cons_of_mem key hmem) ((h.passes_iff _).mp hpasses)]
    exact h.keepsLimit fun hmem => hrefused (List.mem_singleton.mp hmem ▸ List.mem_cons_self)
  takesDuration hmem hpasses := by
    have hpasses' := (h.passes_iff _).mpr hpasses
    by_cases hlater : failsafeDurationKeyId ∈ keys
    · exact hrest.takesDuration hlater hpasses'
    · have hhead : failsafeDurationKeyId ∈ [key] := by simpa [hlater] using hmem
      rw [hrest.keepsDuration fun hmem => absurd hmem hlater]
      exact h.takesDuration hhead hpasses
  keepsDuration hrefused := by
    rw [hrest.keepsDuration fun hmem hpasses => hrefused (List.mem_cons_of_mem key hmem) ((h.passes_iff _).mp hpasses)]
    exact h.keepsDuration fun hmem => hrefused (List.mem_singleton.mp hmem ▸ List.mem_cons_self)
  max := hrest.max.trans h.max

theorem holds (h : TakesUp resolved keys a b) (hmem : key ∈ keys) (hpasses : Passes resolved a key) :
    Holds resolved b key := by
  refine ⟨?_, ?_⟩
  · rintro rfl
    exact h.takesLimit hmem hpasses
  · rintro rfl
    exact h.takesDuration hmem hpasses

theorem unchanged_iff (h : TakesUp resolved keys a b) :
    b.failsafeWatts = a.failsafeWatts ∧ b.failsafeDuration = a.failsafeDuration ↔
      ∀ key ∈ keys, Passes resolved a key → Holds resolved a key := by
  constructor
  · rintro ⟨hwatts, hduration⟩ key hmem hpasses
    have hheld := h.holds hmem hpasses
    rwa [Holds, hwatts, hduration] at hheld
  · intro hheld
    constructor
    · by_cases htaken : failsafeLimitKeyId ∈ keys ∧ Passes resolved a failsafeLimitKeyId
      · have hafter := h.takesLimit htaken.1 htaken.2
        exact Option.some.inj (hafter.symm.trans ((hheld _ htaken.1 htaken.2).1 rfl))
      · exact h.keepsLimit (not_and.mp htaken)
    · by_cases htaken : failsafeDurationKeyId ∈ keys ∧ Passes resolved a failsafeDurationKeyId
      · have hafter := h.takesDuration htaken.1 htaken.2
        exact Option.some.inj (hafter.symm.trans ((hheld _ htaken.1 htaken.2).2 rfl))
      · exact h.keepsDuration (not_and.mp htaken)

end TakesUp

end Keys

section Deciding

open ControllableSystemActor (decideKey)

variable {resolved : DeviceConfigurationKeyValueListData} {u : ControllableSystem} {now key : Nat}
  {outcome : WriteOutcome}

theorem decideKey_limit : decideKey resolved now (u, outcome) failsafeLimitKeyId =
    ((u.onFailsafeLimitWrite ((writtenLimit resolved).getD (F64.ofInt (-1))) now).1,
      if (u.onFailsafeLimitWrite ((writtenLimit resolved).getD (F64.ofInt (-1))) now).2.isAccepted then outcome
      else (u.onFailsafeLimitWrite ((writtenLimit resolved).getD (F64.ofInt (-1))) now).2) := rfl

theorem decideKey_duration : decideKey resolved now (u, outcome) failsafeDurationKeyId =
    ((u.onFailsafeDurationWrite ((writtenDuration resolved).getD 0) now).1,
      if (u.onFailsafeDurationWrite ((writtenDuration resolved).getD 0) now).2.isAccepted then outcome
      else (u.onFailsafeDurationWrite ((writtenDuration resolved).getD 0) now).2) := rfl

theorem decideKey_foreign (hlimit : key ≠ failsafeLimitKeyId) (hduration : key ≠ failsafeDurationKeyId) :
    decideKey resolved now (u, outcome) key = (u, outcome) := by
  simp [decideKey, hlimit, hduration]

/-- The system takes failsafe writes once its timers are up to date. -/
structure Open (u : ControllableSystem) (now : Nat) : Prop where
  sequenced : Sequenced u
  complete : (u.handleTimeout now).sequenceComplete = true

namespace Open

theorem gate (h : Open u now) : (u.handleTimeout now).checkSecondaryWrite now = none :=
  (ControllableSystem.checkSecondaryWrite_eq_none_iff (h.sequenced.handleTimeout now) now).mpr h.complete

theorem controlled (h : Open u now) : (u.handleTimeout now).state.isControlled = true :=
  h.sequenced.handleTimeout now h.complete

theorem configured (h : Open u now) (config : CsConfig) :
    Open { u.handleTimeout now with config := config } now := by
  have hconfigured : Configured (u.handleTimeout now) { u.handleTimeout now with config := config } :=
    ⟨config, rfl, .inr h.controlled⟩
  have hsettled := hconfigured.settled (ControllableSystem.settled_handleTimeout h.controlled)
  refine ⟨hconfigured.sequenced (h.sequenced.handleTimeout now), ?_⟩
  rw [ControllableSystem.handleTimeout_of_settled hsettled]
  exact h.complete

theorem ticked (h : Open u now) : Open (u.handleTimeout now) now := h.configured (u.handleTimeout now).config

theorem limit_taken (h : Open u now) {watts : F64} (hwatts : writtenLimit resolved = some watts)
    (hfinite : watts.isFinite = true) (hsign : watts.isNegative = false) :
    decideKey resolved now (u, outcome) failsafeLimitKeyId =
      ({ u.handleTimeout now with config := { (u.handleTimeout now).config with failsafeWatts := watts } },
        outcome) := by
  rw [decideKey_limit, hwatts, Option.getD_some]
  simp [ControllableSystem.onFailsafeLimitWrite, h.gate, hfinite, hsign, WriteOutcome.isAccepted]

theorem absent_limit_refused : (F64.ofInt (-1)).isFinite = true ∧ (F64.ofInt (-1)).isNegative = true := by
  decide +kernel

theorem limit_refused (h : Open u now) (hrefused : ¬Passes resolved u.config failsafeLimitKeyId) :
    ∃ reason, decideKey resolved now (u, outcome) failsafeLimitKeyId =
      (u.handleTimeout now, .rejected reason) := by
  rw [decideKey_limit]
  simp only [ControllableSystem.onFailsafeLimitWrite, h.gate]
  cases hwatts : writtenLimit resolved with
  | none =>
    rw [Option.getD_none, absent_limit_refused.1, absent_limit_refused.2]
    exact ⟨.negativeValue, rfl⟩
  | some watts =>
    rw [Option.getD_some]
    cases hfinite : watts.isFinite with
    | false => exact ⟨.notFinite, rfl⟩
    | true =>
      cases hsign : watts.isNegative with
      | true => exact ⟨.negativeValue, rfl⟩
      | false => exact absurd ((passes_limitKey resolved).mpr ⟨watts, hwatts, hfinite, hsign⟩) hrefused

theorem duration_taken (h : Open u now) {duration : Nat} (hwritten : writtenDuration resolved = some duration)
    (hmin : failsafeDurationMin ≤ duration) (hmax : duration ≤ failsafeDurationMax)
    (hdevice : duration ≤ u.config.failsafeDurationMax) :
    decideKey resolved now (u, outcome) failsafeDurationKeyId =
      ({ u.handleTimeout now with config := { (u.handleTimeout now).config with failsafeDuration := duration } },
        outcome) := by
  have hfits : ¬(¬(failsafeDurationMin ≤ duration ∧ duration ≤ failsafeDurationMax) ∨
      (u.handleTimeout now).config.failsafeDurationMax < duration) := by
    rw [ControllableSystem.handleTimeout_config]
    omega
  rw [decideKey_duration, hwritten, Option.getD_some]
  simp only [ControllableSystem.onFailsafeDurationWrite, h.gate, if_neg hfits]
  rfl

theorem duration_refused (h : Open u now) (hrefused : ¬Passes resolved u.config failsafeDurationKeyId) :
    decideKey resolved now (u, outcome) failsafeDurationKeyId =
      (u.handleTimeout now, .rejected .durationOutOfRange) := by
  have hunfit : ¬(failsafeDurationMin ≤ (writtenDuration resolved).getD 0 ∧
      (writtenDuration resolved).getD 0 ≤ failsafeDurationMax) ∨
      (u.handleTimeout now).config.failsafeDurationMax < (writtenDuration resolved).getD 0 := by
    rw [ControllableSystem.handleTimeout_config]
    cases hwritten : writtenDuration resolved with
    | none => exact .inl (fun hrange => absurd hrange.1 (by decide))
    | some duration =>
      by_contra hfits
      rw [Option.getD_some] at hfits
      exact hrefused ((passes_durationKey resolved).mpr ⟨duration, hwritten, by omega, by omega, by omega⟩)
  rw [decideKey_duration]
  simp only [ControllableSystem.onFailsafeDurationWrite, h.gate, if_pos hunfit]
  rfl

theorem decideKey_spec (h : Open u now) (resolved : DeviceConfigurationKeyValueListData)
    (outcome : WriteOutcome) (key : Nat) :
    Open (decideKey resolved now (u, outcome) key).1 now ∧
      TakesUp resolved [key] u.config (decideKey resolved now (u, outcome) key).1.config ∧
      ((decideKey resolved now (u, outcome) key).2.isAccepted = true ↔
        Passes resolved u.config key ∧ outcome.isAccepted = true) := by
  have hconfig : (u.handleTimeout now).config = u.config := u.handleTimeout_config now
  by_cases hpasses : Passes resolved u.config key
  · rw [and_iff_right hpasses]
    by_cases hlimit : key = failsafeLimitKeyId
    · subst hlimit
      obtain ⟨watts, hwatts, hfinite, hsign⟩ := (passes_limitKey resolved).mp hpasses
      rw [h.limit_taken hwatts hfinite hsign, hconfig]
      refine ⟨h.configured _, ⟨fun _ _ => hwatts, fun hkept => ?_, fun hmem => ?_, fun _ => rfl, rfl⟩, Iff.rfl⟩
      · exact absurd hpasses (hkept (List.mem_singleton_self _))
      · exact absurd (List.mem_singleton.mp hmem) durationKey_ne_limitKey
    by_cases hduration : key = failsafeDurationKeyId
    · subst hduration
      obtain ⟨duration, hwritten, hmin, hmax, hdevice⟩ := (passes_durationKey resolved).mp hpasses
      rw [h.duration_taken hwritten hmin hmax hdevice, hconfig]
      refine ⟨h.configured _, ⟨fun hmem => ?_, fun _ => rfl, fun _ _ => hwritten, fun hkept => ?_, rfl⟩, Iff.rfl⟩
      · exact absurd (List.mem_singleton.mp hmem).symm durationKey_ne_limitKey
      · exact absurd hpasses (hkept (List.mem_singleton_self _))
    · rw [decideKey_foreign hlimit hduration]
      refine ⟨h, .nothing fun other hmem hkey => ?_, Iff.rfl⟩
      obtain rfl := List.mem_singleton.mp hmem
      exact absurd hkey (not_or.mpr ⟨hlimit, hduration⟩)
  · have hrefused : ∃ reason, decideKey resolved now (u, outcome) key = (u.handleTimeout now, .rejected reason) := by
      by_cases hlimit : key = failsafeLimitKeyId
      · subst hlimit
        exact h.limit_refused hpasses
      · have hduration : key = failsafeDurationKeyId := by
          by_contra hduration
          exact hpasses ⟨fun hkey => absurd hkey hlimit, fun hkey => absurd hkey hduration⟩
        subst hduration
        exact ⟨_, h.duration_refused hpasses⟩
    obtain ⟨reason, hreason⟩ := hrefused
    rw [hreason, hconfig]
    refine ⟨h.ticked, .nothing fun other hmem _ => List.mem_singleton.mp hmem ▸ hpasses, ?_⟩
    exact ⟨nofun, fun hboth => absurd hboth.1 hpasses⟩

theorem decideKeys_spec (resolved : DeviceConfigurationKeyValueListData) (keys : List Nat) (h : Open u now)
    (outcome : WriteOutcome) :
    TakesUp resolved keys u.config (keys.foldl (decideKey resolved now) (u, outcome)).1.config ∧
      ((keys.foldl (decideKey resolved now) (u, outcome)).2.isAccepted = true ↔
        (∀ key ∈ keys, Passes resolved u.config key) ∧ outcome.isAccepted = true) := by
  induction keys generalizing u outcome with
  | nil => exact ⟨.nothing nofun, (and_iff_right nofun).symm⟩
  | cons key rest ih =>
    obtain ⟨hopen, htakes, haccepted⟩ := h.decideKey_spec resolved outcome key
    obtain ⟨hrest, hacceptedRest⟩ := ih hopen (decideKey resolved now (u, outcome) key).2
    refine ⟨htakes.cons hrest, ?_⟩
    rw [List.foldl_cons, hacceptedRest, haccepted, List.forall_mem_cons]
    simp only [htakes.passes_iff, and_assoc]
    exact and_left_comm

end Open

theorem decideKeys_closed (resolved : DeviceConfigurationKeyValueListData) (keys : List Nat)
    (hclosed : (u.handleTimeout now).sequenceComplete = false) (outcome : WriteOutcome) :
    (keys.foldl (decideKey resolved now) (u, outcome)).1.config = u.config ∧
      ((keys.foldl (decideKey resolved now) (u, outcome)).2.isAccepted = true ↔
        (∀ key ∈ keys, key ≠ failsafeLimitKeyId ∧ key ≠ failsafeDurationKeyId) ∧ outcome.isAccepted = true) := by
  have hgate : (u.handleTimeout now).checkSecondaryWrite now = some (.rejected .sequenceIncomplete) := by
    rw [ControllableSystem.checkSecondaryWrite, hclosed]
    rfl
  induction keys generalizing u outcome with
  | nil => exact ⟨rfl, (and_iff_right (List.forall_mem_nil _)).symm⟩
  | cons key rest ih =>
    rw [List.foldl_cons]
    by_cases hforeign : key ≠ failsafeLimitKeyId ∧ key ≠ failsafeDurationKeyId
    · rw [decideKey_foreign hforeign.1 hforeign.2, List.forall_mem_cons, and_iff_right hforeign]
      exact ih hclosed outcome hgate
    · have hrefused : decideKey resolved now (u, outcome) key =
          (u.handleTimeout now, .rejected .sequenceIncomplete) := by
        by_cases hlimit : key = failsafeLimitKeyId
        · subst hlimit
          rw [decideKey_limit]
          simp only [ControllableSystem.onFailsafeLimitWrite, hgate]
          rfl
        · have hduration : key = failsafeDurationKeyId := by
            by_contra hduration
            exact hforeign ⟨hlimit, hduration⟩
          subst hduration
          rw [decideKey_duration]
          simp only [ControllableSystem.onFailsafeDurationWrite, hgate]
          rfl
      have hstill := ControllableSystem.handleTimeout_sequenceComplete hclosed now
      obtain ⟨hconfig, haccepted⟩ := ih hstill (.rejected .sequenceIncomplete) (by
        rw [ControllableSystem.checkSecondaryWrite, hstill]
        rfl)
      rw [hrefused, hconfig, haccepted, u.handleTimeout_config]
      refine ⟨rfl, ?_⟩
      rw [List.forall_mem_cons, and_assoc]
      refine ⟨fun h => ?_, fun h => absurd h.1 hforeign⟩
      cases h.2

end Deciding

def keyValues : Function S.Other := .known .deviceConfigurationKeyValueListData

/-- The failsafe values are published on a feature that is there and declares them. -/
def ServesKeys (e : Engine S) (deviceConfiguration : FeatureAddress) : Prop :=
  ∃ f, e.device.resolve deviceConfiguration = some f ∧ (f.function keyValues).isSome

theorem ServesKeys.reshaped {e e' : Engine S} {deviceConfiguration : FeatureAddress}
    (h : ServesKeys e deviceConfiguration) (hshape : Reshaped e e') : ServesKeys e' deviceConfiguration := by
  obtain ⟨f, hf, hdeclared⟩ := h
  obtain ⟨f', hf', hsame⟩ := hshape deviceConfiguration f hf
  exact ⟨f', hf', (hsame.isSome_function _).trans hdeclared⟩

namespace ControllableSystemActor

variable (actor : ControllableSystemActor) {e : Engine S}

def publishedKeys (e : Engine S) : Option (CmdData S) :=
  e.device.data actor.features.deviceConfiguration keyValues

theorem publishedKeys_publish (h : ServesKeys e actor.features.deviceConfiguration) :
    actor.publishedKeys (actor.publish e) = some (failsafeValues actor.system) := by
  obtain ⟨f, hf, hdeclared⟩ := h.reshaped (offerBoth_reshaped e actor.features.loadControl
    (limitDescription actor.direction) (limitData actor.system))
  have hstored := offerBoth_data (actor.offerLimit e) actor.features.deviceConfiguration
    (failsafeDescriptions actor.direction) (failsafeValues actor.system) hf hdeclared
  rw [publishedKeys, publish_device, offerRest]
  cases actor.electricalConnection with
  | none => exact hstored
  | some address =>
    dsimp only
    rw [offerOne_keeps _ address _ (by simp [constraints, keyValues, CmdData.function])]
    exact hstored

end ControllableSystemActor

theorem failsafeValues_congr {u v : ControllableSystem} (hwatts : u.config.failsafeWatts = v.config.failsafeWatts)
    (hduration : u.config.failsafeDuration = v.config.failsafeDuration) :
    (failsafeValues u : CmdData S) = failsafeValues v := by
  rw [failsafeValues, failsafeValues, hwatts, hduration]

/-- The values of the keys the write addresses are the ones the configuration has. -/
def HoldsWritten (config : CsConfig) (write : WriteRequest S) : Prop :=
  match write.data, write.resolved with
  | ⟨.deviceConfigurationKeyValueListData, written⟩, ⟨.deviceConfigurationKeyValueListData, resolved⟩ =>
    ∀ key ∈ ControllableSystemActor.writtenKeys written, Holds resolved config key
  | _, _ => True

/-- The two values are as they were, and so is what is published. -/
def Untouched (actor : ControllableSystemActor) (e : Engine S) (after : ControllableSystemActor)
    (e' : Engine S) : Prop :=
  (after.system.config.failsafeWatts = actor.system.config.failsafeWatts ∧
    after.system.config.failsafeDuration = actor.system.config.failsafeDuration) ∧
  after.publishedKeys e' = actor.publishedKeys e

/-- A refused write changes nothing, and an accepted one is held and published. -/
def Atomic (actor : ControllableSystemActor) (e : Engine S) (write : WriteRequest S) (now : Nat) : Prop :=
  let r := actor.decideFailsafe e write now
  (∀ request reason, r.2.2 = .failsafeDecided request (.rejected reason) → Untouched actor e r.1 r.2.1) ∧
  ∀ request, r.2.2 = .failsafeDecided request .accepted →
    HoldsWritten r.1.system.config write ∧ r.1.publishedKeys r.2.1 = some (failsafeValues r.1.system)

/-- A write of one of the keys meets a closed gate, or every value passes and the engine stores the write, or
none of the values that pass is news, and neither is what is published when all of them do. -/
def HarmlessKeys (actor : ControllableSystemActor) (e : Engine S) (token : Nat) (keys : List Nat)
    (resolved : DeviceConfigurationKeyValueListData) (now : Nat) : Prop :=
  (∃ key ∈ keys, key = failsafeLimitKeyId ∨ key = failsafeDurationKeyId) ∧
      (actor.system.handleTimeout now).checkSecondaryWrite now ≠ none ∨
    (∀ key ∈ keys, Passes resolved actor.system.config key) ∧ (e.acceptWrite token).2 = .ok () ∨
    (∀ key ∈ keys, Passes resolved actor.system.config key → Holds resolved actor.system.config key) ∧
      ((∀ key ∈ keys, Passes resolved actor.system.config key) →
        actor.publishedKeys e = some (failsafeValues actor.system))

def Harmless (actor : ControllableSystemActor) (e : Engine S) (write : WriteRequest S) (now : Nat) : Prop :=
  match write.data, write.resolved with
  | ⟨.deviceConfigurationKeyValueListData, written⟩, ⟨.deviceConfigurationKeyValueListData, resolved⟩ =>
    HarmlessKeys actor e write.token (ControllableSystemActor.writtenKeys written) resolved now
  | _, _ => True

section Deciding

variable {actor : ControllableSystemActor} {e : Engine S} {write : WriteRequest S} {now : Nat}
  {written resolved : DeviceConfigurationKeyValueListData}

def keyed (actor : ControllableSystemActor) (written resolved : DeviceConfigurationKeyValueListData)
    (now : Nat) : ControllableSystem × WriteOutcome :=
  (ControllableSystemActor.writtenKeys written).foldl (ControllableSystemActor.decideKey resolved now)
    (actor.system, .accepted)

theorem decideFailsafe_refused (hdata : write.data = ⟨.deviceConfigurationKeyValueListData, written⟩)
    (hresolved : write.resolved = ⟨.deviceConfigurationKeyValueListData, resolved⟩)
    (h : (keyed actor written resolved now).2.isAccepted = false) :
    actor.decideFailsafe e write now = ({ actor with system := (keyed actor written resolved now).1 },
      (e.rejectWrite write.token (keyed actor written resolved now).2.errorNumber).1,
      .failsafeDecided write.request (keyed actor written resolved now).2) := by
  unfold ControllableSystemActor.decideFailsafe
  rw [hdata, hresolved]
  exact if_neg (Bool.eq_false_iff.mp h)

theorem decideFailsafe_passed (hdata : write.data = ⟨.deviceConfigurationKeyValueListData, written⟩)
    (hresolved : write.resolved = ⟨.deviceConfigurationKeyValueListData, resolved⟩)
    (h : (keyed actor written resolved now).2.isAccepted = true) :
    let moved := { actor with system := (keyed actor written resolved now).1 }
    actor.decideFailsafe e write now = (moved, moved.publish (e.acceptWrite write.token).1,
      .failsafeDecided write.request (match (e.acceptWrite write.token).2 with
        | .ok () => .accepted
        | .error _ => .rejected .notStored)) := by
  have haccepted : (keyed actor written resolved now).2 = .accepted := by
    cases hout : (keyed actor written resolved now).2 with
    | accepted => rfl
    | rejected reason =>
      rw [hout] at h
      cases h
  unfold ControllableSystemActor.decideFailsafe
  rw [hdata, hresolved]
  refine (if_pos h).trans ?_
  rcases e.acceptWrite write.token with ⟨e', result⟩
  cases result with
  | ok done =>
    change (_, _, CsEvent.failsafeDecided write.request (keyed actor written resolved now).2) = _
    rw [haccepted]
    rfl
  | error error => rfl

variable (now written resolved) in
/-- What the keys of the write do: a configuration in which every value that passed is taken, or the one there
was when the gate is closed. -/
theorem keyed_spec (hsequenced : Sequenced actor.system) :
    ((actor.system.handleTimeout now).checkSecondaryWrite now ≠ none ∧
      (keyed actor written resolved now).1.config = actor.system.config ∧
      ((keyed actor written resolved now).2.isAccepted = true ↔
        ∀ key ∈ ControllableSystemActor.writtenKeys written,
          key ≠ failsafeLimitKeyId ∧ key ≠ failsafeDurationKeyId)) ∨
    ((actor.system.handleTimeout now).checkSecondaryWrite now = none ∧
      TakesUp resolved (ControllableSystemActor.writtenKeys written) actor.system.config
        (keyed actor written resolved now).1.config ∧
      ((keyed actor written resolved now).2.isAccepted = true ↔
        ∀ key ∈ ControllableSystemActor.writtenKeys written, Passes resolved actor.system.config key)) := by
  have hgate := ControllableSystem.checkSecondaryWrite_eq_none_iff (hsequenced.handleTimeout now) now
  by_cases hopen : (actor.system.handleTimeout now).sequenceComplete = true
  · obtain ⟨htakes, haccepted⟩ := Open.decideKeys_spec resolved (ControllableSystemActor.writtenKeys written)
      ⟨hsequenced, hopen⟩ .accepted
    exact .inr ⟨hgate.mpr hopen, htakes, haccepted.trans (and_iff_left rfl)⟩
  · obtain ⟨hconfig, haccepted⟩ := decideKeys_closed resolved (ControllableSystemActor.writtenKeys written)
      (Bool.eq_false_iff.mpr hopen) .accepted
    exact .inl ⟨fun hnone => hopen (hgate.mp hnone), hconfig, haccepted.trans (and_iff_left rfl)⟩

theorem atomic_iff_of_rejected {after : ControllableSystemActor} {e' : Engine S} {reason : NackReason}
    (h : actor.decideFailsafe e write now = (after, e', .failsafeDecided write.request (.rejected reason))) :
    Atomic actor e write now ↔ Untouched actor e after e' := by
  rw [Atomic, h]
  constructor
  · intro hatomic
    exact hatomic.1 _ _ rfl
  · intro huntouched
    exact ⟨fun _ _ _ => huntouched, fun _ hother => (nomatch (CsEvent.failsafeDecided.inj hother).2)⟩

theorem atomic_iff_of_accepted {after : ControllableSystemActor} {e' : Engine S}
    (h : actor.decideFailsafe e write now = (after, e', .failsafeDecided write.request .accepted)) :
    Atomic actor e write now ↔ HoldsWritten after.system.config write ∧
      after.publishedKeys e' = some (failsafeValues after.system) := by
  rw [Atomic, h]
  constructor
  · intro hatomic
    exact hatomic.2 _ rfl
  · intro hheld
    exact ⟨fun _ _ hother => (nomatch (CsEvent.failsafeDecided.inj hother).2), fun _ _ => hheld⟩

theorem atomic_refused_iff (hdata : write.data = ⟨.deviceConfigurationKeyValueListData, written⟩)
    (hresolved : write.resolved = ⟨.deviceConfigurationKeyValueListData, resolved⟩)
    (h : (keyed actor written resolved now).2.isAccepted = false) : Atomic actor e write now ↔
      (keyed actor written resolved now).1.config.failsafeWatts = actor.system.config.failsafeWatts ∧
        (keyed actor written resolved now).1.config.failsafeDuration = actor.system.config.failsafeDuration := by
  have hdecided := decideFailsafe_refused (e := e) hdata hresolved h
  cases hout : (keyed actor written resolved now).2 with
  | accepted =>
    rw [hout] at h
    cases h
  | rejected reason =>
    rw [hout] at hdecided
    rw [atomic_iff_of_rejected hdecided]
    refine and_iff_left ?_
    rw [ControllableSystemActor.publishedKeys, e.rejectWrite_device]
    rfl

theorem atomic_stored_iff (hdata : write.data = ⟨.deviceConfigurationKeyValueListData, written⟩)
    (hresolved : write.resolved = ⟨.deviceConfigurationKeyValueListData, resolved⟩)
    (hserves : ServesKeys e actor.features.deviceConfiguration)
    (h : (keyed actor written resolved now).2.isAccepted = true)
    (hok : (e.acceptWrite write.token).2 = .ok ()) :
    Atomic actor e write now ↔ ∀ key ∈ ControllableSystemActor.writtenKeys written,
      Holds resolved (keyed actor written resolved now).1.config key := by
  have hdecided := decideFailsafe_passed (e := e) hdata hresolved h
  rw [hok] at hdecided
  rw [atomic_iff_of_accepted hdecided, HoldsWritten, hdata, hresolved]
  exact and_iff_left (ControllableSystemActor.publishedKeys_publish _
    (hserves.reshaped (e.finishWrite_reshaped write.token none)))

theorem atomic_unstored_iff (hdata : write.data = ⟨.deviceConfigurationKeyValueListData, written⟩)
    (hresolved : write.resolved = ⟨.deviceConfigurationKeyValueListData, resolved⟩)
    (hserves : ServesKeys e actor.features.deviceConfiguration)
    (h : (keyed actor written resolved now).2.isAccepted = true)
    (hfailed : (e.acceptWrite write.token).2 ≠ .ok ()) : Atomic actor e write now ↔
      ((keyed actor written resolved now).1.config.failsafeWatts = actor.system.config.failsafeWatts ∧
        (keyed actor written resolved now).1.config.failsafeDuration = actor.system.config.failsafeDuration) ∧
      actor.publishedKeys e = some (failsafeValues actor.system) := by
  have hdecided := decideFailsafe_passed (e := e) hdata hresolved h
  cases hresult : (e.acceptWrite write.token).2 with
  | ok done => exact absurd hresult hfailed
  | error error =>
    rw [hresult] at hdecided
    rw [atomic_iff_of_rejected hdecided]
    refine and_congr_right fun hsame => ?_
    have hpublished := ControllableSystemActor.publishedKeys_publish
      { actor with system := (keyed actor written resolved now).1 }
      (hserves.reshaped (e.finishWrite_reshaped write.token none))
    rw [failsafeValues_congr hsame.1 hsame.2] at hpublished
    exact ⟨fun hkept => hkept.symm.trans hpublished, fun hsync => hpublished.trans hsync.symm⟩

theorem payload_cases (actor : ControllableSystemActor) (e : Engine S) (write : WriteRequest S) (now : Nat) :
    (∃ written resolved, write.data = ⟨.deviceConfigurationKeyValueListData, written⟩ ∧
      write.resolved = ⟨.deviceConfigurationKeyValueListData, resolved⟩) ∨
    Harmless actor e write now ∧ actor.decideFailsafe e write now =
      (actor, (e.rejectWrite write.token .commandRejected).1,
        .failsafeDecided write.request (.rejected .sequenceIncomplete)) := by
  by_cases hkeys : ∃ written resolved, write.data = ⟨.deviceConfigurationKeyValueListData, written⟩ ∧
      write.resolved = ⟨.deviceConfigurationKeyValueListData, resolved⟩
  · exact .inl hkeys
  · right
    unfold Harmless ControllableSystemActor.decideFailsafe
    constructor
    · split
      case h_1 written resolved hdata hresolved => exact absurd ⟨written, resolved, hdata, hresolved⟩ hkeys
      case h_2 => trivial
    · split
      case h_1 written resolved hdata hresolved => exact absurd ⟨written, resolved, hdata, hresolved⟩ hkeys
      case h_2 => rfl

theorem atomic_closed_iff (hdata : write.data = ⟨.deviceConfigurationKeyValueListData, written⟩)
    (hresolved : write.resolved = ⟨.deviceConfigurationKeyValueListData, resolved⟩)
    (hserves : ServesKeys e actor.features.deviceConfiguration)
    (hclosed : (actor.system.handleTimeout now).checkSecondaryWrite now ≠ none)
    (hconfig : (keyed actor written resolved now).1.config = actor.system.config)
    (haccepted : (keyed actor written resolved now).2.isAccepted = true ↔
      ∀ key ∈ ControllableSystemActor.writtenKeys written,
        key ≠ failsafeLimitKeyId ∧ key ≠ failsafeDurationKeyId) : Atomic actor e write now ↔
      HarmlessKeys actor e write.token (ControllableSystemActor.writtenKeys written) resolved now := by
  by_cases hforeign : ∀ key ∈ ControllableSystemActor.writtenKeys written,
      key ≠ failsafeLimitKeyId ∧ key ≠ failsafeDurationKeyId
  · -- the write asks for nothing, and is stored or not
    have hpasses : ∀ key ∈ ControllableSystemActor.writtenKeys written,
        Passes resolved actor.system.config key := fun key hmem =>
      ⟨fun hkey => absurd hkey (hforeign key hmem).1, fun hkey => absurd hkey (hforeign key hmem).2⟩
    have hholds : ∀ config, ∀ key ∈ ControllableSystemActor.writtenKeys written, Holds resolved config key :=
      fun config key hmem =>
        ⟨fun hkey => absurd hkey (hforeign key hmem).1, fun hkey => absurd hkey (hforeign key hmem).2⟩
    have hnone : ¬∃ key ∈ ControllableSystemActor.writtenKeys written,
        key = failsafeLimitKeyId ∨ key = failsafeDurationKeyId := by
      rintro ⟨key, hmem, hkey⟩
      exact hkey.elim (hforeign key hmem).1 (hforeign key hmem).2
    by_cases hok : (e.acceptWrite write.token).2 = .ok ()
    · rw [atomic_stored_iff hdata hresolved hserves (haccepted.mpr hforeign) hok]
      exact iff_of_true (hholds _) (.inr (.inl ⟨hpasses, hok⟩))
    · rw [atomic_unstored_iff hdata hresolved hserves (haccepted.mpr hforeign) hok, hconfig,
        and_iff_right ⟨rfl, rfl⟩]
      constructor
      · exact fun hsync => .inr (.inr ⟨fun key hmem _ => hholds _ key hmem, fun _ => hsync⟩)
      · rintro (⟨haddressed, -⟩ | ⟨-, hstored⟩ | ⟨-, hsync⟩)
        · exact absurd haddressed hnone
        · exact absurd hstored hok
        · exact hsync hpasses
  · have hrefused : (keyed actor written resolved now).2.isAccepted = false :=
      Bool.eq_false_iff.mpr fun h => hforeign (haccepted.mp h)
    rw [atomic_refused_iff hdata hresolved hrefused, hconfig]
    refine iff_of_true ⟨rfl, rfl⟩ (.inl ⟨?_, hclosed⟩)
    push Not at hforeign
    obtain ⟨key, hmem, hkey⟩ := hforeign
    exact ⟨key, hmem, or_iff_not_imp_left.mpr hkey⟩

theorem atomic_open_iff (hdata : write.data = ⟨.deviceConfigurationKeyValueListData, written⟩)
    (hresolved : write.resolved = ⟨.deviceConfigurationKeyValueListData, resolved⟩)
    (hserves : ServesKeys e actor.features.deviceConfiguration)
    (hopen : (actor.system.handleTimeout now).checkSecondaryWrite now = none)
    (htakes : TakesUp resolved (ControllableSystemActor.writtenKeys written) actor.system.config
      (keyed actor written resolved now).1.config)
    (haccepted : (keyed actor written resolved now).2.isAccepted = true ↔
      ∀ key ∈ ControllableSystemActor.writtenKeys written, Passes resolved actor.system.config key) :
    Atomic actor e write now ↔
      HarmlessKeys actor e write.token (ControllableSystemActor.writtenKeys written) resolved now := by
  rw [HarmlessKeys, or_iff_right fun hclosed => hclosed.2 hopen]
  by_cases hpasses : ∀ key ∈ ControllableSystemActor.writtenKeys written,
      Passes resolved actor.system.config key
  · by_cases hok : (e.acceptWrite write.token).2 = .ok ()
    · rw [atomic_stored_iff hdata hresolved hserves (haccepted.mpr hpasses) hok]
      exact iff_of_true (fun key hmem => htakes.holds hmem (hpasses key hmem)) (.inl ⟨hpasses, hok⟩)
    · rw [atomic_unstored_iff hdata hresolved hserves (haccepted.mpr hpasses) hok, htakes.unchanged_iff,
        or_iff_right fun hstored => hok hstored.2]
      exact and_congr_right fun _ => ⟨fun hsync _ => hsync, fun hall => hall hpasses⟩
  · have hrefused : (keyed actor written resolved now).2.isAccepted = false :=
      Bool.eq_false_iff.mpr fun h => hpasses (haccepted.mp h)
    rw [atomic_refused_iff hdata hresolved hrefused, htakes.unchanged_iff,
      or_iff_right fun hstored => hpasses hstored.1]
    exact (and_iff_left fun hall => absurd hall hpasses).symm

/-- What the failsafe writes of a system reachable by its own calls leave behind is all or nothing exactly
where no value that passes is lost or left over: behind a closed gate, for a write that passes whole and is
stored, or where nothing that passes is news. -/
theorem failsafe_write_atomic_iff (config : CsConfig) (start : Nat) (history : List Call)
    (hsystem : actor.system = system.run (.new config start) history)
    (hserves : ServesKeys e actor.features.deviceConfiguration) :
    Atomic actor e write now ↔ Harmless actor e write now := by
  have hsequenced : Sequenced actor.system := by
    rw [hsystem]
    exact system.run_invariant (fun _ _ => True) Sequenced (fun _ c h _ => sequenced_step h c)
      history _ nofun (system.admits_of_forall (fun _ _ => trivial) history _)
  obtain ⟨written, resolved, hdata, hresolved⟩ | ⟨hharmless, hrefused⟩ := payload_cases actor e write now
  · have hharmless : Harmless actor e write now ↔
        HarmlessKeys actor e write.token (ControllableSystemActor.writtenKeys written) resolved now := by
      rw [Harmless, hdata, hresolved]
    rw [hharmless]
    obtain ⟨hclosed, hconfig, haccepted⟩ | ⟨hopen, htakes, haccepted⟩ :=
      keyed_spec now written resolved hsequenced
    · exact atomic_closed_iff hdata hresolved hserves hclosed hconfig haccepted
    · exact atomic_open_iff hdata hresolved hserves hopen htakes haccepted
  · rw [atomic_iff_of_rejected hrefused]
    refine iff_of_true ⟨⟨rfl, rfl⟩, ?_⟩ hharmless
    rw [ControllableSystemActor.publishedKeys, e.rejectWrite_device]
    rfl

end Deciding

namespace Scenario

def configuresBoth (watts : Int) (duration : String) (counter : MsgCounter) (now : Nat) :
    ActorCall Schema.limitsOnly :=
  sends managerClient features.deviceConfiguration .write counter
    ⟨.deviceConfigurationKeyValueListData, ⟨some [
      ⟨some failsafeLimitKeyId, some ⟨some (.new watts 0), none⟩, none⟩,
      ⟨some failsafeDurationKeyId, some ⟨none, some duration⟩, none⟩]⟩⟩ now

/-- The heat pump with the write before it. -/
abbrev keysAsked : Running Schema.limitsOnly :=
  Running.machine.run started (opening ++ [configuresBoth 500 "PT1H" 6 (fromSecs 3)])

/-- Half a kilowatt and one hour: the write is refused for the hour, and the half kilowatt stays. -/
theorem refused_write_is_half_applied : ∃ write, requestsIn keysAsked.engine.events = [write] ∧
      (keysAsked.actor.decideFailsafe keysAsked.engine write (fromSecs 3)).2.2 =
        .failsafeDecided 6 (.rejected .durationOutOfRange) ∧
      (keysAsked.actor.decideFailsafe keysAsked.engine write (fromSecs 3)).1.system.config.failsafeWatts =
        F64.ofInt 500 ∧
      ¬Atomic keysAsked.actor keysAsked.engine write (fromSecs 3) := by
  have hone : (requestsIn keysAsked.engine.events).length = 1 := by decide +kernel
  have hfacts : ∀ write ∈ requestsIn keysAsked.engine.events,
      (keysAsked.actor.decideFailsafe keysAsked.engine write (fromSecs 3)).2.2 =
        .failsafeDecided 6 (.rejected .durationOutOfRange) ∧
      (keysAsked.actor.decideFailsafe keysAsked.engine write (fromSecs 3)).1.system.config.failsafeWatts =
        F64.ofInt 500 := by decide +kernel
  have hheld : keysAsked.actor.system.config.failsafeWatts ≠ F64.ofInt 500 := by decide +kernel
  obtain ⟨write, hwrite⟩ := List.length_eq_one_iff.mp hone
  have hmem : write ∈ requestsIn keysAsked.engine.events := by
    rw [hwrite]
    exact List.mem_singleton_self write
  obtain ⟨hrefused, htaken⟩ := hfacts write hmem
  refine ⟨write, hwrite, hrefused, htaken, fun hatomic => hheld ?_⟩
  rw [← htaken]
  exact (hatomic.1 _ _ hrefused).1.1.symm

def bothKeys : DeviceConfigurationKeyValueListData :=
  ⟨some [⟨some failsafeLimitKeyId, some ⟨some (.new 500 0), none⟩, none⟩,
    ⟨some failsafeDurationKeyId, some ⟨none, some "PT2H"⟩, none⟩]⟩

/-- The heat pump with a write before it of which both values pass. -/
abbrev keysGranted : Running Schema.limitsOnly :=
  Running.machine.run started (opening ++ [configuresBoth 500 "PT2H" 6 (fromSecs 3)])

/-- Under a limit the gate is open: both values are taken up, and published. -/
theorem granted_write_is_atomic :
    (keysGranted.actor.system.handleTimeout (fromSecs 3)).checkSecondaryWrite (fromSecs 3) = none ∧
      ∃ write, requestsIn keysGranted.engine.events = [write] ∧
        (keysGranted.actor.decideFailsafe keysGranted.engine write (fromSecs 3)).2.2 =
          .failsafeDecided 6 .accepted ∧
        Atomic keysGranted.actor keysGranted.engine write (fromSecs 3) := by
  have hone : (requestsIn keysGranted.engine.events).length = 1 := by decide +kernel
  have hfacts : ∀ write ∈ requestsIn keysGranted.engine.events,
      write.data = ⟨.deviceConfigurationKeyValueListData, bothKeys⟩ ∧
      write.resolved = ⟨.deviceConfigurationKeyValueListData, bothKeys⟩ ∧
      (keysGranted.engine.acceptWrite write.token).2.isOk = true ∧
      (keysGranted.actor.decideFailsafe keysGranted.engine write (fromSecs 3)).2.2 =
        .failsafeDecided 6 .accepted := by decide +kernel
  have hsystem : keysGranted.actor.system = system.run (.new config 0)
      [⟨.heartbeat, fromSecs 1⟩, ⟨.limitWrite ⟨true, F64.ofInt 1000, none⟩ .apply, fromSecs 2⟩] := by
    decide +kernel
  have hserves : ServesKeys keysGranted.engine keysGranted.actor.features.deviceConfiguration := by
    have hdeclared : (keysGranted.engine.device.resolve
        keysGranted.actor.features.deviceConfiguration).any
          (fun f => (f.function keyValues).isSome) = true := by decide +kernel
    exact (Option.any_eq_true _ _).mp hdeclared
  have hpasses : ∀ key ∈ [failsafeLimitKeyId, failsafeDurationKeyId],
      Passes bothKeys keysGranted.actor.system.config key := by
    have hwatts : writtenLimit bothKeys = some (F64.ofInt 500) := by decide +kernel
    have hduration : writtenDuration bothKeys = some (fromSecs 7200) := by decide +kernel
    refine List.forall_mem_cons.mpr ⟨?_, List.forall_mem_singleton.mpr ?_⟩
    · exact (passes_limitKey _).mpr ⟨_, hwatts, by decide +kernel, by decide +kernel⟩
    · exact (passes_durationKey _).mpr ⟨_, hduration, by decide, by decide, by decide +kernel⟩
  obtain ⟨write, hwrite⟩ := List.length_eq_one_iff.mp hone
  obtain ⟨hdata, hresolved, hstored, haccepted⟩ := hfacts write (hwrite ▸ List.mem_singleton_self write)
  refine ⟨by decide +kernel, write, hwrite, haccepted, ?_⟩
  refine (failsafe_write_atomic_iff config 0 _ hsystem hserves).mpr ?_
  rw [Harmless, hdata, hresolved]
  refine .inr (.inl ⟨hpasses, ?_⟩)
  cases hresult : (keysGranted.engine.acceptWrite write.token).2 with
  | ok => rfl
  | error => rw [hresult] at hstored; cases hstored

end Scenario

end Eebus.Limitation
