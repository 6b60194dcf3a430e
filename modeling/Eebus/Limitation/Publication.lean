import Eebus.Limitation.Actor
import Eebus.Limitation.History

/-!
What the actor publishes follows what its system decides: after every call the stored limit is the
one the system holds, and a change of state is carried by the event the call returns.
-/

namespace Eebus.Limitation

open Eebus.Library Eebus.Model Eebus.Spine

variable {S : Schema}

theorem offer_cases (f : LocalFeature S) (d : CmdData S) :
    offer f d = (f, false) ∧ ((f.function d.function).isSome → f.data d.function = some d) ∨
      offer f d = (f.store d, true) ∧ (f.function d.function).isSome := by
  unfold offer LocalFeature.setData
  cases hfind : f.function d.function with
  | none => exact .inl ⟨rfl, by simp⟩
  | some entry =>
    by_cases hdata : entry.data = some d
    · exact .inl ⟨by simp [hdata], fun _ => by simp [LocalFeature.data, hfind, hdata]⟩
    · exact .inr ⟨by simp [hdata], rfl⟩

theorem offer_shape (f : LocalFeature S) (d : CmdData S) : SameShape f (offer f d).1 := by
  rcases offer_cases f d with ⟨h, -⟩ | ⟨h, -⟩ <;> rw [h]
  · exact SameShape.refl f
  · exact SameShape.store f d

theorem offer_keeps (f : LocalFeature S) {d : CmdData S} {function : Function S.Other}
    (h : d.function ≠ function) : (offer f d).1.data function = f.data function := by
  rcases offer_cases f d with ⟨heq, -⟩ | ⟨heq, -⟩ <;> rw [heq]
  exact data_store_of_ne f h

theorem offer_data {f : LocalFeature S} {d : CmdData S} (h : (f.function d.function).isSome) :
    (offer f d).1.data d.function = some d := by
  rcases offer_cases f d with ⟨heq, hdata⟩ | ⟨heq, -⟩ <;> rw [heq]
  · exact hdata h
  · obtain ⟨entry, hentry⟩ := Option.isSome_iff_exists.mp h
    exact f.data_store hentry

section Offering

variable (e : Engine S) (address : FeatureAddress) (description values data : CmdData S)
  {function : Function S.Other}

theorem offerOne_reshaped : Reshaped e (offerOne e address data) := by
  unfold offerOne
  split
  · exact .of_device rfl
  case h_2 f hf => exact .storeFeature hf (offer_shape f data)

theorem offerOne_keeps (h : data.function ≠ function) :
    KeepsData function e (offerOne e address data) := by
  unfold offerOne
  split
  · exact .of_device rfl
  case h_2 f hf => exact .storeFeature hf (offer_shape f data).address (offer_keeps f h)

theorem offerBoth_reshaped : Reshaped e (offerBoth e address description values).1 := by
  unfold offerBoth
  split
  · exact .of_device rfl
  case h_2 f hf => exact .storeFeature hf ((offer_shape f _).trans (offer_shape _ _))

theorem offerBoth_keeps (hdescription : description.function ≠ function)
    (hvalues : values.function ≠ function) :
    KeepsData function e (offerBoth e address description values).1 := by
  unfold offerBoth
  split
  · exact .of_device rfl
  case h_2 f hf =>
    exact .storeFeature hf ((offer_shape f _).trans (offer_shape _ _)).address
      ((offer_keeps _ hvalues).trans (offer_keeps f hdescription))

theorem offerBoth_data {f : LocalFeature S} (hf : e.device.resolve address = some f)
    (hdeclared : (f.function values.function).isSome) :
    (offerBoth e address description values).1.device.data address values.function =
      some values := by
  have hshape := offer_shape f description
  have hdata := offer_data (f := (offer f description).1) (d := values)
    ((hshape.isSome_function _).trans hdeclared)
  have hstored := Engine.storeFeature_data hf (hshape.trans (offer_shape _ values)).address
    values.function
  simp only [offerBoth, hf]
  exact hstored.trans hdata

end Offering

def limits : Function S.Other := .known .loadControlLimitListData

/-- The limit is published on a feature that is there, that declares it, and that leaves its
writes to the application. -/
def Serves (e : Engine S) (loadControl : FeatureAddress) : Prop :=
  ∃ f, e.device.resolve loadControl = some f ∧ f.approval = .deferred ∧
    (f.function limits).isSome

theorem Serves.reshaped {e e' : Engine S} {loadControl : FeatureAddress} (h : Serves e loadControl)
    (hshape : Reshaped e e') : Serves e' loadControl := by
  obtain ⟨f, hf, happroval, hdeclared⟩ := h
  obtain ⟨f', hf', hsame⟩ := hshape loadControl f hf
  exact ⟨f', hf', hsame.approval.trans happroval, (hsame.isSome_function _).trans hdeclared⟩

namespace ControllableSystemActor

variable (actor : ControllableSystemActor) (e : Engine S)

def offerLimit : Engine S :=
  (offerBoth e actor.features.loadControl (limitDescription actor.direction)
    (limitData actor.system)).1

def offerRest : Engine S :=
  let e := (offerBoth e actor.features.deviceConfiguration (failsafeDescriptions actor.direction)
    (failsafeValues actor.system)).1
  match actor.electricalConnection with
  | none => e
  | some address => offerOne e address (constraints actor.system actor.direction)

theorem publish_device :
    (actor.publish e).device = (actor.offerRest (actor.offerLimit e)).device := by
  cases h : actor.electricalConnection <;>
    simp only [publish, offerLimit, offerRest, h] <;>
    rw [(Engine.sends_notifyIf _ _ _ _).device, (Engine.sends_notifyIf _ _ _ _).device]

theorem offerRest_reshaped : Reshaped e (actor.offerRest e) := by
  have hfirst := offerBoth_reshaped e actor.features.deviceConfiguration
    (failsafeDescriptions actor.direction) (failsafeValues actor.system)
  unfold offerRest
  cases actor.electricalConnection with
  | none => exact hfirst
  | some address => exact hfirst.trans (offerOne_reshaped _ address _)

theorem offerRest_keeps : KeepsData limits e (actor.offerRest e) := by
  have hfirst : KeepsData limits e _ := offerBoth_keeps e actor.features.deviceConfiguration
    (failsafeDescriptions actor.direction) (failsafeValues actor.system)
    (by simp [failsafeDescriptions, limits, CmdData.function])
    (by simp [failsafeValues, limits, CmdData.function])
  unfold offerRest
  cases actor.electricalConnection with
  | none => exact hfirst
  | some address =>
    exact hfirst.trans (offerOne_keeps _ address _ (by simp [constraints, limits, CmdData.function]))

theorem publish_reshaped : Reshaped e (actor.publish e) :=
  ((offerBoth_reshaped e _ _ _).trans (actor.offerRest_reshaped (actor.offerLimit e))).trans
    (.of_device (actor.publish_device e))

theorem publish_data {e : Engine S} (h : Serves e actor.features.loadControl) :
    (actor.publish e).device.data actor.features.loadControl limits =
      some (limitData actor.system) := by
  obtain ⟨f, hf, -, hdeclared⟩ := h
  rw [publish_device, actor.offerRest_keeps (actor.offerLimit e)]
  exact offerBoth_data e actor.features.loadControl _ (limitData actor.system) hf hdeclared

end ControllableSystemActor

/-- The sequence of heartbeat and limit write is complete in the controlled states only. -/
def Sequenced (cs : ControllableSystem) : Prop :=
  cs.sequenceComplete = true → cs.state.isControlled = true

variable {cs : ControllableSystem} {s : Running S}

theorem Sequenced.handleTimeout (h : Sequenced cs) (now : Nat) :
    Sequenced (cs.handleTimeout now) := by
  rcases cs.handleTimeout_cases now with
    ⟨he, -⟩ | ⟨hs, -, he⟩ | ⟨-, -, he⟩ | ⟨hs, he⟩ | ⟨hs, -, he⟩ <;> rw [he]
  · exact h
  · have hne : cs.state ≠ .failsafeState := by
      rintro heq
      simp [heq, LimitationState.isControlled] at hs
    simp [Sequenced, ControllableSystem.enter_fallback cs .failsafeState now rfl hne]
  · simp [Sequenced, LimitationState.isControlled]
  · simp [Sequenced, ControllableSystem.enter_fallback cs .unlimitedAutonomous now rfl (by simp [hs])]
  · simp [Sequenced, ControllableSystem.enter_fallback cs .unlimitedAutonomous now rfl (by simp [hs])]

theorem sequenced_of_effect {after : ControllableSystem} {c : Call} {out : Option WriteOutcome}
    (h : Sequenced cs) (heffect : Effect cs c after out) : Sequenced after := by
  have hticked : Sequenced (c.ticked cs) := by
    unfold Call.ticked
    split
    · exact h.handleTimeout c.now
    · exact h
  cases heffect with
  | heard hop => exact h
  | @accepted write decision hop hgate hvalid =>
    intro _
    simpa [ControllableSystem.accept] using target_isControlled write
  | @refused reason hop hgate hreason => exact fun _ => refuse_isControlled _ reason _
  | ticked hout hbeat => exact hticked
  | configured hop hbeat hsequence hduration => exact hticked
  | unstored hop =>
    exact fun _ => by simp [ControllableSystem.onUnstoredLimitWrite, LimitationState.isControlled]
  | interrupted hop hlimited => exact fun _ => by simp [LimitationState.isControlled]

theorem sequenced_step (h : Sequenced cs) (c : Call) : Sequenced (system.next cs c) :=
  sequenced_of_effect h (step_effect cs c)

theorem limitData_congr {u v : ControllableSystem} (hstate : u.state = v.state)
    (hlimit : u.limit = v.limit) (hconfig : u.config = v.config ∨ v.state.isControlled = true) :
    (limitData u : CmdData S) = limitData v := by
  have hactive : u.isLimitActive = v.isLimitActive := by
    simp [ControllableSystem.isLimitActive, hstate, hlimit]
  have heffective : u.effectiveLimit = v.effectiveLimit := by
    unfold ControllableSystem.effectiveLimit
    rw [hstate, hlimit]
    rcases hconfig with hconfig | hcontrolled
    · rw [hconfig]
    · cases hs : v.state <;> simp_all [LimitationState.isControlled]
  simp [limitData, limitEntry, hactive, heffective]

theorem limitData_unlimited
    (h : cs.state = .unlimitedControlled ∨ cs.state = .unlimitedAutonomous) :
    (limitData cs : CmdData S) = ⟨.loadControlLimitListData, ⟨some [
      ⟨some limitId, some true, some false, none, some (ScaledNumber.fromF64 F64.zero 0)⟩]⟩⟩ := by
  rcases h with h | h <;>
    simp [limitData, limitEntry, ControllableSystem.isLimitActive,
      ControllableSystem.effectiveLimit, h, EffectiveLimit.watts] <;> rfl

namespace ControllableSystem

variable {cs : ControllableSystem} {now : Nat}

theorem handleTimeout_of_settled (h : cs.Settled now) : cs.handleTimeout now = cs := by
  obtain ⟨hheard, hexpiry, hinit, hfailsafe⟩ := h
  rcases cs.handleTimeout_cases now with
    ⟨he, -⟩ | ⟨hs, hlate, -⟩ | ⟨hs, hheard', he⟩ | ⟨hs, he⟩ | ⟨hs, hlate, -⟩
  · exact he
  · have := hheard hs
    omega
  · rw [handleTimeout_limited hs]
    have hfresh : ¬heartbeatTimeout ≤ now - cs.heardFrom := by omega
    cases hx : cs.limitExpiry with
    | none => simp [hfresh]
    | some expiry =>
      have := hexpiry hs expiry hx
      simp [hfresh, this]
  · have hearly : ¬settleTimeout ≤ now - cs.enteredStateAt := Nat.not_le.mpr (hinit hs)
    rw [handleTimeout_init hs, if_neg hearly]
  · obtain ⟨hduration, hwait⟩ := hfailsafe hs
    rcases hlate with hlate | ⟨since, hsince, hlate⟩
    · omega
    · have := hwait since hsince
      omega

theorem handleTimeout_of_state (h : cs.state = (cs.handleTimeout now).state) :
    cs.handleTimeout now = cs := by
  rcases cs.handleTimeout_cases now with
    ⟨he, -⟩ | ⟨hs, -, he⟩ | ⟨hs, -, he⟩ | ⟨hs, he⟩ | ⟨hs, -, he⟩
  · exact he
  all_goals
    rw [he, enter_state] at h
    simp_all [LimitationState.isControlled]

/-- A limit write finds its gate open: a heartbeat is recent, or control has not lapsed. -/
def Heard (cs : ControllableSystem) (now : Nat) : Prop :=
  cs.heartbeatIsRecent now = true ∨
    cs.state.isControlled = true ∧ now - cs.heardFrom < heartbeatTimeout

theorem onLimitWrite_accepted {limit : LimitWrite} (hvalid : limitRefusal limit .apply = none)
    (hheard : cs.Heard now) : (cs.onLimitWrite limit .apply now).2 = .accepted := by
  have hgate : ((cs.handleTimeout now).needsRecentHeartbeat &&
      !(cs.handleTimeout now).heartbeatIsRecent now) = false := by
    rcases hheard with hrecent | ⟨hcontrolled, hheard⟩
    · have : (cs.handleTimeout now).heartbeatIsRecent now = true := by
        simpa [heartbeatIsRecent, heartbeatWithin] using hrecent
      simp [this]
    · have hstays : (cs.handleTimeout now).state.isControlled = true := by
        rcases cs.handleTimeout_cases now with
          ⟨he, -⟩ | ⟨-, hlate, -⟩ | ⟨-, -, he⟩ | ⟨hs, -⟩ | ⟨hs, -, -⟩
        · rwa [he]
        · omega
        · rw [he]
          simp [LimitationState.isControlled]
        · simp [hs, LimitationState.isControlled] at hcontrolled
        · simp [hs, LimitationState.isControlled] at hcontrolled
      cases hs : (cs.handleTimeout now).state <;>
        simp_all [needsRecentHeartbeat, LimitationState.isControlled]
  simp [onLimitWrite, hgate, hvalid]

def Unheard (cs : ControllableSystem) (now : Nat) : Prop :=
  cs.state.isControlled = false ∧ cs.heartbeatIsRecent now = false

theorem gate_closed_iff :
    (cs.needsRecentHeartbeat && !cs.heartbeatIsRecent now) = true ↔ cs.Unheard now := by
  unfold Unheard
  cases hs : cs.state <;> simp [needsRecentHeartbeat, LimitationState.isControlled, hs]

theorem refuse_shows (reason : NackReason)
    (h : cs.state.isControlled = true ∨ cs.state = .unlimitedAutonomous) :
    (limitData (cs.refuse reason now).1 : CmdData S) = limitData cs := by
  rcases h with hcontrolled | hautonomous
  · refine limitData_congr ?_ ?_ (.inl ?_) <;> simp [refuse, hcontrolled]
  · rw [limitData_unlimited (.inr hautonomous), limitData_unlimited (.inl ?_)]
    simp [refuse, hautonomous, LimitationState.isControlled]

theorem onLimitWrite_refused_shows {limit : LimitWrite} {decision : LocalDecision}
    (hsettled : cs.Settled now)
    (hstate : cs.state.isControlled = true ∨ cs.heartbeatIsRecent now = false ∨
      cs.state = .unlimitedAutonomous)
    (hrefused : (cs.onLimitWrite limit decision now).2.isAccepted = false) :
    (limitData (cs.onLimitWrite limit decision now).1 : CmdData S) = limitData cs := by
  unfold onLimitWrite at hrefused ⊢
  simp only [handleTimeout_of_settled hsettled] at hrefused ⊢
  split
  case isTrue => rfl
  case isFalse hgate =>
    rw [if_neg hgate] at hrefused
    rw [gate_closed_iff, Unheard, not_and] at hgate
    split
    case h_2 hvalid => simp [hvalid, WriteOutcome.isAccepted] at hrefused
    case h_1 reason hreason =>
      refine refuse_shows reason ?_
      rcases hstate with hcontrolled | hunheard | hautonomous
      · exact .inl hcontrolled
      · by_contra hnot
        simp_all
      · exact .inr hautonomous

theorem onUnreadableLimitWrite_shows (hsettled : cs.Settled now)
    (hstate : cs.state.isControlled = true ∨ cs.heartbeatIsRecent now = false) :
    (cs.onUnreadableLimitWrite now).1.state = cs.state ∧
      (limitData (cs.onUnreadableLimitWrite now).1 : CmdData S) = limitData cs := by
  unfold onUnreadableLimitWrite
  simp only [handleTimeout_of_settled hsettled]
  split
  case isTrue => exact ⟨rfl, rfl⟩
  case isFalse hgate =>
    rw [gate_closed_iff, Unheard, not_and] at hgate
    have hcontrolled : cs.state.isControlled = true := by
      rcases hstate with hcontrolled | hunheard
      · exact hcontrolled
      · by_contra hnot
        simp_all
    exact ⟨by simp [refuse, hcontrolled], refuse_shows _ (.inl hcontrolled)⟩

end ControllableSystem

/-- `v` is `u` under a configuration of its own, which only a system under control is given. -/
def Configured (u v : ControllableSystem) : Prop :=
  ∃ config, v = { u with config := config } ∧
    (config = u.config ∨ u.state.isControlled = true)

namespace Configured

variable {u v : ControllableSystem} {now : Nat}

theorem shows (h : Configured u v) : (limitData v : CmdData S) = limitData u := by
  obtain ⟨config, rfl, hconfig⟩ := h
  exact limitData_congr rfl rfl hconfig

theorem settled (h : Configured u v) (hsettled : u.Settled now) : v.Settled now := by
  obtain ⟨config, rfl, rfl | hcontrolled⟩ := h
  · exact hsettled
  · refine ⟨hsettled.1, hsettled.2.1, hsettled.2.2.1, fun hfailsafe => ?_⟩
    have hfailsafe : u.state = .failsafeState := hfailsafe
    simp [hfailsafe, LimitationState.isControlled] at hcontrolled

theorem state (h : Configured u v) : u.state = v.state := by
  obtain ⟨config, rfl, -⟩ := h
  rfl

theorem sequenced (h : Configured u v) (hsequenced : Sequenced u) : Sequenced v := by
  obtain ⟨config, rfl, -⟩ := h
  exact hsequenced

theorem decideKey (h : Configured u v) (hsettled : u.Settled now) (hsequenced : Sequenced u)
    (resolved : DeviceConfigurationKeyValueListData) (outcome : WriteOutcome) (key : Nat) :
    Configured u (ControllableSystemActor.decideKey resolved now (v, outcome) key).1 := by
  have htick := ControllableSystem.handleTimeout_of_settled (h.settled hsettled)
  have hgrant : ∀ config, v.checkSecondaryWrite now = none →
      Configured u { v with config := config } := by
    obtain ⟨config', rfl, -⟩ := h
    intro config hopen
    exact ⟨config, rfl, .inr (hsequenced (ControllableSystem.secondary_gate_open hopen))⟩
  unfold ControllableSystemActor.decideKey
  dsimp only
  by_cases hlimit : key = failsafeLimitKeyId
  · simp only [hlimit, if_true, ControllableSystem.onFailsafeLimitWrite, htick]
    cases hopen : v.checkSecondaryWrite now with
    | some rejection => exact h
    | none =>
      dsimp only
      split
      · exact h
      · split
        · exact h
        · exact hgrant _ hopen
  · by_cases hduration : key = failsafeDurationKeyId
    · have hother : ¬failsafeDurationKeyId = failsafeLimitKeyId := by decide
      simp only [hduration, hother, if_true, if_false, ControllableSystem.onFailsafeDurationWrite,
        htick]
      cases hopen : v.checkSecondaryWrite now with
      | some rejection => exact h
      | none =>
        dsimp only
        split
        · exact h
        · exact hgrant _ hopen
    · simp only [hlimit, hduration, if_false]
      exact h

theorem decideKeys (hsettled : u.Settled now) (hsequenced : Sequenced u)
    (resolved : DeviceConfigurationKeyValueListData) (keys : List Nat) (h : Configured u v)
    (outcome : WriteOutcome) :
    Configured u (keys.foldl (ControllableSystemActor.decideKey resolved now) (v, outcome)).1 := by
  induction keys generalizing v outcome with
  | nil => exact h
  | cons key rest ih =>
    rw [List.foldl_cons]
    exact ih (h.decideKey hsettled hsequenced resolved outcome key) _

end Configured

theorem foldl_decideKey_of_foreign (resolved : DeviceConfigurationKeyValueListData) (now : Nat)
    (keys : List Nat) (acc : ControllableSystem × WriteOutcome)
    (h : ∀ key ∈ keys, key ≠ failsafeLimitKeyId ∧ key ≠ failsafeDurationKeyId) :
    keys.foldl (ControllableSystemActor.decideKey resolved now) acc = acc := by
  induction keys with
  | nil => rfl
  | cons key rest ih =>
    have hkey := h key List.mem_cons_self
    have hpass : ControllableSystemActor.decideKey resolved now acc key = acc := by
      simp [ControllableSystemActor.decideKey, hkey.1, hkey.2]
    rw [List.foldl_cons, hpass]
    exact ih fun k hk => h k (List.mem_cons_of_mem key hk)

namespace Running

def stored (s : Running S) : Option (CmdData S) :=
  s.engine.device.data s.actor.features.loadControl limits

/-- A change of state is carried by the event, which says so or is the decision of a limit write. -/
def Carried (before after : LimitationState) (event : Option CsEvent) : Prop :=
  before = after ∨ event = some (.stateChanged before after) ∨
    ∃ request write outcome, event = some (.limitDecided request write outcome)

/-- What one call leaves: the limit is stored as the system holds it, and a change of state is
carried by the event. -/
def Reported (s : Running S) (call : ActorCall S) : Prop :=
  let next := s.perform call
  next.1.stored = some (limitData next.1.actor.system) ∧
    Carried s.actor.system.state next.1.actor.system.state next.2

/-- A limit write that is not accepted finds no timer due, and does not take the system out of a
state that shows something else than the one a refusal ends in. -/
def LimitTimely (cs : ControllableSystem) (write : WriteRequest S) (now : Nat) : Prop :=
  (readLimitWrite write.data limitId).isSome →
    (∃ limit ∈ readLimitWrite write.resolved limitId,
      limitRefusal limit .apply = none ∧ cs.Heard now) ∨
    cs.Settled now ∧ (cs.state.isControlled = true ∨ cs.heartbeatIsRecent now = false ∨
      (readLimitWrite write.resolved limitId).isSome ∧ cs.state = .unlimitedAutonomous)

def addressesFailsafe (write : WriteRequest S) : Bool :=
  match write.data, write.resolved with
  | ⟨.deviceConfigurationKeyValueListData, written⟩, ⟨.deviceConfigurationKeyValueListData, _⟩ =>
    (ControllableSystemActor.writtenKeys written).any fun key =>
      key == failsafeLimitKeyId || key == failsafeDurationKeyId
  | _, _ => false

/-- A write is decided before a timer of the system falls due. -/
def EventTimely (actor : ControllableSystemActor) (event : SpineEvent S) (now : Nat) : Prop :=
  match event with
  | .writeRequested write =>
    if write.feature = actor.features.loadControl then LimitTimely actor.system write now
    else if write.feature = actor.features.deviceConfiguration then
      addressesFailsafe write = true → actor.system.Settled now
    else True
  | _ => True

/-- Every write the actor is handed is decided in time. -/
def Timely (s : Running S) : ActorCall S → Prop
  | .handleEvent event now => EventTimely s.actor event now
  | .relay now => ∀ event ∈ s.engine.events.head?, EventTimely s.actor event now
  | _ => True

section Deciding

variable (cs : ControllableSystem) (now : Nat)

instance : Decidable (cs.Settled now) :=
  inferInstanceAs (Decidable ((cs.state.isControlled = true → now - cs.heardFrom < heartbeatTimeout) ∧
    (cs.state = .limited → ∀ expiry ∈ cs.limitExpiry, now < expiry) ∧
    (cs.state = .init → now - cs.enteredStateAt < settleTimeout) ∧
    (cs.state = .failsafeState → now - cs.enteredStateAt < cs.config.failsafeDuration ∧
      ∀ since ∈ cs.awaitingWriteSince, now - since < settleTimeout)))

instance : Decidable (cs.Heard now) := inferInstanceAs (Decidable (_ ∨ _))

instance (write : WriteRequest S) : Decidable (LimitTimely cs write now) :=
  inferInstanceAs (Decidable (_ → (∃ limit ∈ readLimitWrite write.resolved limitId, _) ∨ _))

instance (actor : ControllableSystemActor) (event : SpineEvent S) :
    Decidable (EventTimely actor event now) :=
  match event with
  | .writeRequested write =>
    inferInstanceAs (Decidable (if write.feature = actor.features.loadControl then _
      else if write.feature = actor.features.deviceConfiguration then _ else _))
  | .discoveryUpdated .. | .useCasesUpdated .. | .writeAbandoned .. | .dataWritten ..
  | .dataNotified .. | .replyReceived .. | .resultReceived .. | .bindingGranted ..
  | .bindingReleased .. | .subscriptionGranted .. | .subscriptionReleased .. | .requestRetried ..
  | .requestTimedOut .. => .isTrue trivial

instance (s : Running S) : DecidablePred s.Timely
  | .handleEvent event now => inferInstanceAs (Decidable (EventTimely s.actor event now))
  | .relay _ => inferInstanceAs (Decidable (∀ event ∈ s.engine.events.head?, _))
  | .handleTimeout _ | .datagram .. | .engineTimeout _ | .removePeer _ => .isTrue trivial

end Deciding

structure Published (s : Running S) : Prop where
  serves : Serves s.engine s.actor.features.loadControl
  stored : s.stored = some (limitData s.actor.system)
  sequenced : Sequenced s.actor.system

namespace Published

variable {s s' : Running S}

theorem kept (h : Published s) (hfeatures : s'.actor.features = s.actor.features)
    (hdevice : s'.engine.device = s.engine.device)
    (hshows : (limitData s'.actor.system : CmdData S) = limitData s.actor.system)
    (hsequenced : Sequenced s'.actor.system) : Published s' := by
  refine ⟨?_, ?_, hsequenced⟩
  · rw [hfeatures]
    exact h.serves.reshaped (.of_device hdevice)
  · rw [Running.stored, hdevice, hfeatures, hshows]
    exact h.stored

theorem publish {actor : ControllableSystemActor} {e : Engine S}
    (hserves : Serves e actor.features.loadControl) (hsequenced : Sequenced actor.system) :
    Published ⟨actor, actor.publish e⟩ :=
  ⟨hserves.reshaped (actor.publish_reshaped e), actor.publish_data hserves, hsequenced⟩

end Published

/-- What a call leaves is published, and its event carries the change of state. -/
def Faithful (s : Running S) (result : Running S × Option CsEvent) : Prop :=
  Published result.1 ∧ Carried s.actor.system.state result.1.actor.system.state result.2

theorem tick_reshaped (p : HeartbeatProducer) (e : Engine S) (feature : FeatureAddress)
    (now : Nat) : Reshaped e (p.tick e feature now).2 := by
  unfold HeartbeatProducer.tick
  split
  · exact .of_device rfl
  · exact (offerOne_reshaped e feature _).trans (.of_device (Engine.sends_notify _ _ _).device)

theorem tick_keeps (p : HeartbeatProducer) (e : Engine S) (feature : FeatureAddress) (now : Nat) :
    KeepsData limits e (p.tick e feature now).2 := by
  unfold HeartbeatProducer.tick
  split
  · exact .of_device rfl
  · exact (offerOne_keeps e feature _ (by simp [limits, CmdData.function])).trans
      (.of_device (Engine.sends_notify _ _ _).device)

theorem handleTimeout_faithful (h : Published s) (now : Nat) :
    Faithful s (of (s.actor.handleTimeout s.engine now)) := by
  have hserves := h.serves.reshaped
    (tick_reshaped s.actor.heartbeat s.engine s.actor.features.deviceDiagnosis now)
  have hsequenced := h.sequenced.handleTimeout now
  unfold ControllableSystemActor.handleTimeout
  dsimp only
  split
  case isTrue hstate =>
    have hsame := ControllableSystem.handleTimeout_of_state hstate
    refine ⟨⟨hserves, ?_, hsequenced⟩, .inl hstate⟩
    have hkept := tick_keeps s.actor.heartbeat s.engine s.actor.features.deviceDiagnosis now
      s.actor.features.loadControl
    exact hkept.trans (by rw [← Running.stored, h.stored]; simp [of, hsame])
  case isFalse hstate => exact ⟨.publish hserves hsequenced, .inr (.inl rfl)⟩

theorem follow_device (b : Belief) (e : Engine S) (features : CsFeatures) (now : Nat) :
    (b.follow e features now).2.device = e.device := by
  unfold Belief.follow
  repeat' split
  all_goals rfl

theorem refuseUnreadable_faithful (h : Published s) (write : WriteRequest S)
    (addressed : Bool) (now : Nat)
    (htimely : addressed = true → s.actor.system.Settled now ∧
      (s.actor.system.state.isControlled = true ∨ s.actor.system.heartbeatIsRecent now = false)) :
    let r := s.actor.refuseUnreadable s.engine write addressed now
    Faithful s (⟨r.1, r.2.1⟩, some r.2.2) := by
  have hdevice : ∀ error, (s.engine.rejectWrite write.token error).1.device = s.engine.device :=
    fun error => s.engine.rejectWrite_device write.token error
  cases addressed with
  | false => exact ⟨h.kept rfl (hdevice _) rfl h.sequenced, .inl rfl⟩
  | true =>
    obtain ⟨hsettled, hstate⟩ := htimely rfl
    obtain ⟨hsame, hshows⟩ :=
      ControllableSystem.onUnreadableLimitWrite_shows (S := S) hsettled hstate
    exact ⟨h.kept rfl (hdevice _) hshows (sequenced_step h.sequenced ⟨.unreadableLimitWrite, now⟩),
      .inl hsame.symm⟩

theorem answerLimit_faithful (h : Published s) (write : WriteRequest S)
    (limit : LimitWrite) (now : Nat)
    (htimely : limitRefusal limit .apply = none ∧ s.actor.system.Heard now ∨
      s.actor.system.Settled now ∧ (s.actor.system.state.isControlled = true ∨
        s.actor.system.heartbeatIsRecent now = false ∨
        s.actor.system.state = .unlimitedAutonomous)) :
    let r := s.actor.answerLimit s.engine write limit now
    Faithful s (⟨r.1, r.2.1⟩, some r.2.2) := by
  have hsequenced : Sequenced (s.actor.system.onLimitWrite limit .apply now).1 :=
    sequenced_step h.sequenced ⟨.limitWrite limit .apply, now⟩
  have hunstored := sequenced_step hsequenced ⟨.unstoredLimitWrite, now⟩
  have haccept : ∀ e', e' = (s.engine.acceptWrite write.token).1 →
      Serves e' s.actor.features.loadControl := by
    rintro e' rfl
    exact h.serves.reshaped (s.engine.finishWrite_reshaped write.token none)
  refine ⟨?_, .inr (.inr ⟨_, _, _, rfl⟩)⟩
  unfold ControllableSystemActor.answerLimit
  dsimp only
  split
  case isTrue haccepted =>
    split
    case h_1 e' heq =>
      exact .publish (haccept e' (by rw [heq])) hsequenced
    case h_2 e' error heq =>
      exact .publish (haccept e' (by rw [heq])) hunstored
  case isFalse hrefused =>
    have hrefused : (s.actor.system.onLimitWrite limit .apply now).2.isAccepted = false := by
      simpa using hrefused
    rcases htimely with ⟨hvalid, hheard⟩ | ⟨hsettled, hstate⟩
    · rw [ControllableSystem.onLimitWrite_accepted hvalid hheard] at hrefused
      cases hrefused
    · exact h.kept rfl (s.engine.rejectWrite_device write.token _)
        (ControllableSystem.onLimitWrite_refused_shows hsettled hstate hrefused) hsequenced

theorem decideLimit_faithful (h : Published s) (write : WriteRequest S) (now : Nat)
    (htimely : LimitTimely s.actor.system write now) :
    let r := s.actor.decideLimit s.engine write now
    Faithful s (⟨r.1, r.2.1⟩, some r.2.2) := by
  unfold ControllableSystemActor.decideLimit
  cases haddressed : (readLimitWrite write.data limitId).isSome with
  | false => exact refuseUnreadable_faithful h write false now (by simp)
  | true =>
    have htimely := htimely haddressed
    cases hread : readLimitWrite write.resolved limitId with
    | none =>
      refine refuseUnreadable_faithful h write true now fun _ => ?_
      rcases htimely with ⟨limit, hlimit, -⟩ | ⟨hsettled, hstate⟩
      · rw [hread] at hlimit
        cases hlimit
      · refine ⟨hsettled, ?_⟩
        simpa [hread] using hstate
    | some limit =>
      refine answerLimit_faithful h write limit now ?_
      rcases htimely with ⟨limit', hlimit, hvalid, hheard⟩ | ⟨hsettled, hstate⟩
      · rw [hread] at hlimit
        cases hlimit
        exact .inl ⟨hvalid, hheard⟩
      · exact .inr ⟨hsettled, by simpa [hread] using hstate⟩

theorem decideFailsafe_faithful (h : Published s) (write : WriteRequest S)
    (now : Nat) (htimely : addressesFailsafe write = true → s.actor.system.Settled now) :
    let r := s.actor.decideFailsafe s.engine write now
    Faithful s (⟨r.1, r.2.1⟩, some r.2.2) := by
  have hrefuse : ∀ error, (s.engine.rejectWrite write.token error).1.device = s.engine.device :=
    fun error => s.engine.rejectWrite_device write.token error
  have haccept : ∀ e', e' = (s.engine.acceptWrite write.token).1 →
      Serves e' s.actor.features.loadControl := by
    rintro e' rfl
    exact h.serves.reshaped (s.engine.finishWrite_reshaped write.token none)
  unfold addressesFailsafe at htimely
  unfold ControllableSystemActor.decideFailsafe
  split
  case h_2 => exact ⟨h.kept rfl (hrefuse _) rfl h.sequenced, .inl rfl⟩
  case h_1 written resolved hdata hresolved =>
    rw [hdata, hresolved] at htimely
    have hconfigured : Configured s.actor.system
        ((ControllableSystemActor.writtenKeys written).foldl
          (ControllableSystemActor.decideKey resolved now) (s.actor.system, .accepted)).1 := by
      have hself : Configured s.actor.system s.actor.system := ⟨_, rfl, .inl rfl⟩
      cases hforeign : (ControllableSystemActor.writtenKeys written).any
          (fun key => key == failsafeLimitKeyId || key == failsafeDurationKeyId) with
      | true => exact hself.decideKeys (htimely hforeign) h.sequenced resolved _ _
      | false =>
        rw [foldl_decideKey_of_foreign resolved now _ _ (by simpa using hforeign)]
        exact hself
    have hsequenced := hconfigured.sequenced h.sequenced
    dsimp only
    split
    · split
      case h_1 e' heq =>
        exact ⟨.publish (haccept e' (by rw [heq])) hsequenced, .inl hconfigured.state⟩
      case h_2 e' error heq =>
        exact ⟨.publish (haccept e' (by rw [heq])) hsequenced, .inl hconfigured.state⟩
    · exact ⟨h.kept rfl (hrefuse _) hconfigured.shows hsequenced, .inl hconfigured.state⟩

theorem onData_faithful (h : Published s) (feature : FeatureAddress)
    (resolved : CmdData S) (now : Nat) :
    Faithful s (of (s.actor.onData s.engine feature resolved now)) := by
  unfold ControllableSystemActor.onData
  dsimp only
  split
  · exact ⟨h.kept rfl rfl (limitData_congr rfl rfl (.inl rfl)) h.sequenced, .inl rfl⟩
  · exact ⟨h, .inl rfl⟩

theorem handleEvent_faithful (h : Published s) (event : SpineEvent S) (now : Nat)
    (htimely : EventTimely s.actor event now) :
    Faithful s (of (s.actor.handleEvent s.engine event now)) := by
  unfold ControllableSystemActor.handleEvent
  cases event with
  | dataNotified feature data resolved => exact onData_faithful h feature resolved now
  | replyReceived feature data resolved => exact onData_faithful h feature resolved now
  | bindingGranted client server =>
    exact ⟨h.kept rfl (follow_device _ _ _ now) rfl h.sequenced, .inl rfl⟩
  | discoveryUpdated device =>
    exact ⟨h.kept rfl (follow_device _ _ _ now) rfl h.sequenced, .inl rfl⟩
  | bindingReleased client server => exact ⟨h.kept rfl rfl rfl h.sequenced, .inl rfl⟩
  | writeRequested write =>
    simp only [EventTimely] at htimely
    dsimp only
    split
    case isTrue hfeature =>
      rw [if_pos hfeature] at htimely
      exact decideLimit_faithful h write now htimely
    case isFalse hfeature =>
      rw [if_neg hfeature] at htimely
      split
      case isTrue hfeature =>
        rw [if_pos hfeature] at htimely
        exact decideFailsafe_faithful h write now htimely
      case isFalse => exact ⟨h, .inl rfl⟩
  | _ => exact ⟨h, .inl rfl⟩

theorem Published.network (h : Published s) {e : Engine S}
    (hkept : ∀ f, s.engine.device.resolve s.actor.features.loadControl = some f →
      f.approval = .deferred → e.device.resolve s.actor.features.loadControl = some f) :
    Published { s with engine := e } := by
  obtain ⟨f, hf, hdeferred, hdeclared⟩ := h.serves
  have hf' := hkept f hf hdeferred
  refine ⟨⟨f, hf', hdeferred, hdeclared⟩, ?_, h.sequenced⟩
  have hstored := h.stored
  simp only [Running.stored, LocalDevice.data, hf, hf'] at hstored ⊢
  exact hstored

theorem perform_faithful (h : Published s) (call : ActorCall S)
    (htimely : s.Timely call) : Faithful s (s.perform call) := by
  cases call with
  | handleEvent event now => exact handleEvent_faithful h event now htimely
  | handleTimeout now => exact handleTimeout_faithful h now
  | relay now =>
    simp only [perform]
    split
    case h_1 => exact ⟨h, .inl rfl⟩
    case h_2 event rest hevents =>
      have hpopped : Published { s with engine := { s.engine with events := rest } } :=
        h.kept rfl rfl rfl h.sequenced
      exact handleEvent_faithful hpopped event now (htimely event (by simp [hevents]))
  | datagram datagram now =>
    exact ⟨h.network fun f hf hdeferred =>
      Engine.handleDatagram_resolve hf hdeferred datagram now, .inl rfl⟩
  | engineTimeout now =>
    exact ⟨h.network fun f hf _ => by rwa [Engine.handleTimeout_device], .inl rfl⟩
  | removePeer device => exact ⟨h.network fun f hf _ => hf, .inl rfl⟩

theorem install_published {actor : ControllableSystemActor} {e : Engine S}
    (hserves : Serves e actor.features.loadControl) (hsequenced : Sequenced actor.system)
    (now : Nat) : Published (install actor e now) :=
  .publish (hserves.reshaped (.of_device rfl)) hsequenced

/-- In every run whose writes are decided before a timer falls due, every call leaves the limit
stored as the system holds it, and an event that carries the change of state it made. -/
theorem fallback_published_and_reported (actor : ControllableSystemActor) (e : Engine S)
    (installed : Nat) (hserves : Serves e actor.features.loadControl) (config : CsConfig)
    (start : Nat) (history : List Call)
    (hsystem : actor.system = system.run (.new config start) history)
    (calls : List (ActorCall S))
    (hrun : machine.Admits Timely (install actor e installed) calls) :
    ∀ before call, before ++ [call] <+: calls →
      (machine.run (install actor e installed) before).Reported call := by
  have hsequenced : Sequenced actor.system := by
    rw [hsystem]
    exact system.run_invariant (fun _ _ => True) Sequenced (fun _ c h _ => sequenced_step h c)
      history _ (fun h => by cases h) (system.admits_of_forall (fun _ _ => trivial) history _)
  refine machine.run_steps Published (fun s call h ht => (perform_faithful h call ht).1)
    (fun s call h ht => ?_) (install_published hserves hsequenced installed) hrun
  have hfaithful := perform_faithful h call ht
  exact ⟨hfaithful.1.stored, hfaithful.2⟩

end Running

namespace Scenario

/-- The manager takes control, and falls silent: the heat pump falls back and says so. -/
theorem fallback_published_and_reported_silence : Running.machine.Admits Running.Timely started
        (opening ++ [.handleTimeout (fromSecs 121)]) ∧
      (Running.machine.run started opening).Reported (.handleTimeout (fromSecs 121)) ∧
      ((Running.machine.run started opening).perform (.handleTimeout (fromSecs 121))).2 =
        some (.stateChanged .limited .failsafeState) := by
  have hserves : Serves (Engine.new device) features.loadControl :=
    ⟨loadControlFeature 1, rfl, rfl, rfl⟩
  have hadmits : Running.machine.Admits Running.Timely started
      (opening ++ [.handleTimeout (fromSecs 121)]) := by decide +kernel
  refine ⟨hadmits, ?_, by decide +kernel⟩
  exact Running.fallback_published_and_reported
    (.builder (.new config 0) .consumption features) (Engine.new device) 0 hserves config 0 [] rfl _
    hadmits opening (.handleTimeout (fromSecs 121)) (List.prefix_refl _)

/-- A write of the failsafe value that comes late moves the heat pump into the failsafe state, and
neither the stored limit nor an event tells of it; nor does the next tick. -/
theorem late_failsafe_write_is_silent :
    let s := Running.machine.run started (opening ++ [configures 500 6 (fromSecs 122)])
    let r := s.perform (.relay (fromSecs 122))
    s.actor.system.state = .limited ∧ r.1.actor.system.state = .failsafeState ∧
      r.2 = some (.failsafeDecided 6 (.rejected .sequenceIncomplete)) ∧
      r.1.stored ≠ some (limitData r.1.actor.system) ∧
      ¬ s.Reported (.relay (fromSecs 122)) ∧
      (r.1.perform (.handleTimeout (fromSecs 123))).2 = none := by
  have hstored : let s := Running.machine.run started (opening ++ [configures 500 6 (fromSecs 122)])
      let r := s.perform (.relay (fromSecs 122))
      r.1.stored ≠ some (limitData r.1.actor.system) := by decide +kernel
  exact ⟨by decide +kernel, by decide +kernel, by decide +kernel, hstored,
    fun hreported => hstored hreported.1, by decide +kernel⟩

end Scenario

end Eebus.Limitation
