import Eebus.Emobility.OverloadGuard

/-!
The Energy Guard of the overload protection with all the cars it is attached to: what it is told to require
of each, and what it writes to them.
-/

namespace Eebus.Emobility

open Eebus.Library Eebus.Model Eebus.Spine

variable {α : Type}

structure EvPeer where
  device : AddressDevice
  loadControl : FeatureAddress
  electricalConnection : FeatureAddress
  purpose : Purpose
deriving DecidableEq

structure AttachedEv (α : Type) where
  peer : EvPeer
  tracked : TrackedEv α

def AttachedEv.device (ev : AttachedEv α) : AddressDevice := ev.peer.device

structure OverloadGuardActor (α : Type) where
  peers : List (AttachedEv α)

/-- What a call led to with one car. -/
structure Dealing (α : Type) where
  device : AddressDevice
  curtailment : Curtailment
  event : Option (CarEvent α)

/-- A call of the guard, with the counters the engine gives what it sends. -/
inductive GuardCall (α : Type)
  | attach (peer : EvPeer) (bindingRequest : MsgCounter)
  | detach (device : AddressDevice)
  | require (device : AddressDevice) (currents : ChargingCurrents α)
  | handleTimeout (counter : AddressDevice → MsgCounter)
  /-- A reply from a feature, or a notification. -/
  | published (feature : FeatureAddress) (data : CarData) (counter : MsgCounter)
  | resultReceived (request : MsgCounter) (error : ErrorNumber) (counter : MsgCounter)
  | requestTimedOut (request counter : MsgCounter)

namespace OverloadGuardActor

def new : OverloadGuardActor α := ⟨[]⟩

def attach (guard : OverloadGuardActor α) (peer : EvPeer) (bindingRequest : MsgCounter) :
    OverloadGuardActor α :=
  ⟨(guard.peers.filter fun ev => ev.device != peer.device) ++ [⟨peer, .new peer.purpose bindingRequest⟩]⟩

def detach (guard : OverloadGuardActor α) (device : AddressDevice) : OverloadGuardActor α :=
  ⟨guard.peers.filter fun ev => ev.device != device⟩

def require (guard : OverloadGuardActor α) (device : AddressDevice) (currents : ChargingCurrents α) :
    OverloadGuardActor α :=
  ⟨modifyFirst (fun ev => ev.device == device)
    (fun ev _ => { ev with tracked := ev.tracked.require currents }) guard.peers⟩

def dealWith (guard : OverloadGuardActor α) (concerned : AttachedEv α → Bool)
    (deal : TrackedEv α → TrackedEv α × Curtailment × Option (CarEvent α)) :
    OverloadGuardActor α × List (Dealing α) :=
  match guard.peers.find? concerned with
  | none => (guard, [])
  | some ev =>
    let (tracked, curtailment, event) := deal ev.tracked
    (⟨modifyFirst concerned (fun ev _ => { ev with tracked := tracked }) guard.peers⟩,
      [⟨ev.device, curtailment, event⟩])

variable [LE α] [DecidableLE α] [LT α] [DecidableLT α] [Min α] [Max α] [BEq α] (decimals : Decimals α)

def handleTimeout (guard : OverloadGuardActor α) (counter : AddressDevice → MsgCounter) :
    OverloadGuardActor α × List (Dealing α) :=
  (⟨guard.peers.map fun ev =>
      { ev with tracked := (ev.tracked.writeIfDue decimals (counter ev.device)).1 }⟩,
    guard.peers.map fun ev =>
      ⟨ev.device, (ev.tracked.writeIfDue decimals (counter ev.device)).2, none⟩)

def onPublished (guard : OverloadGuardActor α) (feature : FeatureAddress) (data : CarData)
    (counter : MsgCounter) : OverloadGuardActor α × List (Dealing α) :=
  guard.dealWith (fun ev => ev.peer.electricalConnection == feature || ev.peer.loadControl == feature)
    fun tracked => tracked.onPublished decimals data counter

def resolve (guard : OverloadGuardActor α) (request : MsgCounter) (error : ErrorNumber)
    (counter : MsgCounter) : OverloadGuardActor α × List (Dealing α) :=
  if guard.peers.any fun ev => ev.tracked.bindingRequest == some request then
    guard.dealWith (fun ev => ev.tracked.bindingRequest == some request)
      fun tracked => tracked.resolve decimals request error counter
  else
    guard.dealWith (fun ev => ev.tracked.outstanding.any fun written => written.1 == request)
      fun tracked => tracked.resolve decimals request error counter

def giveUp (guard : OverloadGuardActor α) (request counter : MsgCounter) :
    OverloadGuardActor α × List (Dealing α) :=
  guard.dealWith
    (fun ev => (ev.tracked.outstanding.any fun written => written.1 == request) ||
      ev.tracked.bindingRequest == some request)
    fun tracked => tracked.giveUp decimals request counter

end OverloadGuardActor

section Machine

variable [LE α] [DecidableLE α] [LT α] [DecidableLT α] [Min α] [Max α] [BEq α] (decimals : Decimals α)

def guarding : Machine (OverloadGuardActor α) (GuardCall α) (List (Dealing α)) where
  step guard
    | .attach peer bindingRequest => (guard.attach peer bindingRequest, [])
    | .detach device => (guard.detach device, [])
    | .require device currents => (guard.require device currents, [])
    | .handleTimeout counter => guard.handleTimeout decimals counter
    | .published feature data counter => guard.onPublished decimals feature data counter
    | .resultReceived request error counter => guard.resolve decimals request error counter
    | .requestTimedOut request counter => guard.giveUp decimals request counter

end Machine

namespace TrackedEv

variable (decimals : Decimals α)

def payload (ev : TrackedEv α) (currents : ChargingCurrents α) : LoadControlLimitListData :=
  if currents.isEmpty then deactivated ev.phases ev.limits else limitData decimals currents true ev.limits

variable [LE α] [DecidableLE α] [LT α] [DecidableLT α] [Min α] [Max α]

/-- The list carries these currents, held inside the bands now known. -/
def Carries (ev : TrackedEv α) (required : ChargingCurrents α) (list : LoadControlLimitListData) : Prop :=
  ∃ currents, required.clamped ev.band = some currents ∧ list = ev.payload decimals currents

variable [BEq α]

/-- The car has accepted these currents, they are what is required of it, and nothing is on its way. -/
structure Settled (ev : TrackedEv α) (currents : ChargingCurrents α) : Prop where
  outstanding : ev.outstanding = none
  applied : ev.applied = some currents
  required : ∃ required, ev.required = some required ∧ (currents == required) = true

/-- What a call that deals with the car makes of it. `answered` is the request the call is the good answer
to. -/
structure Dealt (answered : Option MsgCounter) (ev ev' : TrackedEv α) (curtailment : Curtailment)
    (event : Option (CarEvent α)) : Prop where
  required : ev'.required = ev.required
  carries : ∀ list, curtailment = .sent list → ∃ required, ev.required = some required ∧
    ev'.Carries decimals required list
  settled : ∀ currents, ev.Settled currents → ev'.Settled currents ∧
    (∀ list, curtailment ≠ .sent list) ∧ ∀ accepted, event ≠ some (.accepted accepted)
  accepted : ∀ currents, event = some (.accepted currents) → ∃ request, answered = some request ∧
    ev.outstanding = some (request, currents) ∧ ev'.outstanding = none ∧ ev'.applied = some currents

variable {decimals} {answered : Option MsgCounter} {ev : TrackedEv α}

theorem Dealt.refl (answered : Option MsgCounter) (ev : TrackedEv α) :
    Dealt decimals answered ev ev .notDue none :=
  ⟨rfl, nofun, fun _ h => ⟨h, nofun, nofun⟩, nofun⟩

theorem Settled.writeIfDue {currents : ChargingCurrents α} (h : ev.Settled currents) (counter : MsgCounter) :
    ev.writeIfDue decimals counter = (ev, .notDue) := by
  obtain ⟨required, hrequired, hsame⟩ := h.required
  have happlied : (ev.applied == some required) = true := by
    rw [h.applied]
    exact hsame
  unfold TrackedEv.writeIfDue
  rw [hrequired]
  dsimp only
  rw [if_pos happlied]
  split <;> rfl

variable (decimals) in
theorem dealt_writeIfDue (answered : Option MsgCounter) (ev : TrackedEv α) (counter : MsgCounter) :
    Dealt decimals answered ev (ev.writeIfDue decimals counter).1 (ev.writeIfDue decimals counter).2 none := by
  refine ⟨?_, ?_, fun currents h => ?_, nofun⟩
  · unfold TrackedEv.writeIfDue
    repeat' split
    all_goals rfl
  · intro list hsent
    unfold TrackedEv.writeIfDue at hsent ⊢
    split at hsent
    · cases hsent
    case isFalse hopen =>
      split at hsent
      · cases hsent
      case h_2 required hrequired =>
        split at hsent
        · cases hsent
        case isFalse hnew =>
          split at hsent
          · cases hsent
          case h_2 currents hclamped =>
            cases hsent
            simp only [if_neg hopen, hrequired, if_neg hnew]
            exact ⟨required, rfl, currents, hclamped, rfl⟩
  · rw [h.writeIfDue]
    exact ⟨h, nofun, nofun⟩

theorem Dealt.learned {before ev' : TrackedEv α} {curtailment : Curtailment} {event : Option (CarEvent α)}
    (h : Dealt decimals answered ev ev' curtailment event) (hrequired : ev.required = before.required)
    (houtstanding : ev.outstanding = before.outstanding) (happlied : ev.applied = before.applied) :
    Dealt decimals answered before ev' curtailment event where
  required := h.required.trans hrequired
  carries := hrequired ▸ h.carries
  settled currents hsettled := h.settled currents
    ⟨houtstanding.trans hsettled.outstanding, happlied.trans hsettled.applied, hrequired ▸ hsettled.required⟩
  accepted := houtstanding ▸ h.accepted

theorem Dealt.released {before ev' : TrackedEv α} {curtailment : Curtailment} {event : Option (CarEvent α)}
    (h : Dealt decimals answered ev ev' curtailment event) (hrequired : ev.required = before.required)
    (hwriting : before.outstanding.isSome = true) (hevent : ∀ currents, event ≠ some (.accepted currents)) :
    Dealt decimals answered before ev' curtailment event where
  required := h.required.trans hrequired
  carries := hrequired ▸ h.carries
  settled currents hsettled := by
    rw [hsettled.outstanding] at hwriting
    cases hwriting
  accepted currents heq := absurd heq (hevent currents)

theorem dealt_reportReady (answered : Option MsgCounter) (ev : TrackedEv α) (counter : MsgCounter) :
    Dealt decimals answered ev (ev.reportReady decimals counter).1 (ev.reportReady decimals counter).2.1
      (ev.reportReady decimals counter).2.2 := by
  unfold reportReady
  split
  · have hwritten := dealt_writeIfDue decimals answered { ev with readyReported := true } counter
    have hdealt : Dealt decimals answered ev _ _ _ := hwritten.learned rfl rfl rfl
    refine { hdealt with settled := fun currents hsettled => ?_, accepted := nofun }
    obtain ⟨hstays, hquiet, -⟩ := hdealt.settled currents hsettled
    exact ⟨hstays, hquiet, nofun⟩
  · exact .refl answered ev

variable (decimals) in
omit [LE α] [DecidableLE α] [LT α] [DecidableLT α] [BEq α] in
theorem resolveBand_frame (ev : TrackedEv α) : (ev.resolveBand decimals).required = ev.required ∧
    (ev.resolveBand decimals).outstanding = ev.outstanding ∧
    (ev.resolveBand decimals).applied = ev.applied := by
  unfold resolveBand
  split <;> exact ⟨rfl, rfl, rfl⟩

theorem dealt_onPublished (ev : TrackedEv α) (data : CarData) (counter : MsgCounter) :
    Dealt decimals answered ev (ev.onPublished decimals data counter).1
      (ev.onPublished decimals data counter).2.1 (ev.onPublished decimals data counter).2.2 := by
  have hread : ∀ ev' : TrackedEv α, ev'.required = ev.required → ev'.outstanding = ev.outstanding →
      ev'.applied = ev.applied →
      Dealt decimals answered ev ((ev'.resolveBand decimals).reportReady decimals counter).1
        ((ev'.resolveBand decimals).reportReady decimals counter).2.1
        ((ev'.resolveBand decimals).reportReady decimals counter).2.2 := by
    intro ev' hrequired houtstanding happlied
    obtain ⟨hrequired', houtstanding', happlied'⟩ := resolveBand_frame decimals ev'
    exact (dealt_reportReady answered _ counter).learned (hrequired'.trans hrequired)
      (houtstanding'.trans houtstanding) (happlied'.trans happlied)
  unfold onPublished
  dsimp only
  split
  · exact hread _ rfl rfl rfl
  · split
    · exact hread _ rfl rfl rfl
    · exact (Dealt.refl answered { ev with limits := (ev.limits.learn data ev.purpose).1 }).learned rfl rfl rfl

theorem dealt_resolve (ev : TrackedEv α) (request : MsgCounter) (error : ErrorNumber) (counter : MsgCounter) :
    Dealt decimals (if error.isSuccess then some request else none) ev
      (ev.resolve decimals request error counter).1 (ev.resolve decimals request error counter).2.1
      (ev.resolve decimals request error counter).2.2 := by
  unfold resolve
  by_cases hbinding : ev.bindingRequest = some request
  · rw [if_pos hbinding]
    exact (dealt_reportReady _ _ counter).learned rfl rfl rfl
  · rw [if_neg hbinding]
    cases houtstanding : ev.outstanding with
    | none => exact .refl _ ev
    | some writing =>
      obtain ⟨written, currents⟩ := writing
      dsimp only
      by_cases hwritten : written = request
      · subst hwritten
        rw [if_pos rfl]
        have hopen : ∀ currents', ¬ev.Settled currents' := fun _ hsettled => by
          rw [hsettled.outstanding] at houtstanding
          cases houtstanding
        by_cases hsuccess : error.isSuccess = true
        · rw [if_pos hsuccess, if_pos hsuccess]
          refine ⟨rfl, nofun, fun currents' hsettled => absurd hsettled (hopen currents'), ?_⟩
          intro currents' hevent
          cases hevent
          exact ⟨written, rfl, houtstanding, rfl, rfl⟩
        · rw [if_neg hsuccess, if_neg hsuccess]
          exact ⟨rfl, nofun, fun currents' hsettled => absurd hsettled (hopen currents'), nofun⟩
      · rw [if_neg hwritten]
        exact .refl _ ev

theorem dealt_giveUp (ev : TrackedEv α) (request counter : MsgCounter) :
    Dealt decimals answered ev (ev.giveUp decimals request counter).1
      (ev.giveUp decimals request counter).2.1 (ev.giveUp decimals request counter).2.2 := by
  have hlet : ∀ ev' : TrackedEv α, ev'.required = ev.required → ev'.outstanding = ev.outstanding →
      ev'.applied = ev.applied → ∀ writing : Bool, (writing = true → ev.outstanding.isSome = true) →
      let dealt : TrackedEv α × Curtailment × Option (CarEvent α) :=
        if writing then
          (({ ev' with outstanding := none }.writeIfDue decimals counter).1,
            ({ ev' with outstanding := none }.writeIfDue decimals counter).2, some .unresponsive)
        else (ev', .notDue, some .unresponsive)
      Dealt decimals answered ev dealt.1 dealt.2.1 dealt.2.2 := by
    intro ev' hrequired houtstanding happlied writing hwriting
    cases writing with
    | true =>
      have hwritten : Dealt decimals answered ev _ _ _ := (dealt_writeIfDue decimals answered
        { ev' with outstanding := none } counter).released hrequired (hwriting rfl) fun _ h => by cases h
      exact { hwritten with accepted := by simp, settled := fun currents hsettled =>
        ⟨(hwritten.settled currents hsettled).1, (hwritten.settled currents hsettled).2.1, by simp⟩ }
    | false =>
      have hsame : Dealt decimals answered ev ev' .notDue none :=
        (Dealt.refl answered ev').learned hrequired houtstanding happlied
      exact { hsame with accepted := by simp, settled := fun currents hsettled =>
        ⟨(hsame.settled currents hsettled).1, by simp, by simp⟩ }
  have hwriting : (ev.outstanding.any fun written => written.1 == request) = true →
      ev.outstanding.isSome = true := by
    cases ev.outstanding with
    | none => exact fun h => by cases h
    | some written => exact fun _ => rfl
  unfold giveUp
  dsimp only
  split
  · by_cases hbinding : ev.bindingRequest = some request
    · simp only [if_pos hbinding]
      exact hlet { ev with bindingRequest := none } rfl rfl rfl _ hwriting
    · simp only [if_neg hbinding]
      exact hlet ev rfl rfl rfl _ hwriting
  · exact .refl answered ev

end TrackedEv

end Eebus.Emobility
