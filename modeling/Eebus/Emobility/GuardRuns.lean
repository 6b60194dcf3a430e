import Eebus.Emobility.GuardActor

/-!
The guard over all its cars, call after call: what it writes is what it was last told to require, and a car
that has accepted just that is left alone.
-/

namespace Eebus.Emobility

open Eebus.Library Eebus.Model Eebus.Spine

variable {α : Type}

section Dealings

variable [LE α] [DecidableLE α] [LT α] [DecidableLT α] [Min α] [Max α] [BEq α]
  {decimals : Decimals α}

def GuardCall.answered : GuardCall α → Option MsgCounter
  | .resultReceived request error _ => if error.isSuccess then some request else none
  | _ => none

/-- Every car is where the call led to with it, and each dealing is with a car. -/
structure DealtAll (decimals : Decimals α) (answered : Option MsgCounter) (guard guard' : OverloadGuardActor α)
    (dealings : List (Dealing α)) : Prop where
  devices : guard'.peers.map AttachedEv.device = guard.peers.map AttachedEv.device
  cars : ∀ car' ∈ guard'.peers, ∃ car ∈ guard.peers, car.peer = car'.peer ∧ ∃ curtailment event,
    TrackedEv.Dealt decimals answered car.tracked car'.tracked curtailment event
  dealings : ∀ x ∈ dealings, ∃ car ∈ guard.peers, ∃ car' ∈ guard'.peers, car.peer = car'.peer ∧
    x.device = car.device ∧ TrackedEv.Dealt decimals answered car.tracked car'.tracked x.curtailment x.event

namespace OverloadGuardActor

variable {answered : Option MsgCounter}

theorem dealtAll_dealWith (guard : OverloadGuardActor α) (concerned : AttachedEv α → Bool)
    {deal : TrackedEv α → TrackedEv α × Curtailment × Option (CarEvent α)}
    (hdeal : ∀ tracked, TrackedEv.Dealt decimals answered tracked (deal tracked).1 (deal tracked).2.1
      (deal tracked).2.2) :
    DealtAll decimals answered guard (guard.dealWith concerned deal).1 (guard.dealWith concerned deal).2 := by
  unfold dealWith
  cases hfound : guard.peers.find? concerned with
  | none => exact ⟨rfl, fun car hcar => ⟨car, hcar, rfl, _, _, .refl answered car.tracked⟩, nofun⟩
  | some ev =>
    have hmem := List.mem_of_find?_eq_some hfound
    refine ⟨map_modifyFirst _ _ fun _ _ => rfl, fun car' hcar' => ?_, fun x hx => ?_⟩
    · cases mem_modifyFirst_of_find? hfound hcar' with
      | inl hold => exact ⟨car', hold, rfl, _, _, .refl answered car'.tracked⟩
      | inr hnew =>
        rw [hnew]
        exact ⟨ev, hmem, rfl, _, _, hdeal ev.tracked⟩
    · obtain rfl := List.mem_singleton.mp hx
      exact ⟨ev, hmem, _, modifyFirst_mem hfound, rfl, rfl, hdeal ev.tracked⟩

theorem dealtAll_handleTimeout (guard : OverloadGuardActor α) (counter : AddressDevice → MsgCounter) :
    DealtAll decimals answered guard (guard.handleTimeout decimals counter).1
      (guard.handleTimeout decimals counter).2 := by
  refine ⟨?_, fun car' hcar' => ?_, fun x hx => ?_⟩
  · simp only [handleTimeout, List.map_map]
    rfl
  · obtain ⟨car, hcar, rfl⟩ := List.mem_map.mp hcar'
    exact ⟨car, hcar, rfl, _, _, TrackedEv.dealt_writeIfDue _ answered car.tracked _⟩
  · obtain ⟨car, hcar, rfl⟩ := List.mem_map.mp hx
    exact ⟨car, hcar, _, List.mem_map.mpr ⟨car, hcar, rfl⟩, rfl, rfl,
      TrackedEv.dealt_writeIfDue _ answered car.tracked _⟩

end OverloadGuardActor

theorem guarding_cases (decimals : Decimals α) (guard : OverloadGuardActor α) (call : GuardCall α) :
    (∃ peer bindingRequest, call = .attach peer bindingRequest) ∨ (∃ device, call = .detach device) ∨
      (∃ device currents, call = .require device currents) ∨
      (∀ device currents, call ≠ .require device currents) ∧
        DealtAll decimals call.answered guard ((guarding decimals).step guard call).1
          ((guarding decimals).step guard call).2 := by
  cases call with
  | attach peer bindingRequest => exact .inl ⟨peer, bindingRequest, rfl⟩
  | detach device => exact .inr (.inl ⟨device, rfl⟩)
  | require device currents => exact .inr (.inr (.inl ⟨device, currents, rfl⟩))
  | handleTimeout counter => exact .inr (.inr (.inr ⟨nofun, guard.dealtAll_handleTimeout counter⟩))
  | published feature data counter =>
    refine .inr (.inr (.inr ⟨nofun, ?_⟩))
    exact guard.dealtAll_dealWith _ fun tracked => tracked.dealt_onPublished data counter
  | resultReceived request error counter =>
    refine .inr (.inr (.inr ⟨nofun, ?_⟩))
    simp only [guarding, OverloadGuardActor.resolve]
    split <;> exact guard.dealtAll_dealWith _ fun tracked => tracked.dealt_resolve request error counter
  | requestTimedOut request counter =>
    refine .inr (.inr (.inr ⟨nofun, ?_⟩))
    exact guard.dealtAll_dealWith _ fun tracked => tracked.dealt_giveUp request counter

end Dealings

abbrev GuardStep (α : Type) := Event (OverloadGuardActor α) (GuardCall α) (List (Dealing α))

def requiredIn (steps : List (GuardStep α)) (device : AddressDevice) : Option (ChargingCurrents α) :=
  steps.findSome? fun step =>
    match step.input with
    | .require device' currents => if device' = device then some currents else none
    | _ => none

namespace GuardStep

variable (step : GuardStep α) (device : AddressDevice)

def Writes (list : LoadControlLimitListData) : Prop :=
  ∃ x ∈ step.output, x.device = device ∧ x.curtailment = .sent list

def Accepts (currents : ChargingCurrents α) : Prop :=
  ∃ x ∈ step.output, x.device = device ∧ x.event = some (.accepted currents)

/-- The call requires other currents of the car than those it accepted, or attaches to it anew, which
forgets its bands. -/
def Releases [BEq α] (accepted : ChargingCurrents α) : Prop :=
  match step.input with
  | .require device' currents => device' = device ∧ ¬(accepted == currents) = true
  | .attach peer _ => peer.device = device
  | _ => False

end GuardStep

/-- What is written carries what was last required of the car, held inside the bands known of it. -/
def Keeps [LE α] [DecidableLE α] [LT α] [DecidableLT α] [Min α] [Max α] (decimals : Decimals α) (step : GuardStep α) (past : List (GuardStep α)) : Prop :=
  ∀ device list, GuardStep.Writes step device list → ∃ required,
    requiredIn (step :: past) device = some required ∧
      ∃ car ∈ step.after.peers, car.device = device ∧ car.tracked.Carries decimals required list

/-- What is written to a car that has accepted something has been brought about since. -/
def Converges [BEq α] (step : GuardStep α) (past : List (GuardStep α)) : Prop :=
  ∀ device list, GuardStep.Writes step device list → ∀ newer accepting older accepted,
    past = newer ++ accepting :: older → GuardStep.Accepts accepting device accepted →
      ∃ between ∈ newer, GuardStep.Releases between device accepted

/-- What a car accepts is what is then required of it: its bands took nothing away, and nothing else has been
required since it was written. -/
def AcceptsRequired [BEq α] (guard : OverloadGuardActor α) (call : GuardCall α) : Prop :=
  ∀ request ∈ call.answered, ∀ car ∈ guard.peers, ∀ written ∈ car.tracked.outstanding,
    written.1 = request → ∃ required ∈ car.tracked.required, (written.2 == required) = true

variable {step : GuardStep α} {guard' : OverloadGuardActor α}

section Runs

variable {guard : OverloadGuardActor α} {past : List (GuardStep α)}

theorem requiredIn_cons (step : GuardStep α) (past : List (GuardStep α)) (device : AddressDevice) :
    requiredIn (step :: past) device = match step.input with
      | .require device' currents => if device' = device then some currents else requiredIn past device
      | _ => requiredIn past device := by
  unfold requiredIn
  rw [List.findSome?_cons]
  cases step.input with
  | require device' currents =>
    by_cases hsame : device' = device
    · simp only [if_pos hsame]
    · simp only [if_neg hsame]
  | _ => rfl

/-- The guard is attached to each car once, and requires of it what it was last told to, if anything. -/
structure Minds (guard : OverloadGuardActor α) (past : List (GuardStep α)) : Prop where
  distinct : (guard.peers.map AttachedEv.device).Nodup
  required : ∀ car ∈ guard.peers, ∀ required, car.tracked.required = some required →
    requiredIn past car.device = some required

namespace Minds

theorem new : Minds (.new : OverloadGuardActor α) [] :=
  ⟨List.nodup_nil, fun _ hcar => absurd hcar List.not_mem_nil⟩

theorem filter (h : Minds guard past) (keep : AttachedEv α → Bool)
    (hstep : ∀ device, requiredIn (step :: past) device = requiredIn past device) :
    Minds ⟨guard.peers.filter keep⟩ (step :: past) where
  distinct := h.distinct.sublist (List.filter_sublist.map _)
  required car hcar required hrequired :=
    (hstep car.device).trans (h.required car (List.mem_filter.mp hcar).1 required hrequired)

theorem attach (h : Minds guard past) (peer : EvPeer) (bindingRequest : MsgCounter)
    (hstep : step.input = .attach peer bindingRequest) :
    Minds (guard.attach peer bindingRequest) (step :: past) := by
  have hkept : Minds _ (step :: past) := h.filter (fun ev => ev.device != peer.device) fun device => by
    rw [requiredIn_cons, hstep]
  refine ⟨?_, fun car hcar required hrequired => ?_⟩
  · rw [OverloadGuardActor.attach, List.map_append, List.nodup_append]
    refine ⟨hkept.distinct, List.nodup_singleton _, fun device hdevice device' hnew heq => ?_⟩
    obtain ⟨car, hcar, rfl⟩ := List.mem_map.mp hdevice
    have hother := (List.mem_filter.mp hcar).2
    rw [heq, List.mem_singleton.mp hnew] at hother
    simp [AttachedEv.device] at hother
  · cases List.mem_append.mp hcar with
    | inl hold => exact hkept.required car hold required hrequired
    | inr hnew =>
      rw [List.mem_singleton.mp hnew] at hrequired
      cases hrequired

theorem require (h : Minds guard past) (device : AddressDevice) (currents : ChargingCurrents α)
    (hstep : step.input = .require device currents) :
    Minds (guard.require device currents) (step :: past) := by
  have hdevices : (guard.require device currents).peers.map AttachedEv.device =
      guard.peers.map AttachedEv.device := map_modifyFirst _ _ fun _ _ => rfl
  refine ⟨hdevices ▸ h.distinct, fun car hcar required hrequired => ?_⟩
  rw [requiredIn_cons, hstep]
  dsimp only
  cases hfound : guard.peers.find? fun ev => ev.device == device with
  | none =>
    rw [OverloadGuardActor.require, modifyFirst_of_find?_none hfound] at hcar
    have hother : ¬(car.device == device) = true := List.find?_eq_none.mp hfound car hcar
    rw [if_neg fun heq => hother (beq_iff_eq.mpr heq.symm)]
    exact h.required car hcar required hrequired
  | some ev =>
    have hev : (ev.device == device) = true := by
      have hfirst := List.find?_some hfound
      exact hfirst
    by_cases hsame : device = car.device
    · have hupdated : { ev with tracked := ev.tracked.require currents } ∈
          (guard.require device currents).peers := modifyFirst_mem hfound
      have hcar' : car = { ev with tracked := ev.tracked.require currents } :=
        List.inj_on_of_nodup_map (hdevices ▸ h.distinct) hcar hupdated
          (hsame.symm.trans (beq_iff_eq.mp hev).symm)
      rw [if_pos hsame, ← hrequired, hcar']
      rfl
    · rw [if_neg hsame]
      cases mem_modifyFirst_of_find? hfound hcar with
      | inl hold => exact h.required car hold required hrequired
      | inr hnew =>
        rw [hnew] at hsame
        exact absurd (beq_iff_eq.mp hev).symm hsame

theorem dealt [LE α] [DecidableLE α] [LT α] [DecidableLT α] [Min α] [Max α] [BEq α]
    {decimals : Decimals α} (h : Minds guard past) {answered : Option MsgCounter}
    {dealings : List (Dealing α)} (hdealt : DealtAll decimals answered guard guard' dealings)
    (hstep : ∀ device, requiredIn (step :: past) device = requiredIn past device) :
    Minds guard' (step :: past) := by
  refine ⟨hdealt.devices ▸ h.distinct, fun car' hcar' required hrequired => ?_⟩
  obtain ⟨car, hcar, hpeer, curtailment, event, hdeal⟩ := hdealt.cars car' hcar'
  rw [hstep, AttachedEv.device, ← hpeer]
  exact h.required car hcar required (hdeal.required ▸ hrequired)

end Minds

/-- A car that has accepted something, and has not been released since, has settled. -/
def SettledOn [BEq α] (guard : OverloadGuardActor α) (past : List (GuardStep α)) : Prop :=
  ∀ newer accepting older device accepted, past = newer ++ accepting :: older →
    GuardStep.Accepts accepting device accepted →
      (∃ between ∈ newer, GuardStep.Releases between device accepted) ∨
        ∀ car ∈ guard.peers, car.device = device → car.tracked.Settled accepted

namespace SettledOn

variable [BEq α]

theorem new : SettledOn (.new : OverloadGuardActor α) [] := by
  intro newer accepting older device accepted hsplit
  cases newer <;> cases hsplit

theorem cons (h : SettledOn guard past)
    (hnow : ∀ device accepted, GuardStep.Accepts step device accepted →
      ∀ car ∈ guard'.peers, car.device = device → car.tracked.Settled accepted)
    (hlater : ∀ device accepted,
      (∀ car ∈ guard.peers, car.device = device → car.tracked.Settled accepted) →
        GuardStep.Releases step device accepted ∨
          ∀ car ∈ guard'.peers, car.device = device → car.tracked.Settled accepted) :
    SettledOn guard' (step :: past) := by
  intro newer accepting older device accepted hsplit haccepts
  cases newer with
  | nil =>
    obtain ⟨rfl, -⟩ := List.cons.inj hsplit
    exact .inr (hnow device accepted haccepts)
  | cons first newer =>
    obtain ⟨rfl, hpast⟩ := List.cons.inj hsplit
    obtain ⟨between, hbetween, hreleases⟩ | hsettled := h newer accepting older device accepted hpast haccepts
    · exact .inl ⟨between, List.mem_cons_of_mem _ hbetween, hreleases⟩
    · exact (hlater device accepted hsettled).imp_left fun hreleases => ⟨_, List.mem_cons_self, hreleases⟩

theorem quiet (h : SettledOn guard past)
    (hquiet : step.output = []) (hlater : ∀ device accepted,
      (∀ car ∈ guard.peers, car.device = device → car.tracked.Settled accepted) →
        GuardStep.Releases step device accepted ∨
          ∀ car ∈ guard'.peers, car.device = device → car.tracked.Settled accepted) :
    SettledOn guard' (step :: past) := by
  refine h.cons (fun device accepted haccepts => ?_) hlater
  obtain ⟨x, hx, -⟩ := haccepts
  rw [hquiet] at hx
  cases hx

theorem attach (h : SettledOn guard past) (peer : EvPeer) (bindingRequest : MsgCounter)
    (hstep : step.input = .attach peer bindingRequest) (hquiet : step.output = []) :
    SettledOn (guard.attach peer bindingRequest) (step :: past) := by
  refine h.quiet hquiet fun device accepted hsettled => ?_
  by_cases hanew : peer.device = device
  · refine .inl ?_
    unfold GuardStep.Releases
    rw [hstep]
    exact hanew
  · refine .inr fun car hcar hdevice => ?_
    cases List.mem_append.mp hcar with
    | inl hkept => exact hsettled car (List.mem_filter.mp hkept).1 hdevice
    | inr hnew =>
      rw [List.mem_singleton.mp hnew] at hdevice
      exact absurd hdevice hanew

theorem detach (h : SettledOn guard past) (gone : AddressDevice)
    (hquiet : step.output = []) : SettledOn (guard.detach gone) (step :: past) :=
  h.quiet hquiet fun _ _ hsettled =>
    .inr fun car hcar hdevice => hsettled car (List.mem_filter.mp hcar).1 hdevice

theorem require (h : SettledOn guard past) (device : AddressDevice) (currents : ChargingCurrents α)
    (hstep : step.input = .require device currents) (hquiet : step.output = []) :
    SettledOn (guard.require device currents) (step :: past) := by
  refine h.quiet hquiet fun device' accepted hsettled => ?_
  by_cases hother : device = device' ∧ ¬(accepted == currents) = true
  · refine .inl ?_
    unfold GuardStep.Releases
    rw [hstep]
    exact hother
  · refine .inr (forall_mem_modifyFirst hsettled fun car hcar hmem hdevice => ?_)
    obtain ⟨houtstanding, happlied, -⟩ := hsettled car hmem hdevice
    refine ⟨houtstanding, happlied, currents, rfl, ?_⟩
    have hsame : device = device' := (beq_iff_eq.mp hcar).symm.trans hdevice
    exact not_not.mp (not_and.mp hother hsame)

theorem dealt [LE α] [DecidableLE α] [LT α] [DecidableLT α] [Min α] [Max α] {decimals : Decimals α}
    (h : SettledOn guard past) (hdistinct : (guard.peers.map AttachedEv.device).Nodup)
    (hdealt : DealtAll decimals step.input.answered guard guard' step.output)
    (haccepts : AcceptsRequired guard step.input) : SettledOn guard' (step :: past) := by
  refine h.cons (fun device accepted hnow => ?_) fun device accepted hsettled => .inr ?_
  · obtain ⟨x, hx, hdevice, hevent⟩ := hnow
    obtain ⟨car, hcar, car', hcar', hpeer, hxdevice, hdeal⟩ := hdealt.dealings x hx
    obtain ⟨request, hanswered, houtstanding, hfree, happlied⟩ := hdeal.accepted accepted hevent
    obtain ⟨required, hrequired, hsame⟩ := haccepts request hanswered car hcar (request, accepted) houtstanding rfl
    intro other hother hotherDevice
    have hdevice' : car'.device = car.device := congrArg EvPeer.device hpeer.symm
    have heq : other = car' := List.inj_on_of_nodup_map (hdealt.devices ▸ hdistinct) hother hcar'
      (by rw [hotherDevice, hdevice', ← hxdevice, hdevice])
    rw [heq]
    exact ⟨hfree, happlied, required, hdeal.required.trans hrequired, hsame⟩
  · intro car' hcar' hdevice
    obtain ⟨car, hcar, hpeer, curtailment, event, hdeal⟩ := hdealt.cars car' hcar'
    have hsame : car.device = device := (congrArg EvPeer.device hpeer).trans hdevice
    exact (hdeal.settled accepted (hsettled car hcar hsame)).1

end SettledOn

end Runs

section Guarantees

variable [LE α] [DecidableLE α] [LT α] [DecidableLT α] [Min α] [Max α] [BEq α] {decimals : Decimals α}
  {guard : OverloadGuardActor α} {past : List (GuardStep α)}

def taking (decimals : Decimals α) (guard : OverloadGuardActor α) (call : GuardCall α) : GuardStep α :=
  ⟨guard, call, ((guarding decimals).step guard call).2, ((guarding decimals).step guard call).1⟩

theorem requiredIn_taking {call : GuardCall α} (h : ∀ device currents, call ≠ .require device currents)
    (device : AddressDevice) :
    requiredIn (taking decimals guard call :: past) device = requiredIn past device := by
  rw [requiredIn_cons, taking]
  cases call with
  | require device' currents => exact absurd rfl (h device' currents)
  | _ => rfl

theorem Minds.next (h : Minds guard past) (call : GuardCall α) :
    Minds ((guarding decimals).step guard call).1 (taking decimals guard call :: past) := by
  obtain ⟨peer, bindingRequest, rfl⟩ | ⟨device, rfl⟩ | ⟨device, currents, rfl⟩ | ⟨hcall, hdealt⟩ :=
    guarding_cases decimals guard call
  · exact h.attach peer bindingRequest rfl
  · exact h.filter _ fun device => requiredIn_cons _ past device
  · exact h.require device currents rfl
  · exact h.dealt hdealt fun device => requiredIn_taking hcall device

theorem SettledOn.next (h : SettledOn guard past) (hminds : Minds guard past) {call : GuardCall α}
    (haccepts : AcceptsRequired guard call) :
    SettledOn ((guarding decimals).step guard call).1 (taking decimals guard call :: past) := by
  obtain ⟨peer, bindingRequest, rfl⟩ | ⟨device, rfl⟩ | ⟨device, currents, rfl⟩ | ⟨-, hdealt⟩ :=
    guarding_cases decimals guard call
  · exact h.attach peer bindingRequest rfl rfl
  · exact h.detach device rfl
  · exact h.require device currents rfl rfl
  · exact h.dealt hminds.distinct hdealt haccepts

theorem Minds.keeps (h : Minds guard past) (call : GuardCall α) :
    Keeps decimals (taking decimals guard call) past := by
  rintro device list ⟨x, hx, rfl, hsent⟩
  obtain ⟨peer, bindingRequest, rfl⟩ | ⟨device, rfl⟩ | ⟨device, currents, rfl⟩ | ⟨hcall, hdealt⟩ :=
    guarding_cases decimals guard call
  · cases hx
  · cases hx
  · cases hx
  · obtain ⟨car, hcar, car', hcar', hpeer, hdevice, hdeal⟩ := hdealt.dealings x hx
    obtain ⟨required, hrequired, hcarries⟩ := hdeal.carries list hsent
    refine ⟨required, ?_, car', hcar', ?_, hcarries⟩
    · rw [requiredIn_taking hcall, hdevice]
      exact h.required car hcar required hrequired
    · exact (congrArg EvPeer.device hpeer.symm).trans hdevice.symm

theorem SettledOn.converges (h : SettledOn guard past) (call : GuardCall α) :
    Converges (taking decimals guard call) past := by
  rintro device list ⟨x, hx, rfl, hsent⟩ newer accepting older accepted hsplit haccepts
  obtain ⟨peer, bindingRequest, rfl⟩ | ⟨device, rfl⟩ | ⟨device, currents, rfl⟩ | ⟨-, hdealt⟩ :=
    guarding_cases decimals guard call
  · cases hx
  · cases hx
  · cases hx
  · refine (h newer accepting older x.device accepted hsplit haccepts).resolve_right fun hsettled => ?_
    obtain ⟨car, hcar, car', -, -, hdevice, hdeal⟩ := hdealt.dealings x hx
    exact (hdeal.settled accepted (hsettled car hcar hdevice.symm)).2.1 list hsent

/-- In every run, what is written carries what was last required; and in a run where cars accept what is then
required of them, a car that has accepted something is written to only once it is released. -/
theorem guard_converges_and_keeps (decimals : Decimals α) (calls : List (GuardCall α)) :
    (∀ step past, step :: past <:+ ((guarding decimals).recorded.run (.new, []) calls).2 →
      Keeps decimals step past) ∧
    ((guarding decimals).Admits AcceptsRequired .new calls →
      ∀ step past, step :: past <:+ ((guarding decimals).recorded.run (.new, []) calls).2 →
        Converges step past) := by
  have hminds : ∀ (p : OverloadGuardActor α × List (GuardStep α)) call, Minds p.1 p.2 → True →
      Minds ((guarding decimals).recorded.next p call).1 ((guarding decimals).recorded.next p call).2 :=
    fun p call h _ => h.next call
  have hsettled : ∀ (p : OverloadGuardActor α × List (GuardStep α)) call,
      Minds p.1 p.2 ∧ SettledOn p.1 p.2 → AcceptsRequired p.1 call →
        Minds ((guarding decimals).recorded.next p call).1 ((guarding decimals).recorded.next p call).2 ∧
          SettledOn ((guarding decimals).recorded.next p call).1
            ((guarding decimals).recorded.next p call).2 :=
    fun p call h haccepts => ⟨h.1.next call, h.2.next h.1 haccepts⟩
  constructor
  · exact (guarding decimals).recorded_run_events hminds (fun guard past call h _ => h.keeps call) Minds.new
      ((guarding decimals).recorded.admits_of_forall (fun _ _ => trivial) calls _)
  · intro hadmits
    exact (guarding decimals).recorded_run_events hsettled (fun guard past call h _ => h.2.converges call)
      ⟨Minds.new, SettledOn.new⟩ (((guarding decimals).admits_recorded calls .new []).mpr hadmits)

theorem recorded_pair (decimals : Decimals α) (calls : List (GuardCall α)) (call call' : GuardCall α) :
    let s := ((guarding decimals).recorded.run (.new, []) calls).1
    ((guarding decimals).recorded.run (.new, []) (calls ++ [call, call'])).2 =
      taking decimals ((guarding decimals).step s call).1 call' :: taking decimals s call ::
        ((guarding decimals).recorded.run (.new, []) calls).2 := by
  rw [Machine.run_append]
  rfl

end Guarantees

namespace GuardScenario

instance (step : GuardStep F64) (device : AddressDevice) (list : LoadControlLimitListData) :
    Decidable (GuardStep.Writes step device list) :=
  inferInstanceAs (Decidable (∃ x ∈ step.output, x.device = device ∧ x.curtailment = .sent list))

instance (step : GuardStep F64) (device : AddressDevice) (currents : ChargingCurrents F64) :
    Decidable (GuardStep.Accepts step device currents) :=
  inferInstanceAs (Decidable (∃ x ∈ step.output, x.device = device ∧ x.event = some (.accepted currents)))

instance [BEq α] (guard : OverloadGuardActor α) (call : GuardCall α) : Decidable (AcceptsRequired guard call) :=
  -- Message counters are finitely many, and would be gone through one by one.
  have (request : MsgCounter) : Decidable (∀ car ∈ guard.peers, ∀ written ∈ car.tracked.outstanding,
      written.1 = request → ∃ required ∈ car.tracked.required, (written.2 == required) = true) := inferInstance
  Option.decidableForallMem call.answered

def car : EvPeer :=
  ⟨"d:_i:1_Car", ⟨some "d:_i:1_Car", some [1], some 1⟩, ⟨some "d:_i:1_Car", some [1], some 2⟩,
    .overloadProtection⟩

/-- The car describes its one phase and the six to thirty-two amperes it can charge with, and the guard comes to
be bound. -/
def opening : List (GuardCall F64) :=
  [.attach car 1, .resultReceived 1 .none 2,
    .published car.loadControl (.limitDescriptions ⟨some [⟨some 1, some "maxValueLimit", some "obligation", none,
      some 1, none, some "overloadProtection"⟩]⟩) 2,
    .published car.electricalConnection (.parameterDescriptions (some [⟨some 1, some 1, some 1, none, some .a⟩])) 2,
    .published car.electricalConnection (.permittedValueSets (some [⟨some 1, some 1,
      some [⟨some [⟨some ⟨some 6, some 0⟩, some ⟨some 32, some 0⟩⟩]⟩]⟩])) 2]

def single (amperes : Int) : ChargingCurrents F64 := ⟨some (F64.ofInt amperes), none, none⟩

/-- The guard requires this much, and writes it. -/
def curtailed (amperes : Int) : List (GuardCall F64) :=
  opening ++ [.require car.device (single amperes), .handleTimeout fun _ => 3]

/-- The car accepts, and the guard's next timeout comes. -/
def after : List (GuardCall F64) := [.resultReceived 3 .none 4, .handleTimeout fun _ => 4]

theorem guard_converges_and_keeps_sixteen :
    (∀ step past, step :: past <:+ ((guarding binaryDecimals).recorded.run (.new, []) (curtailed 16 ++ after)).2 →
        Keeps binaryDecimals step past) ∧
      ∀ step past, step :: past <:+ ((guarding binaryDecimals).recorded.run (.new, [])
        (curtailed 16 ++ after)).2 → Converges step past :=
  (guard_converges_and_keeps binaryDecimals (curtailed 16 ++ after)).imp_right fun h => h (by decide +kernel)

/-- Four amperes are below what the car can charge with. It accepts the six it is written instead, and is written
them again. -/
theorem clamped_curtailment_written_again :
    ¬∀ step past, step :: past <:+ ((guarding binaryDecimals).recorded.run (.new, [])
      (curtailed 4 ++ after)).2 → Converges step past := by
  intro hconverges
  have hrun := recorded_pair binaryDecimals (curtailed 4) (.resultReceived 3 .none 4) (.handleTimeout fun _ => 4)
  dsimp only at hrun
  rw [after, hrun] at hconverges
  obtain ⟨between, hbetween, -⟩ := hconverges _ _ List.suffix_rfl car.device
    ⟨some [⟨some 1, some true, some true, none, some ⟨some 6, some 0⟩⟩]⟩ (by decide +kernel) [] _ _ (single 6)
    rfl (by decide +kernel)
  cases hbetween

end GuardScenario

end Eebus.Emobility
