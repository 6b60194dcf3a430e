import Eebus.Emobility.PartialWrites
import Eebus.Limitation.Publication
import Eebus.Spine.Filing

/-!
Refused curtailments. The car takes a limit before it asks the engine to store the write, and does not put
the old one back when the engine cannot: what a refusal leaves is what was there before only where the write
brought nothing new.
-/

namespace Eebus.Emobility

open Eebus.Library Eebus.Model Eebus.Spine
open Eebus.Limitation (limits Serves offerBoth offerBoth_data offerBoth_keeps offerBoth_reshaped)

variable {S : Schema}

namespace EvCharging

variable {α : Type*}

theorem effective_congr {a b : EvCharging α} (hsource : a.source = b.source) (hlimit : a.limit = b.limit)
    (hsafe : a.safe = b.safe) (phase : PhaseName) : a.effective phase = b.effective phase := by
  rw [effective, effective, hsource, hlimit, hsafe]

variable [LE α] [DecidableLE α] [LT α] [DecidableLT α] [Min α] [Max α]

def taken (ev : EvCharging α) (currents : ChargingCurrents α) : Option (ChargingCurrents α) :=
  if currents.isEmpty then some currents else ev.held currents

variable {ev : EvCharging α} {currents limit : ChargingCurrents α} {now : Nat}

theorem onLimit_of_taken (h : ev.taken currents = some limit) (now : Nat) :
    ev.onLimit currents now =
      ({ ev with
          now := max ev.now now
          limit := some limit
          lastHeartbeat := if currents.isEmpty then some (ev.lastHeartbeat.getD now) else ev.lastHeartbeat },
        some true) := by
  rw [taken] at h
  rw [onLimit]
  by_cases hempty : currents.isEmpty = true
  · rw [if_pos hempty] at h ⊢
    rw [if_pos hempty]
    obtain rfl := Option.some.inj h
    rfl
  · rw [if_neg hempty] at h ⊢
    rw [if_neg hempty]
    have hheld : ({ ev with now := max ev.now now } : EvCharging α).held currents = some limit := h
    dsimp only
    rw [hheld]

theorem onLimit_of_not_taken (h : ev.taken currents = none) (now : Nat) : (ev.onLimit currents now).2 = none := by
  rw [taken] at h
  rw [onLimit]
  by_cases hempty : currents.isEmpty = true
  · rw [if_pos hempty] at h
    cases h
  · rw [if_neg hempty] at h
    rw [if_neg hempty]
    have hheld : ({ ev with now := max ev.now now } : EvCharging α).held currents = none := h
    dsimp only
    rw [hheld]

/-- The limit does not stand in for a heartbeat that decides anything. -/
def KeepsWatch (ev : EvCharging α) (currents : ChargingCurrents α) : Prop :=
  currents.isEmpty = true → ev.lastHeartbeat.isSome = true ∨ ev.guardFailed = true

theorem source_taken_iff (hlimit : ev.limit = some limit) (h : ev.taken currents = some limit) (now : Nat) :
    (ev.onLimit currents now).1.source = (ev.handleTimeout now).source ↔ ev.KeepsWatch currents := by
  rw [onLimit_of_taken h]
  by_cases hfailed : ev.guardFailed = true
  · refine iff_of_true ?_ fun _ => .inr hfailed
    simp [source, handleTimeout, hfailed]
  by_cases hempty : currents.isEmpty = true
  · cases hlast : ev.lastHeartbeat with
    | none =>
      refine iff_of_false ?_ fun hkeeps => ?_
      · simp only [source, handleTimeout, hlast, if_neg hfailed, if_pos hempty, Option.getD_none]
        split <;> simp
      · simpa [hlast, hfailed] using hkeeps hempty
    | some last =>
      refine iff_of_true ?_ fun _ => .inl (by rw [hlast]; rfl)
      simp [source, handleTimeout, hlast, hempty, hlimit]
  · refine iff_of_true ?_ fun hlifts => absurd hlifts hempty
    simp [source, handleTimeout, hempty, hlimit]

end EvCharging

/-- The alternatives of the schema the car publishes besides its limits are other ones. -/
structure CarFunctions.Apart (functions : CarFunctions S) : Prop where
  parameterDescriptions : ∀ entries, (functions.parameterDescriptions entries).function ≠ limits
  permittedValueSets : ∀ entries, (functions.permittedValueSets entries).function ≠ limits

namespace EvActor

variable {functions : CarFunctions S} {actor : EvActor} {e : Engine S}

def publishedLimits (actor : EvActor) (e : Engine S) : Option (CmdData S) :=
  e.device.data actor.loadControl limits

theorem publishedLimits_publish (hapart : functions.Apart) (hserves : Serves e actor.loadControl) :
    actor.publishedLimits (actor.publish functions e) = some ⟨.loadControlLimitListData, actor.limitList⟩ := by
  obtain ⟨f, hf, -, hdeclared⟩ := hserves
  have hstored := offerBoth_data e actor.loadControl
    ⟨.loadControlLimitDescriptionListData, limitDescriptions actor.purpose actor.phases⟩
    ⟨.loadControlLimitListData, actor.limitList⟩ hf hdeclared
  rw [publishedLimits]
  simp only [publish]
  rw [(Engine.sends_notifyIf _ _ _ _).device, offerBoth_keeps _ _ _ _ (hapart.parameterDescriptions _) (hapart.permittedValueSets _)]
  exact hstored

theorem limitList_congr {a b : EvActor} (hphases : a.phases = b.phases) (hlimit : a.charging.limit = b.charging.limit)
    (hsource : a.charging.source = b.charging.source) : a.limitList = b.limitList := by
  rw [limitList, limitList, inForce, inForce, hphases, hlimit, hsource]

variable {write : WriteRequest S} {now : Nat}

/-- The limit, the source and the currents are what they would be at the car's clock, and what is published is
what it was. -/
def Untouched (actor : EvActor) (e : Engine S) (after : EvActor) (e' : Engine S) : Prop :=
  (after.charging.limit = actor.charging.limit ∧
    after.charging.source = (actor.charging.handleTimeout after.charging.now).source ∧
    ∀ phase, after.charging.effective phase = (actor.charging.handleTimeout after.charging.now).effective phase) ∧
  after.publishedLimits e' = actor.publishedLimits e

/-- A refusal of the write changes nothing. -/
def RefusesQuietly (functions : CarFunctions S) (actor : EvActor) (e : Engine S) (write : WriteRequest S)
    (now : Nat) : Prop :=
  ∀ after e' request,
    actor.handleEvent functions e (.writeRequested write) now = some (after, e', some (.refused request)) →
    actor.Untouched e after e'

/-- The write is refused before the car takes it, or stops the car's own arithmetic, or is stored, or brings
the limit that is in place and published, and does not pass for a first heartbeat. -/
def BringsNothing (actor : EvActor) (e : Engine S) (write : WriteRequest S) (now : Nat) : Prop :=
  match readLimits write.data, readLimits write.resolved with
  | some written, some resolved =>
    let currents := actor.followed resolved
    (!written.isEmpty && currents.isEmpty) = true ∨ actor.charging.taken currents = none ∨
      (e.acceptWrite write.token).2 = .ok () ∨
      actor.charging.taken currents = actor.charging.limit ∧ actor.charging.KeepsWatch currents ∧
        actor.publishedLimits e = some ⟨.loadControlLimitListData,
          limitList { actor with charging := actor.charging.handleTimeout now }⟩
  | _, _ => True

theorem untouched_refuse (actor : EvActor) (e : Engine S) (write : WriteRequest S) :
    actor.Untouched e (actor.refuse e write).1 (actor.refuse e write).2.1 := by
  have hclock : actor.charging.handleTimeout actor.charging.now = actor.charging := by
    rw [EvCharging.handleTimeout, Nat.max_self]
  refine ⟨⟨rfl, ?_, fun phase => ?_⟩, ?_⟩
  · exact congrArg EvCharging.source hclock.symm
  · exact congrArg (EvCharging.effective · phase) hclock.symm
  · exact congrArg (fun device : LocalDevice S => device.data actor.loadControl limits)
      (e.rejectWrite_device write.token .commandRejected)

theorem refusesQuietly_iff (hwrite : write.feature = actor.loadControl) :
    RefusesQuietly functions actor e write now ↔ ∀ after e' request,
      actor.decide functions e write now = some (after, e', .refused request) → actor.Untouched e after e' := by
  have hevent : actor.handleEvent functions e (.writeRequested write) now =
      (actor.decide functions e write now).map fun r => (r.1, r.2.1, some r.2.2) := if_pos hwrite
  rw [RefusesQuietly, hevent]
  refine forall₃_congr fun after e' request => imp_congr_left ?_
  cases actor.decide functions e write now with
  | none => exact iff_of_false nofun nofun
  | some r =>
    obtain ⟨moved, e'', event⟩ := r
    simp

theorem refusesQuietly_iff_of_refused (hwrite : write.feature = actor.loadControl) {after : EvActor} {e' : Engine S}
    {request : MsgCounter} (h : actor.decide functions e write now = some (after, e', .refused request)) :
    RefusesQuietly functions actor e write now ↔ actor.Untouched e after e' := by
  rw [refusesQuietly_iff hwrite, h]
  constructor
  · exact fun hquiet => hquiet _ _ _ rfl
  · intro hsame after' e'' request' heq
    obtain ⟨rfl, hrest⟩ := Prod.mk.inj (Option.some.inj heq)
    obtain ⟨rfl, -⟩ := Prod.mk.inj hrest
    exact hsame

theorem refusesQuietly_of_refuse (hwrite : write.feature = actor.loadControl)
    (h : actor.decide functions e write now = some (actor.refuse e write)) :
    RefusesQuietly functions actor e write now :=
  (refusesQuietly_iff_of_refused hwrite h).mpr (actor.untouched_refuse e write)

variable (functions e now) in
theorem decide_taken {written resolved : ChargingCurrents F64} (hwritten : readLimits write.data = some written)
    (hresolved : readLimits write.resolved = some resolved)
    (hfollows : ¬(!written.isEmpty && (actor.followed resolved).isEmpty) = true)
    {limit : ChargingCurrents F64} (htaken : actor.charging.taken (actor.followed resolved) = some limit) :
    let moved := { actor with charging := (actor.charging.onLimit (actor.followed resolved) now).1 }
    actor.decide functions e write now = some (moved, moved.publish functions (e.acceptWrite write.token).1,
      match (e.acceptWrite write.token).2 with
      | .ok () => .curtailed write.request
          ⟨moved.charging.effective .a, moved.charging.effective .b, moved.charging.effective .c⟩
      | .error _ => .refused write.request) := by
  unfold decide
  rw [hwritten, hresolved]
  dsimp only
  rw [if_neg hfollows, EvCharging.onLimit_of_taken htaken]
  dsimp only
  rcases e.acceptWrite write.token with ⟨e', result⟩
  cases result <;> rfl

theorem decide_stopped {written resolved : ChargingCurrents F64} (hwritten : readLimits write.data = some written)
    (hresolved : readLimits write.resolved = some resolved)
    (hfollows : ¬(!written.isEmpty && (actor.followed resolved).isEmpty) = true)
    (htaken : actor.charging.taken (actor.followed resolved) = none) :
    actor.decide functions e write now = none := by
  unfold decide
  rw [hwritten, hresolved]
  dsimp only
  rw [if_neg hfollows]
  rcases honLimit : actor.charging.onLimit (actor.followed resolved) now with ⟨charging, answer⟩
  have hanswer := EvCharging.onLimit_of_not_taken htaken now
  rw [honLimit] at hanswer
  dsimp only at hanswer
  rw [hanswer]

variable (write now) in
theorem untouched_unstored_iff (hapart : functions.Apart) (hserves : Serves e actor.loadControl)
    {currents limit : ChargingCurrents F64} (htaken : actor.charging.taken currents = some limit) :
    let moved := { actor with charging := (actor.charging.onLimit currents now).1 }
    actor.Untouched e moved (moved.publish functions (e.acceptWrite write.token).1) ↔
      actor.charging.taken currents = actor.charging.limit ∧ actor.charging.KeepsWatch currents ∧
        actor.publishedLimits e = some ⟨.loadControlLimitListData,
          limitList { actor with charging := actor.charging.handleTimeout now }⟩ := by
  intro moved
  have hmoved := EvCharging.onLimit_of_taken htaken now
  have hlimit : moved.charging.limit = some limit := congrArg (fun r => r.1.limit) hmoved
  have hsafe : moved.charging.safe = actor.charging.safe := congrArg (fun r => r.1.safe) hmoved
  have hclock : actor.charging.handleTimeout moved.charging.now = actor.charging.handleTimeout now := by
    have hnow : moved.charging.now = max actor.charging.now now := congrArg (fun r => r.1.now) hmoved
    rw [hnow, EvCharging.handleTimeout, EvCharging.handleTimeout, ← Nat.max_assoc, Nat.max_self]
  have hpublished : moved.publishedLimits (moved.publish functions (e.acceptWrite write.token).1) =
      some ⟨.loadControlLimitListData, moved.limitList⟩ :=
    moved.publishedLimits_publish hapart (hserves.reshaped (e.finishWrite_reshaped write.token none))
  rw [Untouched, hclock, hlimit, htaken, hpublished, and_assoc]
  refine and_congr_right fun hsame => ?_
  have hsource := EvCharging.source_taken_iff hsame.symm htaken now
  have hlist : moved.charging.source = (actor.charging.handleTimeout now).source →
      moved.limitList = limitList { actor with charging := actor.charging.handleTimeout now } :=
    fun hkept => limitList_congr (a := moved) rfl (hlimit.trans hsame) hkept
  constructor
  · rintro ⟨⟨hkept, -⟩, hsync⟩
    exact ⟨hsource.mp hkept, hsync.symm.trans (by rw [hlist hkept])⟩
  · rintro ⟨hkeeps, hsync⟩
    have hkept := hsource.mpr hkeeps
    refine ⟨⟨hkept, EvCharging.effective_congr hkept (hlimit.trans hsame) hsafe⟩, ?_⟩
    rw [hsync, hlist hkept]

/-- A refused write changes nothing exactly where it brings nothing: it is refused before the car takes it,
or it is the limit that is in place and published, or else the engine stores it. -/
theorem refuses_quietly_iff (hapart : functions.Apart) (hserves : Serves e actor.loadControl)
    (hwrite : write.feature = actor.loadControl) :
    RefusesQuietly functions actor e write now ↔ BringsNothing actor e write now := by
  by_cases hread : ∃ written resolved,
      readLimits write.data = some written ∧ readLimits write.resolved = some resolved
  · obtain ⟨written, resolved, hwritten, hresolved⟩ := hread
    rw [BringsNothing, hwritten, hresolved]
    dsimp only
    by_cases hfollows : (!written.isEmpty && (actor.followed resolved).isEmpty) = true
    · refine iff_of_true (refusesQuietly_of_refuse hwrite ?_) (.inl hfollows)
      unfold decide
      rw [hwritten, hresolved]
      exact if_pos hfollows
    rw [or_iff_right hfollows]
    cases htaken : actor.charging.taken (actor.followed resolved) with
    | none =>
      refine iff_of_true ?_ (.inl rfl)
      rw [refusesQuietly_iff hwrite, decide_stopped hwritten hresolved hfollows htaken]
      intro after e' request heq
      cases heq
    | some limit =>
      have hdecided := decide_taken functions e now hwritten hresolved hfollows htaken
      have huntouched := untouched_unstored_iff write now hapart hserves htaken
      rw [htaken] at huntouched
      rw [or_iff_right nofun]
      cases hresult : (e.acceptWrite write.token).2 with
      | ok done =>
        rw [hresult] at hdecided
        refine iff_of_true ?_ (.inl rfl)
        rw [refusesQuietly_iff hwrite, hdecided]
        intro after e' request heq
        cases (Prod.mk.inj (Prod.mk.inj (Option.some.inj heq)).2).2
      | error error =>
        rw [hresult] at hdecided
        rw [or_iff_right nofun]
        exact (refusesQuietly_iff_of_refused hwrite hdecided).trans huntouched
  · have hrefuse : BringsNothing actor e write now ∧
        actor.decide functions e write now = some (actor.refuse e write) := by
      unfold BringsNothing decide
      constructor
      · split
        case h_1 written resolved hwritten hresolved => exact absurd ⟨written, resolved, hwritten, hresolved⟩ hread
        case h_2 => trivial
      · split
        case h_1 written resolved hwritten hresolved => exact absurd ⟨written, resolved, hwritten, hresolved⟩ hread
        case h_2 => rfl
    exact iff_of_true (refusesQuietly_of_refuse hwrite hrefuse.2) hrefuse.1

end EvActor

namespace Scenario

/-- Ten amperes on the first phase, which the car looks at only when the engine has given up on them. -/
abbrev overdue : Plugged carSchema :=
  after (curtailed ++ [.engine (.handleDatagram firstPhase (fromSecs 2)), .engine (.handleTimeout (fromSecs 13))])

/-- The guard has been answered with an error, and the car charges on at ten amperes. -/
theorem refused_limit_stays :
    ∃ write, requestsIn overdue.engine.events = [write] ∧ write.feature = overdue.actor.loadControl ∧
      ¬EvActor.RefusesQuietly carFunctions overdue.actor overdue.engine write (fromSecs 13) := by
  have hone : (requestsIn overdue.engine.events).length = 1 := by decide +kernel
  have hfacts : ∀ write ∈ requestsIn overdue.engine.events, write.feature = overdue.actor.loadControl ∧
      ((overdue.actor.handleEvent carFunctions overdue.engine (.writeRequested write) (fromSecs 13)).any
        fun r => decide (r.2.2 = some (.refused 3)) &&
          decide (r.1.charging.limit ≠ overdue.actor.charging.limit)) = true := by decide +kernel
  obtain ⟨write, hwrite⟩ := List.length_eq_one_iff.mp hone
  have hmem : write ∈ requestsIn overdue.engine.events := by
    rw [hwrite]
    exact List.mem_singleton_self write
  obtain ⟨hfeature, hany⟩ := hfacts write hmem
  obtain ⟨⟨moved, e, event⟩, hhandled, hboth⟩ := (Option.any_eq_true _ _).mp hany
  obtain ⟨hrefused, hchanged⟩ := Bool.and_eq_true_iff.mp hboth
  obtain rfl : event = some (.refused 3) := of_decide_eq_true hrefused
  refine ⟨write, hwrite, hfeature, fun hquiet => ?_⟩
  exact of_decide_eq_true hchanged (hquiet _ _ _ hhandled).1.1

/-- A limit on a phase the car does not charge on comes to nothing. -/
theorem foreign_phase_refused_quietly :
    let payload : CmdData carSchema := ⟨.loadControlLimitListData, ⟨some [limitOf 2 10]⟩⟩
    EvActor.RefusesQuietly carFunctions { plugged.actor with phases := [.a] } plugged.engine
      ⟨1, 3, carLimits, guardClient, payload, payload, false, false⟩ 0 := by
  intro payload
  have hapart : carFunctions.Apart := ⟨fun _ => nofun, fun _ => nofun⟩
  have hserves : Limitation.Serves plugged.engine carLimits := ⟨Limitation.loadControlFeature 1, rfl, rfl, rfl⟩
  have hread : readLimits payload = some ⟨none, some (amperes 10), none⟩ := by decide +kernel
  refine (EvActor.refuses_quietly_iff hapart hserves rfl).mpr ?_
  rw [EvActor.BringsNothing, hread]
  exact .inl (by decide +kernel)

end Scenario

end Eebus.Emobility
