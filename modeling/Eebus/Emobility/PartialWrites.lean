import Eebus.Emobility.EvActor
import Eebus.Limitation.Delivery

/-!
A write of some phases' limits, and what becomes of the others: those the document the write meets
still shows in force.
-/

namespace Eebus.Emobility

open Eebus.Library Eebus.Model Eebus.Spine
open Eebus.Limitation (limitsOf apply_limits mergeLimit)

variable {S : Schema}

def entryPhase (entry : LoadControlLimitData) : Option PhaseName := entry.limitId.bind phaseOf

def entryCurrent (entry : LoadControlLimitData) : Option F64 :=
  if entry.isLimitActive = some false then none else entry.value.bind ScaledNumber.toF64

def standsOver (phase : PhaseName) (found : Option F64) (entry : LoadControlLimitData) : Option F64 :=
  if entryPhase entry = some phase then entryCurrent entry else found

def standing (list : LoadControlLimitListData) (phase : PhaseName) : Option F64 :=
  (list.loadControlLimitData.getD []).foldl (standsOver phase) none

def named (data : CmdData S) : List PhaseName :=
  match data with
  | ⟨.loadControlLimitListData, list⟩ => (list.loadControlLimitData.getD []).filterMap entryPhase
  | _ => []

variable {phase : PhaseName}

theorem readLimitEntry_get (hphase : phase ∈ phases)
    {found next : ChargingCurrents F64 × Bool} {entry : LoadControlLimitData}
    (h : readLimitEntry binaryDecimals found entry = some next) :
    next.1.get phase = standsOver phase (found.1.get phase) entry := by
  have hset : ∀ (other : PhaseName) (amperes : Option F64), entryPhase entry = some other →
      entryCurrent entry = amperes →
        (found.1.set other amperes).get phase = standsOver phase (found.1.get phase) entry := by
    intro other amperes hother hcurrent
    by_cases heq : other = phase
    · subst heq
      rw [ChargingCurrents.get_set_self _ hphase, standsOver, if_pos hother, hcurrent]
    · rw [ChargingCurrents.get_set_of_ne _ (Ne.symm heq), standsOver, if_neg (by simp [hother, heq])]
  unfold readLimitEntry at h
  split at h
  case h_1 hnone =>
    obtain rfl := Option.some.inj h
    rw [standsOver, if_neg (by simp [entryPhase, hnone])]
  case h_2 other hother =>
    split at h
    case isTrue hinactive =>
      obtain rfl := Option.some.inj h
      exact hset other none hother (if_pos hinactive)
    case isFalse hactive =>
      cases hvalue : entry.value with
      | none =>
        rw [hvalue] at h
        obtain rfl := Option.some.inj h
        exact hset other none hother (by rw [entryCurrent, if_neg hactive, hvalue, Option.bind_none])
      | some value =>
        rw [hvalue] at h
        obtain ⟨amperes, hamperes, rfl⟩ := Option.map_eq_some_iff.mp h
        refine hset other (some amperes) hother ?_
        rw [entryCurrent, if_neg hactive, hvalue]
        exact hamperes

theorem readLimitWrite_get (hphase : phase ∈ phases)
    {list : LoadControlLimitListData} {currents : ChargingCurrents F64}
    (h : readLimitWrite binaryDecimals list = some currents) :
    currents.get phase = standing list phase := by
  have hfold : ∀ (entries : List LoadControlLimitData) (found last : ChargingCurrents F64 × Bool),
      entries.foldlM (readLimitEntry binaryDecimals) found = some last →
        last.1.get phase = entries.foldl (standsOver phase) (found.1.get phase) := by
    intro entries
    induction entries with
    | nil =>
      intro found last hlast
      obtain rfl := Option.some.inj hlast
      rfl
    | cons entry rest ih =>
      intro found last hlast
      obtain ⟨next, hnext, hrest⟩ := Option.bind_eq_some_iff.mp hlast
      rw [ih next last hrest, readLimitEntry_get hphase hnext, List.foldl_cons]
  obtain ⟨⟨found, sawOne⟩, hread, hcurrents⟩ := Option.bind_eq_some_iff.mp h
  have hsome := hfold _ _ _ hread
  have hdefault : (ChargingCurrents.default : ChargingCurrents F64).get phase = none := by
    cases phase <;> rfl
  dsimp only at hcurrents
  split at hcurrents
  · obtain rfl := Option.some.inj hcurrents
    rw [standing, hsome, hdefault]
  · cases hcurrents

theorem standing_mergeLimit {update : LoadControlLimitData}
    (hother : entryPhase update ≠ some phase) (entries : List LoadControlLimitData)
    (found : Option F64) : (mergeLimit entries update).foldl (standsOver phase) found =
      entries.foldl (standsOver phase) found := by
  have hskip : ∀ (found : Option F64) (entry : LoadControlLimitData),
      entryPhase entry ≠ some phase → standsOver phase found entry = found :=
    fun _ _ hentry => if_neg hentry
  induction entries generalizing found with
  | nil => exact hskip found update hother
  | cons first rest ih =>
    have hmerge : mergeLimit (first :: rest) update =
        if loadControlLimitListType.sameEntry first update then first.merge update :: rest
        else first :: mergeLimit rest update := rfl
    rw [hmerge]
    split
    case isFalse => exact ih (standsOver phase found first)
    case isTrue hsame =>
      have hidentity : first.limitId = update.limitId ∧ (first.merge update).limitId = update.limitId := by
        have hid : ∀ e : LoadControlLimitData, loadControlLimitListType.identity e = e.limitId :=
          fun _ => rfl
        simp only [FunctionType.sameEntry, hid] at hsame
        cases hfirst : first.limitId with
        | none => simp [hfirst] at hsame
        | some id =>
          cases hupdate : update.limitId with
          | none => simp [hfirst, hupdate] at hsame
          | some id' =>
            simp only [hfirst, hupdate, decide_eq_true_eq] at hsame
            refine ⟨congrArg some hsame, ?_⟩
            simp [LoadControlLimitData.merge, hupdate]
      have hfirst : entryPhase first ≠ some phase := by
        rwa [entryPhase, hidentity.1]
      have hmerged : entryPhase (first.merge update) ≠ some phase := by
        rwa [entryPhase, hidentity.2]
      rw [List.foldl_cons, List.foldl_cons, hskip found _ hmerged, hskip found _ hfirst]

theorem standing_applyPartial (list fragment : LoadControlLimitListData)
    (hother : phase ∉ (fragment.loadControlLimitData.getD []).filterMap entryPhase) :
    standing (loadControlLimitListType.applyPartial list fragment) phase = standing list phase := by
  obtain ⟨entries⟩ := list
  obtain ⟨updates⟩ := fragment
  cases updates with
  | none => rfl
  | some updates =>
    have happlied : loadControlLimitListType.applyPartial ⟨entries⟩ ⟨some updates⟩ =
        ⟨some (updates.foldl mergeLimit (entries.getD []))⟩ := rfl
    rw [happlied, standing, standing]
    clear happlied
    dsimp only [Option.getD_some] at hother ⊢
    generalize entries.getD [] = entries
    induction updates generalizing entries with
    | nil => rfl
    | cons update rest ih =>
      have hupdate : entryPhase update ≠ some phase := fun heq =>
        hother (List.mem_filterMap.mpr ⟨update, List.mem_cons_self, heq⟩)
      have hrest : phase ∉ rest.filterMap entryPhase := fun hmem => hother (by
        obtain ⟨e, he, heq⟩ := List.mem_filterMap.mp hmem
        exact List.mem_filterMap.mpr ⟨e, List.mem_cons_of_mem update he, heq⟩)
      rw [List.foldl_cons, ih hrest]
      exact standing_mergeLimit hupdate entries none

def saysOf (data : CmdData S) (phase : PhaseName) : Option F64 :=
  match data with
  | ⟨.loadControlLimitListData, list⟩ => standing list phase
  | _ => none

def met (stored : Option (CmdData S)) (data : CmdData S) (ops : WriteOps S) : Option (CmdData S) :=
  (stored.or (CmdData.empty data.function)).bind fun start =>
    match runSteps (deleteStep data) ops.deleteSteps start with
    | (left, .ok ()) => some left
    | (_, .error _) => none

theorem readLimits_get (hphase : phase ∈ phases) {data : CmdData S}
    {currents : ChargingCurrents F64} (h : readLimits data = some currents) :
    currents.get phase = saysOf data phase := by
  obtain ⟨key, value⟩ := data
  cases key
  case loadControlLimitListData => exact readLimitWrite_get hphase h
  all_goals cases h

theorem saysOf_fragment {data : CmdData S} (hother : phase ∉ named data) :
    saysOf data phase = none := by
  obtain ⟨key, list⟩ := data
  cases key
  case loadControlLimitListData =>
    have happlied := standing_applyPartial ⟨none⟩ list hother
    obtain ⟨entries⟩ := list
    cases entries with
    | none => rfl
    | some entries =>
      simp only [saysOf, standing, Option.getD_some]
      have hskip : ∀ e ∈ entries, entryPhase e ≠ some phase := fun e he heq =>
        hother (List.mem_filterMap.mpr ⟨e, he, heq⟩)
      clear happlied hother
      induction entries with
      | nil => rfl
      | cons first rest ih =>
        rw [List.foldl_cons, standsOver, if_neg (hskip first List.mem_cons_self)]
        exact ih fun e he => hskip e (List.mem_cons_of_mem first he)
  all_goals rfl

theorem saysOf_of_key {data : CmdData S} (h : data.key ≠ .loadControlLimitListData)
    (phase : PhaseName) : saysOf data phase = none := by
  obtain ⟨key, value⟩ := data
  cases key
  case loadControlLimitListData => exact absurd rfl h
  all_goals rfl

theorem saysOf_resolveWrite {stored : Option (CmdData S)} {data : CmdData S}
    {ops : WriteOps S} (hlimits : (readLimits data).isSome = true) (hmerged : ops.isPartial = true)
    (hstores : ops.stores = true) (hother : phase ∉ named data) :
    saysOf (resolveWrite stored data ops) phase = (met stored data ops).bind (saysOf · phase) := by
  unfold resolveWrite met
  cases hstart : stored.or (CmdData.empty data.function) with
  | none => exact saysOf_fragment hother
  | some start =>
    simp only [Option.bind_some]
    rcases hrun : runSteps (deleteStep data) ops.deleteSteps start with ⟨left, result⟩
    simp only [WriteOps.resolve, hrun]
    cases result with
    | error error => exact saysOf_fragment hother
    | ok _ =>
      simp only [hstores, if_true, hmerged, Option.bind_some]
      obtain ⟨key, fragment⟩ := data
      cases key
      case loadControlLimitListData =>
        by_cases hkey : left.key = .loadControlLimitListData
        · obtain ⟨_, list⟩ := left
          cases hkey
          have happlied := apply_limits (S := S) list fragment
          simp only [limitsOf] at happlied
          simp only [happlied]
          exact standing_applyPartial list fragment hother
        · have hdiffers : ¬(CmdData.mk (S := S) .loadControlLimitListData fragment).key = left.key :=
            fun heq => hkey heq.symm
          simp only [CmdData.apply, dif_neg hdiffers, saysOf_of_key hkey]
          exact saysOf_fragment hother
      all_goals cases hlimits

section Held

variable {α : Type*} [LE α] [DecidableLE α] [LT α] [DecidableLT α] [Min α] [Max α]

theorem clampPhase_get {band : ChargingBand α} {currents next : ChargingCurrents α}
    (hphase : phase ∈ phases) (h : currents.clampPhase band phase = some next) :
    next.get phase = (currents.get phase).bind (fun value =>
      match band.heldIn phase with
      | some (lo, hi) => clamp value lo hi
      | none => some value) ∧
    ∀ p ≠ phase, next.get p = currents.get p := by
  unfold ChargingCurrents.clampPhase at h
  split at h
  case h_1 value lo hi hvalue hband =>
    obtain ⟨held, hheld, rfl⟩ := Option.map_eq_some_iff.mp h
    refine ⟨?_, fun p hp => ChargingCurrents.get_set_of_ne _ hp _⟩
    rw [ChargingCurrents.get_set_self _ hphase, hvalue, hband]
    exact hheld.symm
  case h_2 hnever =>
    obtain rfl := Option.some.inj h
    refine ⟨?_, fun _ _ => rfl⟩
    cases hvalue : currents.get phase with
    | none => rfl
    | some value =>
      cases hband : band.heldIn phase with
      | none => rfl
      | some bounds => exact absurd hband (hnever value bounds.1 bounds.2 hvalue)

theorem clamped_get {band : ChargingBand α} {currents held : ChargingCurrents α}
    (hphase : phase ∈ phases) (h : currents.clamped band = some held) :
    held.get phase = (currents.get phase).bind (fun value =>
      match band.heldIn phase with
      | some (lo, hi) => clamp value lo hi
      | none => some value) := by
  unfold ChargingCurrents.clamped phases at h
  simp only [List.foldlM_cons, List.foldlM_nil] at h
  obtain ⟨first, hfirst, h⟩ := Option.bind_eq_some_iff.mp h
  obtain ⟨second, hsecond, h⟩ := Option.bind_eq_some_iff.mp h
  obtain ⟨third, hthird, h⟩ := Option.bind_eq_some_iff.mp h
  obtain rfl := Option.some.inj h
  obtain ⟨ha, hothers⟩ := clampPhase_get (by decide) hfirst
  obtain ⟨hb, hothers'⟩ := clampPhase_get (by decide) hsecond
  obtain ⟨hc, hothers''⟩ := clampPhase_get (by decide) hthird
  simp only [phases, List.mem_cons, List.not_mem_nil, or_false] at hphase
  rcases hphase with rfl | rfl | rfl
  · rw [hothers'' .a (by decide), hothers' .a (by decide), ha]
  · rw [hothers'' .b (by decide), hb, hothers .b (by decide)]
  · rw [hc, hothers' .c (by decide), hothers .c (by decide)]

namespace EvCharging

/-- The limit on one phase, whether or not it is in force. -/
def limitOn (ev : EvCharging α) (phase : PhaseName) : Option α :=
  ev.limit.bind fun limit => limit.get phase

def heldOn (ev : EvCharging α) (value : α) : Option α :=
  match ev.range with
  | some (min, max) => clamp value (Band.ordered min max).1 (Band.ordered min max).2
  | none => some value

omit [LE α] [DecidableLE α] [LT α] [DecidableLT α] in
theorem uniform_heldIn (min max : α) (hphase : phase ∈ phases) :
    (ChargingBand.uniform min max).heldIn phase = some (.ordered min max) := by
  simp only [phases, List.mem_cons, List.not_mem_nil, or_false] at hphase
  rcases hphase with rfl | rfl | rfl <;> rfl

theorem limitOn_onLimit {ev after : EvCharging α} {currents : ChargingCurrents α} {now : Nat}
    (h : ev.onLimit currents now = (after, some true)) (hphase : phase ∈ phases) :
    after.limitOn phase = (currents.get phase).bind ev.heldOn := by
  unfold onLimit at h
  dsimp only at h
  split at h
  case isTrue hempty =>
    obtain ⟨rfl, -⟩ := Prod.mk.inj h
    have hnone : currents.get phase = none := by
      by_contra hsome
      obtain ⟨value, hvalue⟩ := Option.ne_none_iff_exists'.mp hsome
      have hmem : (phase, value) ∈ currents.phases :=
        List.mem_filterMap.mpr ⟨phase, hphase, by rw [hvalue]; rfl⟩
      rw [List.isEmpty_iff.mp hempty] at hmem
      exact List.not_mem_nil hmem
    rw [limitOn, hnone]
    exact hnone
  case isFalse =>
    cases hheld : ({ ev with now := max ev.now now } : EvCharging α).held currents with
    | none =>
      rw [hheld] at h
      cases (Prod.mk.inj h).2
    | some held =>
      rw [hheld] at h
      obtain ⟨rfl, -⟩ := Prod.mk.inj h
      have hkept : held.get phase = (currents.get phase).bind ev.heldOn := by
        unfold EvCharging.held at hheld
        dsimp only at hheld
        cases hrange : ev.range with
        | none =>
          rw [hrange] at hheld
          obtain rfl := Option.some.inj hheld
          cases hvalue : currents.get phase with
          | none => rfl
          | some value => simp [heldOn, hrange]
        | some bounds =>
          obtain ⟨min, max⟩ := bounds
          rw [hrange] at hheld
          rw [clamped_get hphase hheld, uniform_heldIn _ _ hphase]
          refine congrArg (Option.bind (currents.get phase)) (funext fun value => ?_)
          simp only [heldOn, hrange]
      exact hkept

end EvCharging

end Held

namespace EvActor

theorem followed_get (actor : EvActor) (currents : ChargingCurrents F64)
    (hphase : phase ∈ actor.phases) : (actor.followed currents).get phase = currents.get phase := by
  have hfold : ∀ (list : List PhaseName) (currents : ChargingCurrents F64),
      (list.foldl (fun currents p => if p ∈ actor.phases then currents else currents.set p none)
        currents).get phase = currents.get phase := by
    intro list
    induction list with
    | nil => exact fun _ => rfl
    | cons first rest ih =>
      intro currents
      rw [List.foldl_cons, ih]
      split
      · rfl
      · rename_i hfirst
        exact ChargingCurrents.get_set_of_ne _ (fun heq : phase = first => hfirst (heq ▸ hphase)) _
  exact hfold _ _

variable {S : Schema} {functions : CarFunctions S} {actor after : EvActor} {e e' : Engine S}
  {write : WriteRequest S} {now : Nat} {request : MsgCounter} {currents : ChargingCurrents F64}

theorem decide_curtailed
    (h : actor.decide functions e write now = some (after, e', .curtailed request currents)) :
    ∃ resolved, (readLimits write.data).isSome = true ∧ readLimits write.resolved = some resolved ∧
      actor.charging.onLimit (actor.followed resolved) now = (after.charging, some true) := by
  unfold EvActor.decide at h
  split at h
  case h_2 => cases (Prod.mk.inj (Prod.mk.inj (Option.some.inj h)).2).2
  case h_1 written resolved hwritten hresolved =>
    dsimp only at h
    split at h
    case isTrue => cases (Prod.mk.inj (Prod.mk.inj (Option.some.inj h)).2).2
    case isFalse =>
      refine ⟨resolved, by rw [hwritten]; rfl, hresolved, ?_⟩
      split at h
      case h_1 => cases h
      case h_2 => cases (Prod.mk.inj (Prod.mk.inj (Option.some.inj h)).2).2
      case h_3 charging hlimit =>
        split at h
        case h_1 => cases (Prod.mk.inj (Prod.mk.inj (Option.some.inj h)).2).2
        case h_2 =>
          obtain ⟨rfl, -⟩ := Prod.mk.inj (Option.some.inj h)
          exact hlimit

theorem limitOn_handleEvent {event : EvEvent} (hevent : event = .curtailed request currents)
    (h : actor.handleEvent functions e (.writeRequested write) now = some (after, e', some event))
    (hphase : phase ∈ Emobility.phases) (hcar : phase ∈ actor.phases) :
    (readLimits write.data).isSome = true ∧
      after.charging.limitOn phase =
        (saysOf write.resolved phase).bind actor.charging.heldOn := by
  subst hevent
  unfold EvActor.handleEvent at h
  dsimp only at h
  split at h
  case isFalse => cases (Prod.mk.inj (Prod.mk.inj (Option.some.inj h)).2).2
  case isTrue =>
    obtain ⟨⟨decided, left, answer⟩, hdecided, heq⟩ := Option.map_eq_some_iff.mp h
    obtain ⟨rfl, hrest⟩ := Prod.mk.inj heq
    obtain ⟨-, hanswer⟩ := Prod.mk.inj hrest
    obtain rfl := Option.some.inj hanswer
    obtain ⟨resolved, hread, hresolved, htaken⟩ := decide_curtailed hdecided
    refine ⟨hread, ?_⟩
    rw [EvCharging.limitOn_onLimit htaken hphase, actor.followed_get resolved hcar,
      readLimits_get hphase hresolved]

end EvActor

def Plugged.meets (s : Plugged S) (datagram : Datagram S) (write : WriteRequest S) :
    Option (CmdData S) :=
  datagram.commands.head?.bind fun cmd =>
    met (s.engine.device.data write.feature write.data.function) write.data (WriteOps.of cmd)

def Plugged.shown (s : Plugged S) (datagram : Datagram S) (write : WriteRequest S)
    (phase : PhaseName) : Option F64 :=
  (s.meets datagram write).bind (saysOf · phase)

/-- The limits of the phases a write does not name are what they were. -/
def KeepsOthers (write : WriteRequest S) (before after : EvActor) : Prop :=
  ∀ phase ∈ phases, phase ∈ before.phases → phase ∉ named write.data →
    after.charging.limitOn phase = before.charging.limitOn phase

/-- The document the write met shows the limits of the phases it does not name: in force, and as the
car would hold them. -/
def ShowsOthers (arrived : Plugged S) (datagram : Datagram S) (write : WriteRequest S)
    (actor : EvActor) : Prop :=
  ∀ phase ∈ phases, phase ∈ actor.phases → phase ∉ named write.data →
    (arrived.shown datagram write phase).bind actor.charging.heldOn = actor.charging.limitOn phase

instance (write : WriteRequest S) (before after : EvActor) : Decidable (KeepsOthers write before after) :=
  inferInstanceAs (Decidable (∀ _ ∈ phases, _ → _ → _ = _))

instance (arrived : Plugged S) (datagram : Datagram S) (write : WriteRequest S) (actor : EvActor) :
    Decidable (ShowsOthers arrived datagram write actor) :=
  inferInstanceAs (Decidable (∀ _ ∈ phases, _ → _ → _ = _))

theorem saysOf_put {arrived : Plugged S} {datagram : Datagram S} {now : Nat} {write : WriteRequest S}
    (hput : write ∈ arrived.engine.puts (.handleDatagram datagram now))
    (hmerged : write.isPartial = true) (hlimits : (readLimits write.data).isSome = true)
    (hother : phase ∉ named write.data) :
    saysOf write.resolved phase = arrived.shown datagram write phase := by
  rw [Engine.puts] at hput
  cases arrived.engine.handleDatagram_puts datagram now with
  | inl hnone =>
    rw [hnone.1] at hput
    exact absurd hput List.not_mem_nil
  | inr hsome =>
    obtain ⟨w, put, filed, hdeferral⟩ := hsome
    rw [hdeferral.told] at hput
    obtain rfl := List.mem_singleton.mp hput
    have hops : w.ops.isPartial = true := hdeferral.isPartial ▸ hmerged
    have hstores : w.ops.stores = true := by
      have hcmd : w.cmd.isPartial = true := hops
      simp [DatagramWrite.ops, WriteOps.of, hcmd]
    have hstored : arrived.engine.device.data write.feature w.data.function =
        w.feature.data w.data.function := by
      rw [LocalDevice.data, hdeferral.feature, hdeferral.admitted.resolved]
      rfl
    rw [hdeferral.payload] at hlimits hother
    rw [hdeferral.preview, saysOf_resolveWrite hlimits hops hstores hother, Plugged.shown,
      Plugged.meets, hdeferral.admitted.command, hdeferral.payload, hstored]
    rfl

/-- In every run, a partial write that is accepted leaves the limits of the phases it does not name as
they were exactly when the document it met, as it arrived, showed them. -/
theorem others_kept_iff_shown (functions : CarFunctions S) (actor : EvActor) (device : LocalDevice S)
    (earlier : List (EngineOp S)) (before after : List (EvCall S)) (datagram : Datagram S)
    (now later : Nat) (write : WriteRequest S) (decided : EvActor) (e : Engine S)
    (request : MsgCounter) (currents : ChargingCurrents F64) :
    let started : Plugged S := ⟨actor, Engine.machine.run (Engine.new device) earlier⟩
    let arrived := (Plugged.host functions).run started before
    let s := (Plugged.host functions).run started
      (before ++ .engine (.handleDatagram datagram now) :: after)
    write ∈ arrived.engine.puts (.handleDatagram datagram now) → write.isPartial = true →
    s.actor.handleEvent functions s.engine (.writeRequested write) later =
      some (decided, e, some (.curtailed request currents)) →
    (KeepsOthers write s.actor decided ↔ ShowsOthers arrived datagram write s.actor) := by
  intro started arrived s hput hmerged hdecided
  refine forall₂_congr fun phase hphase => forall₂_congr fun hcar hother => ?_
  obtain ⟨hlimits, hlimit⟩ := EvActor.limitOn_handleEvent rfl hdecided hphase hcar
  rw [hlimit, saysOf_put hput hmerged hlimits hother]

namespace Scenario

inductive CarFunction
  | parameterDescriptions
  | permittedValueSets
  | state
deriving DecidableEq

def CarFunction.Data : CarFunction → Type
  | .parameterDescriptions => Option (List ParameterDescription)
  | .permittedValueSets => Option (List PermittedValueSet)
  | .state => Option DeviceDiagnosisOperatingState

def carSchema : Schema :=
  .ofOther CarFunction CarFunction.Data fun
    | .parameterDescriptions => .whole (Option (List ParameterDescription)) none
    | .permittedValueSets => .whole (Option (List PermittedValueSet)) none
    | .state => .whole (Option DeviceDiagnosisOperatingState) none

def carFunctions : CarFunctions carSchema where
  parameterDescriptions entries := ⟨.other .parameterDescriptions, entries⟩
  permittedValueSets entries := ⟨.other .permittedValueSets, entries⟩
  readOperatingState
    | ⟨.other .state, state⟩ => state
    | _ => none

def car : AddressDevice := "d:_i:1_Car"
def guard : AddressDevice := "d:_i:2_Cem"
def carLimits : FeatureAddress := featureAddress car [1] 1
def carConnection : FeatureAddress := featureAddress car [1] 2
def guardClient : FeatureAddress := featureAddress guard [1] 1
def guardDiagnosis : FeatureAddress := featureAddress guard [1] 2

def carDevice : LocalDevice carSchema :=
  let device := LocalDevice.fromAddress car "ElectricVehicle"
  { device with
    entities := device.entities ++ [⟨[1], .other "EV",
      [Limitation.loadControlFeature 1,
        ((LocalFeature.new 2 .electricalConnection .server).withFunction
          (.known (.other CarFunction.parameterDescriptions)) .readOnly).withFunction
            (.known (.other CarFunction.permittedValueSets)) .readOnly]⟩] }

def amperes (n : Int) : F64 := F64.ofInt n

/-- A car on three phases, between six and thirty-two amperes. -/
def plugged : Plugged carSchema where
  actor := .new .overloadProtection
    ((EvCharging.new (.same (amperes 6)) 0).withRange (amperes 6) (amperes 32)) carLimits carConnection
    phases (amperes 6, amperes 32)
  engine := Engine.machine.run (Engine.new carDevice) []

def writes (counter : MsgCounter) (cmd : Cmd carSchema) : Datagram carSchema :=
  Datagram.carrying guardClient carLimits .write counter cmd

def limitOf (id : Nat) (n : Int) : LoadControlLimitData :=
  ⟨some id, none, some true, none, some (.new n 0)⟩

/-- Ten amperes on the first phase, and nothing said of the others. -/
def firstPhase : Datagram carSchema :=
  writes 3 ((Cmd.withData ⟨.loadControlLimitListData, ⟨some [limitOf 1 10]⟩⟩).withFilter .partialUpdate)

def beat (now : Nat) : EvCall carSchema :=
  .handleEvent (.dataNotified guardDiagnosis ⟨.deviceDiagnosisHeartbeatData, ⟨none, some 1, none⟩⟩
    ⟨.deviceDiagnosisHeartbeatData, ⟨none, some 1, none⟩⟩) now

/-- The guard binds, is heard, and limits every phase to sixteen amperes. -/
def curtailed : List (EvCall carSchema) :=
  [.publish, .watch guardDiagnosis 0,
    .engine (.handleDatagram (Datagram.carrying { guardClient with feature := some 0, entity := some [0] }
      (nodeManagement car) .call 1 (Cmd.withData ⟨.nodeManagementBindingRequestCall,
        ⟨some ⟨some guardClient, some carLimits, none⟩⟩⟩)) 0), .relay 0,
    beat (fromSecs 1),
    .engine (.handleDatagram (writes 2 (Cmd.withData ⟨.loadControlLimitListData,
      ⟨some [limitOf 1 16, limitOf 2 16, limitOf 3 16]⟩⟩)) (fromSecs 1)),
    .relay (fromSecs 1), .relay (fromSecs 1)]

def isCurtailed (event : Option EvEvent) : Bool :=
  match event with
  | some (.curtailed _ _) => true
  | _ => false

theorem exists_of_isCurtailed {event : Option EvEvent} (h : isCurtailed event = true) :
    ∃ request currents, event = some (.curtailed request currents) := by
  unfold isCurtailed at h
  split at h
  case h_1 request currents => exact ⟨request, currents, rfl⟩
  case h_2 => cases h

/-- The car after a run, and what it makes of the write of one phase that arrives then. -/
abbrev after (calls : List (EvCall carSchema)) : Plugged carSchema :=
  (Plugged.host carFunctions).run plugged calls

abbrev handled (calls : List (EvCall carSchema)) (now : Nat) (write : WriteRequest carSchema) :
    Option (EvActor × Engine carSchema × Option EvEvent) :=
  let s := after (calls ++ [.engine (.handleDatagram firstPhase now)])
  s.actor.handleEvent carFunctions s.engine (.writeRequested write) now

/-- While the guard is heard, the other phases keep their sixteen amperes. -/
theorem others_kept_iff_shown_heard :
    ∃ write, (after curtailed).engine.puts (.handleDatagram firstPhase (fromSecs 2)) = [write] ∧
      ∃ decided e request currents, handled curtailed (fromSecs 2) write =
          some (decided, e, some (.curtailed request currents)) ∧
        KeepsOthers write
          (after (curtailed ++ [.engine (.handleDatagram firstPhase (fromSecs 2))])).actor decided := by
  have hput : ((after curtailed).engine.puts
      (.handleDatagram firstPhase (fromSecs 2))).length = 1 := by decide +kernel
  have hfacts : ∀ write ∈ (after curtailed).engine.puts (.handleDatagram firstPhase (fromSecs 2)),
      write.isPartial = true ∧
        ((handled curtailed (fromSecs 2) write).any fun result => isCurtailed result.2.2) = true ∧
        ShowsOthers (after curtailed) firstPhase write
          (after (curtailed ++ [.engine (.handleDatagram firstPhase (fromSecs 2))])).actor := by
    decide +kernel
  obtain ⟨write, hwrite⟩ := List.length_eq_one_iff.mp hput
  have hmem : write ∈ (after curtailed).engine.puts (.handleDatagram firstPhase (fromSecs 2)) := by
    rw [hwrite]
    exact List.mem_singleton_self write
  obtain ⟨hmerged, hcurtailed, hshown⟩ := hfacts write hmem
  obtain ⟨⟨decided, e, event⟩, hdecided, hevent⟩ := (Option.any_eq_true _ _).mp hcurtailed
  obtain ⟨request, currents, rfl⟩ := exists_of_isCurtailed hevent
  exact ⟨write, hwrite, decided, e, request, currents, hdecided,
    (others_kept_iff_shown carFunctions plugged.actor carDevice [] curtailed [] firstPhase (fromSecs 2)
      (fromSecs 2) write decided e request currents hmem hmerged hdecided).mpr hshown⟩

/-- Written while the guard is silent, the limit of the first phase takes those of the others with
it. -/
theorem silent_guard_loses_the_others :
    let silent := curtailed ++ [.handleTimeout (fromSecs 6)]
    let puts := (after silent).engine.puts (.handleDatagram firstPhase (fromSecs 7))
    let s := after (silent ++ [.engine (.handleDatagram firstPhase (fromSecs 7))])
    puts.length = 1 ∧ s.actor.charging.limitOn .b = some (amperes 16) ∧
      ∀ write ∈ puts, write.isPartial = true ∧ named write.data = [.a] ∧
        ((handled silent (fromSecs 7) write).any fun result =>
          isCurtailed result.2.2 && !decide (KeepsOthers write s.actor result.1)) = true := by
  decide +kernel

end Scenario

end Eebus.Emobility
