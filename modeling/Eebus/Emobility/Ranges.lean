import Eebus.Emobility.OverloadGuard
import Eebus.Hvac.Setpoints

/-!
What the ranges a peer publishes do to a manager: which of them can stop it, and where the currents
and temperatures it makes of them lie.
-/

namespace Eebus.Emobility

open Eebus.Library Eebus.Model Eebus.Spine

section Currents

variable {α : Type} [LinearOrder α] {band : ChargingBand α} {currents held : ChargingCurrents α}
  {phase : PhaseName}

/-- The band a phase is held in, if any, has its bounds in order where a current is set. -/
def Clampable (band : ChargingBand α) (currents : ChargingCurrents α) (phase : PhaseName) : Prop :=
  ∀ v b, currents.get phase = some v → band.heldIn phase = some b → b.1 ≤ b.2

/-- The phase's current, if any, is inside the band the phase is held in. -/
def HeldRight (band : ChargingBand α) (held : ChargingCurrents α) (phase : PhaseName) : Prop :=
  ∀ v b, held.get phase = some v → band.heldIn phase = some b → Band.Holds b v

theorem clampPhase_isSome :
    (currents.clampPhase band phase).isSome = true ↔ Clampable band currents phase := by
  unfold ChargingCurrents.clampPhase Clampable
  cases currents.get phase with
  | none => simp
  | some value =>
    cases band.heldIn phase with
    | none => simp
    | some bounds => simpa using clamp_isSome

theorem clampPhase_held (hphase : phase ∈ phases) (h : currents.clampPhase band phase = some held) :
    HeldRight band held phase ∧ ∀ p ≠ phase, held.get p = currents.get p := by
  unfold ChargingCurrents.clampPhase at h
  split at h
  case h_1 value min max hvalue hband =>
    obtain ⟨clamped, hclamp, rfl⟩ := Option.map_eq_some_iff.mp h
    refine ⟨fun v b hv hb => ?_, fun p hp => currents.get_set_of_ne hp _⟩
    rw [currents.get_set_self hphase] at hv
    cases hv
    cases hband.symm.trans hb
    exact clamp_holds hclamp
  case h_2 hnone =>
    cases h
    refine ⟨fun v b hv hb => ?_, fun _ _ => rfl⟩
    exact absurd hb (hnone v b.1 b.2 hv)

/-- Holding the phases of a list one after the other: it stops where a band is out of order, and
leaves every phase of the list inside its band. -/
theorem clampPhases {list : List PhaseName} (hnodup : list.Nodup) (hlist : ∀ p ∈ list, p ∈ phases) :
    ((list.foldlM (ChargingCurrents.clampPhase band) currents).isSome = true ↔
      ∀ phase ∈ list, Clampable band currents phase) ∧
    ∀ held, list.foldlM (ChargingCurrents.clampPhase band) currents = some held →
      (∀ phase ∈ list, HeldRight band held phase) ∧
        ∀ p ∉ list, held.get p = currents.get p := by
  induction list generalizing currents with
  | nil =>
    refine ⟨by simp, fun held h => ?_⟩
    cases h
    simp
  | cons first rest ih =>
    obtain ⟨hfirst, hrest⟩ := List.nodup_cons.mp hnodup
    have hphase := hlist first List.mem_cons_self
    have hlist := fun p hp => hlist p (List.mem_cons_of_mem first hp)
    rw [List.foldlM_cons]
    cases hstep : currents.clampPhase band first with
    | none =>
      have hstops : ¬Clampable band currents first := by
        rw [← clampPhase_isSome, hstep]
        simp
      refine ⟨?_, by simp⟩
      simpa using fun h => absurd h hstops
    | some next =>
      obtain ⟨hheld, hothers⟩ := clampPhase_held hphase hstep
      have hgoes : Clampable band currents first := by
        rw [← clampPhase_isSome, hstep]
        rfl
      obtain ⟨hsome, hall⟩ := @ih next hrest hlist
      have hsame : ∀ p ∈ rest, (Clampable band next p ↔ Clampable band currents p) := fun p hp => by
        unfold Clampable
        rw [hothers p fun heq => hfirst (heq ▸ hp)]
      refine ⟨?_, fun held h => ?_⟩
      · simp only [Option.bind_eq_bind, Option.bind_some, hsome, List.forall_mem_cons, hgoes,
          true_and]
        exact forall₂_congr hsame
      · obtain ⟨hinside, houtside⟩ := hall held h
        refine ⟨List.forall_mem_cons.mpr ⟨?_, hinside⟩, fun p hp => ?_⟩
        · unfold HeldRight
          rw [houtside first hfirst]
          exact hheld
        · rw [List.mem_cons, not_or] at hp
          rw [houtside p hp.2, hothers p hp.1]

/-- Every current can be held, and what is held lies in its phase's own band or, for a phase
without one, in every described band. -/
def ClampsHold (band : ChargingBand α) (required : ChargingCurrents α) : Prop :=
  ∃ held, required.clamped band = some held ∧ ∀ phase ∈ phases, ∀ v, held.get phase = some v →
    (∀ b, band.forPhase phase = some b → Band.Holds b v) ∧
    (band.forPhase phase = none → ∀ known ∈ band.perPhase, Band.Holds known.2 v)

/-- A phase with a current but no band of its own finds bands that have a value in common. -/
def Covered (band : ChargingBand α) (required : ChargingCurrents α) : Prop :=
  ∀ phase ∈ phases, (required.get phase).isSome = true → band.forPhase phase = none →
    ∃ v, ∀ known ∈ band.perPhase, Band.Holds known.2 v

theorem narrowest_none (h : band.narrowest = none) : band.perPhase = [] := by
  cases hbands : band.perPhase with
  | nil => rfl
  | cons first rest => simp [ChargingBand.narrowest, hbands, narrow] at h

theorem heldIn_of_unowned (hown : band.forPhase phase = none) : band.heldIn phase = band.narrowest := by
  rw [ChargingBand.heldIn, hown, Option.none_or]

theorem heldIn_shared {b : Band α} (hown : band.forPhase phase = none)
    (h : band.heldIn phase = some b) (v : α) :
    Band.Holds b v ↔ ∀ known ∈ band.perPhase, Band.Holds known.2 v := by
  rw [heldIn_of_unowned hown] at h
  rw [narrow_holds h, List.forall_mem_map]

theorem heldRight_iff : HeldRight band held phase ↔ ∀ v, held.get phase = some v →
    (∀ b, band.forPhase phase = some b → Band.Holds b v) ∧
    (band.forPhase phase = none → ∀ known ∈ band.perPhase, Band.Holds known.2 v) := by
  refine forall_congr' fun v => ?_
  cases hown : band.forPhase phase with
  | some own =>
    have hheld : band.heldIn phase = some own := by simp [ChargingBand.heldIn, hown]
    simp [hheld]
  | none =>
    cases hheld : band.heldIn phase with
    | none =>
      have hempty := narrowest_none ((heldIn_of_unowned hown).symm.trans hheld)
      simp [hempty]
    | some shared => simp [heldIn_shared hown hheld v]

theorem clampable_iff (hordered : band.Ordered) (phase : PhaseName) :
    Clampable band currents phase ↔ ((currents.get phase).isSome = true →
      band.forPhase phase = none → ∃ v, ∀ known ∈ band.perPhase, Band.Holds known.2 v) := by
  unfold Clampable
  cases hvalue : currents.get phase with
  | none => simp
  | some value =>
    cases hown : band.forPhase phase with
    | some own =>
      obtain ⟨known, hmem, rfl⟩ := ChargingBand.forPhase_mem hown
      have hheld : band.heldIn phase = some known.2 := by simp [ChargingBand.heldIn, hown]
      simpa [hheld] using hordered known hmem
    | none =>
      cases hheld : band.heldIn phase with
      | none =>
        have hempty := narrowest_none ((heldIn_of_unowned hown).symm.trans hheld)
        simpa [hempty] using ⟨value⟩
      | some shared =>
        have hnarrow : narrow (band.perPhase.map Prod.snd) = some shared :=
          (heldIn_of_unowned hown).symm.trans hheld
        have hshared := narrow_le hnarrow
        simp only [List.forall_mem_map] at hshared
        simpa using hshared

/-- Holding currents inside bands that are in order works exactly where every phase that needs
the shared band finds one that is not empty. -/
theorem clampsHold_iff (hordered : band.Ordered) (required : ChargingCurrents α) :
    ClampsHold band required ↔ Covered band required := by
  have hphases : phases.Nodup := by decide
  obtain ⟨hsome, hheld⟩ : ((phases.foldlM (ChargingCurrents.clampPhase band) required).isSome = true ↔
      ∀ phase ∈ phases, Clampable band required phase) ∧ _ := clampPhases hphases fun _ hp => hp
  have hcovered : Covered band required ↔ ∀ phase ∈ phases, Clampable band required phase :=
    forall₂_congr fun phase _ => (clampable_iff hordered phase).symm
  rw [hcovered, ← hsome]
  constructor
  · rintro ⟨held, hclamped, -⟩
    exact Option.isSome_iff_exists.mpr ⟨held, hclamped⟩
  · intro h
    obtain ⟨held, hclamped⟩ := Option.isSome_iff_exists.mp h
    exact ⟨held, hclamped, fun phase hp => heldRight_iff.mp ((hheld held hclamped).1 phase hp)⟩

end Currents

section Temperatures

open Eebus.Hvac

variable {α : Type} [LinearOrder α] [Zero α] [Add α] [Sub α] [Mul α] [Div α]

/-- Every temperature can be rounded, and one the server permits stays one. -/
def RoundsHold (numbers : Degrees α) (constraints : Constraints α) : Prop :=
  (∀ degrees, (constraints.rounded numbers degrees).isSome = true) ∧
  ∀ degrees, constraints.permits degrees = true →
    ∃ rounded, constraints.rounded numbers degrees = some rounded ∧
      constraints.permits rounded = true

/-- A range with a positive step has its bounds in order. -/
def Stepped (constraints : Constraints α) : Prop :=
  ∀ step, constraints.step = some step → 0 < step → constraints.min ≤ constraints.max

theorem roundsHold_iff (numbers : Degrees α) (constraints : Constraints α) :
    RoundsHold numbers constraints ↔ Stepped constraints := by
  unfold RoundsHold Stepped Constraints.rounded
  cases hstep : constraints.step.filter (0 < ·) with
  | none =>
    have hnever : ∀ step, constraints.step = some step → ¬0 < step := by
      intro step hs hpos
      simp [hs, Option.filter, hpos] at hstep
    refine ⟨fun _ step hs hpos => absurd hpos (hnever step hs), fun _ => ?_⟩
    exact ⟨fun _ => rfl, fun degrees h => ⟨degrees, rfl, h⟩⟩
  | some step =>
    obtain ⟨hs, hpos⟩ := Option.filter_eq_some_iff.mp hstep
    simp only [clamp_isSome]
    constructor
    · exact fun h _ _ _ => h.1 constraints.min
    · intro h
      have hle := h step hs (by simpa using hpos)
      refine ⟨fun _ => hle, fun degrees _ => ?_⟩
      have hsome : (clamp (constraints.min +
          numbers.roundHalfAway ((degrees - constraints.min) / step) * step)
            constraints.min constraints.max).isSome = true := clamp_isSome.mpr hle
      obtain ⟨rounded, hrounded⟩ := Option.isSome_iff_exists.mp hsome
      refine ⟨rounded, hrounded, ?_⟩
      simpa [Constraints.permits, Band.Holds] using clamp_holds hrounded

end Temperatures

section Published

open Eebus.Hvac

variable {α : Type} [LinearOrder α] [Zero α] [Add α] [Sub α] [Mul α] [Div α]

/-- Whatever a car and a server publish: what the manager makes of it is in range and does not stop
it, exactly where every phase that needs the bands the car described to overlap finds that they do,
and every range the server gave with a step has its bounds in order. -/
theorem published_ranges_hold_iff (decimals : Decimals α) (numbers : Degrees α)
    (purpose : Purpose) (bindingRequest : MsgCounter) (calls : List (CarCall α))
    (required : ChargingCurrents α) (scope : String) (published : List ServerData) :
    let car := (curtailing decimals).run (.new purpose bindingRequest) calls
    let known := (Setpoints.ofScope scope).learnAll numbers published
    (ClampsHold car.band required ∧
      ∀ id constraints, known.constraintsOf id = some constraints → RoundsHold numbers constraints) ↔
    (Covered car.band required ∧
      ∀ id constraints, known.constraintsOf id = some constraints → Stepped constraints) := by
  intro car known
  exact and_congr (clampsHold_iff (TrackedEv.run_ordered purpose bindingRequest calls) required)
    (forall₂_congr fun _ constraints => imp_congr_right fun _ => roundsHold_iff numbers constraints)

end Published

namespace Scenario

open Eebus.Hvac

def wholeNumbers : Decimals Int := ⟨ScaledNumber.number, fun amperes => ⟨some amperes, some 0⟩⟩
def wholeDegrees : Degrees Int := ⟨ScaledNumber.number, id⟩

def described (id : Nat) (phase : PhaseName) : ParameterDescription :=
  ⟨some 1, some id, some id, none, some phase⟩

def permitted (id : Nat) (min max : Int) : PermittedValueSet :=
  ⟨some 1, some id, some [⟨some [⟨some ⟨some min, some 0⟩, some ⟨some max, some 0⟩⟩]⟩]⟩

/-- Six to ten amperes on the first phase, sixteen to thirty-two on the second. -/
def apart : List (CarCall Int) :=
  [⟨.published (.parameterDescriptions (some [described 1 .a, described 2 .b])), 1⟩,
    ⟨.published (.permittedValueSets (some [permitted 1 6 10, permitted 2 16 32])), 1⟩]

/-- Thirty degrees at least, ten at most, in steps of one. -/
def backwards : List ServerData :=
  [.constraints (some [⟨some 1, some ⟨some 30, some 0⟩, some ⟨some 10, some 0⟩,
    some ⟨some 1, some 0⟩⟩])]

/-- A current for the third phase stops a guard that knows bands of the other two only, and a range
the wrong way round stops the rounding of a temperature. -/
theorem published_ranges_stop_the_manager :
    let car := (curtailing wholeNumbers).run (.new .overloadProtection 0) apart
    let known := (Setpoints.ofScope "dhwTemperature").learnAll wholeDegrees backwards
    ¬ClampsHold car.band (.same 8) ∧
      ∃ constraints, known.constraintsOf 1 = some constraints ∧
        ¬RoundsHold wholeDegrees constraints := by
  refine ⟨?_, ⟨30, 10, some 1⟩, by decide, ?_⟩
  · rintro ⟨held, hclamped, -⟩
    have hstops : (ChargingCurrents.same (8 : Int)).clamped
        ((curtailing wholeNumbers).run (.new .overloadProtection 0) apart).band = none := by decide
    rw [hstops] at hclamped
    cases hclamped
  · intro h
    exact absurd (h.1 20) (by decide)

end Scenario

end Eebus.Emobility
