import Eebus.Library.Bands
import Eebus.Library.Upsert

/-!
Charging currents per phase, and the bands a car can charge in. The amperes are of any type with
the comparisons the code makes.
-/

namespace Eebus.Emobility

open Eebus.Library

/-- The name of a phase, or of several at once. -/
inductive PhaseName
  | a
  | b
  | c
  | ab
  | bc
  | ac
  | abc
  | neutral
  | ground
  | none
  | other (name : String)
deriving DecidableEq, Repr

def phases : List PhaseName := [.a, .b, .c]

variable {α : Type*}

structure ChargingCurrents (α : Type*) where
  a : Option α
  b : Option α
  c : Option α
deriving DecidableEq, Repr

instance [BEq α] : BEq (ChargingCurrents α) :=
  ⟨fun x y => x.a == y.a && x.b == y.b && x.c == y.c⟩

namespace ChargingCurrents

def default : ChargingCurrents α := ⟨none, none, none⟩

def same (amperes : α) : ChargingCurrents α := ⟨some amperes, some amperes, some amperes⟩

def get (currents : ChargingCurrents α) : PhaseName → Option α
  | .a => currents.a
  | .b => currents.b
  | .c => currents.c
  | _ => none

def set (currents : ChargingCurrents α) (phase : PhaseName) (amperes : Option α) :
    ChargingCurrents α :=
  match phase with
  | .a => { currents with a := amperes }
  | .b => { currents with b := amperes }
  | .c => { currents with c := amperes }
  | _ => currents

def phases (currents : ChargingCurrents α) : List (PhaseName × α) :=
  Emobility.phases.filterMap fun phase => (currents.get phase).map (phase, ·)

def isEmpty (currents : ChargingCurrents α) : Bool := currents.phases.isEmpty

@[simp] theorem get_set_self (currents : ChargingCurrents α) {phase : PhaseName}
    (h : phase ∈ Emobility.phases) (amperes : Option α) :
    (currents.set phase amperes).get phase = amperes := by
  simp only [Emobility.phases, List.mem_cons, List.not_mem_nil, or_false] at h
  rcases h with rfl | rfl | rfl <;> rfl

theorem get_set_of_ne (currents : ChargingCurrents α) {phase p : PhaseName} (h : p ≠ phase)
    (amperes : Option α) : (currents.set phase amperes).get p = currents.get p := by
  cases phase <;> cases p <;> first | rfl | exact absurd rfl h

end ChargingCurrents

structure ChargingBand (α : Type*) where
  perPhase : List (PhaseName × Band α)
deriving DecidableEq, Repr

namespace ChargingBand

def new : ChargingBand α := ⟨[]⟩

def isEmpty (band : ChargingBand α) : Bool := band.perPhase.isEmpty

def forPhase (band : ChargingBand α) (phase : PhaseName) : Option (Band α) :=
  (band.perPhase.find? fun known => known.1 == phase).map Prod.snd

theorem forPhase_mem {band : ChargingBand α} {phase : PhaseName} {b : Band α}
    (h : band.forPhase phase = some b) : ∃ known ∈ band.perPhase, known.2 = b := by
  obtain ⟨known, hfind, rfl⟩ := Option.map_eq_some_iff.mp h
  exact ⟨known, List.mem_of_find?_eq_some hfind, rfl⟩

variable [Min α] [Max α]

def withBand (band : ChargingBand α) (phase : PhaseName) (min max : α) : ChargingBand α :=
  ⟨upsert Prod.fst (phase, .ordered min max) band.perPhase⟩

def uniform (min max : α) : ChargingBand α :=
  phases.foldl (fun band phase => band.withBand phase min max) new

def narrowest (band : ChargingBand α) : Option (Band α) := narrow (band.perPhase.map Prod.snd)

def heldIn (band : ChargingBand α) (phase : PhaseName) : Option (Band α) :=
  (band.forPhase phase).or band.narrowest

end ChargingBand

namespace ChargingCurrents

variable [LE α] [DecidableLE α] [LT α] [DecidableLT α] [Min α] [Max α]

def clampPhase (band : ChargingBand α) (currents : ChargingCurrents α) (phase : PhaseName) :
    Option (ChargingCurrents α) :=
  match currents.get phase, band.heldIn phase with
  | some value, some (min, max) =>
    (clamp value min max).map fun value => currents.set phase (some value)
  | _, _ => some currents

/-- Holds every current inside what the car said it can take. There is no answer where a band
has its bounds the wrong way round: the code stops there. -/
def clamped (currents : ChargingCurrents α) (band : ChargingBand α) : Option (ChargingCurrents α) :=
  Emobility.phases.foldlM (clampPhase band) currents

end ChargingCurrents

end Eebus.Emobility
