import Eebus.Emobility.Limits

/-!
Which limit of a car a current is written to. A car numbers its limits and its parameters as it
likes, and describes them again when it likes; what it said last is compared with the two tables a
guard keeps.
-/

namespace Eebus.Emobility

open Eebus.Library Eebus.Model

def limitEntries (documents : List CarData) : List LoadControlLimitDescriptionData :=
  documents.flatMap fun
    | .limitDescriptions list => list.loadControlLimitDescriptionData.getD []
    | _ => []

def parameterEntries (documents : List CarData) : List ParameterDescription :=
  documents.flatMap fun
    | .parameterDescriptions entries => entries.getD []
    | _ => []

def limitNow (documents : List CarData) (limit : Nat) : Option LoadControlLimitDescriptionData :=
  lastOf (fun entry => entry.limitId == some limit) (limitEntries documents)

def measurementNow (documents : List CarData) (measurement : Nat) : Option ParameterDescription :=
  lastOf (fun entry => entry.measurementId == some measurement) (parameterEntries documents)

/-- A description of a limit this purpose writes. -/
abbrev Purpose.Describes (purpose : Purpose) (entry : LoadControlLimitDescriptionData) : Prop :=
  entry.limitType = some "maxValueLimit" ∧ entry.limitCategory = some purpose.limitCategory ∧
    entry.scopeType = some purpose.scopeType

/-- Going by what was said last, this limit is the one for the phase. -/
def IsLimitOf (documents : List CarData) (purpose : Purpose) (phase : PhaseName) (limit : Nat) : Prop :=
  ∃ entry measurement parameter, limitNow documents limit = some entry ∧ purpose.Describes entry ∧
    entry.measurementId = some measurement ∧ measurementNow documents measurement = some parameter ∧
    parameter.acMeasuredPhases = some phase

def ParameterDescription.described (entry : ParameterDescription) : Option Parameter :=
  entry.parameterId.map fun parameter =>
    { connection := entry.electricalConnectionId
      parameter := parameter
      measurement := entry.measurementId
      scope := entry.scopeType
      phases := entry.acMeasuredPhases }

def Purpose.described (purpose : Purpose) (entry : LoadControlLimitDescriptionData) :
    Option (Nat × Nat) :=
  match entry.limitId, entry.measurementId with
  | some limit, some measurement => if purpose.Describes entry then some (limit, measurement) else none
  | _, _ => none

theorem Purpose.described_eq_some {purpose : Purpose} {entry : LoadControlLimitDescriptionData}
    {limit measurement : Nat} : purpose.described entry = some (limit, measurement) ↔
      entry.limitId = some limit ∧ entry.measurementId = some measurement ∧ purpose.Describes entry := by
  unfold Purpose.described
  cases entry.limitId with
  | none => simp
  | some id =>
    cases entry.measurementId with
    | none => simp
    | some id' =>
      dsimp only
      split
      case isTrue h =>
        rw [Option.some.injEq, Option.some.injEq, Option.some.injEq, Prod.mk.injEq]
        exact ⟨fun heq => ⟨heq.1, heq.2, h⟩, fun heq => ⟨heq.1, heq.2.1⟩⟩
      case isFalse h => exact ⟨nofun, fun heq => absurd heq.2.2 h⟩

namespace ParameterIds

theorem known_learnEntry (known : List Parameter) (entry : ParameterDescription) :
    (learnEntry ⟨known⟩ entry).known = upsertAll Parameter.parameter known entry.described.toList := by
  unfold learnEntry ParameterDescription.described
  cases entry.parameterId <;> rfl

theorem known_foldl_learnEntry (ids : ParameterIds) (entries : List ParameterDescription) :
    (entries.foldl learnEntry ids).known =
      upsertAll Parameter.parameter ids.known (entries.filterMap ParameterDescription.described) := by
  rw [← foldl_eq_upsertAll known_learnEntry]
  exact (List.foldl_hom ParameterIds.known fun _ _ => rfl).symm

end ParameterIds

def described (documents : List CarData) : List Parameter :=
  (parameterEntries documents).filterMap ParameterDescription.described

/-- Of the parameters whose last description points at a measurement, the one the car named first. -/
def parameterOf (documents : List CarData) (measurement : Nat) : Option Parameter :=
  (described documents).findSome? fun named =>
    (lastOf (hasKey Parameter.parameter named.parameter) (described documents)).filter fun known =>
      known.measurement == some measurement

theorem parameterOf_eq_some {documents : List CarData} {measurement : Nat} {parameter : Parameter}
    (h : parameterOf documents measurement = some parameter) :
    parameter ∈ described documents ∧ parameter.measurement = some measurement := by
  obtain ⟨named, -, hnamed⟩ := List.exists_of_findSome?_eq_some h
  obtain ⟨hlast, hmeasurement⟩ := Option.filter_eq_some_iff.mp hnamed
  exact ⟨(lastOf_mem hlast).1, eq_of_beq hmeasurement⟩

namespace PhaseLimits

variable {purpose : Purpose} {documents : List CarData}

theorem learnLimit_eq (limits : List (Nat × Nat)) (entry : LoadControlLimitDescriptionData) :
    learnLimit purpose limits entry = upsertAll Prod.fst limits (purpose.described entry).toList := by
  unfold learnLimit Purpose.described
  cases entry.limitId with
  | none => rfl
  | some limit =>
    cases entry.measurementId with
    | none => rfl
    | some measurement =>
      dsimp only
      split
      case isTrue => rfl
      case isFalse => rfl

/-- What a guard knows of a car that has sent these documents, one after another. -/
def learnAll (purpose : Purpose) (documents : List CarData) : PhaseLimits :=
  documents.foldl (fun known data => (known.learn data purpose).1) new

theorem learnAll_append_singleton (documents : List CarData) (data : CarData) :
    learnAll purpose (documents ++ [data]) = ((learnAll purpose documents).learn data purpose).1 := by
  rw [learnAll, List.foldl_append]
  rfl

theorem limits_learnAll (purpose : Purpose) (documents : List CarData) :
    (learnAll purpose documents).limits =
      upsertAll Prod.fst [] ((limitEntries documents).filterMap purpose.described) := by
  induction documents using List.reverseRecOn with
  | nil => rfl
  | append_singleton documents data ih =>
    have happend : limitEntries (documents ++ [data]) = limitEntries documents ++ limitEntries [data] :=
      List.flatMap_append
    rw [learnAll_append_singleton, happend, List.filterMap_append, upsertAll_append, ← ih]
    cases data with
    | limitDescriptions list =>
      have hentries : limitEntries [.limitDescriptions list] =
          list.loadControlLimitDescriptionData.getD [] := List.flatMap_singleton _ _
      rw [hentries, ← foldl_eq_upsertAll learnLimit_eq]
      rfl
    | parameterDescriptions entries => rfl
    | permittedValueSets entries => rfl
    | other => rfl

theorem known_learnAll (purpose : Purpose) (documents : List CarData) :
    (learnAll purpose documents).parameters.known =
      upsertAll Parameter.parameter [] (described documents) := by
  induction documents using List.reverseRecOn with
  | nil => rfl
  | append_singleton documents data ih =>
    have happend : described (documents ++ [data]) = described documents ++ described [data] := by
      unfold described parameterEntries
      rw [List.flatMap_append, List.filterMap_append]
    rw [learnAll_append_singleton, happend, upsertAll_append, ← ih]
    cases data with
    | limitDescriptions list => rfl
    | parameterDescriptions entries =>
      have hentries : parameterEntries [.parameterDescriptions entries] = entries.getD [] :=
        List.flatMap_singleton _ _
      rw [described, hentries, ← ParameterIds.known_foldl_learnEntry]
      rfl
    | permittedValueSets entries => rfl
    | other => rfl

theorem phaseOfMeasurement_learnAll (purpose : Purpose) (documents : List CarData) (measurement : Nat) :
    (learnAll purpose documents).parameters.phaseOfMeasurement measurement =
      (parameterOf documents measurement).bind Parameter.phases := by
  rw [parameterOf, ← find?_upsertAll, ← known_learnAll purpose]
  rfl

theorem nodup_limits_learnAll (purpose : Purpose) (documents : List CarData) :
    ((learnAll purpose documents).limits.map Prod.fst).Nodup := by
  rw [limits_learnAll]
  exact nodup_upsertAll_nil

theorem lastOf_of_mem_limits {numbered : Nat × Nat}
    (h : numbered ∈ (learnAll purpose documents).limits) :
    lastOf (hasKey Prod.fst numbered.1) ((limitEntries documents).filterMap purpose.described) =
      some numbered := by
  rw [← find?_upsertAll_hasKey, ← limits_learnAll]
  exact find?_hasKey_of_mem (nodup_limits_learnAll purpose documents) h

theorem limitFor_eq_some {known : PhaseLimits} {phase : PhaseName} {limit : Nat}
    (h : known.limitFor phase = some limit) :
    ∃ measurement, (limit, measurement) ∈ known.limits ∧
      known.parameters.phaseOfMeasurement measurement = some phase := by
  obtain ⟨numbered, hfind, rfl⟩ := Option.map_eq_some_iff.mp h
  have hphase := List.find?_some hfind
  exact ⟨numbered.2, List.mem_of_find?_eq_some hfind, eq_of_beq hphase⟩

theorem limitFor_inj {phase phase' : PhaseName} {limit : Nat}
    (h : (learnAll purpose documents).limitFor phase = some limit)
    (h' : (learnAll purpose documents).limitFor phase' = some limit) : phase = phase' := by
  obtain ⟨measurement, hmem, hphase⟩ := limitFor_eq_some h
  obtain ⟨measurement', hmem', hphase'⟩ := limitFor_eq_some h'
  have hsame : (limit, measurement) = (limit, measurement') :=
    List.inj_on_of_nodup_map (nodup_limits_learnAll purpose documents) hmem hmem' rfl
  cases hsame
  exact Option.some.inj (hphase.symm.trans hphase')

end PhaseLimits

/-- What the car has described so far leaves no limit and no measurement behind: a limit that once
had this purpose's label has it still, and the parameter that a measurement is looked up in names
the phase that the measurement was last given. -/
structure KeepsNumbers (documents : List CarData) (purpose : Purpose) : Prop where
  limits : ∀ entry ∈ limitEntries documents, ∀ limit, entry.limitId = some limit →
    entry.measurementId.isSome → purpose.Describes entry →
      ∃ now, limitNow documents limit = some now ∧ now.measurementId.isSome ∧ purpose.Describes now
  phases : ∀ measurement parameter phase, parameterOf documents measurement = some parameter →
    parameter.phases = some phase →
      ∃ now, measurementNow documents measurement = some now ∧ now.acMeasuredPhases = some phase

namespace PhaseLimits

section

variable {purpose : Purpose} {documents : List CarData} {phase : PhaseName} {limit : Nat}

theorem isLimitOf_limitFor (h : KeepsNumbers documents purpose)
    (hlimit : (learnAll purpose documents).limitFor phase = some limit) :
    IsLimitOf documents purpose phase limit := by
  obtain ⟨measurement, hmem, hphase⟩ := limitFor_eq_some hlimit
  have hlast := lastOf_of_mem_limits hmem
  obtain ⟨entry, hentry, hread⟩ := List.mem_filterMap.mp (lastOf_mem hlast).1
  obtain ⟨hid, hmeasurement, hdescribes⟩ := Purpose.described_eq_some.mp hread
  obtain ⟨now, hnow, hsome, hlabel⟩ := h.limits entry hentry limit hid
    (Option.isSome_of_eq_some hmeasurement) hdescribes
  obtain ⟨measurement', hmeasurement'⟩ := Option.isSome_iff_exists.mp hsome
  have hnowid : now.limitId = some limit := eq_of_beq (lastOf_mem hnow).2
  -- the description that came last is the last of those with the label
  have hread' : purpose.described now = some (limit, measurement') :=
    Purpose.described_eq_some.mpr ⟨hnowid, hmeasurement', hlabel⟩
  have hnow' : lastOf (hasKey Prod.fst limit) ((limitEntries documents).filterMap purpose.described) =
      some (limit, measurement') := by
    rw [lastOf_filterMap, lastOf_of_imp ?_ hnow ?_, Option.bind_some, hread']
    · intro entry hentry
      obtain ⟨numbered, hnumbered, hkey⟩ := (Option.any_eq_true _ _).mp hentry
      have hid : entry.limitId = some numbered.1 := (Purpose.described_eq_some.mp hnumbered).1
      rw [hid, hasKey_iff.mp hkey, beq_self_eq_true]
    · rw [hread']
      exact hasKey_iff.mpr rfl
  rw [hlast] at hnow'
  cases hnow'
  rw [phaseOfMeasurement_learnAll] at hphase
  obtain ⟨parameter, hparameter, hcovers⟩ := Option.bind_eq_some_iff.mp hphase
  obtain ⟨last, hlast, hcovers'⟩ := h.phases measurement parameter phase hparameter hcovers
  exact ⟨now, measurement, last, hnow, hlabel, hmeasurement', hlast, hcovers'⟩

/-- A guard writes each current to the right limit of a car that keeps to its numbers, whatever else
the car describes and in whatever order; and it never takes one limit for two phases. -/
theorem limitFor_right (purpose : Purpose) (history : List CarData)
    (h : ∀ documents, documents <+: history → KeepsNumbers documents purpose) :
    ∀ documents, documents <+: history →
      (∀ phase limit, (learnAll purpose documents).limitFor phase = some limit →
        IsLimitOf documents purpose phase limit) ∧
      ∀ phase phase' limit, (learnAll purpose documents).limitFor phase = some limit →
        (learnAll purpose documents).limitFor phase' = some limit → phase = phase' := fun documents hd =>
  ⟨fun _ _ => isLimitOf_limitFor (h documents hd), fun _ _ _ => limitFor_inj⟩

end

namespace Relabelled

def limit (id measurement : Nat) (purpose : Purpose) : LoadControlLimitDescriptionData :=
  { limitId := some id
    limitType := some "maxValueLimit"
    limitCategory := some purpose.limitCategory
    limitDirection := none
    measurementId := some measurement
    unit := none
    scopeType := some purpose.scopeType }

def parameter (id measurement : Nat) (phase : PhaseName) : ParameterDescription :=
  { electricalConnectionId := some 1
    parameterId := some id
    measurementId := some measurement
    scopeType := none
    acMeasuredPhases := some phase }

def first : List CarData :=
  [.limitDescriptions ⟨some [limit 7 4 .overloadProtection]⟩,
    .parameterDescriptions (some [parameter 1 4 .a])]

/-- Limit 8 takes its place, and limit 7 becomes a recommendation. -/
def relabelled : List CarData :=
  first ++ [.limitDescriptions
    ⟨some [limit 8 4 .overloadProtection, limit 7 4 .selfConsumption]⟩]

/-- Parameter 2 takes the measurement over for phase `b`, and parameter 1 is no longer there. -/
def renumbered : List CarData :=
  first ++ [.parameterDescriptions (some [parameter 2 4 .b])]

end Relabelled

open Relabelled in
theorem first_keepsNumbers : ∀ documents, documents <+: first →
    KeepsNumbers documents .overloadProtection := by
  intro documents hd
  have hmem : documents ∈ first.inits := (List.mem_inits _ _).mpr hd
  have hnow : ∀ documents ∈ first.inits, ∀ entry ∈ limitEntries documents,
      ∀ limit ∈ entry.limitId, ∃ now ∈ limitNow documents limit, now.measurementId.isSome = true ∧
        Purpose.overloadProtection.Describes now := by
    decide +kernel
  have hphase : ∀ documents ∈ first.inits, ∀ known ∈ described documents,
      ∀ measurement ∈ known.measurement, ∀ phase ∈ known.phases,
        ∃ now ∈ measurementNow documents measurement, now.acMeasuredPhases = some phase := by
    decide +kernel
  constructor
  case limits =>
    intro entry hentry limit hid _ _
    obtain ⟨now, hnow⟩ := hnow documents hmem entry hentry limit hid
    exact ⟨now, hnow⟩
  case phases =>
    intro measurement known phase hknown hcovers
    obtain ⟨hdescribed, hmeasurement⟩ := parameterOf_eq_some hknown
    exact hphase documents hmem known hdescribed measurement hmeasurement phase hcovers

open Relabelled in
/-- The first two documents of the car are read as they are meant. -/
theorem limitFor_right_first :
    (∀ phase limit, (learnAll .overloadProtection first).limitFor phase = some limit →
      IsLimitOf first .overloadProtection phase limit) ∧
    ∀ phase phase' limit, (learnAll .overloadProtection first).limitFor phase = some limit →
      (learnAll .overloadProtection first).limitFor phase' = some limit → phase = phase' :=
  limitFor_right .overloadProtection first first_keepsNumbers first List.prefix_rfl

open Relabelled in
/-- An obligation is written into what the car has made a recommendation. -/
theorem recommendation_taken_for_obligation :
    (learnAll .overloadProtection relabelled).limitFor .a = some 7 ∧
      ¬IsLimitOf relabelled .overloadProtection .a 7 := by
  refine ⟨by decide +kernel, ?_⟩
  rintro ⟨entry, measurement, parameter, hentry, hlabel, -⟩
  have hnow : limitNow relabelled 7 = some (limit 7 4 .selfConsumption) := by decide +kernel
  rw [hnow] at hentry
  cases hentry
  exact absurd hlabel (by decide +kernel)

/-- A current goes to the phase a measurement was taken away from. -/
example : (learnAll .overloadProtection Relabelled.renumbered).limitFor .a = some 7 ∧
    (learnAll .overloadProtection Relabelled.renumbered).limitFor .b = none := by
  decide +kernel

end PhaseLimits

end Eebus.Emobility
