import Eebus.Emobility.EvReader
import Eebus.Emobility.Numbering

/-!
Which parameter a range is read under. A parameter is identified by its connection together with its
own number; a reader looks it up by the number alone.
-/

namespace Eebus.Emobility

open Eebus.Library Eebus.Model

def ParameterDescription.ids (entry : ParameterDescription) : Option Nat × Option Nat :=
  (entry.electricalConnectionId, entry.parameterId)

def PermittedValueSet.ids (entry : PermittedValueSet) : Option Nat × Option Nat :=
  (entry.electricalConnectionId, entry.parameterId)

def ParameterDescription.isTotal (entry : ParameterDescription) : Bool :=
  entry.scopeType == some "acPowerTotal"

section Meaning

variable (descriptions : List ParameterDescription)

def ownDescription (ids : Option Nat × Option Nat) : Option ParameterDescription :=
  ids.2.bind fun _ => descriptions.find? fun entry => entry.ids == ids

def lastDescription (parameter : Option Nat) : Option ParameterDescription :=
  parameter.bind fun id => lastOf (fun entry => entry.parameterId == some id) descriptions

/-- The parameter with these identifiers is the one that is described as the total power. -/
def OnlyTotal (ids : Option Nat × Option Nat) : Prop :=
  ∀ ids', (ownDescription descriptions ids').any ParameterDescription.isTotal = true ↔ ids' = ids

/-- This number is the one whose last description is of the total power. -/
def OnlyTotalByNumber (parameter : Option Nat) : Prop :=
  ∀ parameter', (lastDescription descriptions parameter').any ParameterDescription.isTotal = true ↔
    parameter' = parameter

/-- The number alone says of a parameter what both its identifiers do. -/
structure SaysTheSame (ids : Option Nat × Option Nat) : Prop where
  phase : (lastDescription descriptions ids.2).bind ParameterDescription.acMeasuredPhases =
    (ownDescription descriptions ids).bind ParameterDescription.acMeasuredPhases
  total : OnlyTotalByNumber descriptions ids.2 ↔ OnlyTotal descriptions ids

end Meaning

section Reading

variable (descriptions : List ParameterDescription) (sets : List PermittedValueSet)

def describedParameters : ParameterIds :=
  (ParameterIds.new.learn (.parameterDescriptions (some descriptions))).1

def bandRead (phase : PhaseName) : Option (Band F64) :=
  (readPermittedRange binaryDecimals (.permittedValueSets (some sets))
    (describedParameters descriptions)).bind fun band => band.forPhase phase

def describedFirst : EvReader F64 :=
  ((EvReader.new.apply binaryDecimals (.charging (.parameterDescriptions (some descriptions)))).1.apply
    binaryDecimals (.charging (.permittedValueSets (some sets)))).1

def permittedFirst : EvReader F64 :=
  ((EvReader.new.apply binaryDecimals (.charging (.permittedValueSets (some sets)))).1.apply
    binaryDecimals (.charging (.parameterDescriptions (some descriptions)))).1

/-- Every band is the first range of a value set of the phase, with its bounds in order, every such
set with a range gives its phase a band, and the charging power is the range of the value set of the
one parameter that is the total power. -/
structure RangesBelong : Prop where
  band : ∀ phase band, bandRead descriptions sets phase = some band →
    ∃ set ∈ sets, (ownDescription descriptions set.ids).bind ParameterDescription.acMeasuredPhases =
      some phase ∧ (set.bounds binaryDecimals).map (fun range => Band.ordered range.1 range.2) = some band
  phase : ∀ set ∈ sets, ∀ phase, (ownDescription descriptions set.ids).bind
    ParameterDescription.acMeasuredPhases = some phase → (set.bounds binaryDecimals).isSome →
      (bandRead descriptions sets phase).isSome
  power : ∀ reader, reader = describedFirst descriptions sets ∨ reader = permittedFirst descriptions sets →
    ∀ range, reader.profile.chargingPower = some range ↔
      ∃ set ∈ sets, OnlyTotal descriptions set.ids ∧ set.powerBounds binaryDecimals = some range

end Reading

section Tables

variable (descriptions : List ParameterDescription) (sets : List PermittedValueSet)

theorem known_describedParameters : (describedParameters descriptions).known =
    upsertAll Parameter.parameter [] (descriptions.filterMap ParameterDescription.described) :=
  ParameterIds.known_foldl_learnEntry .new descriptions

theorem find?_describedParameters (id : Nat) :
    (describedParameters descriptions).known.find? (hasKey Parameter.parameter id) =
      (lastDescription descriptions (some id)).bind ParameterDescription.described := by
  have hkey : (fun entry : ParameterDescription => entry.described.any (hasKey Parameter.parameter id)) =
      fun entry => entry.parameterId == some id := by
    funext entry
    unfold ParameterDescription.described
    cases entry.parameterId with
    | none => rfl
    | some parameter =>
      by_cases h : parameter = id <;> simp [hasKey, h]
  rw [known_describedParameters, find?_upsertAll_hasKey, lastOf_filterMap, hkey]
  rfl

theorem described_lastDescription {id : Nat} {entry : ParameterDescription}
    (h : lastDescription descriptions (some id) = some entry) :
    entry.described = some
      { connection := entry.electricalConnectionId
        parameter := id
        measurement := entry.measurementId
        scope := entry.scopeType
        phases := entry.acMeasuredPhases } := by
  have hid : entry.parameterId = some id := eq_of_beq (lastOf_mem h).2
  rw [ParameterDescription.described, hid]
  rfl

theorem phase_describedParameters (entry : PermittedValueSet) :
    entry.phase (describedParameters descriptions) =
      (lastDescription descriptions entry.parameterId).bind ParameterDescription.acMeasuredPhases := by
  unfold PermittedValueSet.phase
  cases entry.parameterId with
  | none => rfl
  | some id =>
    have hfind : ((describedParameters descriptions).known.find? fun known => known.parameter == id) =
        (lastDescription descriptions (some id)).bind ParameterDescription.described :=
      find?_describedParameters descriptions id
    rw [Option.bind_eq_bind, Option.bind_some, hfind]
    cases hlast : lastDescription descriptions (some id) with
    | none => rfl
    | some description =>
      rw [Option.bind_some, described_lastDescription descriptions hlast]
      rfl

def readBand (entry : PermittedValueSet) : Option (PhaseName × Band F64) := do
  let phase ← (lastDescription descriptions entry.parameterId).bind ParameterDescription.acMeasuredPhases
  let range ← entry.bounds binaryDecimals
  some (phase, Band.ordered range.1 range.2)

theorem perPhase_readPermittedEntry (known : List (PhaseName × Band F64)) (entry : PermittedValueSet) :
    (readPermittedEntry binaryDecimals (describedParameters descriptions) ⟨known⟩ entry).perPhase =
      upsertAll Prod.fst known (readBand descriptions entry).toList := by
  unfold readPermittedEntry readBand
  rw [phase_describedParameters]
  cases (lastDescription descriptions entry.parameterId).bind ParameterDescription.acMeasuredPhases with
  | none => rfl
  | some phase =>
    cases entry.bounds binaryDecimals with
    | none => rfl
    | some range => rfl

theorem bandRead_eq (phase : PhaseName) : bandRead descriptions sets phase =
      (lastOf (hasKey Prod.fst phase) (sets.filterMap (readBand descriptions))).map Prod.snd := by
  let band := sets.foldl (readPermittedEntry binaryDecimals (describedParameters descriptions)) .new
  have hperPhase : band.perPhase = upsertAll Prod.fst [] (sets.filterMap (readBand descriptions)) := by
    rw [← foldl_eq_upsertAll (perPhase_readPermittedEntry descriptions)]
    exact (List.foldl_hom ChargingBand.perPhase fun _ _ => rfl).symm
  have hforPhase : bandRead descriptions sets phase = band.forPhase phase := by
    have hread : bandRead descriptions sets phase =
        (if band.isEmpty then none else some band).bind fun band => band.forPhase phase := rfl
    rw [hread]
    by_cases h : band.isEmpty = true
    · have hnil : band.perPhase = [] := List.isEmpty_iff.mp h
      rw [if_pos h, Option.bind_none, ChargingBand.forPhase, hnil]
      rfl
    · rw [if_neg h, Option.bind_some]
  rw [hforPhase, ← find?_upsertAll_hasKey, ← hperPhase]
  rfl

theorem byScope_describedParameters (parameter : Nat) :
    (describedParameters descriptions).byScope "acPowerTotal" = some parameter ↔
      OnlyTotalByNumber descriptions (some parameter) := by
  have hnodup : ((describedParameters descriptions).known.map Parameter.parameter).Nodup := by
    rw [known_describedParameters]
    exact nodup_upsertAll_nil
  have hsingle : (describedParameters descriptions).byScope "acPowerTotal" = some parameter ↔
      ∃ known, ((describedParameters descriptions).known.filter
        fun known => known.scope == some "acPowerTotal") = [known] ∧ known.parameter = parameter := by
    unfold ParameterIds.byScope
    split
    case h_1 known hfilter => simp [hfilter]
    case h_2 hfilter =>
      constructor
      · nofun
      · rintro ⟨known, heq, -⟩
        exact absurd heq (hfilter known)
  have hany : ∀ id, ((describedParameters descriptions).known.find? (hasKey Parameter.parameter id)).any
      (fun known => known.scope == some "acPowerTotal") =
        (lastDescription descriptions (some id)).any ParameterDescription.isTotal := by
    intro id
    rw [find?_describedParameters]
    cases hlast : lastDescription descriptions (some id) with
    | none => rfl
    | some description =>
      rw [Option.bind_some, described_lastDescription descriptions hlast]
      rfl
  rw [hsingle, filter_eq_singleton_iff hnodup]
  constructor
  · intro h parameter'
    cases parameter' with
    | none => exact ⟨nofun, nofun⟩
    | some id => rw [← hany, h, Option.some.injEq]
  · intro h id
    rw [hany, h, Option.some.injEq]

def storedRange (entry : PermittedValueSet) : Option (Nat × (F64 × Option F64)) := do
  let id ← entry.parameterId
  let range ← entry.powerBounds binaryDecimals
  some (id, range)

theorem storeRange_eq (ranges : List (Nat × (F64 × Option F64))) (entry : PermittedValueSet) :
    EvReader.storeRange binaryDecimals ranges entry =
      upsertAll Prod.fst ranges (storedRange entry).toList := by
  unfold EvReader.storeRange storedRange
  cases entry.parameterId with
  | none => rfl
  | some id =>
    cases entry.powerBounds binaryDecimals with
    | none => rfl
    | some range => rfl

theorem resolveRanges_of_empty {reader : EvReader F64} (h : reader.ranges = []) :
    reader.resolveRanges = reader := by
  unfold EvReader.resolveRanges
  rw [h]
  cases reader.parameters.byScope "acPowerTotal" <;> rfl

def bothRead : EvReader F64 :=
  { (EvReader.new : EvReader F64) with
    parameters := describedParameters descriptions
    ranges := sets.foldl (EvReader.storeRange binaryDecimals) [] }

theorem describedFirst_eq :
    describedFirst descriptions sets = (bothRead descriptions sets).resolveRanges := by
  have hfirst : (EvReader.new.apply binaryDecimals (.charging (.parameterDescriptions (some descriptions)))).1 =
      { (EvReader.new : EvReader F64) with parameters := describedParameters descriptions } :=
    resolveRanges_of_empty rfl
  rw [describedFirst, hfirst]
  rfl

theorem permittedFirst_eq :
    permittedFirst descriptions sets = (bothRead descriptions sets).resolveRanges := rfl

theorem chargingPower_eq (reader : EvReader F64)
    (h : reader = describedFirst descriptions sets ∨ reader = permittedFirst descriptions sets) :
    reader.profile.chargingPower =
      ((describedParameters descriptions).byScope "acPowerTotal").bind fun parameter =>
        (lastOf (hasKey Prod.fst parameter) (sets.filterMap storedRange)).map Prod.snd := by
  have hreader : reader = (bothRead descriptions sets).resolveRanges := by
    cases h with
    | inl h => rw [h, describedFirst_eq]
    | inr h => rw [h, permittedFirst_eq]
  have hranges : (bothRead descriptions sets).ranges = upsertAll Prod.fst [] (sets.filterMap storedRange) :=
    foldl_eq_upsertAll storeRange_eq sets []
  have hparameters : (bothRead descriptions sets).parameters = describedParameters descriptions := rfl
  rw [hreader, EvReader.resolveRanges, hparameters]
  cases (describedParameters descriptions).byScope "acPowerTotal" with
  | none => rfl
  | some parameter =>
    rw [Option.bind_some, ← find?_upsertAll_hasKey, ← hranges]
    have hfind : ((bothRead descriptions sets).ranges.find? fun range => range.1 == parameter) =
        (bothRead descriptions sets).ranges.find? (hasKey Prod.fst parameter) := rfl
    dsimp only
    rw [hfind]
    cases (bothRead descriptions sets).ranges.find? (hasKey Prod.fst parameter) <;> rfl

theorem chargingPower_eq_some {reader : EvReader F64}
    (h : reader = describedFirst descriptions sets ∨ reader = permittedFirst descriptions sets)
    (range : F64 × Option F64) : reader.profile.chargingPower = some range ↔ ∃ parameter,
      OnlyTotalByNumber descriptions (some parameter) ∧
        lastOf (hasKey Prod.fst parameter) (sets.filterMap storedRange) = some (parameter, range) := by
  rw [chargingPower_eq descriptions sets reader h, Option.bind_eq_some_iff]
  refine exists_congr fun parameter => and_congr (byScope_describedParameters descriptions parameter) ?_
  rw [Option.map_eq_some_iff]
  constructor
  · rintro ⟨stored, hlast, rfl⟩
    have hkey : stored.1 = parameter := hasKey_iff.mp (lastOf_mem hlast).2
    rw [hlast, ← hkey]
  · intro hlast
    exact ⟨_, hlast, rfl⟩

end Tables

variable {ids : Option Nat × Option Nat} {entry : PermittedValueSet}

section Exactly

variable {descriptions : List ParameterDescription} {sets : List PermittedValueSet}

theorem readBand_eq_some {phase : PhaseName} {band : Band F64} :
    readBand descriptions entry = some (phase, band) ↔
      (lastDescription descriptions entry.parameterId).bind ParameterDescription.acMeasuredPhases =
        some phase ∧
      (entry.bounds binaryDecimals).map (fun range => Band.ordered range.1 range.2) = some band := by
  unfold readBand
  cases (lastDescription descriptions entry.parameterId).bind ParameterDescription.acMeasuredPhases with
  | none => exact ⟨nofun, fun h => nomatch h.1⟩
  | some phase' =>
    cases entry.bounds binaryDecimals with
    | none => exact ⟨nofun, fun h => nomatch h.2⟩
    | some range => simp

theorem storedRange_eq_some {parameter : Nat} {range : F64 × Option F64} :
    storedRange entry = some (parameter, range) ↔
      entry.parameterId = some parameter ∧ entry.powerBounds binaryDecimals = some range := by
  unfold storedRange
  cases entry.parameterId with
  | none => exact ⟨nofun, fun h => nomatch h.1⟩
  | some id =>
    cases entry.powerBounds binaryDecimals with
    | none => exact ⟨nofun, fun h => nomatch h.2⟩
    | some range' => simp

theorem exists_of_bandRead {phase : PhaseName} {band : Band F64}
    (h : bandRead descriptions sets phase = some band) :
    ∃ set ∈ sets, readBand descriptions set = some (phase, band) := by
  rw [bandRead_eq, Option.map_eq_some_iff] at h
  obtain ⟨read, hlast, rfl⟩ := h
  obtain ⟨hmem, hkey⟩ := lastOf_mem hlast
  obtain ⟨set, hset, hread⟩ := List.mem_filterMap.mp hmem
  rw [← hasKey_iff.mp hkey]
  exact ⟨set, hset, hread⟩

theorem bandRead_isSome {set : PermittedValueSet} (hset : set ∈ sets) {phase : PhaseName}
    {band : Band F64} (h : readBand descriptions set = some (phase, band)) :
    (bandRead descriptions sets phase).isSome = true := by
  have hmem : (phase, band) ∈ sets.filterMap (readBand descriptions) :=
    List.mem_filterMap.mpr ⟨set, hset, h⟩
  obtain ⟨read, hlast⟩ := lastOf_isSome hmem (hasKey_iff.mpr rfl : hasKey Prod.fst phase (phase, band) = true)
  rw [bandRead_eq, hlast]
  rfl

theorem OnlyTotal.unique {ids' : Option Nat × Option Nat} (h : OnlyTotal descriptions ids)
    (h' : OnlyTotal descriptions ids') : ids = ids' :=
  (h' ids).mp ((h ids).mpr rfl)

theorem OnlyTotalByNumber.exists {parameter : Option Nat}
    (h : OnlyTotalByNumber descriptions parameter) : ∃ id, parameter = some id := by
  cases parameter with
  | none => exact nomatch (h none).mpr rfl
  | some id => exact ⟨id, rfl⟩

theorem rangesBelong_of_saysTheSame (hsets : (sets.map PermittedValueSet.ids).Nodup)
    (h : ∀ set ∈ sets, SaysTheSame descriptions set.ids) : RangesBelong descriptions sets where
  band phase band hread := by
    obtain ⟨set, hset, hread⟩ := exists_of_bandRead hread
    obtain ⟨hphase, hbounds⟩ := readBand_eq_some.mp hread
    have hown := (h set hset).phase
    exact ⟨set, hset, hown ▸ hphase, hbounds⟩
  phase set hset phase hown hbounds := by
    obtain ⟨range, hrange⟩ := Option.isSome_iff_exists.mp hbounds
    have hphase : (lastDescription descriptions set.parameterId).bind
        ParameterDescription.acMeasuredPhases = some phase := (h set hset).phase.trans hown
    exact bandRead_isSome hset (readBand_eq_some.mpr ⟨hphase, by rw [hrange]; rfl⟩)
  power reader hreader range := by
    rw [chargingPower_eq_some descriptions sets hreader]
    constructor
    · rintro ⟨parameter, htotal, hlast⟩
      obtain ⟨set, hset, hstored⟩ := List.mem_filterMap.mp (lastOf_mem hlast).1
      obtain ⟨hid, hrange⟩ := storedRange_eq_some.mp hstored
      rw [← hid] at htotal
      exact ⟨set, hset, (h set hset).total.mp htotal, hrange⟩
    · rintro ⟨set, hset, htotal, hrange⟩
      have hnumber : OnlyTotalByNumber descriptions set.parameterId := (h set hset).total.mpr htotal
      obtain ⟨parameter, hid⟩ := hnumber.exists
      rw [hid] at hnumber
      have hmem : (parameter, range) ∈ sets.filterMap storedRange :=
        List.mem_filterMap.mpr ⟨set, hset, storedRange_eq_some.mpr ⟨hid, hrange⟩⟩
      obtain ⟨⟨parameter', range'⟩, hlast⟩ := lastOf_isSome hmem
        (hasKey_iff.mpr rfl : hasKey Prod.fst parameter (parameter, range) = true)
      have hkey : parameter' = parameter := hasKey_iff.mp (lastOf_mem hlast).2
      subst hkey
      -- the set that is stored is the one, as it has the number of the total power
      obtain ⟨set', hset', hstored⟩ := List.mem_filterMap.mp (lastOf_mem hlast).1
      obtain ⟨hid', hrange'⟩ := storedRange_eq_some.mp hstored
      have htotal' : OnlyTotal descriptions set'.ids :=
        (h set' hset').total.mp (hid'.symm ▸ hnumber : OnlyTotalByNumber descriptions set'.parameterId)
      have hsame : set' = set := List.inj_on_of_nodup_map hsets hset' hset (htotal'.unique htotal)
      rw [hsame, hrange] at hrange'
      rw [← Option.some.inj hrange'] at hlast
      exact ⟨parameter', hnumber, hlast⟩

def six : ScaledNumber := ⟨some 6, some 0⟩

/-- A value set that gives a range where it has these identifiers, and none where it has others. -/
def aloneEntry (ids : Option Nat × Option Nat) (entry : PermittedValueSet) : PermittedValueSet :=
  if entry.ids = ids then { entry with permittedValueSet := some [⟨some [⟨some six, some six⟩]⟩] }
  else { entry with permittedValueSet := none }

theorem aloneEntry_ids (ids : Option Nat × Option Nat) (entry : PermittedValueSet) :
    (aloneEntry ids entry).ids = entry.ids := by
  unfold aloneEntry
  split <;> rfl

theorem exists_six : ∃ amperes, binaryDecimals.toValue six = some amperes :=
  Option.isSome_iff_exists.mp (by decide +kernel)

theorem bounds_aloneEntry :
    ((aloneEntry ids entry).bounds binaryDecimals).isSome = true ↔ entry.ids = ids := by
  obtain ⟨amperes, hsix⟩ := exists_six
  unfold aloneEntry
  by_cases h : entry.ids = ids
  · rw [if_pos h]
    simp [PermittedValueSet.bounds, hsix, h]
  · rw [if_neg h]
    simp [PermittedValueSet.bounds, h]

theorem powerBounds_aloneEntry :
    ((aloneEntry ids entry).powerBounds binaryDecimals).isSome = true ↔ entry.ids = ids := by
  obtain ⟨amperes, hsix⟩ := exists_six
  unfold aloneEntry
  by_cases h : entry.ids = ids
  · rw [if_pos h]
    simp [PermittedValueSet.powerBounds, hsix, h]
  · rw [if_neg h]
    simp [PermittedValueSet.powerBounds, h]

theorem ids_of_bounds
    (h : entry ∈ sets.map (aloneEntry ids)) (hbounds : (entry.bounds binaryDecimals).isSome = true) :
    entry.ids = ids := by
  obtain ⟨set, -, rfl⟩ := List.mem_map.mp h
  rw [aloneEntry_ids, bounds_aloneEntry.mp hbounds]

theorem ids_of_powerBounds (h : entry ∈ sets.map (aloneEntry ids))
    (hbounds : (entry.powerBounds binaryDecimals).isSome = true) : entry.ids = ids := by
  obtain ⟨set, -, rfl⟩ := List.mem_map.mp h
  rw [aloneEntry_ids, powerBounds_aloneEntry.mp hbounds]

theorem saysTheSame_of_rangesBelong {set : PermittedValueSet} (hset : set ∈ sets)
    (h : RangesBelong descriptions (sets.map (aloneEntry set.ids))) :
    SaysTheSame descriptions set.ids := by
  have hmem : aloneEntry set.ids set ∈ sets.map (aloneEntry set.ids) := List.mem_map_of_mem hset
  have hids : (aloneEntry set.ids set).ids = set.ids := aloneEntry_ids set.ids set
  have hnumber' : (aloneEntry set.ids set).parameterId = set.ids.2 := congrArg Prod.snd hids
  constructor
  case phase =>
    have hbounds : ((aloneEntry set.ids set).bounds binaryDecimals).isSome = true :=
      bounds_aloneEntry.mpr rfl
    obtain ⟨range, hrange⟩ := Option.isSome_iff_exists.mp hbounds
    refine Option.ext fun phase => ⟨fun hphase => ?_, fun hphase => ?_⟩
    · have hread : readBand descriptions (aloneEntry set.ids set) =
          some (phase, Band.ordered range.1 range.2) := by
        refine readBand_eq_some.mpr ⟨?_, by rw [hrange]; rfl⟩
        rw [hnumber', hphase]
      obtain ⟨band, hband⟩ := Option.isSome_iff_exists.mp (bandRead_isSome hmem hread)
      obtain ⟨entry, hentry, hown, hentryBounds⟩ := h.band phase band hband
      obtain ⟨range', hrange', -⟩ := Option.map_eq_some_iff.mp hentryBounds
      rwa [ids_of_bounds hentry (Option.isSome_of_eq_some hrange')] at hown
    · obtain ⟨band, hband⟩ := Option.isSome_iff_exists.mp
        (h.phase _ hmem phase (hids.symm ▸ hphase) hbounds)
      obtain ⟨entry, hentry, hread⟩ := exists_of_bandRead hband
      obtain ⟨hlast, hentryBounds⟩ := readBand_eq_some.mp hread
      obtain ⟨range', hrange', -⟩ := Option.map_eq_some_iff.mp hentryBounds
      have hsame := ids_of_bounds hentry (Option.isSome_of_eq_some hrange')
      rw [← hsame]
      exact hlast
  case total =>
    have hbounds : ((aloneEntry set.ids set).powerBounds binaryDecimals).isSome = true :=
      powerBounds_aloneEntry.mpr rfl
    obtain ⟨range, hrange⟩ := Option.isSome_iff_exists.mp hbounds
    have hpower := h.power _ (.inl rfl)
    constructor
    · intro hnumber
      obtain ⟨parameter, hid⟩ := hnumber.exists
      have hid' : (aloneEntry set.ids set).parameterId = some parameter := hnumber'.trans hid
      have hstored : (parameter, range) ∈ (sets.map (aloneEntry set.ids)).filterMap storedRange :=
        List.mem_filterMap.mpr ⟨_, hmem, storedRange_eq_some.mpr ⟨hid', hrange⟩⟩
      obtain ⟨⟨parameter', range'⟩, hlast⟩ := lastOf_isSome hstored
        (hasKey_iff.mpr rfl : hasKey Prod.fst parameter (parameter, range) = true)
      have hkey : parameter' = parameter := hasKey_iff.mp (lastOf_mem hlast).2
      subst hkey
      rw [hid] at hnumber
      obtain ⟨entry, hentry, htotal, hentryRange⟩ := (hpower range').mp
        ((chargingPower_eq_some descriptions _ (.inl rfl) range').mpr ⟨parameter', hnumber, hlast⟩)
      rwa [ids_of_powerBounds hentry (Option.isSome_of_eq_some hentryRange)] at htotal
    · intro htotal
      obtain ⟨parameter, hnumber, hlast⟩ := (chargingPower_eq_some descriptions _ (.inl rfl) range).mp
        ((hpower range).mpr ⟨_, hmem, hids.symm ▸ htotal, hrange⟩)
      obtain ⟨entry, hentry, hstored⟩ := List.mem_filterMap.mp (lastOf_mem hlast).1
      obtain ⟨hid, hentryRange⟩ := storedRange_eq_some.mp hstored
      have hsame := ids_of_powerBounds hentry (Option.isSome_of_eq_some hentryRange)
      rw [← hsame]
      have hid' : entry.ids.2 = some parameter := hid
      rwa [hid']

/-- Whatever ranges the value sets with these identifiers give, each goes to the parameter it belongs
to, exactly where the number of every set alone says what its connection and its number say. -/
theorem ranges_belong_iff (descriptions : List ParameterDescription) (sets : List PermittedValueSet)
    (hsets : (sets.map PermittedValueSet.ids).Nodup) :
    (∀ sets' : List PermittedValueSet, sets'.map PermittedValueSet.ids = sets.map PermittedValueSet.ids →
      RangesBelong descriptions sets') ↔ ∀ set ∈ sets, SaysTheSame descriptions set.ids := by
  constructor
  · intro h set hset
    refine saysTheSame_of_rangesBelong hset (h _ ?_)
    rw [List.map_map]
    exact List.map_congr_left fun entry _ => aloneEntry_ids set.ids entry
  · intro h sets' hids
    refine rangesBelong_of_saysTheSame (hids ▸ hsets) fun set' hset' => ?_
    have hmem : set'.ids ∈ sets.map PermittedValueSet.ids := hids ▸ List.mem_map_of_mem hset'
    obtain ⟨set, hset, heq⟩ := List.mem_map.mp hmem
    exact heq ▸ h set hset

section Unshared

variable {ids : Option Nat × Option Nat} (hids : (descriptions.map ParameterDescription.ids).Nodup)
include hids

theorem ownDescription_eq_some {entry : ParameterDescription} :
    ownDescription descriptions ids = some entry ↔
      entry ∈ descriptions ∧ entry.ids = ids ∧ ids.2.isSome = true := by
  unfold ownDescription
  cases hnumber : ids.2 with
  | none => exact ⟨nofun, fun h => nomatch h.2.2⟩
  | some parameter =>
    have hfind : (descriptions.find? fun entry => entry.ids == ids) =
        descriptions.find? (hasKey ParameterDescription.ids ids) := by
      congr 1
      funext entry
      by_cases h : entry.ids = ids <;> simp [hasKey, h]
    rw [Option.bind_some, hfind]
    constructor
    · intro h
      have hkey := List.find?_some h
      exact ⟨List.mem_of_find?_eq_some h, hasKey_iff.mp hkey, rfl⟩
    · rintro ⟨hmem, rfl, -⟩
      exact find?_hasKey_of_mem hids hmem

theorem saysTheSame_of_unshared (hunshared : ∀ entry ∈ descriptions, ∀ entry' ∈ descriptions,
      entry.parameterId = entry'.parameterId → entry = entry')
    (hown : ∀ entry ∈ descriptions, entry.parameterId = ids.2 → entry.ids = ids) :
    SaysTheSame descriptions ids := by
  have hlast : ∀ {parameter entry}, lastDescription descriptions parameter = some entry ↔
      entry ∈ descriptions ∧ entry.parameterId = parameter ∧ parameter.isSome = true := by
    intro parameter entry
    unfold lastDescription
    cases parameter with
    | none => exact ⟨nofun, fun h => nomatch h.2.2⟩
    | some id =>
      rw [Option.bind_some]
      constructor
      · intro h
        exact ⟨(lastOf_mem h).1, eq_of_beq (lastOf_mem h).2, rfl⟩
      · rintro ⟨hmem, hid, -⟩
        obtain ⟨entry', hentry'⟩ := lastOf_isSome (p := fun entry => entry.parameterId == some id) hmem
          (beq_iff_eq.mpr hid)
        have hid' : entry'.parameterId = some id := eq_of_beq (lastOf_mem hentry').2
        rw [hentry', hunshared entry' (lastOf_mem hentry').1 entry hmem (hid'.trans hid.symm)]
  have hsame : lastDescription descriptions ids.2 = ownDescription descriptions ids := by
    refine Option.ext fun entry => ?_
    rw [hlast, ownDescription_eq_some hids]
    constructor
    · exact fun h => ⟨h.1, hown entry h.1 h.2.1, h.2.2⟩
    · exact fun h => ⟨h.1, congrArg Prod.snd h.2.1, h.2.2⟩
  refine ⟨by rw [hsame], ?_⟩
  constructor
  · intro h ids'
    constructor
    · intro hany
      obtain ⟨entry, hentry, htotal⟩ := (Option.any_eq_true _ _).mp hany
      obtain ⟨hmem, heq, hsome⟩ := (ownDescription_eq_some hids).mp hentry
      have hnumber : entry.parameterId = ids.2 := by
        rw [← heq] at hsome
        exact (h entry.parameterId).mp ((Option.any_eq_true _ _).mpr
          ⟨entry, hlast.mpr ⟨hmem, rfl, hsome⟩, htotal⟩)
      rw [← heq, hown entry hmem hnumber]
    · rintro rfl
      rw [← hsame]
      exact (h ids'.2).mpr rfl
  · intro h parameter
    constructor
    · intro hany
      obtain ⟨entry, hentry, htotal⟩ := (Option.any_eq_true _ _).mp hany
      obtain ⟨hmem, rfl, hsome⟩ := hlast.mp hentry
      have heq : entry.ids = ids := (h entry.ids).mp ((Option.any_eq_true _ _).mpr
        ⟨entry, (ownDescription_eq_some hids).mpr ⟨hmem, rfl, hsome⟩, htotal⟩)
      exact congrArg Prod.snd heq
    · rintro rfl
      rw [hsame]
      exact (h ids).mpr rfl

end Unshared

end Exactly

namespace SharedNumber

def description (connection parameter : Nat) (scope : Option String) (phase : Option PhaseName) :
    ParameterDescription := ⟨some connection, some parameter, none, scope, phase⟩

def permitted (connection parameter : Nat) (min max : Int) : PermittedValueSet :=
  ⟨some connection, some parameter, some [⟨some [⟨some ⟨some min, some 0⟩, some ⟨some max, some 0⟩⟩]⟩]⟩

/-- Parameter 1 is a current of the first phase on one connection, and the total power on another. -/
def descriptions : List ParameterDescription :=
  [description 1 1 none (some .a), description 2 1 (some "acPowerTotal") none]

def sets : List PermittedValueSet := [permitted 2 1 1400 11000, permitted 1 1 6 16]

/-- The same two parameters under numbers of their own. -/
def numberedApart : List ParameterDescription :=
  [description 1 1 none (some .a), description 2 2 (some "acPowerTotal") none]

def setsApart : List PermittedValueSet := [permitted 2 2 1400 11000, permitted 1 1 6 16]

end SharedNumber

open SharedNumber in
/-- With numbers of their own, the ranges of the two go where they belong. -/
theorem ranges_belong_iff_apart :
    (setsApart.map PermittedValueSet.ids).Nodup ∧ RangesBelong numberedApart setsApart := by
  refine ⟨by decide, (ranges_belong_iff numberedApart setsApart (by decide)).mpr ?_ setsApart rfl⟩
  intro set hset
  refine saysTheSame_of_unshared (by decide) (by decide) ?_
  have hown : ∀ set ∈ setsApart, ∀ entry ∈ numberedApart, entry.parameterId = set.ids.2 →
      entry.ids = set.ids := by decide
  exact hown set hset

open SharedNumber in
/-- The car is taken to charge with six to sixteen watts. -/
theorem current_read_as_power :
    (descriptions.map ParameterDescription.ids).Nodup ∧ (sets.map PermittedValueSet.ids).Nodup ∧
      (describedFirst descriptions sets).profile.chargingPower =
        (permitted 1 1 6 16).powerBounds binaryDecimals ∧
      ¬RangesBelong descriptions sets := by
  have hread : (describedFirst descriptions sets).profile.chargingPower =
      (permitted 1 1 6 16).powerBounds binaryDecimals := by decide +kernel
  refine ⟨by decide, by decide, hread, fun h => ?_⟩
  have hsome : ((permitted 1 1 6 16).powerBounds binaryDecimals).isSome = true := by decide +kernel
  obtain ⟨range, hrange⟩ := Option.isSome_iff_exists.mp hsome
  obtain ⟨set, hset, htotal, hset'⟩ := (h.power _ (.inl rfl) range).mp (hread.trans hrange)
  have htwo : (some 2, some 1) = set.ids := (htotal (some 2, some 1)).mp (by decide)
  cases List.mem_cons.mp hset with
  | inl heq =>
    rw [heq, ← hrange] at hset'
    exact absurd hset' (by decide +kernel)
  | inr hmem =>
    rw [List.mem_singleton.mp hmem] at htwo
    exact absurd htwo (by decide)

end Eebus.Emobility
