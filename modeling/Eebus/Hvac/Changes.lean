import Eebus.Hvac.Reports
import Eebus.Model.ScaledNumber

/-!
Which changes of an appliance are reported. A reader joins several payloads, and a change of one side
of the join is looked for on that side alone.
-/

namespace Eebus.Hvac

open Eebus.Library Eebus.Model

def lastDescribed (reader : SystemFunction) (published : List HvacData) : Option (Nat × String) :=
  (published.inits.filterMap fun heard => (reader.learnAll heard).described).getLast?

/-- A payload that is taken in as it should be: it gives the mode a function is in no name and no
other name, and leads the function into no mode that is the last it was known to be in. -/
def TakenWell (reader : SystemFunction) (published : List HvacData) (data : HvacData) : Prop :=
  let before := reader.learnAll published
  let after := (before.learn data).1
  (after.modeId = before.modeId → after.described = before.described) ∧
    (after.modeId ≠ before.modeId → ∀ mode ∈ after.described, lastDescribed reader published ≠ some mode)

section Functions

variable {α : Type} [BEq α] (numbers : Degrees α) {unit : TrackedUnit α} {tracked : TrackedFunction}

theorem learnAll_append_singleton (reader : SystemFunction) (published : List HvacData) (data : HvacData) :
    reader.learnAll (published ++ [data]) = ((reader.learnAll published).learn data).1 := by
  rw [SystemFunction.learnAll, List.foldl_append]
  rfl

theorem lastDescribed_append_singleton (reader : SystemFunction) (published : List HvacData)
    (data : HvacData) : lastDescribed reader (published ++ [data]) =
      ((reader.learnAll published).learn data).1.described.or (lastDescribed reader published) := by
  have hinits : (published ++ [data]).inits = published.inits ++ [published ++ [data]] := by
    simp [List.inits_append]
  rw [lastDescribed, hinits, getLast?_filterMap_concat, learnAll_append_singleton]
  rfl

theorem lastDescribed_of_described {reader : SystemFunction} {published : List HvacData}
    {mode : Nat × String} (h : (reader.learnAll published).described = some mode) :
    lastDescribed reader published = some mode := by
  cases published using List.reverseRecOn with
  | nil =>
    have hlast : lastDescribed reader [] = (reader.learnAll []).described :=
      (getLast?_filterMap_concat _ [] []).trans (Option.or_none)
    rw [hlast, h]
  | append_singleton published data =>
    rw [lastDescribed_append_singleton, ← learnAll_append_singleton, h, Option.some_or]

theorem reported_run_append_singleton (h : Unheard unit) (htracked : tracked ∈ unit.functions)
    (history : List UnitData) (data : UnitData) :
    let before := tracked.reader.learnAll (history.map UnitData.hvacData)
    let after := (before.learn data.hvacData).1
    modesReported (unit.run numbers (history ++ [data])).2 tracked.kind =
        modesReported (unit.run numbers history).2 tracked.kind ++
          (if before.modeId = after.modeId then none else after.described).toList ∧
      overrunsReported (unit.run numbers (history ++ [data])).2 tracked.kind =
        overrunsReported (unit.run numbers history).2 tracked.kind ++
          (if before.overrun = after.overrun then none else after.overrun).toList := by
  intro before after
  obtain ⟨hseen, hkind, hreader⟩ := after_spec (α := α) unit.id history (h.functions tracked htracked).1
  have hmem : tracked.after α unit.id history ∈ (unit.run numbers history).1.functions := by
    rw [functions_run]
    exact List.mem_map_of_mem htracked
  have hkinds : ((unit.run numbers history).1.functions.map TrackedFunction.kind).Nodup := by
    rw [functions_run, List.map_map]
    refine (List.map_congr_left fun other hother => ?_).symm ▸ h.kinds
    exact (after_spec (α := α) unit.id history (h.functions other hother).1).2.1
  have hallSeen : ∀ other ∈ (unit.run numbers history).1.functions, other.Seen := by
    intro other hother
    rw [functions_run] at hother
    obtain ⟨first, hfirst, rfl⟩ := List.mem_map.mp hother
    exact (after_spec (α := α) unit.id history (h.functions first hfirst).1).1
  obtain ⟨hmodes, hoverruns⟩ := reported_apply numbers hkinds hallSeen hmem data
  rw [run_append_singleton, modesReported_append, overrunsReported_append]
  rw [hkind] at hmodes hoverruns
  rw [hmodes, hoverruns, modesReported_take _ hseen, overrunsReported_take _ hseen, hreader, hkind]
  simp only [true_and, ne_eq, ite_not]
  exact ⟨rfl, rfl⟩

/-- Where every payload is taken in well, the mode last reported is the last one known, and it was
not reported just before. -/
theorem modes_run (h : Unheard unit) (htracked : tracked ∈ unit.functions) (history : List UnitData)
    (hwell : ∀ earlier data, earlier ++ [data] <+: history →
      TakenWell tracked.reader (earlier.map UnitData.hvacData) data.hvacData) :
    (modesReported (unit.run numbers history).2 tracked.kind).getLast? =
        lastDescribed tracked.reader (history.map UnitData.hvacData) ∧
      List.IsChain (fun before after => before ≠ after)
        (modesReported (unit.run numbers history).2 tracked.kind) := by
  induction history using List.reverseRecOn with
  | nil =>
    have hnone : (tracked.reader.learnAll []).described = none := by
      have hmode : (tracked.reader.learnAll []).modeId = none := (h.functions tracked htracked).2.1
      rw [SystemFunction.described, hmode, Option.bind_none]
    refine ⟨?_, List.isChain_nil⟩
    have hlast : lastDescribed tracked.reader [] = (tracked.reader.learnAll []).described :=
      (getLast?_filterMap_concat _ [] []).trans Option.or_none
    rw [List.map_nil, hlast, hnone]
    rfl
  | append_singleton history data ih =>
    obtain ⟨hlast, hchain⟩ := ih fun earlier data' hbefore =>
      hwell earlier data' (hbefore.trans (List.prefix_append _ _))
    obtain ⟨hnamed, hmoved⟩ := hwell history data (List.prefix_refl _)
    have hmodes := (reported_run_append_singleton numbers h htracked history data).1
    rw [hmodes, List.map_append, List.map_singleton, lastDescribed_append_singleton]
    by_cases hsame : (tracked.reader.learnAll (history.map UnitData.hvacData)).modeId =
        ((tracked.reader.learnAll (history.map UnitData.hvacData)).learn data.hvacData).1.modeId
    · -- the identifier stays, and what it is called with it
      rw [if_pos hsame, Option.toList_none, List.append_nil, hnamed hsame.symm]
      refine ⟨?_, hchain⟩
      cases hdescribed : (tracked.reader.learnAll (history.map UnitData.hvacData)).described with
      | none => exact hlast
      | some mode => rw [hlast, lastDescribed_of_described hdescribed, Option.some_or]
    · rw [if_neg hsame]
      cases hdescribed :
          ((tracked.reader.learnAll (history.map UnitData.hvacData)).learn data.hvacData).1.described with
      | none => exact ⟨by rw [Option.toList_none, List.append_nil, Option.none_or, hlast], by simpa using hchain⟩
      | some mode =>
        rw [Option.toList_some, List.getLast?_concat, Option.some_or]
        refine ⟨rfl, hchain.append (List.isChain_singleton mode) fun before hbefore after hafter => ?_⟩
        rw [hlast] at hbefore
        cases hafter
        rintro rfl
        exact hmoved (Ne.symm hsame) before hdescribed hbefore

theorem overruns_run (h : Unheard unit) (htracked : tracked ∈ unit.functions) (history : List UnitData)
    {report : OverrunReport}
    (hreport : (tracked.reader.learnAll (history.map UnitData.hvacData)).overrun = some report) :
    (overrunsReported (unit.run numbers history).2 tracked.kind).getLast? = some report := by
  induction history using List.reverseRecOn with
  | nil =>
    have hnone : (tracked.reader.learnAll []).overrun = none := (h.functions tracked htracked).2.2
    rw [List.map_nil, hnone] at hreport
    cases hreport
  | append_singleton history data ih =>
    rw [(reported_run_append_singleton numbers h htracked history data).2]
    rw [List.map_append, List.map_singleton, learnAll_append_singleton] at hreport
    by_cases hsame : (tracked.reader.learnAll (history.map UnitData.hvacData)).overrun =
        ((tracked.reader.learnAll (history.map UnitData.hvacData)).learn data.hvacData).1.overrun
    · rw [if_pos hsame, Option.toList_none, List.append_nil]
      exact ih (hsame.trans hreport)
    · rw [if_neg hsame, hreport, Option.toList_some, List.getLast?_concat]

end Functions

section Readers

variable {α : Type} (numbers : Degrees α)

def valuesAfter (values : List (Nat × α)) : ServerData → List (Nat × α)
  | .values entries => (entries.getD []).foldl (Setpoints.learnValue numbers) values
  | _ => values

theorem learn_values (reader : Setpoints α) (data : ServerData) :
    (reader.learn numbers data).1.values = valuesAfter numbers reader.values data := by
  cases data <;> rfl

theorem learn_setpoints_of_not_learned {reader : Setpoints α} {data : ServerData}
    (h : (reader.learn numbers data).2 = false) : (reader.learn numbers data).1 = reader := by
  cases data with
  | other => rfl
  | _ => cases h

theorem nodup_learnDescription (scope : String) (temperatures : List (Nat × Option String))
    (entry : SetpointDescriptionData) (h : (temperatures.map Prod.fst).Nodup) :
    ((Setpoints.learnDescription scope temperatures entry).map Prod.fst).Nodup := by
  unfold Setpoints.learnDescription
  split
  · exact h
  · split
    · exact nodup_upsert h
    · exact (List.filter_sublist.map Prod.fst).nodup h

theorem nodup_learn {reader : Setpoints α} (h : reader.temperatureSetpoints.Nodup) (data : ServerData) :
    (reader.learn numbers data).1.temperatureSetpoints.Nodup := by
  cases data with
  | descriptions entries =>
    exact foldl_preserves (P := fun temperatures : List (Nat × Option String) =>
      (temperatures.map Prod.fst).Nodup) (nodup_learnDescription reader.scope) (entries.getD []) h
  | constraints entries => exact h
  | values entries => exact h
  | relations entries => exact h
  | other => exact h

theorem temperature_of_shown {reader : Setpoints α} {setpoint : Nat} {degrees : α}
    (h : shown reader setpoint = some degrees) : reader.temperature setpoint = some degrees := by
  unfold shown at h
  split at h
  · exact h
  · cases h

end Readers

section Setpoints

variable {α : Type} [BEq α] (numbers : Degrees α)

/-- A payload that brings no setpoint back into a scope with the value it was last reported with
there, once it has been reported in another scope as well. -/
def Placed (unit : TrackedUnit α) (data : UnitData) : Prop :=
  ∀ tracked ∈ unit.setpoints, ∀ setpoint degrees seen, shown tracked.reader setpoint = none →
    shown (tracked.reader.learn numbers data.serverData).1 setpoint = some degrees →
    seenOf tracked.seen setpoint = some seen → (seen == degrees) = true →
      ∀ other ∈ unit.setpoints, other.scope ≠ tracked.scope → seenOf other.seen setpoint = none

/-- The readers of a unit hold the same values, and what each has in scope was reported. -/
structure SetpointsReported (unit : TrackedUnit α) (events : List (HvacEvent α)) : Prop where
  values : ∀ tracked ∈ unit.setpoints, ∀ other ∈ unit.setpoints,
    tracked.reader.values = other.reader.values
  nodup : ∀ tracked ∈ unit.setpoints, tracked.reader.temperatureSetpoints.Nodup
  scopes : (unit.setpoints.map TrackedSetpoints.scope).Nodup
  seen : ∀ tracked ∈ unit.setpoints, ∀ setpoint degrees, shown tracked.reader setpoint = some degrees →
    ∃ last, seenOf tracked.seen setpoint = some last ∧ SameDegrees last degrees
  last : ∀ tracked ∈ unit.setpoints, ∀ setpoint degrees, shown tracked.reader setpoint = some degrees →
    ∃ last, (degreesReported events setpoint).getLast? = some last ∧ SameDegrees last degrees
  alone : ∀ tracked ∈ unit.setpoints, ∀ setpoint seen, seenOf tracked.seen setpoint = some seen →
    (∀ other ∈ unit.setpoints, other.scope ≠ tracked.scope → seenOf other.seen setpoint = none) →
      (degreesReported events setpoint).getLast? = some seen

variable {unit : TrackedUnit α} {events : List (HvacEvent α)}

theorem fresh_cases (seen : Option α) (degrees : α) : fresh seen (some degrees) = some degrees ∨
      fresh seen (some degrees) = none ∧ ∃ last, seen = some last ∧ (last == degrees) = true := by
  unfold fresh
  rw [Option.filter_some]
  cases hseen : seen.any fun stored => stored == degrees with
  | false => exact .inl rfl
  | true => exact .inr ⟨rfl, (Option.any_eq_true _ _).mp hseen⟩

theorem shown_of_news {tracked : TrackedSetpoints α} {data : ServerData} {setpoint : Nat} {degrees : α}
    (h : news numbers tracked data setpoint = some degrees) :
    shown (tracked.reader.learn numbers data).1 setpoint = some degrees := by
  unfold news at h
  split at h
  · exact (Option.filter_eq_some_iff.mp h).1
  · cases h

theorem degreesReported_apply (h : ∀ tracked ∈ unit.setpoints, tracked.reader.temperatureSetpoints.Nodup)
    (data : UnitData) (setpoint : Nat) :
    degreesReported (unit.apply numbers data).2 setpoint =
      unit.setpoints.flatMap fun tracked => (news numbers tracked data.serverData setpoint).toList := by
  rw [apply_events, degreesReported, List.filterMap_append, List.filterMap_flatMap,
    List.filterMap_flatMap]
  have hfunctions : (unit.functions.flatMap fun tracked =>
      (tracked.take unit.id data.hvacData).2.filterMap (HvacEvent.degreesOf setpoint)) = ([] : List α) :=
    List.flatMap_eq_nil_iff.mpr fun tracked _ => degreesReported_take unit.id setpoint data.hvacData
  rw [hfunctions, List.nil_append]
  refine List.flatMap_congr fun tracked htracked => ?_
  exact (take_setpoints numbers unit.id data.serverData (nodup_learn numbers (h tracked htracked) _)
    setpoint).2

variable [PartialEquivBEq α]

theorem SameDegrees.trans {x y z : α} (h : SameDegrees x y) (h' : SameDegrees y z) : SameDegrees x z := by
  cases h with
  | inl heq => exact heq ▸ h'
  | inr hxy =>
    cases h' with
    | inl heq => exact .inr (heq ▸ hxy)
    | inr hyz => exact .inr (PartialEquivBEq.trans hxy hyz)

theorem SameDegrees.symm {x y : α} (h : SameDegrees x y) : SameDegrees y x := by
  cases h with
  | inl heq => exact .inl heq.symm
  | inr hxy => exact .inr (PartialEquivBEq.symm hxy)

theorem last_of_no_news (h : SetpointsReported unit events) {data : UnitData}
    (hplaced : Placed numbers unit data) {tracked : TrackedSetpoints α} (htracked : tracked ∈ unit.setpoints)
    {setpoint : Nat} {degrees : α}
    (hshown : shown (tracked.reader.learn numbers data.serverData).1 setpoint = some degrees)
    (hnews : news numbers tracked data.serverData setpoint = none) :
    (∃ last, seenOf tracked.seen setpoint = some last ∧ SameDegrees last degrees) ∧
      ∃ last, (degreesReported events setpoint).getLast? = some last ∧ SameDegrees last degrees := by
  cases hlearned : (tracked.reader.learn numbers data.serverData).2 with
  | false =>
    rw [learn_setpoints_of_not_learned numbers hlearned] at hshown
    exact ⟨h.seen tracked htracked setpoint degrees hshown, h.last tracked htracked setpoint degrees hshown⟩
  | true =>
    have hfresh : fresh (seenOf tracked.seen setpoint) (some degrees) = none := by
      rw [← hshown, ← hnews, news, if_pos hlearned]
    cases fresh_cases (seenOf tracked.seen setpoint) degrees with
    | inl hsome => rw [hsome] at hfresh; cases hfresh
    | inr hold =>
      obtain ⟨-, seen, hseen, hsame⟩ := hold
      refine ⟨⟨seen, hseen, .inr hsame⟩, ?_⟩
      cases hbefore : shown tracked.reader setpoint with
      | none =>
        -- the setpoint has come back into its scope
        exact ⟨seen, h.alone tracked htracked setpoint seen hseen
          (hplaced tracked htracked setpoint degrees seen hbefore hshown hseen hsame), .inr hsame⟩
      | some before =>
        obtain ⟨last, hlast, hlastBefore⟩ := h.last tracked htracked setpoint before hbefore
        obtain ⟨seen', hseen', hseenBefore⟩ := h.seen tracked htracked setpoint before hbefore
        rw [hseen] at hseen'
        cases hseen'
        exact ⟨last, hlast, hlastBefore.trans (hseenBefore.symm.trans (.inr hsame))⟩

theorem setpointsReported_apply (h : SetpointsReported unit events) {data : UnitData}
    (hplaced : Placed numbers unit data) :
    SetpointsReported (unit.apply numbers data).1 (events ++ (unit.apply numbers data).2) := by
  have hafter : ∀ tracked' ∈ (unit.apply numbers data).1.setpoints, ∃ tracked ∈ unit.setpoints,
      tracked' = (tracked.take numbers unit.id data.serverData).1 := by
    intro tracked' htracked'
    rw [apply_setpoints] at htracked'
    obtain ⟨tracked, htracked, rfl⟩ := List.mem_map.mp htracked'
    exact ⟨tracked, htracked, rfl⟩
  have hids : ∀ tracked ∈ unit.setpoints,
      (tracked.reader.learn numbers data.serverData).1.temperatureSetpoints.Nodup := fun tracked htracked =>
    nodup_learn numbers (h.nodup tracked htracked) _
  have hseen' : ∀ tracked ∈ unit.setpoints, ∀ setpoint,
      seenOf (tracked.take numbers unit.id data.serverData).1.seen setpoint =
        (news numbers tracked data.serverData setpoint).or (seenOf tracked.seen setpoint) :=
    fun tracked htracked setpoint =>
      (take_setpoints numbers unit.id data.serverData (hids tracked htracked) setpoint).1
  have hreported : ∀ setpoint, degreesReported (events ++ (unit.apply numbers data).2) setpoint =
      degreesReported events setpoint ++
        unit.setpoints.flatMap fun tracked => (news numbers tracked data.serverData setpoint).toList := by
    intro setpoint
    rw [← degreesReported_apply numbers h.nodup data, degreesReported_append]
  have hvalues : ∀ tracked ∈ unit.setpoints, ∀ other ∈ unit.setpoints,
      (tracked.reader.learn numbers data.serverData).1.values =
        (other.reader.learn numbers data.serverData).1.values := by
    intro tracked htracked other hother
    rw [learn_values, learn_values, h.values tracked htracked other hother]
  constructor
  case values =>
    intro tracked' htracked' other' hother'
    obtain ⟨tracked, htracked, rfl⟩ := hafter tracked' htracked'
    obtain ⟨other, hother, rfl⟩ := hafter other' hother'
    rw [take_setpoints_reader, take_setpoints_reader]
    exact hvalues tracked htracked other hother
  case nodup =>
    intro tracked' htracked'
    obtain ⟨tracked, htracked, rfl⟩ := hafter tracked' htracked'
    rw [take_setpoints_reader]
    exact hids tracked htracked
  case scopes =>
    rw [apply_setpoints, List.map_map]
    refine (List.map_congr_left fun tracked _ => ?_).symm ▸ h.scopes
    exact take_setpoints_scope numbers unit.id data.serverData
  case seen =>
    intro tracked' htracked' setpoint degrees hshown
    obtain ⟨tracked, htracked, rfl⟩ := hafter tracked' htracked'
    rw [take_setpoints_reader] at hshown
    rw [hseen' tracked htracked]
    cases hnews : news numbers tracked data.serverData setpoint with
    | none => exact (last_of_no_news numbers h hplaced htracked hshown hnews).1
    | some reported =>
      have hsame := shown_of_news numbers hnews
      rw [hshown] at hsame
      exact ⟨reported, rfl, .inl (Option.some.inj hsame).symm⟩
  case last =>
    intro tracked' htracked' setpoint degrees hshown
    obtain ⟨tracked, htracked, rfl⟩ := hafter tracked' htracked'
    rw [take_setpoints_reader] at hshown
    rw [hreported, List.getLast?_append]
    cases hlast : (unit.setpoints.flatMap fun tracked =>
        (news numbers tracked data.serverData setpoint).toList).getLast? with
    | some last =>
      -- whoever reported it last read the same value
      obtain ⟨other, hother, hmem⟩ := List.mem_flatMap.mp (List.mem_of_getLast? hlast)
      have hother' := temperature_of_shown (shown_of_news numbers (Option.mem_toList.mp hmem))
      have hdegrees := temperature_of_shown hshown
      rw [Setpoints.temperature, hvalues other hother tracked htracked, ← Setpoints.temperature,
        hdegrees] at hother'
      exact ⟨last, Option.some_or, .inl (Option.some.inj hother').symm⟩
    | none =>
      rw [Option.none_or]
      have hnone := List.flatMap_eq_nil_iff.mp (List.getLast?_eq_none_iff.mp hlast) tracked htracked
      exact (last_of_no_news numbers h hplaced htracked hshown (Option.toList_eq_nil_iff.mp hnone)).2
  case alone =>
    intro tracked' htracked' setpoint seen hseen hothers
    obtain ⟨tracked, htracked, rfl⟩ := hafter tracked' htracked'
    rw [hseen' tracked htracked] at hseen
    have hnone : ∀ other ∈ unit.setpoints, other.scope ≠ tracked.scope →
        news numbers other data.serverData setpoint = none ∧ seenOf other.seen setpoint = none := by
      intro other hother hne
      have hmem : (other.take numbers unit.id data.serverData).1 ∈ (unit.apply numbers data).1.setpoints := by
        rw [apply_setpoints]
        exact List.mem_map_of_mem hother
      have hunseen := hothers _ hmem (by rwa [take_setpoints_scope, take_setpoints_scope])
      rw [hseen' other hother] at hunseen
      exact Option.or_eq_none_iff.mp hunseen
    have honly : (unit.setpoints.flatMap fun tracked =>
        (news numbers tracked data.serverData setpoint).toList) =
          (news numbers tracked data.serverData setpoint).toList :=
      flatMap_eq_of_unique h.scopes htracked fun other hother hne => by
        rw [(hnone other hother hne).1]
        rfl
    rw [hreported, honly]
    cases hnews : news numbers tracked data.serverData setpoint with
    | none =>
      rw [hnews, Option.none_or] at hseen
      rw [Option.toList_none, List.append_nil]
      exact h.alone tracked htracked setpoint seen hseen fun other hother hne => (hnone other hother hne).2
    | some reported =>
      rw [hnews, Option.some_or] at hseen
      rw [Option.toList_some, List.getLast?_concat, hseen]

theorem setpointsReported_run (h : Unheard unit) (history : List UnitData)
    (hplaced : ∀ earlier data, earlier ++ [data] <+: history →
      Placed numbers (unit.run numbers earlier).1 data) :
    SetpointsReported (unit.run numbers history).1 (unit.run numbers history).2 := by
  induction history using List.reverseRecOn with
  | nil =>
    have hunshown : ∀ tracked ∈ unit.setpoints, ∀ setpoint, shown tracked.reader setpoint = none := by
      intro tracked htracked setpoint
      rw [shown, Setpoints.temperatureSetpoints, (h.setpoints tracked htracked).1]
      rfl
    have hunseen : ∀ tracked ∈ unit.setpoints, ∀ setpoint, seenOf tracked.seen setpoint = none := by
      intro tracked htracked setpoint
      rw [(h.setpoints tracked htracked).2.2]
      rfl
    constructor
    case values =>
      intro tracked htracked other hother
      rw [(h.setpoints tracked htracked).2.1, (h.setpoints other hother).2.1]
    case nodup =>
      intro tracked htracked
      rw [Setpoints.temperatureSetpoints, (h.setpoints tracked htracked).1]
      exact List.nodup_nil
    case scopes => exact h.scopes
    case seen =>
      intro tracked htracked setpoint degrees hshown
      rw [hunshown tracked htracked setpoint] at hshown
      cases hshown
    case last =>
      intro tracked htracked setpoint degrees hshown
      rw [hunshown tracked htracked setpoint] at hshown
      cases hshown
    case alone =>
      intro tracked htracked setpoint seen hseen
      rw [hunseen tracked htracked setpoint] at hseen
      cases hseen
  | append_singleton history data ih =>
    rw [run_append_singleton]
    refine setpointsReported_apply numbers (ih fun earlier data' hbefore => ?_)
      (hplaced history data (List.prefix_refl _))
    exact hplaced earlier data' (hbefore.trans (List.prefix_append _ _))

end Setpoints

/-- A payload that leaves nothing unsaid: every function takes it in well, and no setpoint comes back
into a scope unnoticed. -/
structure Orderly (numbers : Degrees F64) (unit : TrackedUnit F64) (history : List UnitData)
    (data : UnitData) : Prop where
  functions : ∀ tracked ∈ unit.functions,
    TakenWell tracked.reader (history.map UnitData.hvacData) data.hvacData
  setpoints : Placed numbers (unit.run numbers history).1 data

/-- Whatever a unit follows, and whatever it hears in whatever order: as long as the payloads are
orderly, what it knows has been reported, and no mode twice on end. -/
theorem changes_reported (numbers : Degrees F64) (id : UnitId) (subjects : List Subject)
    (history : List UnitData) (h : ∀ earlier data, earlier ++ [data] <+: history →
      Orderly numbers (.following id subjects) earlier data) : ∀ heard, heard <+: history →
      Reported ((TrackedUnit.following id subjects : TrackedUnit F64).run numbers heard).1
        ((TrackedUnit.following id subjects : TrackedUnit F64).run numbers heard).2 := by
  intro heard hheard
  have hunheard : Unheard (TrackedUnit.following id subjects : TrackedUnit F64) :=
    unheard_following id subjects
  have hmodes := fun tracked (htracked : tracked ∈ (TrackedUnit.following id subjects).functions) =>
    modes_run numbers hunheard htracked heard fun earlier data hbefore =>
      (h earlier data (hbefore.trans hheard)).functions tracked htracked
  have hsetpoints := setpointsReported_run numbers hunheard heard fun earlier data hbefore =>
    (h earlier data (hbefore.trans hheard)).setpoints
  have hfunctions : ∀ tracked' ∈ ((TrackedUnit.following id subjects : TrackedUnit F64).run numbers
      heard).1.functions, ∃ tracked ∈ (TrackedUnit.following id subjects : TrackedUnit F64).functions,
        tracked'.kind = tracked.kind ∧
          tracked'.reader = tracked.reader.learnAll (heard.map UnitData.hvacData) := by
    intro tracked' htracked'
    rw [functions_run] at htracked'
    obtain ⟨tracked, htracked, rfl⟩ := List.mem_map.mp htracked'
    exact ⟨tracked, htracked, (after_spec _ heard (hunheard.functions tracked htracked).1).2⟩
  constructor
  case mode =>
    intro tracked' htracked' kind hmode
    obtain ⟨tracked, htracked, hkind, hreader⟩ := hfunctions tracked' htracked'
    rw [hreader] at hmode
    obtain ⟨mode, hid, hname⟩ := Option.bind_eq_some_iff.mp hmode
    have hdescribed : (tracked.reader.learnAll (heard.map UnitData.hvacData)).described =
        some (mode, kind) := by
      rw [SystemFunction.described, hid, Option.bind_some, hname]
      rfl
    rw [hkind, (hmodes tracked htracked).1, lastDescribed_of_described hdescribed]
    rfl
  case overrun =>
    intro tracked' htracked' report hreport
    obtain ⟨tracked, htracked, hkind, hreader⟩ := hfunctions tracked' htracked'
    rw [hreader] at hreport
    rw [hkind]
    exact overruns_run numbers hunheard htracked heard hreport
  case setpoint =>
    intro tracked htracked setpoint hmem degrees hdegrees
    refine hsetpoints.last tracked htracked setpoint degrees ?_
    rw [shown, if_pos hmem, hdegrees]
  case distinct =>
    intro tracked' htracked'
    obtain ⟨tracked, htracked, hkind, -⟩ := hfunctions tracked' htracked'
    rw [hkind]
    exact (hmodes tracked htracked).2

namespace Room

def readings : Degrees F64 := ⟨ScaledNumber.toF64, id⟩

def room : UnitId := ⟨"d:_i:46925_HeatPump-1", [1]⟩

def heating : Subject := ⟨"heating", none, none⟩

def airTemperature : Subject := ⟨"heating", none, some "roomAirTemperature"⟩

def waterTemperature : Subject := ⟨"dhw", none, some "dhwTemperature"⟩

def function : UnitData := .hvac (.functionDescriptions (some [⟨some 1, some "heating"⟩]))

def names : UnitData := .hvac (.modeDescriptions (some [⟨some 3, some "auto"⟩, ⟨some 4, some "off"⟩]))

def inMode (mode : Nat) : UnitData :=
  .hvac (.systemFunctions ⟨some [⟨some 1, some mode, none, none, none, none⟩]⟩)

def inScope (scope : String) : UnitData := .server (.descriptions (some [⟨some 5, none, some scope⟩]))

def degrees (value : Int) : UnitData :=
  .server (.values (some [⟨some 5, some ⟨some value, some 0⟩, none, none, none⟩]))

end Room

open Room in
/-- A room whose modes are named before it is in one of them. -/
theorem changes_reported_room : Reported
      ((TrackedUnit.following room [heating] : TrackedUnit F64).run readings
        [function, names, inMode 3, inMode 4]).1
      ((TrackedUnit.following room [heating] : TrackedUnit F64).run readings
        [function, names, inMode 3, inMode 4]).2 := by
  refine changes_reported readings room [heating] _ (fun earlier data hbefore => ?_) _ List.prefix_rfl
  have hwell : ∀ heard ∈ [function, names, inMode 3, inMode 4].inits, ∀ data ∈ heard.getLast?,
      ∀ tracked ∈ (TrackedUnit.following room [heating] : TrackedUnit F64).functions,
        TakenWell tracked.reader (heard.dropLast.map UnitData.hvacData) data.hvacData := by
    unfold TakenWell
    decide +kernel
  constructor
  case functions =>
    intro tracked htracked
    have htaken := hwell (earlier ++ [data]) ((List.mem_inits _ _).mpr hbefore) data
      List.getLast?_concat tracked htracked
    rwa [List.dropLast_concat] at htaken
  case setpoints =>
    intro tracked htracked
    rw [setpoints_run] at htracked
    cases htracked

open Room in
/-- Once the names come, the reader knows the room to be in a mode that no event has named. -/
theorem late_name_unreported :
    ¬Reported ((TrackedUnit.following room [heating] : TrackedUnit F64).run readings
        [function, inMode 3, names]).1
      ((TrackedUnit.following room [heating] : TrackedUnit F64).run readings
        [function, inMode 3, names]).2 := by
  intro h
  obtain ⟨tracked, htracked, hmode, hnone⟩ : ∃ tracked ∈ ((TrackedUnit.following room [heating] :
      TrackedUnit F64).run readings [function, inMode 3, names]).1.functions,
        tracked.reader.mode = some "auto" ∧ modesReported ((TrackedUnit.following room [heating] :
          TrackedUnit F64).run readings [function, inMode 3, names]).2 tracked.kind = [] := by
    decide +kernel
  have hlast := h.mode tracked htracked "auto" hmode
  rw [hnone] at hlast
  cases hlast

/-- A mode that has no name in between is reported twice on end. -/
example : modesReported ((TrackedUnit.following Room.room [Room.heating] : TrackedUnit F64).run Room.readings
    [Room.function, Room.names, Room.inMode 3, Room.inMode 9, Room.inMode 3]).2 "heating" =
      [(3, "auto"), (3, "auto")] := by
  decide +kernel

/-- A setpoint comes back into the scope of the room with the value it once had there. -/
example :
    let ran := (TrackedUnit.following Room.room [Room.airTemperature, Room.waterTemperature] :
      TrackedUnit F64).run Room.readings
        [Room.inScope "roomAirTemperature", Room.degrees 20, Room.inScope "dhwTemperature",
          Room.degrees 60, Room.inScope "dcTotal", Room.degrees 20, Room.inScope "roomAirTemperature"]
    (degreesReported ran.2 5).getLast? = (ScaledNumber.toF64 ⟨some 60, some 0⟩) := by
  decide +kernel

end Eebus.Hvac
