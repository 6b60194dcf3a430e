import Eebus.Hvac.Appliance
import Eebus.Library.Machine
import Mathlib.Data.List.Chain
import Mathlib.Data.List.Infix

/-!
What is reported of an appliance over a whole history of payloads, next to what its readers know.
A mode is reported when its identifier moves; its name is looked up at that moment only.
-/

namespace Eebus.Hvac

open Eebus.Library Eebus.Model

section Reported

variable {α : Type}

def HvacEvent.modeOf (function : String) : HvacEvent α → Option (Nat × String)
  | .modeChanged _ kind mode id => if kind = function then some (id, mode) else none
  | _ => none

def HvacEvent.overrunOf (function : String) : HvacEvent α → Option OverrunReport
  | .overrunChanged _ kind report => if kind = function then some report else none
  | _ => none

def HvacEvent.degreesOf (setpoint : Nat) : HvacEvent α → Option α
  | .setpointChanged _ id degrees => if id = setpoint then some degrees else none
  | _ => none

variable (events : List (HvacEvent α))

def modesReported (function : String) : List (Nat × String) := events.filterMap (HvacEvent.modeOf function)

def overrunsReported (function : String) : List OverrunReport :=
  events.filterMap (HvacEvent.overrunOf function)

def degreesReported (setpoint : Nat) : List α := events.filterMap (HvacEvent.degreesOf setpoint)

variable (later : List (HvacEvent α))

theorem modesReported_append (function : String) :
    modesReported (events ++ later) function = modesReported events function ++ modesReported later function :=
  List.filterMap_append

theorem overrunsReported_append (function : String) :
    overrunsReported (events ++ later) function =
      overrunsReported events function ++ overrunsReported later function :=
  List.filterMap_append

theorem degreesReported_append (setpoint : Nat) : degreesReported (events ++ later) setpoint =
      degreesReported events setpoint ++ degreesReported later setpoint :=
  List.filterMap_append

end Reported

def SystemFunction.described (reader : SystemFunction) : Option (Nat × String) :=
  reader.modeId.bind fun id => (reader.kindOf id).map fun kind => (id, kind)

def SameDegrees {α : Type} [BEq α] (x y : α) : Prop := x = y ∨ (x == y) = true

/-- The last reports agree with what the readers know, and no mode is reported twice on end. -/
structure Reported {α : Type} [BEq α] (unit : TrackedUnit α) (events : List (HvacEvent α)) : Prop where
  mode : ∀ tracked ∈ unit.functions, ∀ kind, tracked.reader.mode = some kind →
    ((modesReported events tracked.kind).getLast?).map Prod.snd = some kind
  overrun : ∀ tracked ∈ unit.functions, ∀ report, tracked.reader.overrun = some report →
    (overrunsReported events tracked.kind).getLast? = some report
  setpoint : ∀ tracked ∈ unit.setpoints, ∀ setpoint ∈ tracked.reader.temperatureSetpoints, ∀ degrees,
    tracked.reader.temperature setpoint = some degrees →
      ∃ last, (degreesReported events setpoint).getLast? = some last ∧ SameDegrees last degrees
  distinct : ∀ tracked ∈ unit.functions,
    List.IsChain (fun before after => before ≠ after) (modesReported events tracked.kind)

section OneFunction

variable {α : Type} (unit : UnitId) {tracked : TrackedFunction}

theorem learn_of_not_learned {reader : SystemFunction} {data : HvacData}
    (h : (reader.learn data).2 = false) : (reader.learn data).1 = reader := by
  cases data with
  | other => rfl
  | _ => cases h

/-- What was last seen of the function is what its reader knows. -/
def TrackedFunction.Seen (tracked : TrackedFunction) : Prop :=
  tracked.mode = tracked.reader.modeId ∧ tracked.overrun = tracked.reader.overrun

theorem take_reader (data : HvacData) :
    (tracked.take (α := α) unit data).1.reader = (tracked.reader.learn data).1 := by
  unfold TrackedFunction.take
  dsimp only
  split <;> rfl

theorem take_kind (data : HvacData) : (tracked.take (α := α) unit data).1.kind = tracked.kind := by
  unfold TrackedFunction.take
  dsimp only
  split <;> rfl

theorem take_seen (h : tracked.Seen) (data : HvacData) : (tracked.take (α := α) unit data).1.Seen := by
  unfold TrackedFunction.take
  dsimp only
  split
  case isTrue hlearned =>
    have hsame := learn_of_not_learned (by simpa using hlearned)
    unfold TrackedFunction.Seen
    dsimp only
    rw [hsame]
    exact h
  case isFalse => exact ⟨rfl, rfl⟩

theorem take_events {data : HvacData} (h : (tracked.reader.learn data).2 = true) :
    (tracked.take (α := α) unit data).2 =
      tracked.describedEvents unit (tracked.reader.learn data).1 ++
        tracked.modeEvents unit (tracked.reader.learn data).1 ++
        tracked.overrunEvents unit (tracked.reader.learn data).1 ++
        tracked.finishedEvents unit (tracked.reader.learn data).1 data := by
  unfold TrackedFunction.take
  simp only [h, Bool.not_true, Bool.false_eq_true, if_false]

theorem take_silent {data : HvacData} (h : (tracked.reader.learn data).2 = false) :
    (tracked.take (α := α) unit data).2 = [] := by
  unfold TrackedFunction.take
  simp only [h, Bool.not_false, if_true]

theorem mode_parts (reader : SystemFunction) (data : HvacData) (function : String) :
    modesReported (tracked.describedEvents (α := α) unit reader) function = [] ∧
      modesReported (tracked.overrunEvents (α := α) unit reader) function = [] ∧
      modesReported (tracked.finishedEvents (α := α) unit reader data) function = [] := by
  unfold TrackedFunction.describedEvents TrackedFunction.overrunEvents TrackedFunction.finishedEvents
  refine ⟨?_, ?_, ?_⟩
  · split <;> rfl
  · repeat' split
    all_goals rfl
  · split <;> rfl

theorem overrun_parts (reader : SystemFunction) (data : HvacData) (function : String) :
    overrunsReported (tracked.describedEvents (α := α) unit reader) function = [] ∧
      overrunsReported (tracked.modeEvents (α := α) unit reader) function = [] ∧
      overrunsReported (tracked.finishedEvents (α := α) unit reader data) function = [] := by
  unfold TrackedFunction.describedEvents TrackedFunction.modeEvents TrackedFunction.finishedEvents
  refine ⟨?_, ?_, ?_⟩
  · split <;> rfl
  · repeat' split
    all_goals rfl
  · split <;> rfl

theorem modesReported_modeEvents (reader : SystemFunction) (function : String) :
    modesReported (tracked.modeEvents (α := α) unit reader) function =
      (if tracked.kind = function ∧ tracked.mode ≠ reader.modeId then reader.described else none).toList := by
  unfold TrackedFunction.modeEvents SystemFunction.described
  cases reader.modeId with
  | none => simp [modesReported]
  | some mode =>
    by_cases hmode : tracked.mode = some mode
    · simp [hmode, modesReported]
    · cases hkind : reader.kindOf mode with
      | none => simp [hmode, hkind, modesReported]
      | some kind =>
        by_cases hfunction : tracked.kind = function
        · simp [hmode, hkind, hfunction, modesReported, HvacEvent.modeOf]
        · simp [hmode, hkind, hfunction, modesReported, HvacEvent.modeOf]

theorem overrunsReported_overrunEvents (reader : SystemFunction) (function : String) :
    overrunsReported (tracked.overrunEvents (α := α) unit reader) function =
      (if tracked.kind = function ∧ tracked.overrun ≠ reader.overrun then reader.overrun else none).toList := by
  unfold TrackedFunction.overrunEvents
  cases reader.overrun with
  | none => simp [overrunsReported]
  | some report =>
    by_cases hreport : tracked.overrun = some report
    · simp [hreport, overrunsReported]
    · by_cases hfunction : tracked.kind = function
      · simp [hreport, hfunction, overrunsReported, HvacEvent.overrunOf]
      · simp [hreport, hfunction, overrunsReported, HvacEvent.overrunOf]

theorem modesReported_take (h : tracked.Seen) (data : HvacData) (function : String) :
    modesReported (tracked.take (α := α) unit data).2 function =
      (if tracked.kind = function ∧ tracked.reader.modeId ≠ (tracked.reader.learn data).1.modeId then
        (tracked.reader.learn data).1.described else none).toList := by
  cases hlearned : (tracked.reader.learn data).2 with
  | false =>
    rw [take_silent unit hlearned, learn_of_not_learned hlearned, if_neg fun h => h.2 rfl]
    rfl
  | true =>
    obtain ⟨hdescribed, hoverrun, hfinished⟩ :=
      @mode_parts α unit tracked (tracked.reader.learn data).1 data function
    rw [take_events unit hlearned, modesReported_append, modesReported_append, modesReported_append,
      hdescribed, hoverrun, hfinished, modesReported_modeEvents, h.1, List.nil_append,
      List.append_nil, List.append_nil]

theorem overrunsReported_take (h : tracked.Seen) (data : HvacData) (function : String) :
    overrunsReported (tracked.take (α := α) unit data).2 function =
      (if tracked.kind = function ∧ tracked.reader.overrun ≠ (tracked.reader.learn data).1.overrun then
        (tracked.reader.learn data).1.overrun else none).toList := by
  cases hlearned : (tracked.reader.learn data).2 with
  | false =>
    rw [take_silent unit hlearned, learn_of_not_learned hlearned, if_neg fun h => h.2 rfl]
    rfl
  | true =>
    obtain ⟨hdescribed, hmode, hfinished⟩ :=
      @overrun_parts α unit tracked (tracked.reader.learn data).1 data function
    rw [take_events unit hlearned, overrunsReported_append, overrunsReported_append,
      overrunsReported_append, hdescribed, hmode, hfinished, overrunsReported_overrunEvents, h.2,
      List.nil_append, List.nil_append, List.append_nil]

theorem degreesReported_take (setpoint : Nat) (data : HvacData) :
    degreesReported (tracked.take (α := α) unit data).2 setpoint = [] := by
  cases hlearned : (tracked.reader.learn data).2 with
  | false => rw [take_silent unit hlearned]; rfl
  | true =>
    rw [take_events unit hlearned]
    unfold TrackedFunction.describedEvents TrackedFunction.modeEvents TrackedFunction.overrunEvents
      TrackedFunction.finishedEvents degreesReported
    rw [List.filterMap_append, List.filterMap_append, List.filterMap_append]
    repeat' split
    all_goals rfl

def TrackedFunction.after (α : Type) (id : UnitId) (history : List UnitData) (tracked : TrackedFunction) :
    TrackedFunction :=
  history.foldl (fun tracked data => (tracked.take (α := α) id data.hvacData).1) tracked

theorem after_append_singleton (id : UnitId) (history : List UnitData) (data : UnitData)
    (tracked : TrackedFunction) :
    tracked.after α id (history ++ [data]) =
      ((tracked.after α id history).take (α := α) id data.hvacData).1 := by
  rw [TrackedFunction.after, List.foldl_append]
  rfl

theorem after_spec (id : UnitId) (history : List UnitData) {tracked : TrackedFunction}
    (h : tracked.Seen) :
    (tracked.after α id history).Seen ∧ (tracked.after α id history).kind = tracked.kind ∧
      (tracked.after α id history).reader = tracked.reader.learnAll (history.map UnitData.hvacData) := by
  induction history using List.reverseRecOn with
  | nil => exact ⟨h, rfl, rfl⟩
  | append_singleton history data ih =>
    obtain ⟨hseen, hkind, hreader⟩ := ih
    rw [after_append_singleton]
    refine ⟨take_seen id hseen _, (take_kind id _).trans hkind, ?_⟩
    rw [take_reader, hreader, List.map_append, SystemFunction.learnAll, SystemFunction.learnAll,
      List.foldl_append]
    rfl

end OneFunction

section OneScope

variable {α : Type}

def seenOf (seen : List (Nat × α)) (setpoint : Nat) : Option α :=
  (seen.find? (hasKey Prod.fst setpoint)).map Prod.snd

def shown (reader : Setpoints α) (setpoint : Nat) : Option α :=
  if setpoint ∈ reader.temperatureSetpoints then reader.temperature setpoint else none

theorem seenOf_upsert (seen : List (Nat × α)) (id : Nat) (degrees : α) (setpoint : Nat) :
    seenOf (upsert Prod.fst (id, degrees) seen) setpoint =
      if id = setpoint then some degrees else seenOf seen setpoint := by
  unfold seenOf
  rw [find?_upsert]
  split <;> rfl

variable [BEq α] (numbers : Degrees α) (unit : UnitId) {tracked : TrackedSetpoints α}

def fresh (seen value : Option α) : Option α :=
  value.filter fun degrees => !seen.any fun stored => stored == degrees

theorem report_spec (reader : Setpoints α) (acc : List (Nat × α) × List (HvacEvent α)) (id setpoint : Nat) :
    seenOf (TrackedSetpoints.report unit reader acc id).1 setpoint =
      (if id = setpoint then fresh (seenOf acc.1 setpoint) (reader.temperature setpoint) else none).or
        (seenOf acc.1 setpoint) ∧
    degreesReported (TrackedSetpoints.report unit reader acc id).2 setpoint =
      degreesReported acc.2 setpoint ++
        (if id = setpoint then fresh (seenOf acc.1 setpoint) (reader.temperature setpoint)
          else none).toList := by
  have hany : ∀ degrees, (acc.1.find? (hasKey Prod.fst id)).any (fun stored => stored.2 == degrees) =
      (seenOf acc.1 id).any fun stored => stored == degrees := by
    intro degrees
    unfold seenOf
    cases acc.1.find? (hasKey Prod.fst id) <;> rfl
  unfold TrackedSetpoints.report
  by_cases hid : id = setpoint
  · subst hid
    rw [if_pos rfl, fresh]
    cases reader.temperature id with
    | none => exact ⟨rfl, (List.append_nil _).symm⟩
    | some degrees =>
      dsimp only
      rw [hany]
      cases hseen : (seenOf acc.1 id).any fun stored => stored == degrees with
      | true =>
        rw [if_pos rfl, Option.filter_some, hseen]
        exact ⟨rfl, (List.append_nil _).symm⟩
      | false =>
        rw [if_neg Bool.false_ne_true, Option.filter_some, hseen, seenOf_upsert, if_pos rfl]
        refine ⟨rfl, ?_⟩
        rw [degreesReported_append]
        simp [degreesReported, HvacEvent.degreesOf]
  · rw [if_neg hid]
    cases reader.temperature id with
    | none => exact ⟨rfl, (List.append_nil _).symm⟩
    | some degrees =>
      dsimp only
      split
      · exact ⟨rfl, (List.append_nil _).symm⟩
      · rw [seenOf_upsert, if_neg hid]
        refine ⟨rfl, ?_⟩
        rw [degreesReported_append]
        simp [degreesReported, HvacEvent.degreesOf, hid]

theorem foldl_report_spec (reader : Setpoints α) {ids : List Nat} (hids : ids.Nodup)
    (acc : List (Nat × α) × List (HvacEvent α)) (setpoint : Nat) :
    seenOf (ids.foldl (TrackedSetpoints.report unit reader) acc).1 setpoint =
      (if setpoint ∈ ids then fresh (seenOf acc.1 setpoint) (reader.temperature setpoint) else none).or
        (seenOf acc.1 setpoint) ∧
    degreesReported (ids.foldl (TrackedSetpoints.report unit reader) acc).2 setpoint =
      degreesReported acc.2 setpoint ++
        (if setpoint ∈ ids then fresh (seenOf acc.1 setpoint) (reader.temperature setpoint)
          else none).toList := by
  induction ids generalizing acc with
  | nil => exact ⟨rfl, (List.append_nil _).symm⟩
  | cons id rest ih =>
    rw [List.nodup_cons] at hids
    obtain ⟨hseen, hreported⟩ := report_spec unit reader acc id setpoint
    obtain ⟨hseen', hreported'⟩ := ih hids.2 (TrackedSetpoints.report unit reader acc id)
    rw [List.foldl_cons, hseen', hreported', hseen, hreported]
    by_cases hid : id = setpoint
    · subst hid
      rw [if_neg hids.1, if_pos rfl, if_pos List.mem_cons_self]
      exact ⟨rfl, by simp⟩
    · have hmem : setpoint ∈ id :: rest ↔ setpoint ∈ rest := by
        rw [List.mem_cons, or_iff_right (Ne.symm hid)]
      simp only [if_neg hid, hmem, Option.none_or, Option.toList_none, List.append_nil]
      exact ⟨trivial, trivial⟩

def news (tracked : TrackedSetpoints α) (data : ServerData) (setpoint : Nat) : Option α :=
  if (tracked.reader.learn numbers data).2 then
    fresh (seenOf tracked.seen setpoint) (shown (tracked.reader.learn numbers data).1 setpoint)
  else none

theorem take_setpoints (data : ServerData)
    (hids : (tracked.reader.learn numbers data).1.temperatureSetpoints.Nodup) (setpoint : Nat) :
    seenOf (tracked.take numbers unit data).1.seen setpoint =
      (news numbers tracked data setpoint).or (seenOf tracked.seen setpoint) ∧
    degreesReported (tracked.take numbers unit data).2 setpoint =
      (news numbers tracked data setpoint).toList := by
  unfold TrackedSetpoints.take news
  cases hlearned : (tracked.reader.learn numbers data).2 with
  | false => simp [hlearned, degreesReported]
  | true =>
    obtain ⟨hseen, hreported⟩ := foldl_report_spec unit (tracked.reader.learn numbers data).1 hids
      (tracked.seen, []) setpoint
    have hnews : (if setpoint ∈ (tracked.reader.learn numbers data).1.temperatureSetpoints then
          fresh (seenOf tracked.seen setpoint) ((tracked.reader.learn numbers data).1.temperature setpoint)
        else none) =
        fresh (seenOf tracked.seen setpoint) (shown (tracked.reader.learn numbers data).1 setpoint) := by
      unfold shown
      split <;> rfl
    simp only [hlearned, Bool.not_true, Bool.false_eq_true, if_false, if_true]
    rw [hseen, hreported, hnews]
    exact ⟨rfl, rfl⟩

theorem take_setpoints_reader (data : ServerData) :
    (tracked.take numbers unit data).1.reader = (tracked.reader.learn numbers data).1 := by
  unfold TrackedSetpoints.take
  dsimp only
  split <;> rfl

theorem take_setpoints_scope (data : ServerData) :
    (tracked.take numbers unit data).1.scope = tracked.scope := by
  unfold TrackedSetpoints.take
  dsimp only
  split <;> rfl

theorem take_setpoints_other (data : ServerData) (function : String) :
    modesReported (tracked.take numbers unit data).2 function = [] ∧
      overrunsReported (tracked.take numbers unit data).2 function = [] := by
  have hreport : ∀ (reader : Setpoints α) (acc : List (Nat × α) × List (HvacEvent α)) (id : Nat),
      modesReported acc.2 function = [] ∧ overrunsReported acc.2 function = [] →
        modesReported (TrackedSetpoints.report unit reader acc id).2 function = [] ∧
          overrunsReported (TrackedSetpoints.report unit reader acc id).2 function = [] := by
    intro reader acc id h
    unfold TrackedSetpoints.report
    split
    · exact h
    · split
      · exact h
      · rw [modesReported_append, overrunsReported_append, h.1, h.2]
        exact ⟨rfl, rfl⟩
  unfold TrackedSetpoints.take
  dsimp only
  split
  · exact ⟨rfl, rfl⟩
  · refine foldl_preserves (P := fun acc : List (Nat × α) × List (HvacEvent α) =>
      modesReported acc.2 function = [] ∧ overrunsReported acc.2 function = []) (hreport _) _ ?_
    exact ⟨rfl, rfl⟩

end OneScope

section Unheard

variable {α : Type} {unit : TrackedUnit α}

/-- A unit in which nothing has been heard yet, and no kind or scope is there twice. -/
structure Unheard (unit : TrackedUnit α) : Prop where
  kinds : (unit.functions.map TrackedFunction.kind).Nodup
  scopes : (unit.setpoints.map TrackedSetpoints.scope).Nodup
  functions : ∀ tracked ∈ unit.functions, tracked.Seen ∧ tracked.reader.modeId = none ∧
    tracked.reader.overrun = none
  setpoints : ∀ tracked ∈ unit.setpoints, tracked.reader.temperatures = [] ∧
    tracked.reader.values = [] ∧ tracked.seen = []

theorem unheard_attach (h : Unheard unit) (subject : Subject) : Unheard (unit.attach subject) := by
  unfold TrackedUnit.attach
  split
  case h_1 scope _ =>
    split
    case isTrue =>
      refine { h with scopes := ?_, setpoints := ?_ }
      · rw [map_modifyFirst TrackedSetpoints.scope unit.setpoints fun tracked _ => by split <;> rfl]
        exact h.scopes
      · refine forall_mem_modifyFirst h.setpoints fun tracked _ hmem => ?_
        split
        · exact h.setpoints tracked hmem
        · exact h.setpoints tracked hmem
    case isFalse hfresh =>
      refine { h with scopes := ?_, setpoints := ?_ }
      · rw [List.map_append, List.nodup_append]
        refine ⟨h.scopes, List.nodup_singleton _, ?_⟩
        intro known hknown added hadded heq
        obtain ⟨tracked, htracked, rfl⟩ := List.mem_map.mp hknown
        have hscope : tracked.scope = scope := heq.trans (List.mem_singleton.mp hadded)
        exact hfresh (List.any_eq_true.mpr ⟨tracked, htracked, beq_iff_eq.mpr hscope⟩)
      · intro tracked htracked
        cases List.mem_append.mp htracked with
        | inl hmem => exact h.setpoints tracked hmem
        | inr hnew =>
          rw [List.mem_singleton.mp hnew]
          exact ⟨rfl, rfl, rfl⟩
  case h_2 =>
    split
    case isTrue => exact h
    case isFalse hfresh =>
      refine { h with kinds := ?_, functions := ?_ }
      · rw [List.map_append, List.nodup_append]
        refine ⟨h.kinds, List.nodup_singleton _, ?_⟩
        intro known hknown added hadded heq
        obtain ⟨tracked, htracked, rfl⟩ := List.mem_map.mp hknown
        have hkind : tracked.kind = subject.function := heq.trans (List.mem_singleton.mp hadded)
        exact hfresh (List.any_eq_true.mpr ⟨tracked, htracked, beq_iff_eq.mpr hkind⟩)
      · intro tracked htracked
        cases List.mem_append.mp htracked with
        | inl hmem => exact h.functions tracked hmem
        | inr hnew =>
          rw [List.mem_singleton.mp hnew]
          exact ⟨⟨rfl, rfl⟩, rfl, rfl⟩

theorem unheard_following (id : UnitId) (subjects : List Subject) :
    Unheard (TrackedUnit.following id subjects : TrackedUnit α) := by
  refine foldl_preserves (P := Unheard) (f := TrackedUnit.attach)
    (fun unit subject h => unheard_attach h subject) subjects ?_
  exact ⟨List.nodup_nil, List.nodup_nil, nofun, nofun⟩

end Unheard

section History

variable {α : Type} [BEq α] (numbers : Degrees α) (unit : TrackedUnit α)

theorem run_append_singleton (history : List UnitData) (data : UnitData) :
    unit.run numbers (history ++ [data]) = (((unit.run numbers history).1.apply numbers data).1,
        (unit.run numbers history).2 ++ ((unit.run numbers history).1.apply numbers data).2) := by
  rw [TrackedUnit.run, List.foldl_append]
  rfl

theorem run_id (history : List UnitData) : (unit.run numbers history).1.id = unit.id := by
  induction history using List.reverseRecOn with
  | nil => rfl
  | append_singleton history data ih => rw [run_append_singleton, ← ih]; rfl

theorem apply_functions (data : UnitData) : (unit.apply numbers data).1.functions =
    unit.functions.map fun tracked => (tracked.take (α := α) unit.id data.hvacData).1 :=
  List.map_map

theorem apply_setpoints (data : UnitData) : (unit.apply numbers data).1.setpoints =
    unit.setpoints.map fun tracked => (tracked.take numbers unit.id data.serverData).1 :=
  List.map_map

theorem apply_events (data : UnitData) : (unit.apply numbers data).2 =
    (unit.functions.flatMap fun tracked => (tracked.take unit.id data.hvacData).2) ++
      unit.setpoints.flatMap fun tracked => (tracked.take numbers unit.id data.serverData).2 := by
  unfold TrackedUnit.apply
  dsimp only
  rw [List.flatMap_map, List.flatMap_map]

theorem functions_run (history : List UnitData) : (unit.run numbers history).1.functions =
      unit.functions.map (TrackedFunction.after α unit.id history) := by
  induction history using List.reverseRecOn with
  | nil => exact (List.map_id _).symm
  | append_singleton history data ih =>
    rw [run_append_singleton, apply_functions, run_id, ih, List.map_map]
    exact List.map_congr_left fun tracked _ => (after_append_singleton unit.id history data tracked).symm

def TrackedSetpoints.after (id : UnitId) (history : List UnitData) (tracked : TrackedSetpoints α) :
    TrackedSetpoints α :=
  history.foldl (fun tracked data => (tracked.take numbers id data.serverData).1) tracked

theorem after_setpoints_append_singleton (id : UnitId) (history : List UnitData) (data : UnitData)
    (tracked : TrackedSetpoints α) : tracked.after numbers id (history ++ [data]) =
      ((tracked.after numbers id history).take numbers id data.serverData).1 := by
  rw [TrackedSetpoints.after, List.foldl_append]
  rfl

theorem setpoints_run (history : List UnitData) : (unit.run numbers history).1.setpoints =
      unit.setpoints.map (TrackedSetpoints.after numbers unit.id history) := by
  induction history using List.reverseRecOn with
  | nil => exact (List.map_id _).symm
  | append_singleton history data ih =>
    rw [run_append_singleton, apply_setpoints, run_id, ih, List.map_map]
    exact List.map_congr_left fun tracked _ =>
      (after_setpoints_append_singleton numbers unit.id history data tracked).symm

variable {unit}

theorem reported_apply (hkinds : (unit.functions.map TrackedFunction.kind).Nodup)
    (hseen : ∀ tracked ∈ unit.functions, tracked.Seen) {tracked : TrackedFunction}
    (htracked : tracked ∈ unit.functions) (data : UnitData) :
    modesReported (unit.apply numbers data).2 tracked.kind =
        modesReported (tracked.take (α := α) unit.id data.hvacData).2 tracked.kind ∧
      overrunsReported (unit.apply numbers data).2 tracked.kind =
        overrunsReported (tracked.take (α := α) unit.id data.hvacData).2 tracked.kind := by
  rw [apply_events]
  constructor
  · rw [modesReported, List.filterMap_append, List.filterMap_flatMap, List.filterMap_flatMap]
    have hscopes : (unit.setpoints.flatMap fun t => (t.take numbers unit.id data.serverData).2.filterMap
        (HvacEvent.modeOf tracked.kind)) = [] :=
      List.flatMap_eq_nil_iff.mpr fun t _ => (take_setpoints_other numbers unit.id data.serverData _).1
    rw [hscopes, List.append_nil]
    refine flatMap_eq_of_unique hkinds htracked fun other hother hne => ?_
    have hreported := modesReported_take (α := α) unit.id (hseen other hother) data.hvacData tracked.kind
    rwa [if_neg fun h => hne h.1] at hreported
  · rw [overrunsReported, List.filterMap_append, List.filterMap_flatMap, List.filterMap_flatMap]
    have hscopes : (unit.setpoints.flatMap fun t => (t.take numbers unit.id data.serverData).2.filterMap
        (HvacEvent.overrunOf tracked.kind)) = [] :=
      List.flatMap_eq_nil_iff.mpr fun t _ => (take_setpoints_other numbers unit.id data.serverData _).2
    rw [hscopes, List.append_nil]
    refine flatMap_eq_of_unique hkinds htracked fun other hother hne => ?_
    have hreported := overrunsReported_take (α := α) unit.id (hseen other hother) data.hvacData tracked.kind
    rwa [if_neg fun h => hne h.1] at hreported

end History

end Eebus.Hvac
