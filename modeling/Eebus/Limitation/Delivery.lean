import Eebus.Limitation.EnergyGuard
import Eebus.Model.DurationText
import Eebus.Model.WholeNumbers

/-!
A limit on its way: the command the guard builds of it, applied to what a Controllable System has
stored, and read there again.
-/

namespace Eebus.Model

variable {S : Schema}

theorem CmdData.deleteRow_listBoth {key : Key S.Other} (hrow : (S.type key).row = .listBoth)
    (stored update : key.Data S.OtherData) (selectors : (S.type key).Selectors)
    (elements : (S.type key).Elements) (hserved : (S.type key).usesUnsupported selectors = false) :
    CmdData.deleteRow key stored update (some ⟨key, selectors⟩) (some ⟨key, elements⟩) =
      .ok ((S.type key).clearAddressed stored ((S.type key).selects selectors) elements) := by
  simp [CmdData.deleteRow, hrow, CmdData.pickSelectors, CmdData.pickElements, bind, Except.bind, hserved]

theorem clearAddressed_limits {F : FunctionType LoadControlLimitListData}
    (hF : F = loadControlLimitListType) (stored : LoadControlLimitListData)
    (selectors : LoadControlLimitListDataSelectors) (elements : LoadControlLimitDataElements)
    (hselectors : LoadControlLimitListDataSelectors = F.Selectors)
    (helements : LoadControlLimitDataElements = F.Elements) :
    F.usesUnsupported (cast hselectors selectors) = false ∧
      F.clearAddressed stored (F.selects (cast hselectors selectors)) (cast helements elements) =
        loadControlLimitListType.clearAddressed stored selectors.selects elements := by
  subst hF
  exact ⟨rfl, rfl⟩

end Eebus.Model

namespace Eebus.Spine

open Eebus.Library Eebus.Model

variable {S : Schema}

theorem WriteOps.resolve_mismatched (ops : WriteOps S) {stored update : CmdData S}
    (hkey : update.key ≠ stored.key) (hstores : ops.stores = true) :
    ∃ error, ops.resolve stored update = .error error := by
  unfold WriteOps.resolve
  cases ops.deleteSteps with
  | nil => simp [runSteps, hstores, CmdData.apply, hkey]
  | cons step rest => simp [runSteps, deleteStep, CmdData.deleteRestricted, hkey]

end Eebus.Spine

namespace Eebus.Limitation

open Eebus.Library Eebus.Model Eebus.Spine

variable {S : Schema}

def limitsOf (list : LoadControlLimitListData) : CmdData S := ⟨.loadControlLimitListData, list⟩

def limitCommand (limit : LimitWrite) (limitId : Nat) : Cmd S :=
  (limitFilters limit limitId).foldl Cmd.withFilter (Cmd.withData (limitPayload limit limitId))

def limitEntryOf (limit : LimitWrite) (limitId : Nat) : LoadControlLimitData where
  limitId := some limitId
  isLimitChangeable := none
  isLimitActive := some limit.isActive
  timePeriod := limit.duration.map fun d => ⟨none, some (formatIso8601Duration d)⟩
  value := some (ScaledNumber.fromF64 limit.watts 0)

def withoutEndTime (entry : LoadControlLimitData) : LoadControlLimitData :=
  { entry with timePeriod := entry.timePeriod.map fun period => { period with endTime := none } }

def withdrawn (limit : LimitWrite) (limitId : Nat) (entries : List LoadControlLimitData) :
    List LoadControlLimitData :=
  if limit.duration.isSome then entries
  else entries.map fun entry =>
    if entry.limitId = some limitId then withoutEndTime entry else entry

def mergeLimit (entries : List LoadControlLimitData) (update : LoadControlLimitData) :
    List LoadControlLimitData :=
  loadControlLimitListType.mergeEntry entries update

def delivered (limit : LimitWrite) (limitId : Nat) (entries : List LoadControlLimitData) :
    List LoadControlLimitData :=
  mergeLimit (withdrawn limit limitId entries) (limitEntryOf limit limitId)

theorem apply_limits (stored update : LoadControlLimitListData) :
    (limitsOf stored : CmdData S).apply (limitsOf update) true =
      .ok (limitsOf (loadControlLimitListType.applyPartial stored update)) := by
  simp only [limitsOf, CmdData.apply, dif_pos, S.loadControl, FunctionType.apply]
  rfl

theorem clear_endTime (limitId : Nat) (entries : List LoadControlLimitData) :
    (entries.map fun entry =>
      if LoadControlLimitListDataSelectors.selects ⟨some limitId⟩ entry then
        LoadControlLimitData.restoreIdentity (LoadControlLimitData.clear
          ⟨false, false, false, some ⟨false, true⟩, none⟩ entry) entry
      else entry) =
      entries.map fun entry => if entry.limitId = some limitId then withoutEndTime entry else entry := by
  refine List.map_congr_left fun entry _ => ?_
  simp only [LoadControlLimitListDataSelectors.selects, beq_iff_eq]
  by_cases hid : entry.limitId = some limitId
  · rw [if_pos hid, if_pos hid]
    rfl
  · rw [if_neg hid, if_neg hid]

theorem withdraw_limits (stored update : LoadControlLimitListData) (limitId : Nat) :
    ∃ selectors elements, (withdrawEndTime limitId : Filter S).selectors = some [selectors] ∧
      (withdrawEndTime limitId : Filter S).elements = some elements ∧
      (limitsOf stored : CmdData S).deleteRestricted (limitsOf update) (some selectors) (some elements) =
        .ok (limitsOf ⟨stored.loadControlLimitData.map fun entries => entries.map fun entry =>
          if entry.limitId = some limitId then withoutEndTime entry else entry⟩) := by
  refine ⟨_, _, rfl, rfl, ?_⟩
  have hrow : (S.type .loadControlLimitListData).row = .listBoth := by rw [S.loadControl]; rfl
  obtain ⟨hserved, hcleared⟩ := clearAddressed_limits S.loadControl stored ⟨some limitId⟩
    ⟨false, false, false, some ⟨false, true⟩, none⟩ (by rw [S.loadControl]; rfl)
    (by rw [S.loadControl]; rfl)
  have hdeleted := (CmdData.deleteRow_listBoth hrow stored update _
    (cast (by rw [S.loadControl]; rfl)
      (⟨false, false, false, some ⟨false, true⟩, none⟩ : LoadControlLimitDataElements)) hserved).trans
        (congrArg Except.ok hcleared)
  simp only [limitsOf, CmdData.deleteRestricted, dif_pos, Option.isNone_some, Bool.false_and,
    Bool.false_eq_true, if_false]
  refine (congrArg (bind · _) hdeleted).trans ?_
  obtain ⟨entries⟩ := stored
  cases entries with
  | none => rfl
  | some entries =>
    exact congrArg (fun es => Except.ok (limitsOf (S := S) ⟨some es⟩)) (clear_endTime limitId entries)

theorem resolve_limitCommand (limit : LimitWrite) (limitId : Nat) (stored : LoadControlLimitListData) :
    (WriteOps.of (limitCommand limit limitId : Cmd S)).resolve (limitsOf stored)
        (limitPayload limit limitId) =
      .ok (limitsOf ⟨some (delivered limit limitId (stored.loadControlLimitData.getD []))⟩) := by
  have hpayload : (limitPayload limit limitId : CmdData S) =
      limitsOf ⟨some [limitEntryOf limit limitId]⟩ := rfl
  have hmerged : ∀ entries, loadControlLimitListType.applyPartial ⟨entries⟩
      ⟨some [limitEntryOf limit limitId]⟩ =
        ⟨some (mergeLimit (entries.getD []) (limitEntryOf limit limitId))⟩ :=
    fun _ => rfl
  obtain ⟨entries⟩ := stored
  cases hduration : limit.duration with
  | some duration =>
    have hops : WriteOps.of (limitCommand limit limitId : Cmd S) = ⟨[], true, true⟩ := by
      simp only [limitCommand, limitFilters, hduration, Option.isSome_some, if_true]
      rfl
    rw [hops, hpayload, WriteOps.resolve]
    simp only [WriteOps.deleteSteps, List.flatMap_nil, runSteps, if_true, apply_limits, hmerged,
      delivered, withdrawn, hduration, Option.isSome_some]
  | none =>
    have hops : WriteOps.of (limitCommand limit limitId : Cmd S) =
        ⟨[withdrawEndTime limitId], true, true⟩ := by
      simp only [limitCommand, limitFilters, hduration, Option.isSome_none, Bool.false_eq_true,
        if_false]
      rfl
    obtain ⟨selectors, elements, hselectors, helements, hdeleted⟩ :=
      withdraw_limits (S := S) ⟨entries⟩ ⟨some [limitEntryOf limit limitId]⟩ limitId
    have hsteps : (⟨[withdrawEndTime limitId], true, true⟩ : WriteOps S).deleteSteps =
        [(some selectors, some elements)] := by
      simp only [WriteOps.deleteSteps, List.flatMap_cons, List.flatMap_nil, addressedBy, hselectors,
        helements, Option.getD_some, List.map_cons, List.map_nil, List.append_nil]
    rw [hops, hpayload, WriteOps.resolve, hsteps]
    simp only [runSteps, deleteStep, hdeleted, if_true, apply_limits, hmerged, delivered, withdrawn,
      hduration, Option.isSome_none, Bool.false_eq_true, if_false]
    cases entries <;> rfl

theorem mergeLimit_cons {limitId : Nat} {update : LoadControlLimitData}
    (hupdate : update.limitId = some limitId) (entry : LoadControlLimitData)
    (rest : List LoadControlLimitData) : mergeLimit (entry :: rest) update =
      if entry.limitId = some limitId then entry.merge update :: rest
      else entry :: mergeLimit rest update := by
  have hsame : loadControlLimitListType.sameEntry entry update = true ↔
      entry.limitId = some limitId := by
    have hidentity : ∀ e : LoadControlLimitData, loadControlLimitListType.identity e = e.limitId :=
      fun _ => rfl
    simp only [FunctionType.sameEntry, hidentity, hupdate]
    cases entry.limitId with
    | none => simp
    | some id =>
      simp only [decide_eq_true_eq, Option.some.injEq]
      exact Iff.rfl
  have hmerge : mergeLimit (entry :: rest) update =
      if loadControlLimitListType.sameEntry entry update then entry.merge update :: rest
      else entry :: mergeLimit rest update := rfl
  rw [hmerge]
  exact if_congr hsame rfl rfl

theorem mergeLimit_found {limitId : Nat} {update entry : LoadControlLimitData}
    (hupdate : update.limitId = some limitId) (before after : List LoadControlLimitData)
    (hbefore : ∀ e ∈ before, e.limitId ≠ some limitId) (hentry : entry.limitId = some limitId) :
    mergeLimit (before ++ entry :: after) update = before ++ entry.merge update :: after := by
  induction before with
  | nil => rw [List.nil_append, mergeLimit_cons hupdate, if_pos hentry, List.nil_append]
  | cons first rest ih =>
    rw [List.cons_append, mergeLimit_cons hupdate, if_neg (hbefore first List.mem_cons_self),
      ih fun e he => hbefore e (List.mem_cons_of_mem first he), List.cons_append]

theorem mergeLimit_added {limitId : Nat} {update : LoadControlLimitData}
    (hupdate : update.limitId = some limitId) (entries : List LoadControlLimitData)
    (h : ∀ e ∈ entries, e.limitId ≠ some limitId) :
    mergeLimit entries update = entries ++ [update] := by
  induction entries with
  | nil => rfl
  | cons first rest ih =>
    rw [mergeLimit_cons hupdate, if_neg (h first List.mem_cons_self),
      ih fun e he => h e (List.mem_cons_of_mem first he), List.cons_append]

/-- What a limit write is to leave alone: every other entry, each in its place, and of the entry it
addresses whether the limit can be changed and when it starts. -/
def LeavesRest (limitId : Nat) (entries resolved : List LoadControlLimitData) : Prop :=
  ∃ before after old new, entries = before ++ Option.toList old ++ after ∧
    resolved = before ++ new :: after ∧ (∀ e ∈ before ++ after, e.limitId ≠ some limitId) ∧
    (∀ e ∈ old, e.limitId = some limitId) ∧ new.limitId = some limitId ∧
    new.isLimitChangeable = old.bind LoadControlLimitData.isLimitChangeable ∧
    new.timePeriod.bind TimePeriod.startTime =
      (old.bind LoadControlLimitData.timePeriod).bind TimePeriod.startTime

/-- What is read is the limit that was sent; numbers are compared as numbers. -/
def ReadAs (limit : LimitWrite) (read : Option LimitWrite) : Prop :=
  ∃ r, read = some r ∧ r.isActive = limit.isActive ∧ r.watts.eq limit.watts = true ∧
    r.duration = limit.duration

/-- The command does what it is for: it is applied, the limit is read as it was sent, and the rest is
left alone. -/
def Arrives (S : Schema) (limit : LimitWrite) (limitId : Nat) (stored : LoadControlLimitListData) :
    Prop :=
  ∃ resolved, (WriteOps.of (limitCommand limit limitId : Cmd S)).resolve (limitsOf stored)
      (limitPayload limit limitId) = .ok (limitsOf ⟨some resolved⟩) ∧
    ReadAs limit (readLimitWrite (limitsOf ⟨some resolved⟩ : CmdData S) limitId) ∧
    LeavesRest limitId (stored.loadControlLimitData.getD []) resolved

/-- A scaled number of no decimal places carries the value. -/
def Carries (watts : F64) : Prop :=
  ((ScaledNumber.fromF64 watts 0).toF64.any fun read => read.eq watts) = true

theorem fromF64_complete (value : F64) (maxDecimals : Nat) :
    ∃ number scale, ScaledNumber.fromF64 value maxDecimals = .new number scale := by
  unfold ScaledNumber.fromF64
  split
  · exact ⟨_, _, rfl⟩
  dsimp only
  split
  · exact ⟨_, _, rfl⟩
  split
  case h_1 exact hfound =>
    obtain ⟨decimals, -, hdecimals⟩ := List.exists_of_findSome?_eq_some hfound
    split at hdecimals
    · exact ⟨_, _, (Option.some.inj hdecimals).symm⟩
    · cases hdecimals
  case h_2 => exact ⟨_, _, rfl⟩

theorem withdrawn_append {limit : LimitWrite} {limitId : Nat} (before after : List LoadControlLimitData)
    (old : Option LoadControlLimitData) (hothers : ∀ e ∈ before ++ after, e.limitId ≠ some limitId)
    (hold : ∀ e ∈ old, e.limitId = some limitId) :
    withdrawn limit limitId (before ++ old.toList ++ after) =
      before ++ (old.map fun e => if limit.duration.isSome then e else withoutEndTime e).toList ++ after := by
  unfold withdrawn
  split
  case isTrue => cases old <;> rfl
  case isFalse =>
    have hkept : ∀ l : List LoadControlLimitData, (∀ e ∈ l, e.limitId ≠ some limitId) →
        (l.map fun entry => if entry.limitId = some limitId then withoutEndTime entry else entry) = l :=
      fun l hl => (List.map_congr_left fun e he => if_neg (hl e he)).trans (List.map_id l)
    rw [List.map_append, List.map_append, hkept before fun e he => hothers e (by simp [he]),
      hkept after fun e he => hothers e (by simp [he])]
    cases old with
    | none => rfl
    | some entry => simp [hold entry rfl]

theorem split_at (limitId : Nat) (entries : List LoadControlLimitData)
    (hdistinct : (entries.filterMap LoadControlLimitData.limitId).Nodup) :
    ∃ before after old, entries = before ++ Option.toList old ++ after ∧
      (∀ e ∈ before ++ after, e.limitId ≠ some limitId) ∧ ∀ e ∈ old, e.limitId = some limitId := by
  induction entries with
  | nil => exact ⟨[], [], none, rfl, by simp, by simp⟩
  | cons entry rest ih =>
    by_cases hentry : entry.limitId = some limitId
    · refine ⟨[], rest, some entry, rfl, fun e he heq => ?_, by simpa using hentry⟩
      rw [List.filterMap_cons_some hentry, List.nodup_cons] at hdistinct
      exact hdistinct.1 (List.mem_filterMap.mpr ⟨e, he, heq⟩)
    · have hrest : (rest.filterMap LoadControlLimitData.limitId).Nodup :=
        hdistinct.sublist (List.Sublist.filterMap _ (List.sublist_cons_self entry rest))
      obtain ⟨before, after, old, rfl, hothers, hold⟩ := ih hrest
      refine ⟨entry :: before, after, old, rfl, fun e he => ?_, hold⟩
      rcases List.mem_cons.mp he with rfl | he
      · exact hentry
      · exact hothers e he

def newEntry (limit : LimitWrite) (limitId : Nat) : Option LoadControlLimitData → LoadControlLimitData
  | none => limitEntryOf limit limitId
  | some entry =>
    (if limit.duration.isSome then entry else withoutEndTime entry).merge (limitEntryOf limit limitId)

theorem delivered_split (limit : LimitWrite) (limitId : Nat) (entries : List LoadControlLimitData)
    (hdistinct : (entries.filterMap LoadControlLimitData.limitId).Nodup) :
    ∃ before after old, entries = before ++ Option.toList old ++ after ∧
      delivered limit limitId entries = before ++ newEntry limit limitId old :: after ∧
      (∀ e ∈ before ++ after, e.limitId ≠ some limitId) ∧ ∀ e ∈ old, e.limitId = some limitId := by
  obtain ⟨before, after, old, rfl, hothers, hold⟩ := split_at limitId entries hdistinct
  cases old with
  | none =>
    refine ⟨before ++ after, [], none, by simp, ?_, by simpa using hothers, hold⟩
    rw [delivered, withdrawn_append before after none hothers hold]
    have hid : (limitEntryOf limit limitId).limitId = some limitId := rfl
    simpa [newEntry] using mergeLimit_added hid (before ++ after) hothers
  | some entry =>
    refine ⟨before, after, some entry, rfl, ?_, hothers, hold⟩
    rw [delivered, withdrawn_append before after (some entry) hothers hold]
    simp only [Option.map_some, Option.toList_some, List.append_assoc, List.singleton_append]
    refine mergeLimit_found rfl before after (fun e he => hothers e (List.mem_append_left _ he)) ?_
    split
    · exact hold entry rfl
    · exact hold entry rfl

theorem newEntry_keeps (limit : LimitWrite) (limitId : Nat) (old : Option LoadControlLimitData) :
    (newEntry limit limitId old).limitId = some limitId ∧
      (newEntry limit limitId old).isLimitChangeable =
        old.bind LoadControlLimitData.isLimitChangeable ∧
      (newEntry limit limitId old).timePeriod.bind TimePeriod.startTime =
        (old.bind LoadControlLimitData.timePeriod).bind TimePeriod.startTime := by
  obtain ⟨active, watts, duration⟩ := limit
  cases old with
  | none => cases duration <;> exact ⟨rfl, rfl, rfl⟩
  | some entry =>
    obtain ⟨id, changeable, active', period, value⟩ := entry
    cases duration <;> cases period <;>
      simp [newEntry, withoutEndTime, limitEntryOf, LoadControlLimitData.merge, TimePeriod.merge,
        mergeOption]

theorem newEntry_reads (limit : LimitWrite) (limitId : Nat) (old : Option LoadControlLimitData) :
    (newEntry limit limitId old).isLimitActive = some limit.isActive ∧
      (newEntry limit limitId old).value = some (ScaledNumber.fromF64 limit.watts 0) ∧
      (newEntry limit limitId old).timePeriod.bind TimePeriod.endTime =
        limit.duration.map formatIso8601Duration := by
  obtain ⟨active, watts, duration⟩ := limit
  obtain ⟨number, scale, hvalue⟩ := fromF64_complete watts 0
  cases old with
  | none => cases duration <;> exact ⟨rfl, rfl, rfl⟩
  | some entry =>
    obtain ⟨id, changeable, active', period, value⟩ := entry
    cases duration <;> cases period <;> cases value <;>
      simp [newEntry, withoutEndTime, limitEntryOf, LoadControlLimitData.merge, TimePeriod.merge,
        ScaledNumber.merge, ScaledNumber.new, mergeOption, hvalue]

theorem delivered_leavesRest (limit : LimitWrite) (limitId : Nat) (entries : List LoadControlLimitData)
    (hdistinct : (entries.filterMap LoadControlLimitData.limitId).Nodup) :
    LeavesRest limitId entries (delivered limit limitId entries) := by
  obtain ⟨before, after, old, hentries, hdelivered, hothers, hold⟩ :=
    delivered_split limit limitId entries hdistinct
  obtain ⟨hid, hchangeable, hstart⟩ := newEntry_keeps limit limitId old
  exact ⟨before, after, old, _, hentries, hdelivered, hothers, hold, hid, hchangeable, hstart⟩

theorem find_delivered (limit : LimitWrite) (limitId : Nat) (entries : List LoadControlLimitData) :
    ∃ old, (delivered limit limitId entries).find? (fun e => e.limitId == some limitId) =
      some (newEntry limit limitId old) := by
  have hid : (limitEntryOf limit limitId).limitId = some limitId := rfl
  induction entries with
  | nil =>
    refine ⟨none, ?_⟩
    unfold delivered withdrawn
    split <;> exact List.find?_cons_of_pos (beq_self_eq_true _)
  | cons entry rest ih =>
    by_cases hentry : entry.limitId = some limitId
    · have hfirst : delivered limit limitId (entry :: rest) =
          newEntry limit limitId (some entry) :: withdrawn limit limitId rest := by
        have hold : (withoutEndTime entry).limitId = some limitId := hentry
        unfold delivered withdrawn newEntry
        cases limit.duration.isSome <;> simp [mergeLimit_cons hid, hentry, hold]
      refine ⟨some entry, ?_⟩
      rw [hfirst]
      exact List.find?_cons_of_pos (by simp [(newEntry_keeps limit limitId (some entry)).1])
    · have hskipped : delivered limit limitId (entry :: rest) = entry :: delivered limit limitId rest := by
        unfold delivered withdrawn
        split <;> simp [mergeLimit_cons hid, hentry]
      rw [hskipped, List.find?_cons_of_neg (by simpa using hentry)]
      exact ih

theorem delivered_entry (limit : LimitWrite) (limitId : Nat) (entries : List LoadControlLimitData) :
    ∃ old, readLimitWrite (limitsOf ⟨some (delivered limit limitId entries)⟩ : CmdData S) limitId =
      readLimitEntry (newEntry limit limitId old) := by
  obtain ⟨old, hfound⟩ := find_delivered limit limitId entries
  refine ⟨old, ?_⟩
  simp only [readLimitWrite, limitsOf, Option.bind_eq_bind, Option.bind_some, hfound]

theorem newEntry_read (limit : LimitWrite) (limitId : Nat) (old : Option LoadControlLimitData)
    (hduration : ∀ d ∈ limit.duration, d ≤ durationMax) :
    readLimitEntry (newEntry limit limitId old) = (ScaledNumber.fromF64 limit.watts 0).toF64.map
      fun watts => ⟨limit.isActive, watts, limit.duration⟩ := by
  obtain ⟨hactive, hvalue, hend⟩ := newEntry_reads limit limitId old
  simp only [readLimitEntry, hvalue, hactive, hend, Option.bind_eq_bind, Option.getD_some]
  cases hsent : limit.duration with
  | none => cases (ScaledNumber.fromF64 limit.watts 0).toF64 <;> rfl
  | some d =>
    have hparsed := parse_format (hduration d hsent)
    simp only [Option.map_some, hparsed]
    cases (ScaledNumber.fromF64 limit.watts 0).toF64 <;> rfl

theorem delivered_read (limit : LimitWrite) (limitId : Nat) (entries : List LoadControlLimitData)
    (hduration : ∀ d ∈ limit.duration, d ≤ durationMax) :
    readLimitWrite (limitsOf ⟨some (delivered limit limitId entries)⟩ : CmdData S) limitId =
      (ScaledNumber.fromF64 limit.watts 0).toF64.map fun watts =>
        ⟨limit.isActive, watts, limit.duration⟩ := by
  obtain ⟨old, hread⟩ := delivered_entry (S := S) limit limitId entries
  rw [hread, newEntry_read limit limitId old hduration]

theorem resolveWrite_read (stored : Option (CmdData S)) (limit : LimitWrite) (limitId : Nat)
    (hduration : ∀ d ∈ limit.duration, d ≤ durationMax) :
    readLimitWrite (resolveWrite stored (limitPayload limit limitId)
        (WriteOps.of (limitCommand limit limitId))) limitId =
      (ScaledNumber.fromF64 limit.watts 0).toF64.map fun watts =>
        ⟨limit.isActive, watts, limit.duration⟩ := by
  have hpayload : readLimitWrite (limitPayload limit limitId : CmdData S) limitId =
      (ScaledNumber.fromF64 limit.watts 0).toF64.map fun watts =>
        ⟨limit.isActive, watts, limit.duration⟩ := by
    have hone := newEntry_read limit limitId none hduration
    have hfirst : [limitEntryOf limit limitId].find? (fun e => e.limitId == some limitId) =
        some (limitEntryOf limit limitId) := List.find?_cons_of_pos (beq_self_eq_true (some limitId))
    rw [← hone]
    exact congrArg (fun found => Option.bind found readLimitEntry) hfirst
  have hstores : (WriteOps.of (limitCommand limit limitId : Cmd S)).stores = true := by
    unfold limitCommand limitFilters
    split <;> rfl
  unfold resolveWrite
  split
  case h_1 => exact hpayload
  case h_2 start _ =>
    obtain ⟨key, value⟩ := start
    by_cases hkey : key = .loadControlLimitListData
    · subst hkey
      have hresolved := resolve_limitCommand (S := S) limit limitId value
      simp only [limitsOf] at hresolved
      rw [hresolved]
      exact delivered_read limit limitId _ hduration
    · obtain ⟨error, herror⟩ := @WriteOps.resolve_mismatched S (.of (limitCommand limit limitId))
        ⟨key, value⟩ (limitPayload limit limitId) (fun heq => hkey heq.symm) hstores
      rw [herror]
      exact hpayload

theorem arrives_iff_carries (limit : LimitWrite) (limitId : Nat) (stored : LoadControlLimitListData)
    (hdistinct : ((stored.loadControlLimitData.getD []).filterMap LoadControlLimitData.limitId).Nodup)
    (hduration : ∀ d ∈ limit.duration, d ≤ durationMax) :
    Arrives S limit limitId stored ↔ Carries limit.watts := by
  have hread := delivered_read (S := S) limit limitId (stored.loadControlLimitData.getD []) hduration
  have hcarried : ReadAs limit (readLimitWrite (limitsOf
      ⟨some (delivered limit limitId (stored.loadControlLimitData.getD []))⟩ : CmdData S) limitId) ↔
        Carries limit.watts := by
    rw [hread, ReadAs, Carries, Option.any_eq_true]
    constructor
    · rintro ⟨r, hr, -, hwatts, -⟩
      obtain ⟨watts, hsome, rfl⟩ := Option.map_eq_some_iff.mp hr
      exact ⟨watts, hsome, hwatts⟩
    · rintro ⟨watts, hsome, hwatts⟩
      exact ⟨_, Option.map_eq_some_iff.mpr ⟨watts, hsome, rfl⟩, rfl, hwatts, rfl⟩
  rw [← hcarried]
  constructor
  · rintro ⟨resolved, hresolved, hreads, -⟩
    rw [resolve_limitCommand] at hresolved
    have hsame := eq_of_heq (CmdData.mk.inj (Except.ok.inj hresolved)).2
    obtain rfl := Option.some.inj (LoadControlLimitListData.mk.inj hsame)
    exact hreads
  · intro hreads
    exact ⟨_, resolve_limitCommand limit limitId stored, hreads,
      delivered_leavesRest limit limitId _ hdistinct⟩

theorem carries_ofInt {n : Nat} (hsmall : n < 2 ^ 52) : Carries (F64.ofInt n) := by
  rw [Carries, fromF64_toF64_ofInt hsmall, Option.any_some]
  rcases Nat.eq_zero_or_pos n with rfl | hn
  · decide +kernel
  · have hv := F64.reads_dyadic (j := 0) hn (by omega) (by omega)
    rw [F64.ofInt_natCast n, F64.eq, hv.number, decide_eq_true rfl]
    rfl

/-- The limit that is decided is the limit that arrives exactly when a scaled number carries its watts:
as every whole number below 2 ^ 52 is. -/
theorem arrives_iff_watts_carried (S : Schema) (limit : LimitWrite) (limitId : Nat)
    (stored : LoadControlLimitListData)
    (hdistinct : ((stored.loadControlLimitData.getD []).filterMap LoadControlLimitData.limitId).Nodup)
    (hduration : ∀ d ∈ limit.duration, d ≤ durationMax) :
    (Arrives S limit limitId stored ↔ Carries limit.watts) ∧
      ∀ n < 2 ^ 52, limit.watts = F64.ofInt (n : Nat) → Arrives S limit limitId stored := by
  have hcarried := arrives_iff_carries (S := S) limit limitId stored hdistinct hduration
  refine ⟨hcarried, fun n hsmall hwatts => hcarried.mpr ?_⟩
  rw [hwatts]
  exact carries_ofInt hsmall

namespace Scenario

/-- A limit with a stale end time, and another. -/
def storedLimits : LoadControlLimitListData :=
  ⟨some [⟨some 0, some true, some true, some ⟨some "2030-01-01T00:00:00Z", some "PT1H"⟩,
      some (.new 6000 0)⟩,
    ⟨some 1, some true, some false, none, some (.new 4200 0)⟩]⟩

theorem arrives_iff_watts_carried_stale :
    Arrives Schema.limitsOnly ⟨true, F64.ofInt (4200 : Nat), none⟩ 0 storedLimits := by
  have hdistinct : ((storedLimits.loadControlLimitData.getD []).filterMap
      LoadControlLimitData.limitId).Nodup := by decide
  have h := Limitation.arrives_iff_watts_carried Schema.limitsOnly
    ⟨true, F64.ofInt (4200 : Nat), none⟩ 0 storedLimits hdistinct (fun _ h => nomatch h)
  exact h.2 4200 (by norm_num) (by dsimp only)

/-- Half a step above an odd number of this size is no number of its own: it is taken for the even one
above. -/
theorem odd_watts_arrive_as_even :
    ¬ Arrives Schema.limitsOnly ⟨true, F64.ofInt 4503599627370497, none⟩ 0 storedLimits := by
  have hrounded : ((ScaledNumber.fromF64 (F64.ofInt 4503599627370497) 0).toF64.any
      fun read => read.eq (F64.ofInt 4503599627370497)) = false := by decide +kernel
  rw [arrives_iff_carries _ _ _ (by decide) (by simp), Carries, hrounded]
  exact Bool.false_ne_true

end Scenario

end Eebus.Limitation
