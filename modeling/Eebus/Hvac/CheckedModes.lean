import Eebus.Hvac.SystemFunction
import Eebus.Model.Addressable
import Eebus.Spine.WritePreview

/-!
The modes an appliance stores, and the modes its readers have let in. A reader looks at the first
entry of a write that names its function; the engine merges all of them.
-/

namespace Eebus.Hvac

open Eebus.Library Eebus.Model Eebus.Spine

variable {S : Schema}

def namesFunction (function : Nat) (entry : HvacSystemFunctionData) : Bool :=
  entry.systemFunctionId == some function

def modeIn (function : Nat) (entries : List HvacSystemFunctionData) : Option Nat :=
  (entries.find? (namesFunction function)).bind HvacSystemFunctionData.currentOperationModeId

def lastMode (function : Nat) (entries : List HvacSystemFunctionData) : Option Nat :=
  ((entries.filter (namesFunction function)).filterMap
    HvacSystemFunctionData.currentOperationModeId).getLast?

def mergeFunction (entries : List HvacSystemFunctionData) (update : HvacSystemFunctionData) :
    List HvacSystemFunctionData :=
  hvacSystemFunctionListType.mergeEntry entries update

section OneList

variable {function : Nat} {entries : List HvacSystemFunctionData} {entry : HvacSystemFunctionData}

theorem namesFunction_iff : namesFunction function entry = true ↔ entry.systemFunctionId = some function := by
  simp [namesFunction]

theorem modeIn_cons_pos (h : namesFunction function entry = true) (rest : List HvacSystemFunctionData) :
    modeIn function (entry :: rest) = entry.currentOperationModeId := by
  rw [modeIn, List.find?_cons_of_pos h, Option.bind_some]

theorem modeIn_cons_neg (h : ¬namesFunction function entry = true) (rest : List HvacSystemFunctionData) :
    modeIn function (entry :: rest) = modeIn function rest := by
  rw [modeIn, List.find?_cons_of_neg h, modeIn]

theorem modeIn_of_unnamed (h : entries.any (namesFunction function) = false) :
    modeIn function entries = none := by
  have hnone : entries.find? (namesFunction function) = none := by
    simpa [List.find?_eq_none] using h
  rw [modeIn, hnone, Option.bind_none]

theorem lastMode_cons (entry : HvacSystemFunctionData) (rest : List HvacSystemFunctionData) :
    lastMode function (entry :: rest) = (lastMode function rest).or
      (if namesFunction function entry then entry.currentOperationModeId else none) := by
  by_cases h : namesFunction function entry = true
  · rw [lastMode, List.filter_cons_of_pos h, if_pos h, lastMode]
    cases hmode : entry.currentOperationModeId with
    | none => rw [List.filterMap_cons_none hmode, Option.or_none]
    | some mode =>
      rw [List.filterMap_cons_some hmode, List.getLast?_cons]
      cases ((rest.filter (namesFunction function)).filterMap
        HvacSystemFunctionData.currentOperationModeId).getLast? <;> rfl
  · rw [lastMode, List.filter_cons_of_neg h, if_neg h, Option.or_none, lastMode]

theorem sameEntry_iff {a b : HvacSystemFunctionData} :
    hvacSystemFunctionListType.sameEntry a b = true ↔
      a.systemFunctionId.isSome = true ∧ a.systemFunctionId = b.systemFunctionId :=
  FunctionType.sameEntry_iff

theorem mergeFunction_cons (first update : HvacSystemFunctionData) (rest : List HvacSystemFunctionData) :
    mergeFunction (first :: rest) update =
      if hvacSystemFunctionListType.sameEntry first update then first.merge update :: rest
      else first :: mergeFunction rest update := rfl

theorem merge_systemFunctionId {first update : HvacSystemFunctionData}
    (h : first.systemFunctionId = update.systemFunctionId) :
    (first.merge update).systemFunctionId = first.systemFunctionId := by
  simp only [HvacSystemFunctionData.merge, ← h, mergeLeaf]
  cases first.systemFunctionId <;> rfl

theorem merge_currentOperationModeId (first update : HvacSystemFunctionData) :
    (first.merge update).currentOperationModeId =
      update.currentOperationModeId.or first.currentOperationModeId := by
  simp only [HvacSystemFunctionData.merge, mergeLeaf]
  cases first.currentOperationModeId <;> cases update.currentOperationModeId <;> rfl

theorem modeIn_mergeFunction (update : HvacSystemFunctionData) (entries : List HvacSystemFunctionData) :
    modeIn function (mergeFunction entries update) =
      (if namesFunction function update then update.currentOperationModeId else none).or
        (modeIn function entries) := by
  induction entries with
  | nil =>
    have hmerge : mergeFunction [] update = [update] := rfl
    rw [hmerge]
    by_cases h : namesFunction function update = true
    · rw [modeIn_cons_pos h, if_pos h]
      exact Option.or_none.symm
    · rw [modeIn_cons_neg h, if_neg h, Option.none_or]
  | cons first rest ih =>
    rw [mergeFunction_cons]
    by_cases hsame : hvacSystemFunctionListType.sameEntry first update = true
    · have heq := (sameEntry_iff.mp hsame).2
      rw [if_pos hsame]
      by_cases h : namesFunction function first = true
      · have hupdate : namesFunction function update = true := by rwa [namesFunction, ← heq]
        have hmerged : namesFunction function (first.merge update) = true := by
          rwa [namesFunction, merge_systemFunctionId heq]
        rw [modeIn_cons_pos hmerged, modeIn_cons_pos h, if_pos hupdate, merge_currentOperationModeId]
      · have hupdate : ¬namesFunction function update = true := by rwa [namesFunction, ← heq]
        have hmerged : ¬namesFunction function (first.merge update) = true := by
          rwa [namesFunction, merge_systemFunctionId heq]
        rw [modeIn_cons_neg hmerged, modeIn_cons_neg h, if_neg hupdate, Option.none_or]
    · rw [if_neg hsame]
      by_cases h : namesFunction function first = true
      · have hid := namesFunction_iff.mp h
        have hupdate : ¬namesFunction function update = true := fun hupdate =>
          hsame (sameEntry_iff.mpr ⟨Option.isSome_of_eq_some hid, hid.trans (namesFunction_iff.mp hupdate).symm⟩)
        rw [modeIn_cons_pos h, modeIn_cons_pos h, if_neg hupdate, Option.none_or]
      · rw [modeIn_cons_neg h, modeIn_cons_neg h, ih]

theorem modeIn_foldl_mergeFunction (updates entries : List HvacSystemFunctionData) :
    modeIn function (updates.foldl mergeFunction entries) =
      (lastMode function updates).or (modeIn function entries) := by
  induction updates generalizing entries with
  | nil => rfl
  | cons update rest ih =>
    rw [List.foldl_cons, ih, modeIn_mergeFunction, lastMode_cons, Option.or_assoc]

theorem modeIn_filter {addressed : HvacSystemFunctionData → Bool}
    (h : ∀ a b, a.systemFunctionId = b.systemFunctionId → addressed a = addressed b) :
    modeIn function (entries.filter fun entry => !addressed entry) = modeIn function entries ∨
      modeIn function (entries.filter fun entry => !addressed entry) = none := by
  induction entries with
  | nil => exact .inl rfl
  | cons first rest ih =>
    by_cases hfirst : namesFunction function first = true
    · cases hpick : addressed first with
      | false =>
        rw [List.filter_cons_of_pos (by simp [hpick]), modeIn_cons_pos hfirst, modeIn_cons_pos hfirst]
        exact .inl rfl
      | true =>
        rw [List.filter_cons_of_neg (by simp [hpick])]
        refine .inr (modeIn_of_unnamed (List.any_eq_false.mpr fun entry hentry hnames => ?_))
        have hkept := (List.mem_filter.mp hentry).2
        rw [h entry first ((namesFunction_iff.mp hnames).trans (namesFunction_iff.mp hfirst).symm),
          hpick] at hkept
        cases hkept
    · cases hpick : addressed first with
      | false =>
        rw [List.filter_cons_of_pos (by simp [hpick]), modeIn_cons_neg hfirst, modeIn_cons_neg hfirst]
        exact ih
      | true =>
        rw [List.filter_cons_of_neg (by simp [hpick]), modeIn_cons_neg hfirst]
        exact ih

theorem modeIn_map {g : HvacSystemFunctionData → HvacSystemFunctionData}
    (hid : ∀ entry, (g entry).systemFunctionId = entry.systemFunctionId)
    (hmode : ∀ entry, (g entry).currentOperationModeId = entry.currentOperationModeId ∨
      (g entry).currentOperationModeId = none) :
    modeIn function (entries.map g) = modeIn function entries ∨
      modeIn function (entries.map g) = none := by
  induction entries with
  | nil => exact .inl rfl
  | cons first rest ih =>
    rw [List.map_cons]
    by_cases hfirst : namesFunction function first = true
    · have hcleared : namesFunction function (g first) = true := by rwa [namesFunction, hid]
      rw [modeIn_cons_pos hcleared, modeIn_cons_pos hfirst]
      exact hmode first
    · have hcleared : ¬namesFunction function (g first) = true := by rwa [namesFunction, hid]
      rw [modeIn_cons_neg hcleared, modeIn_cons_neg hfirst]
      exact ih

end OneList

def relationsIn (published : List HvacData) : List HvacSystemFunctionOperationModeRelationData :=
  published.flatMap fun
    | .modeRelations entries => entries.getD []
    | _ => []

def functionsIn (published : List HvacData) : List HvacSystemFunctionData :=
  published.flatMap fun
    | .systemFunctions list => list.hvacSystemFunctionData.getD []
    | _ => []

def relatedIn (published : List HvacData) (function : Nat) : List Nat :=
  (((relationsIn published).filter fun entry => entry.systemFunctionId == some function).getLast?.bind
    HvacSystemFunctionOperationModeRelationData.operationModeId).getD []

def changeableIn (published : List HvacData) (function : Nat) : Option Bool :=
  ((functionsIn published).filter (namesFunction function)).getLast?.bind
    HvacSystemFunctionData.isOperationModeIdChangeable

section Learning

variable {ε κ β : Type} [DecidableEq κ]

theorem find?_foldl_learn {learn : List (κ × β) → ε → List (κ × β)} {k : κ} {names : ε → Bool}
    {read : ε → β}
    (hlearn : ∀ held entry, (learn held entry).find? (hasKey Prod.fst k) =
      if names entry then some (k, read entry) else held.find? (hasKey Prod.fst k))
    (entries : List ε) (held : List (κ × β)) :
    (entries.foldl learn held).find? (hasKey Prod.fst k) =
      ((entries.filter names).getLast?.map fun entry => (k, read entry)).or
        (held.find? (hasKey Prod.fst k)) := by
  induction entries generalizing held with
  | nil => rfl
  | cons entry rest ih =>
    rw [List.foldl_cons, ih, hlearn]
    by_cases hnames : names entry = true
    · rw [if_pos hnames, List.filter_cons_of_pos hnames, List.getLast?_cons]
      cases (rest.filter names).getLast? <;> rfl
    · rw [if_neg hnames, List.filter_cons_of_neg hnames]

end Learning

namespace SystemFunction

theorem related_learnAll (reader : SystemFunction) (published : List HvacData) :
    (reader.learnAll published).related = (relationsIn published).foldl learnRelation reader.related := by
  induction published generalizing reader with
  | nil => rfl
  | cons data rest ih =>
    have hstep : reader.learnAll (data :: rest) = (reader.learn data).1.learnAll rest := rfl
    rw [hstep, ih]
    cases data <;> simp [learn, relationsIn, List.foldl_append]

theorem states_learnAll (reader : SystemFunction) (published : List HvacData) :
    (reader.learnAll published).states = (functionsIn published).foldl learnState reader.states := by
  induction published generalizing reader with
  | nil => rfl
  | cons data rest ih =>
    have hstep : reader.learnAll (data :: rest) = (reader.learn data).1.learnAll rest := rfl
    rw [hstep, ih]
    cases data <;> simp [learn, functionsIn, List.foldl_append]

variable {kind : String} {overrunType : Option String} {published : List HvacData} {function : Nat}

theorem relatedModes_learnAll (h : ((new kind overrunType).learnAll published).function = some function) :
    ((new kind overrunType).learnAll published).relatedModes = relatedIn published function := by
  have hlearn : ∀ (held : List (Nat × List Nat)) (entry : HvacSystemFunctionOperationModeRelationData),
      (learnRelation held entry).find? (hasKey Prod.fst function) =
        if entry.systemFunctionId == some function then some (function, entry.operationModeId.getD [])
        else held.find? (hasKey Prod.fst function) := by
    intro held entry
    unfold learnRelation
    cases entry.systemFunctionId with
    | none => rfl
    | some id =>
      rw [find?_upsert]
      by_cases hid : id = function
      · subst hid
        simp
      · simp [hid]
  rw [relatedModes, h, related_learnAll, Option.bind_some, find?_foldl_learn hlearn, relatedIn]
  have hnew : (new kind overrunType).related = [] := rfl
  rw [hnew, List.find?_nil, Option.or_none, Option.map_map]
  cases ((relationsIn published).filter fun entry => entry.systemFunctionId == some function).getLast? <;> rfl

theorem modeChangeable_learnAll (h : ((new kind overrunType).learnAll published).function = some function) :
    ((new kind overrunType).learnAll published).modeChangeable = changeableIn published function := by
  have hlearn : ∀ (held : List (Nat × FunctionState)) (entry : HvacSystemFunctionData),
      (learnState held entry).find? (hasKey Prod.fst function) =
        if namesFunction function entry then some (function, ⟨entry.currentOperationModeId,
          entry.isOperationModeIdChangeable, entry.isOverrunActive⟩)
        else held.find? (hasKey Prod.fst function) := by
    intro held entry
    unfold learnState namesFunction
    cases entry.systemFunctionId with
    | none => rfl
    | some id =>
      rw [find?_upsert]
      by_cases hid : id = function
      · subst hid
        simp
      · simp [hid]
  rw [modeChangeable, h, states_learnAll, Option.bind_some, find?_foldl_learn hlearn, changeableIn]
  have hnew : (new kind overrunType).states = [] := rfl
  rw [hnew, List.find?_nil, Option.or_none, Option.map_map]
  cases ((functionsIn published).filter (namesFunction function)).getLast? <;> rfl

end SystemFunction

def entriesOf (data : Option (CmdData S)) : List HvacSystemFunctionData :=
  match data with
  | some ⟨.hvacSystemFunctionListData, list⟩ => list.hvacSystemFunctionData.getD []
  | _ => []

def systemFunctions (list : HvacSystemFunctionListData) : CmdData S := ⟨.hvacSystemFunctionListData, list⟩

theorem eq_systemFunctions {data : CmdData S} (h : data.key = .hvacSystemFunctionListData) :
    ∃ list, data = systemFunctions list := by
  obtain ⟨key, list⟩ := data
  cases h
  exact ⟨list, rfl⟩

theorem entriesOf_of_key {data : CmdData S} (h : data.key ≠ .hvacSystemFunctionListData) :
    entriesOf (some data) = [] := by
  obtain ⟨key, value⟩ := data
  cases key
  case hvacSystemFunctionListData => exact absurd rfl h
  all_goals rfl

theorem apply_systemFunctions (stored update : HvacSystemFunctionListData) (isPartial : Bool) :
    (systemFunctions stored : CmdData S).apply (systemFunctions update) isPartial =
      .ok (systemFunctions (hvacSystemFunctionListType.apply stored update isPartial)) := by
  simp only [systemFunctions, CmdData.apply, dif_pos, S.systemFunction]
  rfl

theorem entriesOf_apply (stored update : HvacSystemFunctionListData) (isPartial : Bool) :
    entriesOf (some (systemFunctions (S := S) (hvacSystemFunctionListType.apply stored update isPartial))) =
      if isPartial then
        (update.hvacSystemFunctionData.getD []).foldl mergeFunction (stored.hvacSystemFunctionData.getD [])
      else update.hvacSystemFunctionData.getD [] := by
  cases isPartial with
  | false => rfl
  | true =>
    obtain ⟨updates⟩ := update
    cases updates <;> rfl

/-- Whether an entry is addressed is for its identifiers to say. -/
def ByFunction (addressed : HvacSystemFunctionData → Bool) : Prop :=
  ∀ a b, a.systemFunctionId = b.systemFunctionId → addressed a = addressed b

theorem byFunction_named (named : List HvacSystemFunctionData) :
    ByFunction fun entry => named.any fun target => hvacSystemFunctionListType.sameEntry target entry := by
  intro a b hid
  have hsame : (fun target : HvacSystemFunctionData => hvacSystemFunctionListType.sameEntry target a) =
      fun target => hvacSystemFunctionListType.sameEntry target b :=
    funext fun target => Bool.eq_iff_iff.mpr (by
      refine sameEntry_iff.trans (Iff.trans ?_ sameEntry_iff.symm)
      rw [hid])
  exact congrArg named.any hsame

theorem byFunction_of_addresses {addressed : HvacSystemFunctionData → Bool}
    (h : hvacSystemFunctionListType.Addresses addressed) : ByFunction addressed := by
  obtain ⟨selectors, rfl⟩ | ⟨named, rfl⟩ := h
  · intro a b hid
    change selectors.selects a = selectors.selects b
    unfold HvacSystemFunctionListDataSelectors.selects
    rw [hid]
  · exact fun a b hid => congrArg (named.isEmpty || ·) (byFunction_named named a b hid)

variable {function : Nat}

theorem modeIn_deleteAddressed (stored : HvacSystemFunctionListData)
    {addressed : HvacSystemFunctionData → Bool} (h : ByFunction addressed) :
    let left := (hvacSystemFunctionListType.deleteAddressed stored addressed).hvacSystemFunctionData.getD []
    modeIn function left = modeIn function (stored.hvacSystemFunctionData.getD []) ∨
      modeIn function left = none := by
  obtain ⟨entries⟩ := stored
  cases entries with
  | none => exact .inl rfl
  | some entries => exact modeIn_filter h

theorem modeIn_clearAddressed (stored : HvacSystemFunctionListData)
    (addressed : HvacSystemFunctionData → Bool) (elements : HvacSystemFunctionDataElements) :
    let left :=
      (hvacSystemFunctionListType.clearAddressed stored addressed elements).hvacSystemFunctionData.getD []
    modeIn function left = modeIn function (stored.hvacSystemFunctionData.getD []) ∨
      modeIn function left = none := by
  obtain ⟨entries⟩ := stored
  cases entries with
  | none => exact .inl rfl
  | some entries =>
    let g : HvacSystemFunctionData → HvacSystemFunctionData := fun entry =>
      if addressed entry then (entry.clear elements).restoreIdentity entry else entry
    have hg : ∀ entry, g entry = entry ∨ g entry = (entry.clear elements).restoreIdentity entry := fun entry => by
      by_cases h : addressed entry = true
      · exact .inr (if_pos h)
      · exact .inl (if_neg h)
    refine modeIn_map (g := g) (fun entry => ?_) fun entry => ?_
    · obtain hsame | hcleared := hg entry
      · rw [hsame]
      · rw [hcleared]
        rfl
    · obtain hsame | hcleared := hg entry
      · rw [hsame]
        exact .inl rfl
      · rw [hcleared]
        change clearTag elements.currentOperationModeId entry.currentOperationModeId = _ ∨
          clearTag elements.currentOperationModeId entry.currentOperationModeId = none
        cases elements.currentOperationModeId with
        | true => exact .inr rfl
        | false => exact .inl rfl

theorem modeIn_deleteStep {update stored deleted : CmdData S}
    {step : Option (FilterSelectors S) × Option (FilterElements S)}
    (h : deleteStep update step stored = .ok deleted) :
    modeIn function (entriesOf (some deleted)) = modeIn function (entriesOf (some stored)) ∨
      modeIn function (entriesOf (some deleted)) = none := by
  unfold deleteStep CmdData.deleteRestricted at h
  split at h
  case isFalse => cases h
  case isTrue hkey =>
    by_cases hlist : stored.key = .hvacSystemFunctionListData
    · obtain ⟨stored, rfl⟩ := eq_systemFunctions hlist
      obtain ⟨update, rfl⟩ := eq_systemFunctions (hkey.trans hlist)
      split at h
      · cases h
        simp only [systemFunctions, S.systemFunction]
        obtain ⟨entries⟩ := stored
        obtain ⟨targets⟩ := update
        cases targets with
        | none => exact .inl rfl
        | some targets =>
          cases entries with
          | none => exact .inl rfl
          | some entries => exact modeIn_filter (byFunction_named targets)
      · simp only [bind, Except.bind] at h
        split at h
        · cases h
        case h_2 value hvalue =>
          cases h
          have hcases := CmdData.deleteRow_addresses hvalue
          simp only [systemFunctions] at hcases
          rw [S.systemFunction] at hcases
          obtain hsame | ⟨addressed, haddressed, hdeleted | ⟨elements, hcleared⟩⟩ | ⟨hrow, -⟩ := hcases
          · rw [hsame]
            exact .inl rfl
          · rw [hdeleted]
            exact modeIn_deleteAddressed stored (byFunction_of_addresses haddressed)
          · rw [hcleared]
            exact modeIn_clearAddressed stored addressed elements
          · cases hrow
    · refine .inl ?_
      have hdeleted : deleted.key = stored.key := by
        split at h
        · cases h
          rfl
        · simp only [bind, Except.bind] at h
          split at h
          · cases h
          · cases h
            rfl
      rw [entriesOf_of_key hlist, entriesOf_of_key (hdeleted ▸ hlist)]

def remaining (data stored : CmdData S) (ops : WriteOps S) : CmdData S :=
  (runSteps (deleteStep data) ops.deleteSteps stored).1

theorem modeIn_remaining (function : Nat) (data stored : CmdData S) (ops : WriteOps S) :
    modeIn function (entriesOf (some (remaining data stored ops))) =
        modeIn function (entriesOf (some stored)) ∨
      modeIn function (entriesOf (some (remaining data stored ops))) = none := by
  refine runSteps_preserves (R := fun s t : CmdData S =>
    modeIn function (entriesOf (some t)) = modeIn function (entriesOf (some s)) ∨
      modeIn function (entriesOf (some t)) = none) (fun _ => .inl rfl) (fun s t u hst htu => ?_)
    (fun _ _ _ h => modeIn_deleteStep h) ops.deleteSteps stored
  obtain hsame | hnone := htu
  · rwa [hsame]
  · exact .inr hnone

/-- The deletions of a write are all served, and its update is not refused. -/
structure Updates (entry : FunctionEntry S) (stored data : CmdData S) (ops : WriteOps S) : Prop where
  served : ∀ step ∈ ops.deleteSteps, servableStep data.key step = true
  stores : ops.stores = true
  taken : WriteOps.updateRefusal entry (some (remaining data stored ops)) data ops.isPartial = none

section Feature

variable {f : LocalFeature S} {entry : FunctionEntry S} {stored : CmdData S} {ops : WriteOps S}
  {fragment : HvacSystemFunctionListData}

/-- A write on a feature that holds something: its update is merged into what its deletions leave, or
takes its place. -/
theorem entriesOf_applyTo (ops : WriteOps S) (h : f.Holds (systemFunctions fragment) entry stored) :
    let after := entriesOf ((ops.applyTo f (systemFunctions fragment)).1.data
      (systemFunctions fragment : CmdData S).function)
    let left := entriesOf (some (remaining (systemFunctions fragment) stored ops))
    (Updates entry stored (systemFunctions fragment) ops → after =
      if ops.isPartial then (fragment.hvacSystemFunctionData.getD []).foldl mergeFunction left
      else fragment.hvacSystemFunctionData.getD []) ∧
    (¬Updates entry stored (systemFunctions fragment) ops → after = left) := by
  have hkey := key_eq_of_function h.function_eq
  have hserved := (deleteStep_shrinking (systemFunctions fragment)).run_ok_iff ops.deleteSteps stored hkey
  have hfunction := runDeletes_function h.function_eq ops.deleteSteps
  dsimp only
  rw [WriteOps.applyTo_holds ops h]
  unfold remaining
  generalize hrun : runSteps (deleteStep (systemFunctions fragment)) ops.deleteSteps stored = run
    at hserved hfunction ⊢
  obtain ⟨left, result⟩ := run
  have hremaining : remaining (systemFunctions fragment) stored ops = left := by rw [remaining, hrun]
  have hleft : (f.store left).data (systemFunctions fragment : CmdData S).function = some left :=
    h.data_store hfunction
  dsimp only at hserved hfunction ⊢
  cases result with
  | error error =>
    refine ⟨fun hupdates => ?_, fun _ => by rw [hleft]⟩
    exact nomatch hserved.mpr hupdates.served
  | ok _ =>
    cases hstores : ops.stores with
    | false =>
      refine ⟨fun hupdates => ?_, fun _ => by simp only [Bool.false_eq_true, if_false, hleft]⟩
      rw [hupdates.stores] at hstores
      cases hstores
    | true =>
      rw [if_pos rfl]
      cases hrefusal : WriteOps.updateRefusal entry (some left) (systemFunctions fragment) ops.isPartial with
      | some error =>
        refine ⟨fun hupdates => ?_, fun _ => by simp only [hleft]⟩
        have htaken := hupdates.taken
        rw [hremaining, hrefusal] at htaken
        cases htaken
      | none =>
        obtain ⟨list, rfl⟩ := eq_systemFunctions (key_eq_of_function hfunction)
        refine ⟨fun _ => ?_, fun hnot => absurd ⟨hserved.mp rfl, hstores, by rw [hremaining, hrefusal]⟩ hnot⟩
        have hstored : (f.store (systemFunctions
            (hvacSystemFunctionListType.apply list fragment ops.isPartial))).data
              (systemFunctions fragment : CmdData S).function = some _ := h.data_store rfl
        rw [apply_systemFunctions]
        dsimp only
        rw [hstored, entriesOf_apply]
        rfl

theorem applyTo_unheld {data : CmdData S} (ops : WriteOps S) (h : ∀ entry stored, ¬f.Holds data entry stored) :
    (ops.applyTo f data).1.data data.function = f.data data.function ∨
      f.data data.function = none ∧ (ops.applyTo f data).1.data data.function = some data := by
  cases hresult : (ops.applyTo f data).2 with
  | error error => exact .inl (by rw [WriteOps.applyTo_error_of_not_holds ops h hresult])
  | ok _ =>
    cases hstored : f.data data.function with
    | none =>
      have hleaves := (applyTo_nothing hstored hresult).1
      cases hstores : ops.stores with
      | false => exact .inl (by rw [hleaves, hstores]; rfl)
      | true => exact .inr ⟨rfl, by rw [hleaves, hstores]; rfl⟩
    | some stored =>
      cases hwriteable : f.writeableFunction data with
      | ok entry => exact absurd (holds_of_stored hwriteable hstored) (h entry stored)
      | error error =>
        obtain ⟨hdeletes, hstores⟩ := asks_nothing_of_ok hwriteable hresult
        refine .inl ?_
        simpa [WriteOps.applyTo, hdeletes, WriteOps.applyDeletes, hstores] using hstored

end Feature

/-- The mode of the reader's function is what it was, or is one the reader returned, among the modes
related to the function, and was changeable. -/
def LetIn (published : List HvacData) (reader : SystemFunction) (fragment : HvacSystemFunctionListData)
    (before after : List HvacSystemFunctionData) : Prop :=
  ∀ function, reader.function = some function → modeIn function after ≠ modeIn function before →
    ∃ mode, modeIn function after = some mode ∧
      reader.apply (.systemFunctions fragment) = .ok (.setMode mode) ∧
      mode ∈ relatedIn published function ∧ changeableIn published function ≠ some false

/-- The reader takes a fragment, or says that it is for another. -/
def Decides (reader : SystemFunction) (fragment : HvacSystemFunctionListData) : Prop :=
  (∃ request, reader.apply (.systemFunctions fragment) = .ok request) ∨
    reader.apply (.systemFunctions fragment) = .error .notAddressed

section Readers

variable {reader : SystemFunction} {fragment : HvacSystemFunctionListData}

/-- A reader that has decided on a fragment that names its function lets in the mode its first entry
about it names. -/
theorem Decides.accepts (h : Decides reader fragment) (hfunction : reader.function = some function)
    (hnamed : (fragment.hvacSystemFunctionData.getD []).any (namesFunction function) = true) :
    ∃ mode, modeIn function (fragment.hvacSystemFunctionData.getD []) = some mode ∧
      reader.apply (.systemFunctions fragment) = .ok (.setMode mode) := by
  obtain ⟨entry, hentry⟩ := Option.isSome_iff_exists.mp
    (List.find?_isSome.mpr (List.any_eq_true.mp hnamed))
  have hfound : (fragment.hvacSystemFunctionData.getD []).find?
      (fun entry => entry.systemFunctionId == some function) = some entry := hentry
  obtain ⟨request, hrequest⟩ | hrefused := h
  · obtain ⟨mode, rfl⟩ := SystemFunction.apply_systemFunctions hrequest
    obtain ⟨function', entry', hfunction', hentry', hmode, -, -⟩ := SystemFunction.apply_setMode hrequest
    cases hfunction.symm.trans hfunction'
    refine ⟨mode, ?_, hrequest⟩
    have hentry' : (fragment.hvacSystemFunctionData.getD []).find? (namesFunction function) = some entry' :=
      hentry'
    rw [modeIn, hentry', Option.bind_some, hmode]
  · simp only [SystemFunction.apply, hfunction, hfound] at hrefused
    repeat' split at hrefused
    all_goals cases hrefused

variable {published : List HvacData} {kind : String} {overrunType : Option String}

theorem letIn_iff {before after : List HvacSystemFunctionData}
    (hreader : reader = (SystemFunction.new kind overrunType).learnAll published)
    (h : Decides reader fragment) : LetIn published reader fragment before after ↔
      ∀ function, reader.function = some function → modeIn function after = modeIn function before ∨
        ∃ mode, modeIn function after = some mode ∧
          modeIn function (fragment.hvacSystemFunctionData.getD []) = some mode := by
  refine forall₂_congr fun function hfunction => ?_
  constructor
  · intro hletIn
    by_cases hsame : modeIn function after = modeIn function before
    · exact .inl hsame
    · obtain ⟨mode, hmode, haccepted, -⟩ := hletIn hsame
      obtain ⟨function', entry, hfunction', hentry, hnames, -, -⟩ := SystemFunction.apply_setMode haccepted
      cases hfunction.symm.trans hfunction'
      have hentry : (fragment.hvacSystemFunctionData.getD []).find? (namesFunction function) = some entry :=
        hentry
      exact .inr ⟨mode, hmode, by rw [modeIn, hentry, Option.bind_some, hnames]⟩
  · rintro (hsame | ⟨mode, hmode, hfirst⟩) hdiffers
    · exact absurd hsame hdiffers
    · have hnamed : (fragment.hvacSystemFunctionData.getD []).any (namesFunction function) = true := by
        by_contra hunnamed
        rw [modeIn_of_unnamed (Bool.eq_false_iff.mpr hunnamed)] at hfirst
        cases hfirst
      obtain ⟨mode', hfirst', haccepted⟩ := h.accepts hfunction hnamed
      cases hfirst.symm.trans hfirst'
      obtain ⟨-, -, -, -, -, hrelated, hchangeable⟩ := SystemFunction.apply_setMode haccepted
      subst hreader
      rw [SystemFunction.relatedModes_learnAll hfunction] at hrelated
      rw [SystemFunction.modeChangeable_learnAll hfunction] at hchangeable
      exact ⟨mode, hmode, haccepted, hrelated, hchangeable⟩

end Readers

/-- All that a write does to the mode of a function shows in the first entry about it: a merged update
names no other mode last, a whole one does not leave out a function that has a mode, and a write that
names no mode deletes none. -/
def Shows (fragment : HvacSystemFunctionListData) (entry : FunctionEntry S) (stored : CmdData S)
    (ops : WriteOps S) (function : Nat) : Prop :=
  let named := fragment.hvacSystemFunctionData.getD []
  let held := modeIn function (entriesOf (some stored))
  let left := modeIn function (entriesOf (some (remaining (systemFunctions fragment) stored ops)))
  (Updates entry stored (systemFunctions fragment) ops →
    if ops.isPartial then
      match lastMode function named with
      | some last => held = some last ∨ modeIn function named = some last
      | none => left = held
    else named.any (namesFunction function) = true ∨ held = none) ∧
  (¬Updates entry stored (systemFunctions fragment) ops → left = held)

theorem modeIn_of_lastMode_none {entries : List HvacSystemFunctionData}
    (h : lastMode function entries = none) : modeIn function entries = none := by
  induction entries with
  | nil => rfl
  | cons first rest ih =>
    rw [lastMode_cons, Option.or_eq_none_iff] at h
    by_cases hfirst : namesFunction function first = true
    · rw [modeIn_cons_pos hfirst]
      rw [if_pos hfirst] at h
      exact h.2
    · rw [modeIn_cons_neg hfirst]
      exact ih h.1

/-- What a write leaves of a function on a feature that holds something is what its reader let in where
the write shows. -/
theorem shows_iff {f : LocalFeature S} {entry : FunctionEntry S} {stored : CmdData S} {ops : WriteOps S}
    {fragment : HvacSystemFunctionListData} (h : f.Holds (systemFunctions fragment) entry stored)
    (hnamed : (fragment.hvacSystemFunctionData.getD []).any (namesFunction function) = true →
      ∃ mode, modeIn function (fragment.hvacSystemFunctionData.getD []) = some mode) :
    let after := entriesOf ((ops.applyTo f (systemFunctions fragment)).1.data
      (systemFunctions fragment : CmdData S).function)
    (modeIn function after = modeIn function (entriesOf (some stored)) ∨
      ∃ mode, modeIn function after = some mode ∧
        modeIn function (fragment.hvacSystemFunctionData.getD []) = some mode) ↔
      Shows fragment entry stored ops function := by
  intro after
  obtain ⟨hmerged, hkept⟩ := entriesOf_applyTo ops h
  have hremaining := modeIn_remaining function (systemFunctions fragment) stored ops
  unfold Shows
  dsimp only
  generalize fragment.hvacSystemFunctionData.getD [] = named at hnamed hmerged ⊢
  by_cases hupdates : Updates entry stored (systemFunctions fragment) ops
  · rw [and_iff_left fun hnot => absurd hupdates hnot, forall_prop_of_true hupdates]
    have hafter : after = _ := hmerged hupdates
    cases hpart : ops.isPartial with
    | true =>
      rw [if_pos rfl]
      rw [hpart, if_pos rfl] at hafter
      rw [hafter, modeIn_foldl_mergeFunction]
      cases hlast : lastMode function named with
      | some last =>
        rw [Option.some_or]
        refine or_congr eq_comm ⟨?_, fun hfirst => ⟨last, rfl, hfirst⟩⟩
        rintro ⟨mode, heq, hfirst⟩
        rwa [heq]
      | none =>
        rw [Option.none_or, modeIn_of_lastMode_none hlast]
        exact or_iff_left fun ⟨_, _, hfirst⟩ => nomatch hfirst
    | false =>
      rw [hpart, if_neg Bool.false_ne_true] at hafter
      rw [if_neg Bool.false_ne_true, hafter]
      by_cases hany : named.any (namesFunction function) = true
      · obtain ⟨mode, hmode⟩ := hnamed hany
        exact iff_of_true (.inr ⟨mode, hmode, hmode⟩) (.inl hany)
      · rw [modeIn_of_unnamed (Bool.eq_false_iff.mpr hany)]
        constructor
        · rintro (hheld | ⟨mode, hmode, -⟩)
          · exact .inr hheld.symm
          · cases hmode
        · rintro (hnames | hheld)
          · exact absurd hnames hany
          · exact .inl hheld.symm
  · rw [and_iff_right fun hnow => absurd hnow hupdates, forall_prop_of_true hupdates]
    have hafter : after = _ := hkept hupdates
    rw [hafter]
    constructor
    · rintro (hsame | ⟨mode, hmode, -⟩)
      · exact hsame
      · obtain hsame | hnone := hremaining
        · exact hsame
        · rw [hnone] at hmode
          cases hmode
    · exact .inl

def functionsAt (e : Engine S) (address : FeatureAddress) : List HvacSystemFunctionData :=
  entriesOf (e.device.data address (.known .hvacSystemFunctionListData))

/-- What an appliance has published: what it has before, and the system functions stored now. -/
def publishedBy (e : Engine S) (address : FeatureAddress) (earlier : List HvacData) : List HvacData :=
  earlier ++ [.systemFunctions ⟨some (functionsAt e address)⟩]

/-- A reader for each kind of system function, over what the appliance has published. -/
def readersOf (kinds : List (String × Option String)) (published : List HvacData) : List SystemFunction :=
  kinds.map fun kind => (SystemFunction.new kind.1 kind.2).learnAll published

/-- Where every reader has decided on the fragment of a write, accepting it stores only modes that the
readers have let in exactly where the write shows. -/
theorem only_checked_modes_iff (kinds : List (String × Option String)) (earlier : List HvacData)
    (e : Engine S) (token : Nat) (write : DeferredWrite S) (fragment : HvacSystemFunctionListData)
    (hfind : e.findDeferred token = some write) (hdata : write.data = systemFunctions fragment)
    (hdecided : ∀ reader ∈ readersOf kinds (publishedBy e write.feature earlier),
      Decides reader fragment) :
    (∀ reader ∈ readersOf kinds (publishedBy e write.feature earlier),
      LetIn (publishedBy e write.feature earlier) reader fragment (functionsAt e write.feature)
        (functionsAt (e.acceptWrite token).1 write.feature)) ↔
    ∀ reader ∈ readersOf kinds (publishedBy e write.feature earlier), ∀ function,
      reader.function = some function → ∀ f entry stored, e.device.resolve write.feature = some f →
        f.Holds write.data entry stored → Shows fragment entry stored write.ops function := by
  refine forall₂_congr fun reader hmem => ?_
  obtain ⟨kind, -, hreader⟩ := List.mem_map.mp hmem
  rw [letIn_iff hreader.symm (hdecided reader hmem)]
  refine forall₂_congr fun function hfunction => ?_
  have hnamed : (fragment.hvacSystemFunctionData.getD []).any (namesFunction function) = true →
      ∃ mode, modeIn function (fragment.hvacSystemFunctionData.getD []) = some mode := fun hany => by
    obtain ⟨mode, hmode, -⟩ := (hdecided reader hmem).accepts hfunction hany
    exact ⟨mode, hmode⟩
  have hafter := acceptWrite_applied hfind (.known .hvacSystemFunctionListData)
  rw [hdata] at hafter ⊢
  unfold functionsAt
  rw [hafter]
  cases hfeature : e.device.resolve write.feature with
  | none =>
    refine iff_of_true (.inl ?_) fun f entry stored hf => nomatch hf
    rw [LocalDevice.data, hfeature]
    rfl
  | some f =>
    have hbefore : e.device.data write.feature (.known .hvacSystemFunctionListData) =
        f.data (systemFunctions fragment : CmdData S).function := by
      rw [LocalDevice.data, hfeature]
      rfl
    rw [hbefore, Option.bind_some]
    by_cases hholds : ∃ entry stored, f.Holds (systemFunctions fragment) entry stored
    · obtain ⟨entry, stored, h⟩ := hholds
      rw [h.data_eq]
      refine (shows_iff h hnamed).trans ⟨fun hshows f' entry' stored' hf' h' => ?_, fun hshows => hshows f entry stored rfl h⟩
      cases hf'
      cases h.found.symm.trans h'.found
      cases h.stored.symm.trans h'.stored
      exact hshows
    · push Not at hholds
      refine iff_of_true ?_ fun f' entry stored hf' h => absurd (Option.some.inj hf' ▸ h) (hholds entry stored)
      obtain hsame | ⟨hnone, hall⟩ := applyTo_unheld write.ops hholds
      · exact .inl (congrArg (fun data => modeIn function (entriesOf data)) hsame)
      · by_cases hany : (fragment.hvacSystemFunctionData.getD []).any (namesFunction function) = true
        · obtain ⟨mode, hmode⟩ := hnamed hany
          exact .inr ⟨mode, (congrArg (fun data => modeIn function (entriesOf data)) hall).trans hmode, hmode⟩
        · refine .inl (((congrArg (fun data => modeIn function (entriesOf data)) hall).trans
            (modeIn_of_unnamed (Bool.eq_false_iff.mpr hany))).trans ?_)
          rw [hnone]
          rfl

namespace HotWater

def heatPump : AddressDevice := "d:_i:1_HeatPump"
def hvacFeature : FeatureAddress := featureAddress heatPump [1] 1
def manager : FeatureAddress := featureAddress "d:_i:2_Manager" [1] 1

def modeOf (function mode : Nat) : HvacSystemFunctionData := ⟨some function, some mode, none, none, none, none⟩

def hotWater : LocalFeature Schema.limitsOnly :=
  ((((LocalFeature.new 1 (.other "HVAC") .server).withDeferredWrites).withUnboundWrites).withFunction
    (.known .hvacSystemFunctionListData) .readWrite).store (systemFunctions ⟨some [modeOf 1 1]⟩)

def kinds : List (String × Option String) := [("dhw", some "oneTimeDhw")]

def described : List HvacData :=
  [.functionDescriptions (some [⟨some 1, some "dhw"⟩]), .modeRelations (some [⟨some 1, some [1, 2]⟩])]

/-- The appliance, with a partial write of these entries waiting for its readers. -/
def asked (entries : List HvacSystemFunctionData) : Engine Schema.limitsOnly :=
  ((Engine.new (LocalDevice.withFeature heatPump hotWater)).handleDatagram
    (Datagram.carrying manager hvacFeature .write 1
      ((Cmd.withData (systemFunctions ⟨some entries⟩)).withFilter .partialUpdate)) 0).1

/-- A write of one mode stores a mode its reader let in. -/
theorem only_checked_modes_single :
    let e := asked [modeOf 1 2]
    ∃ write, e.findDeferred 1 = some write ∧
      ∀ reader ∈ readersOf kinds (publishedBy e write.feature described),
        LetIn (publishedBy e write.feature described) reader ⟨some [modeOf 1 2]⟩
          (functionsAt e write.feature) (functionsAt (e.acceptWrite 1).1 write.feature) := by
  intro e
  refine ⟨_, rfl, (only_checked_modes_iff kinds described e 1 _ ⟨some [modeOf 1 2]⟩ rfl rfl ?_).mpr ?_⟩
  · intro reader hreader
    cases List.mem_singleton.mp hreader
    exact .inl ⟨.setMode 2, by decide +kernel⟩
  · intro reader hreader function hfunction f entry stored _ _
    cases List.mem_singleton.mp hreader
    have hone : function = 1 := by
      have hdescribed : some 1 = some function := hfunction
      exact (Option.some.inj hdescribed).symm
    subst hone
    exact ⟨fun _ => .inr rfl, fun _ => rfl⟩

/-- A write whose first entry about the hot water names mode 2 and whose second names mode 9, which it
does not have: the reader lets in mode 2, and mode 9 is stored. -/
theorem unrelated_mode_stored :
    let e := asked [modeOf 1 2, modeOf 1 9]
    ∃ write, e.findDeferred 1 = some write ∧
      write.data = systemFunctions ⟨some [modeOf 1 2, modeOf 1 9]⟩ ∧
      (∀ reader ∈ readersOf kinds (publishedBy e write.feature described),
        reader.apply (.systemFunctions ⟨some [modeOf 1 2, modeOf 1 9]⟩) = .ok (.setMode 2)) ∧
      modeIn 1 (functionsAt (e.acceptWrite 1).1 write.feature) = some 9 ∧
      ¬∀ reader ∈ readersOf kinds (publishedBy e write.feature described),
        LetIn (publishedBy e write.feature described) reader ⟨some [modeOf 1 2, modeOf 1 9]⟩
          (functionsAt e write.feature) (functionsAt (e.acceptWrite 1).1 write.feature) := by
  intro e
  have hstored : modeIn 1 (functionsAt (e.acceptWrite 1).1 hvacFeature) = some 9 := by decide +kernel
  refine ⟨_, rfl, rfl, fun reader hreader => ?_, hstored, fun hletIn => ?_⟩
  · cases List.mem_singleton.mp hreader
    decide +kernel
  · obtain ⟨mode, hmode, -, hrelated, -⟩ := hletIn _ (List.mem_singleton_self _) 1 rfl (by
      rw [hstored]
      decide +kernel)
    cases hstored.symm.trans hmode
    revert hrelated
    decide +kernel

end HotWater

end Eebus.Hvac
