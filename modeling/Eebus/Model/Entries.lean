import Eebus.Model.Merging

/-! How many entries the operations of the data choice leave in a list. `entryCount` counts the
entries of the functions the choice declares as lists; the others hold theirs uncounted. -/

namespace Eebus.Model

namespace FunctionType

variable {Data : Type} (F : FunctionType Data)

def held (value : Data) : Nat := ((F.entries value).getD []).length

/-- What the schema tables say of every function: entries are put in as they are given, merging
takes the entries of one of the two values, and clearing adds none. -/
structure Counts : Prop where
  setEntries : ∀ d es, F.held (F.setEntries d (some es)) ≤ es.length
  merge : ∀ stored update, F.held (F.merge stored update) ≤ max (F.held stored) (F.held update)
  clearFrom : ∀ e d, F.held (F.clearFrom e d) ≤ F.held d

variable {F}

theorem entryCount_eq_held (h : F.isMergeableList = true) (value : Data) :
    F.entryCount value = F.held value := by
  simp [entryCount, held, h]

theorem held_default : F.held F.default = 0 := by
  simp [held, F.entries_default]

theorem held_apply_list (hlist : F.isMergeableList = true) (stored update : Data)
    (isPartial : Bool) : F.held (F.apply stored update isPartial) ≤
      (if isPartial then F.held stored else 0) + F.held update := by
  have hset : ∀ d es, F.held (F.setEntries d es) = (es.getD []).length := by
    intro d es
    rw [held, F.entries_setEntries hlist]
  simp only [apply, hlist, if_true]
  cases isPartial with
  | false =>
    simp only [Bool.false_eq_true, if_false, applyFull, hset, Nat.zero_add]
    exact le_rfl
  | true =>
    simp only [if_true, applyPartial]
    split
    · omega
    · rename_i incoming hincoming
      rw [hset]
      have hlength := F.length_foldl_mergeEntry_le incoming ((F.entries stored).getD [])
      simpa [held, hincoming] using hlength

theorem held_apply_plain (hcounts : F.Counts) (hplain : F.isMergeableList = false)
    (stored update : Data) (isPartial : Bool) :
    F.held (F.apply stored update isPartial) ≤ max (F.held stored) (F.held update) := by
  simp only [apply, hplain, Bool.false_eq_true, if_false]
  cases isPartial with
  | false => exact le_max_right _ _
  | true => exact hcounts.merge stored update

theorem held_deleteAddressed (hcounts : F.Counts) (stored : Data) (addressed : F.Item → Bool) :
    F.held (F.deleteAddressed stored addressed) ≤ F.held stored := by
  simp only [deleteAddressed]
  split
  · rename_i entries hentries
    refine (hcounts.setEntries _ _).trans ?_
    simpa [held, hentries] using List.length_filter_le _ entries
  · exact le_rfl

theorem held_clearAddressed (hcounts : F.Counts) (stored : Data) (addressed : F.Item → Bool)
    (elements : F.Elements) : F.held (F.clearAddressed stored addressed elements) ≤ F.held stored := by
  simp only [clearAddressed]
  split
  · rename_i entries hentries
    refine (hcounts.setEntries _ _).trans ?_
    simp [held, hentries]
  · exact le_rfl

theorem held_delete (hcounts : F.Counts) (stored update : Data) :
    F.held (F.delete stored update) ≤ F.held stored := by
  simp only [delete]
  split
  · simp only [deleteEntries]
    split
    · rename_i targets entries _ hentries
      refine (hcounts.setEntries _ _).trans ?_
      simpa [held, hentries] using List.length_filter_le _ entries
    · exact le_rfl
  · simp [held_default]

/-- The entries a delete addresses: those a selectors filter picks, or those a payload names. -/
def Addresses (addressed : F.Item → Bool) : Prop :=
  (∃ s, addressed = F.selects s) ∨ ∃ named, addressed = F.addressesNamed named

theorem Counts.loadControlLimitListType : loadControlLimitListType.Counts where
  setEntries _ _ := le_rfl
  merge stored update := by
    simp only [held, Eebus.Model.loadControlLimitListType, mergeLeaf]
    cases stored.loadControlLimitData <;> cases update.loadControlLimitData <;> simp [mergeOption]
  clearFrom _ _ := le_rfl

theorem Counts.setpointListType : setpointListType.Counts where
  setEntries _ _ := le_rfl
  merge stored update := by
    simp only [held, Eebus.Model.setpointListType, mergeLeaf]
    cases stored.setpointData <;> cases update.setpointData <;> simp [mergeOption]
  clearFrom _ _ := le_rfl

theorem Counts.hvacSystemFunctionListType : hvacSystemFunctionListType.Counts where
  setEntries _ _ := le_rfl
  merge stored update := by
    simp only [held, Eebus.Model.hvacSystemFunctionListType, mergeLeaf]
    cases stored.hvacSystemFunctionData <;> cases update.hvacSystemFunctionData <;> simp [mergeOption]
  clearFrom _ _ := le_rfl

end FunctionType

/-- Every function of the schema counts. -/
def Schema.Counts (S : Schema) : Prop := ∀ key, (S.type key).Counts

theorem Schema.counts_limitsOnly : Schema.limitsOnly.Counts := by
  intro key
  cases key with
  | loadControlLimitListData => exact FunctionType.Counts.loadControlLimitListType
  | setpointListData => exact FunctionType.Counts.setpointListType
  | hvacSystemFunctionListData => exact FunctionType.Counts.hvacSystemFunctionListType
  | other o => exact o.elim
  | _ => exact ⟨fun _ _ => Nat.zero_le _, fun _ _ => Nat.zero_le _, fun _ _ => Nat.zero_le _⟩

variable {S : Schema}

variable {elements : Option (FilterElements S)} {selectors : Option (FilterSelectors S)}

namespace CmdData

def held (data : CmdData S) : Nat := (S.type data.key).held data.value

def isCounted (data : CmdData S) : Bool := (S.type data.key).isMergeableList

theorem entryCount_eq_held {data : CmdData S} (h : data.isCounted = true) :
    data.entryCount = data.held :=
  FunctionType.entryCount_eq_held h data.value

theorem held_empty {function : Function S.Other} {data : CmdData S}
    (h : CmdData.empty function = some data) : data.held = 0 := by
  cases function with
  | known key =>
    cases h
    exact FunctionType.held_default
  | extension name => simp [CmdData.empty] at h

theorem apply_ok {stored update merged : CmdData S} {isPartial : Bool}
    (h : stored.apply update isPartial = .ok merged) :
    merged.isCounted = update.isCounted ∧ stored.isCounted = update.isCounted ∧
      (update.isCounted = true →
        merged.held ≤ (if isPartial then stored.held else 0) + update.held) ∧
      (S.Counts → update.isCounted = false → merged.held ≤ max stored.held update.held) := by
  obtain ⟨key, stored⟩ := stored
  obtain ⟨key', update⟩ := update
  simp only [apply] at h
  split at h
  · rename_i hkey
    subst hkey
    cases h
    exact ⟨rfl, rfl, fun hlist => FunctionType.held_apply_list hlist stored update isPartial,
      fun hcounts hplain => FunctionType.held_apply_plain (hcounts key') hplain stored update isPartial⟩
  · simp at h

theorem deleteRow_addresses {key : Key S.Other} {stored update value : key.Data S.OtherData}
    (h : deleteRow key stored update selectors elements = .ok value) : value = stored ∨
      (∃ addressed, (S.type key).Addresses addressed ∧
        (value = (S.type key).deleteAddressed stored addressed ∨
          ∃ e, value = (S.type key).clearAddressed stored addressed e)) ∨
      (S.type key).row = .plain ∧ ∃ e, value = (S.type key).clearFrom e stored := by
  cases hrow : (S.type key).row with
  | absent => simp [deleteRow, hrow] at h
  | listBoth | listSelectors | listElements | plain =>
    simp only [deleteRow, hrow, bind, Except.bind] at h
    repeat' split at h
    all_goals first
      | (simp at h; done)
      | (cases h
         first
          | exact .inl rfl
          | exact .inr (.inl ⟨_, .inl ⟨_, rfl⟩, .inl rfl⟩)
          | exact .inr (.inl ⟨_, .inr ⟨_, rfl⟩, .inl rfl⟩)
          | exact .inr (.inl ⟨_, .inl ⟨_, rfl⟩, .inr ⟨_, rfl⟩⟩)
          | exact .inr (.inl ⟨_, .inr ⟨_, rfl⟩, .inr ⟨_, rfl⟩⟩)
          | exact .inr (.inr ⟨rfl, _, rfl⟩))

theorem deleteRow_cases {key : Key S.Other} {stored update value : key.Data S.OtherData}
    (h : deleteRow key stored update selectors elements = .ok value) :
    value = stored ∨ (∃ addressed, value = (S.type key).deleteAddressed stored addressed) ∨
      (∃ addressed e, value = (S.type key).clearAddressed stored addressed e) ∨
      (S.type key).row = .plain ∧ ∃ e, value = (S.type key).clearFrom e stored := by
  obtain hsame | ⟨addressed, -, hdeleted | hcleared⟩ | hplain := deleteRow_addresses h
  · exact .inl hsame
  · exact .inr (.inl ⟨addressed, hdeleted⟩)
  · exact .inr (.inr (.inl ⟨addressed, hcleared⟩))
  · exact .inr (.inr (.inr hplain))

theorem deleteRow_held (hcounts : S.Counts) {key : Key S.Other}
    {stored update value : key.Data S.OtherData}

    (h : deleteRow key stored update selectors elements = .ok value) :
    (S.type key).held value ≤ (S.type key).held stored := by
  rcases deleteRow_cases h with rfl | ⟨addressed, rfl⟩ | ⟨addressed, e, rfl⟩ | ⟨-, e, rfl⟩
  · exact le_rfl
  · exact FunctionType.held_deleteAddressed (hcounts key) stored addressed
  · exact FunctionType.held_clearAddressed (hcounts key) stored addressed e
  · exact (hcounts key).clearFrom e stored

theorem deleteRestricted_held (hcounts : S.Counts) {stored update deleted : CmdData S}
    (h : stored.deleteRestricted update selectors elements = .ok deleted) :
    deleted.key = stored.key ∧ deleted.held ≤ stored.held := by
  simp only [deleteRestricted] at h
  split at h
  · split at h
    · cases h
      exact ⟨rfl, FunctionType.held_delete (hcounts stored.key) _ _⟩
    · simp only [bind, Except.bind] at h
      split at h
      · simp at h
      · rename_i value hvalue
        cases h
        exact ⟨rfl, deleteRow_held hcounts hvalue⟩
  · simp at h

end CmdData

end Eebus.Model
