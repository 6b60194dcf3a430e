import Eebus.Model.PartialUpdates
import Eebus.Spine.Device

/-! What a restricted delete touches in a list: the entries it addresses, and in them the elements it names. -/

namespace Eebus.Model

namespace FunctionType

variable {Data : Type} {F : FunctionType Data}

namespace Shape

variable (shape : F.Shape)

/-- An entry after elements of it were deleted: it carries the identifiers that it carried, what the filter names
is gone, and every other leaf is as it was. -/
structure Loses (e : F.Elements) (old new : F.Item) : Prop where
  key : shape.fields.key (shape.view new) = shape.fields.key (shape.view old)
  named : ∀ (T : Type) (place : shape.fields.Place T), place.Names (shape.filter e) →
    ¬ place.Identifies → place.get (shape.view new) = none
  unnamed : ∀ (T : Type) (place : shape.fields.Place T), place.IsLeaf →
    ¬ place.Names (shape.filter e) ∨ place.Identifies →
    place.get (shape.view new) = place.get (shape.view old)

theorem clearEntry_loses (e : F.Elements) (entry : F.Item) : shape.Loses e entry (F.clearEntry e entry) where
  key := by rw [clearEntry, shape.restoreIdentity, shape.fields.key_restoreIdentity]
  named T place hnamed hother := by
    rw [clearEntry, shape.restoreIdentity, (Fields.get_restoreIdentity place _ _).2 hother, shape.clearItem]
    exact (Fields.get_clear place _ _).1 hnamed
  unnamed T place hleaf h := by
    rw [clearEntry, shape.restoreIdentity]
    by_cases hidentifies : place.Identifies
    · exact (Fields.get_restoreIdentity place _ _).1 hidentifies
    · obtain ⟨cut, hcut, heq⟩ := (Fields.get_clear place (shape.filter e) (shape.view entry)).2
        (h.resolve_right hidentifies)
      rw [(Fields.get_restoreIdentity place _ _).2 hidentifies, shape.clearItem, heq, hcut hleaf, Option.map_id_fun]
      rfl

include shape

theorem listed_deleteEntries (stored update : Data) :
    F.listed (F.deleteEntries stored update) =
      (F.listed stored).filter fun entry => !(F.listed update).any fun target => F.sameEntry target entry := by
  cases hupdate : F.entries update <;> cases hstored : F.entries stored <;>
    simp [deleteEntries, listed, hupdate, hstored, shape.entries_setEntries]

theorem listed_deleteAddressed (stored : Data) (addressed : F.Item → Bool) :
    F.listed (F.deleteAddressed stored addressed) = (F.listed stored).filter fun entry => !addressed entry := by
  cases hstored : F.entries stored <;> simp [deleteAddressed, listed, hstored, shape.entries_setEntries]

theorem listed_clearAddressed (stored : Data) (addressed : F.Item → Bool) (e : F.Elements) :
    F.listed (F.clearAddressed stored addressed e) =
      (F.listed stored).map fun entry => if addressed entry then F.clearEntry e entry else entry := by
  cases hstored : F.entries stored <;> simp [clearAddressed, listed, hstored, shape.entries_setEntries]

end Shape

end FunctionType

namespace CmdData

variable {S : Schema}

/-- Whether a delete with the selectors filter `selectors` and the payload `update` addresses an entry. -/
def addressed (key : Key S.Other) (selectors : Option (FilterSelectors S)) (update : key.Data S.OtherData)
    (entry : (S.type key).Item) : Bool :=
  match selectors with
  | some filter => if h : filter.key = key then (S.type key).selects (h ▸ filter.value) entry else false
  | none => (S.type key).addressesNamed ((S.type key).listed update) entry

@[simp] theorem addressed_selectors {key : Key S.Other} (s : (S.type key).Selectors)
    (update : key.Data S.OtherData) :
    addressed key (some ⟨key, s⟩) update = (S.type key).selects s := by
  funext entry
  simp [addressed]

@[simp] theorem addressed_none (key : Key S.Other) (update : key.Data S.OtherData) :
    addressed key none update = (S.type key).addressesNamed ((S.type key).listed update) := rfl

theorem pickSelectors_ok {key : Key S.Other} {selectors : Option (FilterSelectors S)}
    {s : Option (S.type key).Selectors} (h : pickSelectors key selectors = .ok s) :
    selectors = s.map (FilterSelectors.mk key) := by
  cases selectors with
  | none => cases h; rfl
  | some filter =>
    obtain ⟨key', value⟩ := filter
    by_cases hkey : key' = key
    · subst hkey
      simp only [pickSelectors, dite_true] at h
      cases h
      rfl
    · simp [pickSelectors, hkey] at h

theorem pickElements_ok {key : Key S.Other} {elements : Option (FilterElements S)}
    {e : Option (S.type key).Elements} (h : pickElements key elements = .ok e) :
    elements = e.map (FilterElements.mk key) := by
  cases elements with
  | none => cases h; rfl
  | some filter =>
    obtain ⟨key', value⟩ := filter
    by_cases hkey : key' = key
    · subst hkey
      simp only [pickElements, dite_true] at h
      cases h
      rfl
    · simp [pickElements, hkey] at h

variable {key : Key S.Other} (shape : (S.type key).Shape)

/-- What a restricted delete makes of a list. With an elements filter every entry stays, and the addressed ones
lose the elements it names. With selectors alone the entries they pick are gone, and with neither those the
payload identifies, or the whole of a list that the data choice does not declare as one. -/
structure Touches (selectors : Option (FilterSelectors S)) (elements : Option (FilterElements S))
    (update stored value : key.Data S.OtherData) : Prop where
  cleared : ∀ filter, elements = some filter → ∃ e, filter = ⟨key, e⟩ ∧
    List.Forall₂ (fun old new =>
      (addressed key selectors update old = false → new = old) ∧
        (addressed key selectors update old = true → shape.Loses e old new))
      ((S.type key).listed stored) ((S.type key).listed value)
  selected : elements = none → selectors ≠ none → (S.type key).listed value =
    ((S.type key).listed stored).filter fun entry => !addressed key selectors update entry
  identified : elements = none → selectors = none → (S.type key).isMergeableList = true →
    (S.type key).listed value = ((S.type key).listed stored).filter fun entry =>
      !((S.type key).listed update).any fun target => (S.type key).sameEntry target entry
  whole : elements = none → selectors = none → (S.type key).isMergeableList = false →
    (S.type key).listed value = []

theorem touches_clearAddressed (selectors : Option (FilterSelectors S)) (update stored : key.Data S.OtherData)
    (e : (S.type key).Elements) :
    Touches shape selectors (some ⟨key, e⟩) update stored
      ((S.type key).clearAddressed stored (addressed key selectors update) e) where
  cleared filter h := by
    cases h
    refine ⟨e, rfl, ?_⟩
    rw [shape.listed_clearAddressed, List.forall₂_map_right_iff, List.forall₂_same]
    intro entry _
    cases h : addressed key selectors update entry with
    | false => exact ⟨fun _ => rfl, fun h => by simp at h⟩
    | true => exact ⟨fun h => by simp at h, fun _ => shape.clearEntry_loses e entry⟩
  selected h := by simp at h
  identified h := by simp at h
  whole h := by simp at h

theorem touches_deleteAddressed (s : (S.type key).Selectors) (update stored : key.Data S.OtherData) :
    Touches shape (some ⟨key, s⟩) none update stored
      ((S.type key).deleteAddressed stored ((S.type key).selects s)) where
  cleared filter h := by simp at h
  selected _ _ := by rw [shape.listed_deleteAddressed, addressed_selectors]
  identified _ h := by simp at h
  whole _ h := by simp at h

theorem touches_deleteRow {selectors : Option (FilterSelectors S)} {elements : Option (FilterElements S)}
    {update stored value : key.Data S.OtherData} (hfilter : (selectors.isNone && elements.isNone) = false)
    (h : deleteRow key stored update selectors elements = .ok value) :
    Touches shape selectors elements update stored value := by
  cases hrow : (S.type key).row with
  | absent => simp [deleteRow, hrow] at h
  | plain => exact absurd hrow shape.row_ne_plain
  | listBoth =>
    simp only [deleteRow, hrow, bind, Except.bind] at h
    cases hs : pickSelectors key selectors with
    | error _ => simp [hs] at h
    | ok s =>
      cases he : pickElements key elements with
      | error _ => simp [hs, he] at h
      | ok e =>
        obtain rfl := pickSelectors_ok hs
        obtain rfl := pickElements_ok he
        simp only [hs, he] at h
        split at h
        · simp at h
        cases s with
        | some s =>
          cases e with
          | some e =>
            cases h
            simpa using touches_clearAddressed shape (some ⟨key, s⟩) update stored e
          | none =>
            cases h
            exact touches_deleteAddressed shape s update stored
        | none =>
          cases e with
          | some e =>
            cases h
            exact touches_clearAddressed shape none update stored e
          | none => simp at hfilter
  | listSelectors =>
    simp only [deleteRow, hrow, bind, Except.bind] at h
    split at h
    · simp at h
    · rename_i helements
      obtain rfl : elements = none := by simpa using helements
      cases hs : pickSelectors key selectors with
      | error _ => simp [hs] at h
      | ok s =>
        obtain rfl := pickSelectors_ok hs
        simp only [hs] at h
        split at h
        · simp at h
        cases s with
        | some s =>
          cases h
          exact touches_deleteAddressed shape s update stored
        | none => simp at hfilter
  | listElements =>
    simp only [deleteRow, hrow, bind, Except.bind] at h
    split at h
    · simp at h
    · rename_i hselectors
      obtain rfl : selectors = none := by simpa using hselectors
      cases he : pickElements key elements with
      | error _ => simp [he] at h
      | ok e =>
        obtain rfl := pickElements_ok he
        simp only [he] at h
        cases e with
        | some e =>
          cases h
          exact touches_clearAddressed shape none update stored e
        | none => simp at hfilter

theorem touches_delete (update stored : key.Data S.OtherData) :
    Touches shape none none update stored ((S.type key).delete stored update) where
  cleared filter h := by simp at h
  selected _ h := by simp at h
  identified _ _ hlist := by
    rw [FunctionType.delete, if_pos hlist, shape.listed_deleteEntries]
  whole _ _ hlist := by
    simp [FunctionType.delete, hlist, FunctionType.listed, (S.type key).entries_default]

/-- A restricted delete touches what it addresses and leaves the rest, and one that is refused leaves everything. -/
theorem deleteRestricted_touches (stored : key.Data S.OtherData) (update : CmdData S)
    (selectors : Option (FilterSelectors S)) (elements : Option (FilterElements S)) :
    (∀ deleted, deleteRestricted ⟨key, stored⟩ update selectors elements = .ok deleted →
      ∃ payload value, update = ⟨key, payload⟩ ∧ deleted = ⟨key, value⟩ ∧
        Touches shape selectors elements payload stored value) ∧
    ∀ e, deleteRestricted ⟨key, stored⟩ update selectors elements = .error e →
      Library.runSteps (Spine.deleteStep update) [(selectors, elements)] ⟨key, stored⟩ = (⟨key, stored⟩, .error e) := by
  constructor
  · intro deleted h
    obtain ⟨key', payload⟩ := update
    by_cases hkey : key' = key
    · subst hkey
      simp only [deleteRestricted, dite_true] at h
      split at h
      · rename_i hnone
        cases h
        simp only [Bool.and_eq_true, Option.isNone_iff_eq_none] at hnone
        obtain ⟨rfl, rfl⟩ := hnone
        exact ⟨payload, _, rfl, rfl, touches_delete shape payload stored⟩
      · rename_i hfilter
        simp only [bind, Except.bind] at h
        split at h
        · simp at h
        · rename_i value hvalue
          cases h
          exact ⟨payload, value, rfl, rfl, touches_deleteRow shape (Bool.eq_false_of_not_eq_true hfilter) hvalue⟩
    · simp [deleteRestricted, hkey] at h
  · intro e h
    simp only [Library.runSteps, Spine.deleteStep, h]

/-- A delete with neither filter whose payload names nothing addresses every entry, and removes none. -/
theorem unnamed_delete_removes_nothing :
    let limit : LoadControlLimitData := ⟨some 0, some true, some true, none, some ⟨some 42, some 2⟩⟩
    let key : Key Empty := .loadControlLimitListData
    addressed (S := Schema.limitsOnly) key none (⟨some []⟩ : LoadControlLimitListData) limit = true ∧
      deleteRestricted (S := Schema.limitsOnly) ⟨key, (⟨some [limit]⟩ : LoadControlLimitListData)⟩
        ⟨key, (⟨some []⟩ : LoadControlLimitListData)⟩ none none =
        .ok ⟨key, (⟨some [limit]⟩ : LoadControlLimitListData)⟩ := by
  exact ⟨rfl, rfl⟩

end CmdData

end Eebus.Model
