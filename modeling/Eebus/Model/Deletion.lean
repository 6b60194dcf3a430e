import Eebus.Model.CmdData

/-! Deletions only ever take away: a restricted delete leaves a value as it is or with fewer
elements, and whether it is served at all depends on the filter and the function alone. -/

namespace Eebus.Model

namespace FunctionType

variable {Data : Type} (F : FunctionType Data)

def total (es : List F.Item) : Nat := (es.map fun x => F.itemSize x + 1).sum

@[simp]
theorem total_nil : F.total [] = 0 := rfl

@[simp]
theorem total_cons (x : F.Item) (es : List F.Item) :
    F.total (x :: es) = F.itemSize x + 1 + F.total es := by
  simp [total]

theorem filter_shrinks (keep : F.Item → Bool) (es : List F.Item) :
    es.filter keep = es ∨ F.total (es.filter keep) < F.total es := by
  induction es with
  | nil => exact .inl rfl
  | cons x es ih =>
    cases hx : keep x with
    | true =>
      rw [List.filter_cons_of_pos hx, total_cons, total_cons, List.cons.injEq]
      cases ih with
      | inl heq => exact .inl ⟨rfl, heq⟩
      | inr hlt => exact .inr (by omega)
    | false =>
      rw [List.filter_cons_of_neg (by simp [hx]), total_cons]
      cases ih with
      | inl heq => exact .inr (by rw [heq]; omega)
      | inr hlt => exact .inr (by omega)

theorem map_shrinks {f : F.Item → F.Item}
    (hf : ∀ x, f x = x ∨ F.itemSize (f x) < F.itemSize x) (es : List F.Item) :
    es.map f = es ∨ F.total (es.map f) < F.total es := by
  induction es with
  | nil => exact .inl rfl
  | cons x es ih =>
    simp only [List.map_cons, total_cons, List.cons.injEq]
    cases hf x with
    | inl hx =>
      cases ih with
      | inl hes => exact .inl ⟨hx, hes⟩
      | inr hes => exact .inr (by rw [hx]; omega)
    | inr hx =>
      cases ih with
      | inl hes => exact .inr (by rw [hes]; omega)
      | inr hes => exact .inr (by omega)

theorem setEntries_shrinks_of {stored : Data} {es es' : List F.Item}
    (hes : F.entries stored = some es) (h : es' = es ∨ F.total es' < F.total es) :
    F.setEntries stored (some es') = stored ∨
      F.size (F.setEntries stored (some es')) < F.size stored := by
  cases h with
  | inl heq =>
    refine .inl ?_
    rw [heq, ← hes]
    exact F.setEntries_entries stored
  | inr hlt => exact .inr (F.setEntries_shrinks stored es es' hes hlt)

theorem deleteAddressed_shrinks (stored : Data) (addressed : F.Item → Bool) :
    F.deleteAddressed stored addressed = stored ∨
      F.size (F.deleteAddressed stored addressed) < F.size stored := by
  cases hes : F.entries stored with
  | none => exact .inl (by simp [deleteAddressed, hes])
  | some es =>
    simp only [deleteAddressed, hes]
    exact F.setEntries_shrinks_of hes (F.filter_shrinks _ es)

theorem clearAddressed_shrinks (stored : Data) (addressed : F.Item → Bool)
    (elements : F.Elements) : F.clearAddressed stored addressed elements = stored ∨
      F.size (F.clearAddressed stored addressed elements) < F.size stored := by
  cases hes : F.entries stored with
  | none => exact .inl (by simp [clearAddressed, hes])
  | some es =>
    simp only [clearAddressed, hes]
    refine F.setEntries_shrinks_of hes (F.map_shrinks (fun x => ?_) es)
    split
    · exact F.clearItem_shrinks elements x
    · exact .inl rfl

theorem delete_shrinks (stored update : Data) :
    F.delete stored update = stored ∨ F.size (F.delete stored update) < F.size stored := by
  simp only [delete]
  split
  · simp only [deleteEntries]
    split
    case h_1 targets es _ hes => exact F.setEntries_shrinks_of hes (F.filter_shrinks _ es)
    case h_2 => exact .inl rfl
  · cases F.default_least stored with
    | inl heq => exact .inl heq.symm
    | inr hlt => exact .inr hlt

end FunctionType

namespace CmdData

variable {S : Schema}

def size (d : CmdData S) : Nat := (S.type d.key).size d.value

def selectorsServable (key : Key S.Other) : Option (FilterSelectors S) → Bool
  | none => true
  | some filter =>
    if h : filter.key = key then !(S.type key).usesUnsupported (h ▸ filter.value) else false

def elementsServable (key : Key S.Other) (elements : Option (FilterElements S)) : Bool :=
  elements.all fun filter => filter.key = key

/-- Whether a delete of the function `key` with these filters is served: by the function's row in
the restriction table, never by what is stored. -/
def servable (key : Key S.Other) (selectors : Option (FilterSelectors S))
    (elements : Option (FilterElements S)) : Bool :=
  (selectors.isNone && elements.isNone) ||
    match (S.type key).row with
    | .absent => false
    | .listBoth => selectorsServable key selectors && elementsServable key elements
    | .listSelectors => elements.isNone && selectorsServable key selectors
    | .listElements => selectors.isNone && elementsServable key elements
    | .plain => selectors.isNone && elementsServable key elements

theorem pickSelectors_of_servable {key : Key S.Other} {selectors : Option (FilterSelectors S)}
    (h : selectorsServable key selectors = true) :
    ∃ s, pickSelectors key selectors = .ok s ∧ s.any (S.type key).usesUnsupported = false ∧
      (s = none ↔ selectors = none) := by
  cases selectors with
  | none => exact ⟨none, rfl, rfl, by simp⟩
  | some filter =>
    simp only [selectorsServable] at h
    split at h
    case isTrue hkey =>
      exact ⟨some (hkey ▸ filter.value), by simp [pickSelectors, hkey], by simpa using h, by simp⟩
    case isFalse => simp at h

theorem pickElements_of_servable {key : Key S.Other} {elements : Option (FilterElements S)}
    (h : elementsServable key elements = true) :
    ∃ e, pickElements key elements = .ok e ∧ (e = none ↔ elements = none) := by
  cases elements with
  | none => exact ⟨none, rfl, by simp⟩
  | some filter =>
    have hkey : filter.key = key := by simpa [elementsServable] using h
    exact ⟨some (hkey ▸ filter.value), by simp [pickElements, hkey], by simp⟩

theorem pickSelectors_of_not_servable {key : Key S.Other} {selectors : Option (FilterSelectors S)}
    (h : selectorsServable key selectors = false) :
    (∃ e, pickSelectors key selectors = .error e) ∨
      ∃ s, pickSelectors key selectors = .ok (some s) ∧ (S.type key).usesUnsupported s = true := by
  cases selectors with
  | none => simp [selectorsServable] at h
  | some filter =>
    simp only [selectorsServable] at h
    split at h
    case isTrue hkey =>
      exact .inr ⟨hkey ▸ filter.value, by simp [pickSelectors, hkey], by simpa using h⟩
    case isFalse hkey => exact .inl ⟨.mismatch, by simp [pickSelectors, hkey]⟩

theorem pickElements_of_not_servable {key : Key S.Other} {elements : Option (FilterElements S)}
    (h : elementsServable key elements = false) : ∃ e, pickElements key elements = .error e := by
  cases elements with
  | none => simp [elementsServable] at h
  | some filter =>
    have hkey : filter.key ≠ key := by simpa [elementsServable] using h
    exact ⟨.mismatch, by simp [pickElements, hkey]⟩

theorem deleteRow_serves (key : Key S.Other) (stored update : key.Data S.OtherData)
    {selectors : Option (FilterSelectors S)} {elements : Option (FilterElements S)}
    (hfilter : (selectors.isNone && elements.isNone) = false)
    (h : servable key selectors elements = true) :
    ∃ value, deleteRow key stored update selectors elements = .ok value ∧
      (value = stored ∨ (S.type key).size value < (S.type key).size stored) := by
  simp only [servable, hfilter, Bool.false_or] at h
  cases hrow : (S.type key).row with
  | absent => simp [hrow] at h
  | listBoth =>
    simp only [hrow, Bool.and_eq_true] at h
    obtain ⟨s, hs, hsupported, -⟩ := pickSelectors_of_servable h.1
    obtain ⟨e, he, -⟩ := pickElements_of_servable h.2
    simp only [deleteRow, hrow, hs, he, bind, Except.bind, hsupported]
    cases s with
    | some s =>
      cases e with
      | some e => exact ⟨_, rfl, (S.type key).clearAddressed_shrinks stored _ e⟩
      | none => exact ⟨_, rfl, (S.type key).deleteAddressed_shrinks stored _⟩
    | none =>
      cases e with
      | some e => exact ⟨_, rfl, (S.type key).clearAddressed_shrinks stored _ e⟩
      | none => exact ⟨_, rfl, .inl rfl⟩
  | listSelectors =>
    simp only [hrow, Bool.and_eq_true] at h
    obtain ⟨s, hs, hsupported, -⟩ := pickSelectors_of_servable h.2
    have helements : elements.isSome = false := by simpa using h.1
    simp only [deleteRow, hrow, helements, hs, bind, Except.bind, hsupported]
    cases s with
    | some s => exact ⟨_, rfl, (S.type key).deleteAddressed_shrinks stored _⟩
    | none => exact ⟨_, rfl, .inl rfl⟩
  | listElements =>
    simp only [hrow, Bool.and_eq_true] at h
    obtain ⟨e, he, -⟩ := pickElements_of_servable h.2
    have hselectors : selectors.isSome = false := by simpa using h.1
    simp only [deleteRow, hrow, hselectors, he, bind, Except.bind]
    cases e with
    | some e => exact ⟨_, rfl, (S.type key).clearAddressed_shrinks stored _ e⟩
    | none => exact ⟨_, rfl, (S.type key).deleteAddressed_shrinks stored _⟩
  | plain =>
    simp only [hrow, Bool.and_eq_true] at h
    obtain ⟨e, he, -⟩ := pickElements_of_servable h.2
    have hselectors : selectors.isSome = false := by simpa using h.1
    simp only [deleteRow, hrow, hselectors, he, bind, Except.bind]
    cases e with
    | some e => exact ⟨_, rfl, (S.type key).clearFrom_shrinks e stored⟩
    | none => exact ⟨_, rfl, .inl rfl⟩

theorem deleteRow_refuses (key : Key S.Other) (stored update : key.Data S.OtherData)
    {selectors : Option (FilterSelectors S)} {elements : Option (FilterElements S)}
    (h : servable key selectors elements = false) :
    ∃ e, deleteRow key stored update selectors elements = .error e := by
  simp only [servable, Bool.or_eq_false_iff] at h
  obtain ⟨-, h⟩ := h
  cases hrow : (S.type key).row with
  | absent => exact ⟨.unsupported, by simp [deleteRow, hrow]⟩
  | listBoth =>
    simp only [hrow, Bool.and_eq_false_iff] at h
    by_cases hs : selectorsServable key selectors = true
    · obtain ⟨s, hs', -⟩ := pickSelectors_of_servable hs
      obtain ⟨e, he⟩ := pickElements_of_not_servable (h.resolve_left (by simp [hs]))
      exact ⟨e, by simp [deleteRow, hrow, hs', he, bind, Except.bind]⟩
    · cases pickSelectors_of_not_servable (by simpa using hs) with
      | inl hpick =>
        obtain ⟨e, he⟩ := hpick
        exact ⟨e, by simp [deleteRow, hrow, he, bind, Except.bind]⟩
      | inr hpick =>
        obtain ⟨s, hs', hunsupported⟩ := hpick
        cases he : elementsServable key elements with
        | true =>
          obtain ⟨e, he', -⟩ := pickElements_of_servable he
          exact ⟨.unsupported, by simp [deleteRow, hrow, hs', he', bind, Except.bind, hunsupported]⟩
        | false =>
          obtain ⟨e, he'⟩ := pickElements_of_not_servable he
          exact ⟨e, by simp [deleteRow, hrow, hs', he', bind, Except.bind]⟩
  | listSelectors =>
    cases helements : elements.isSome with
    | true => exact ⟨.unsupported, by simp [deleteRow, hrow, helements]⟩
    | false =>
      have hnone : elements.isNone = true := by simpa using helements
      simp only [hrow, hnone, Bool.true_and] at h
      cases pickSelectors_of_not_servable h with
      | inl hpick =>
        obtain ⟨e, he⟩ := hpick
        exact ⟨e, by simp [deleteRow, hrow, helements, he, bind, Except.bind]⟩
      | inr hpick =>
        obtain ⟨s, hs, hunsupported⟩ := hpick
        exact ⟨.unsupported,
          by simp [deleteRow, hrow, helements, hs, bind, Except.bind, hunsupported]⟩
  | listElements | plain =>
    cases hselectors : selectors.isSome with
    | true => exact ⟨.unsupported, by simp [deleteRow, hrow, hselectors]⟩
    | false =>
      have hnone : selectors.isNone = true := by simpa using hselectors
      simp only [hrow, hnone, Bool.true_and] at h
      obtain ⟨e, he⟩ := pickElements_of_not_servable h
      exact ⟨e, by simp [deleteRow, hrow, hselectors, he, bind, Except.bind]⟩

theorem deleteRestricted_serves {stored update : CmdData S} (hkey : stored.key = update.key)
    {selectors : Option (FilterSelectors S)} {elements : Option (FilterElements S)}
    (h : servable update.key selectors elements = true) :
    ∃ value, stored.deleteRestricted update selectors elements = .ok value ∧
      value.key = update.key ∧ (value = stored ∨ value.size < stored.size) := by
  simp only [deleteRestricted, hkey.symm, dif_pos]
  rw [← hkey] at h
  cases hfilter : selectors.isNone && elements.isNone with
  | true =>
    simp only [if_true]
    refine ⟨_, rfl, rfl, ?_⟩
    cases (S.type stored.key).delete_shrinks stored.value (hkey.symm ▸ update.value) with
    | inl heq => exact .inl (congrArg (CmdData.mk stored.key) heq)
    | inr hlt => exact .inr hlt
  | false =>
    obtain ⟨value, hvalue, hsize⟩ :=
      deleteRow_serves stored.key stored.value (hkey.symm ▸ update.value) hfilter h
    simp only [hvalue, bind, Except.bind]
    refine ⟨_, rfl, rfl, ?_⟩
    cases hsize with
    | inl heq => exact .inl (congrArg (CmdData.mk stored.key) heq)
    | inr hlt => exact .inr hlt

theorem deleteRestricted_refuses {stored update : CmdData S} (hkey : stored.key = update.key)
    {selectors : Option (FilterSelectors S)} {elements : Option (FilterElements S)}
    (h : servable update.key selectors elements = false) :
    ∃ e, stored.deleteRestricted update selectors elements = .error e := by
  rw [← hkey] at h
  have hfilter : (selectors.isNone && elements.isNone) = false :=
    (Bool.or_eq_false_iff.mp h).1
  obtain ⟨e, he⟩ := deleteRow_refuses stored.key stored.value (hkey.symm ▸ update.value) h
  exact ⟨e, by simp [deleteRestricted, hkey.symm, hfilter, he, bind, Except.bind]⟩

end CmdData

end Eebus.Model
