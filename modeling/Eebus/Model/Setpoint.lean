import Eebus.Model.LoadControl

/-! The function `setpointListData`, as the schema tables declare it. -/

namespace Eebus.Model

structure SetpointDataElements where
  setpointId : Bool
  value : Option ScaledNumberElements
  isSetpointChangeable : Bool
  isSetpointActive : Bool
  timePeriod : Option TimePeriodElements
deriving DecidableEq

structure SetpointListDataSelectors where
  setpointId : Option Nat
deriving DecidableEq

namespace SetpointData

def merge (stored update : SetpointData) : SetpointData where
  setpointId := mergeLeaf stored.setpointId update.setpointId
  value := mergeOption ScaledNumber.merge stored.value update.value
  isSetpointChangeable := mergeLeaf stored.isSetpointChangeable update.isSetpointChangeable
  isSetpointActive := mergeLeaf stored.isSetpointActive update.isSetpointActive
  timePeriod := mergeOption TimePeriod.merge stored.timePeriod update.timePeriod

def clear (e : SetpointDataElements) (d : SetpointData) : SetpointData where
  setpointId := clearTag e.setpointId d.setpointId
  value := clearNested ScaledNumberElements.isEmpty ScaledNumber.clear e.value d.value
  isSetpointChangeable := clearTag e.isSetpointChangeable d.isSetpointChangeable
  isSetpointActive := clearTag e.isSetpointActive d.isSetpointActive
  timePeriod := clearNested TimePeriodElements.isEmpty TimePeriod.clear e.timePeriod d.timePeriod

def retain (e : SetpointDataElements) (d : SetpointData) : SetpointData where
  setpointId := retainTag e.setpointId d.setpointId
  value := retainNested ScaledNumberElements.isEmpty ScaledNumber.retain e.value d.value
  isSetpointChangeable := retainTag e.isSetpointChangeable d.isSetpointChangeable
  isSetpointActive := retainTag e.isSetpointActive d.isSetpointActive
  timePeriod := retainNested TimePeriodElements.isEmpty TimePeriod.retain e.timePeriod d.timePeriod

def restoreIdentity (d source : SetpointData) : SetpointData :=
  { d with setpointId := source.setpointId }

def size (d : SetpointData) : Nat :=
  leafSize d.setpointId + elementSize ScaledNumber.size d.value + leafSize d.isSetpointChangeable
    + leafSize d.isSetpointActive + elementSize TimePeriod.size d.timePeriod

theorem clear_shrinks (e : SetpointDataElements) (d : SetpointData) :
    restoreIdentity (clear e d) d = d ∨ size (restoreIdentity (clear e d) d) < size d := by
  have hvalue := clearNested_shrinks ScaledNumberElements.isEmpty
    ScaledNumber.clear_shrinks e.value d.value
  have hchangeable := clearTag_shrinks e.isSetpointChangeable d.isSetpointChangeable
  have hactive := clearTag_shrinks e.isSetpointActive d.isSetpointActive
  have hperiod := clearNested_shrinks TimePeriodElements.isEmpty
    TimePeriod.clear_shrinks e.timePeriod d.timePeriod
  cases d
  grind [clear, restoreIdentity, size]

end SetpointData

def SetpointListDataSelectors.selects (s : SetpointListDataSelectors) (d : SetpointData) : Bool :=
  match s.setpointId with
  | some wanted => d.setpointId == some wanted
  | none => true

def setpointListType : FunctionType SetpointListData where
  Item := SetpointData
  Identity := Nat
  Selectors := SetpointListDataSelectors
  Elements := SetpointDataElements
  decEq := inferInstance
  decEqIdentity := inferInstance
  default := ⟨none⟩
  isMergeableList := true
  row := .listBoth
  merge stored update := ⟨mergeLeaf stored.setpointData update.setpointData⟩
  entries d := d.setpointData
  setEntries _ es := ⟨es⟩
  identity d := d.setpointId
  mergeItem := SetpointData.merge
  restoreIdentity := SetpointData.restoreIdentity
  selects := SetpointListDataSelectors.selects
  usesUnsupported _ := false
  clearItem := SetpointData.clear
  retainItem := SetpointData.retain
  -- As with the limits, the elements choice addresses the entries only.
  clearFrom _ d := d
  retainIn _ d := d
  itemSize := SetpointData.size
  size d := elementSize (fun es => (es.map fun x => x.size + 1).sum) d.setpointData
  merge_default u := by simp [mergeLeaf, mergeOption_none]
  entries_default := rfl
  entries_setEntries _ _ _ := rfl
  setEntries_entries _ := rfl
  entries_injective _ a b h := by
    cases a
    cases b
    exact congrArg SetpointListData.mk h
  default_least d := by
    cases d with
    | mk es =>
      cases es with
      | none => exact .inl rfl
      | some es => exact .inr (by simp [elementSize])
  clearFrom_shrinks _ _ := .inl rfl
  clearItem_shrinks := SetpointData.clear_shrinks
  setEntries_shrinks d es es' h hlt := by
    simp only [h, elementSize]
    omega

end Eebus.Model
