import Eebus.Model.LoadControl

/-! The function `hvacSystemFunctionListData`, as the schema tables declare it. -/

namespace Eebus.Model

structure HvacSystemFunctionDataElements where
  systemFunctionId : Bool
  currentOperationModeId : Bool
  isOperationModeIdChangeable : Bool
  currentSetpointId : Bool
  isSetpointIdChangeable : Bool
  isOverrunActive : Bool
deriving DecidableEq

structure HvacSystemFunctionListDataSelectors where
  systemFunctionId : Option Nat
deriving DecidableEq

namespace HvacSystemFunctionData

def merge (stored update : HvacSystemFunctionData) : HvacSystemFunctionData where
  systemFunctionId := mergeLeaf stored.systemFunctionId update.systemFunctionId
  currentOperationModeId := mergeLeaf stored.currentOperationModeId update.currentOperationModeId
  isOperationModeIdChangeable :=
    mergeLeaf stored.isOperationModeIdChangeable update.isOperationModeIdChangeable
  currentSetpointId := mergeLeaf stored.currentSetpointId update.currentSetpointId
  isSetpointIdChangeable := mergeLeaf stored.isSetpointIdChangeable update.isSetpointIdChangeable
  isOverrunActive := mergeLeaf stored.isOverrunActive update.isOverrunActive

def clear (e : HvacSystemFunctionDataElements) (d : HvacSystemFunctionData) :
    HvacSystemFunctionData where
  systemFunctionId := clearTag e.systemFunctionId d.systemFunctionId
  currentOperationModeId := clearTag e.currentOperationModeId d.currentOperationModeId
  isOperationModeIdChangeable :=
    clearTag e.isOperationModeIdChangeable d.isOperationModeIdChangeable
  currentSetpointId := clearTag e.currentSetpointId d.currentSetpointId
  isSetpointIdChangeable := clearTag e.isSetpointIdChangeable d.isSetpointIdChangeable
  isOverrunActive := clearTag e.isOverrunActive d.isOverrunActive

def retain (e : HvacSystemFunctionDataElements) (d : HvacSystemFunctionData) :
    HvacSystemFunctionData where
  systemFunctionId := retainTag e.systemFunctionId d.systemFunctionId
  currentOperationModeId := retainTag e.currentOperationModeId d.currentOperationModeId
  isOperationModeIdChangeable :=
    retainTag e.isOperationModeIdChangeable d.isOperationModeIdChangeable
  currentSetpointId := retainTag e.currentSetpointId d.currentSetpointId
  isSetpointIdChangeable := retainTag e.isSetpointIdChangeable d.isSetpointIdChangeable
  isOverrunActive := retainTag e.isOverrunActive d.isOverrunActive

def restoreIdentity (d source : HvacSystemFunctionData) : HvacSystemFunctionData :=
  { d with systemFunctionId := source.systemFunctionId }

def size (d : HvacSystemFunctionData) : Nat :=
  leafSize d.systemFunctionId + leafSize d.currentOperationModeId
    + leafSize d.isOperationModeIdChangeable + leafSize d.currentSetpointId
    + leafSize d.isSetpointIdChangeable + leafSize d.isOverrunActive

theorem clear_shrinks (e : HvacSystemFunctionDataElements) (d : HvacSystemFunctionData) :
    restoreIdentity (clear e d) d = d ∨ size (restoreIdentity (clear e d) d) < size d := by
  have hmode := clearTag_shrinks e.currentOperationModeId d.currentOperationModeId
  have hchangeable := clearTag_shrinks e.isOperationModeIdChangeable d.isOperationModeIdChangeable
  have hsetpoint := clearTag_shrinks e.currentSetpointId d.currentSetpointId
  have hsettable := clearTag_shrinks e.isSetpointIdChangeable d.isSetpointIdChangeable
  have hoverrun := clearTag_shrinks e.isOverrunActive d.isOverrunActive
  cases d
  grind [clear, restoreIdentity, size]

end HvacSystemFunctionData

def HvacSystemFunctionListDataSelectors.selects (s : HvacSystemFunctionListDataSelectors)
    (d : HvacSystemFunctionData) : Bool :=
  match s.systemFunctionId with
  | some wanted => d.systemFunctionId == some wanted
  | none => true

def hvacSystemFunctionListType : FunctionType HvacSystemFunctionListData where
  Item := HvacSystemFunctionData
  Identity := Nat
  Selectors := HvacSystemFunctionListDataSelectors
  Elements := HvacSystemFunctionDataElements
  decEq := inferInstance
  decEqIdentity := inferInstance
  default := ⟨none⟩
  isMergeableList := true
  row := .listBoth
  merge stored update := ⟨mergeLeaf stored.hvacSystemFunctionData update.hvacSystemFunctionData⟩
  entries d := d.hvacSystemFunctionData
  setEntries _ es := ⟨es⟩
  identity d := d.systemFunctionId
  mergeItem := HvacSystemFunctionData.merge
  restoreIdentity := HvacSystemFunctionData.restoreIdentity
  selects := HvacSystemFunctionListDataSelectors.selects
  usesUnsupported _ := false
  clearItem := HvacSystemFunctionData.clear
  retainItem := HvacSystemFunctionData.retain
  -- As with the limits, the elements choice addresses the entries only.
  clearFrom _ d := d
  retainIn _ d := d
  itemSize := HvacSystemFunctionData.size
  size d := elementSize (fun es => (es.map fun x => x.size + 1).sum) d.hvacSystemFunctionData
  merge_default u := by simp [mergeLeaf, mergeOption_none]
  entries_default := rfl
  entries_setEntries _ _ _ := rfl
  setEntries_entries _ := rfl
  entries_injective _ a b h := by
    cases a
    cases b
    exact congrArg HvacSystemFunctionListData.mk h
  default_least d := by
    cases d with
    | mk es =>
      cases es with
      | none => exact .inl rfl
      | some es => exact .inr (by simp [elementSize])
  clearFrom_shrinks _ _ := .inl rfl
  clearItem_shrinks := HvacSystemFunctionData.clear_shrinks
  setEntries_shrinks d es es' h hlt := by
    simp only [h, elementSize]
    omega

end Eebus.Model
