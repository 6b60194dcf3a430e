import Eebus.Model.Payload

/-! The function `loadControlLimitListData`, as the schema tables declare it. -/

namespace Eebus.Model

def mergeOption {α : Type} (merge : α → α → α) : Option α → Option α → Option α
  | some existing, some update => some (merge existing update)
  | none, some update => some update
  | stored, none => stored

def mergeLeaf {α : Type} : Option α → Option α → Option α := mergeOption fun _ update => update

def clearTag {α : Type} (named : Bool) (element : Option α) : Option α :=
  if named then none else element

def retainTag {α : Type} (named : Bool) (element : Option α) : Option α :=
  if named then element else none

def clearNested {α E : Type} (isEmpty : E → Bool) (clear : E → α → α) :
    Option E → Option α → Option α
  | none, element => element
  | some sub, element => if isEmpty sub then none else element.map (clear sub)

def retainNested {α E : Type} (isEmpty : E → Bool) (retain : E → α → α) :
    Option E → Option α → Option α
  | none, _ => none
  | some sub, element => if isEmpty sub then element else element.map (retain sub)

def elementSize {α : Type} (size : α → Nat) : Option α → Nat
  | none => 0
  | some element => size element + 1

def leafSize {α : Type} : Option α → Nat := elementSize fun _ => 0

theorem mergeOption_none {α : Type} (merge : α → α → α) (update : Option α) :
    mergeOption merge none update = update := by
  cases update <;> rfl

@[simp] theorem mergeOption_absent {α : Type} (merge : α → α → α) (stored : Option α) :
    mergeOption merge stored none = stored := by
  cases stored <;> rfl

@[simp] theorem mergeLeaf_some {α : Type} (stored : Option α) (update : α) :
    mergeLeaf stored (some update) = some update := by
  cases stored <;> rfl

@[simp] theorem mergeLeaf_absent {α : Type} (stored : Option α) : mergeLeaf stored none = stored :=
  mergeOption_absent _ stored

theorem clearTag_shrinks {α : Type} (named : Bool) (element : Option α) :
    clearTag named element = element ∨ leafSize (clearTag named element) < leafSize element := by
  cases named with
  | false => exact .inl rfl
  | true =>
    cases element with
    | none => exact .inl rfl
    | some a => exact .inr (by simp [clearTag, leafSize, elementSize])

theorem clearNested_shrinks {α E : Type} (isEmpty : E → Bool) {clear : E → α → α} {size : α → Nat}
    (h : ∀ e a, clear e a = a ∨ size (clear e a) < size a) (filter : Option E)
    (element : Option α) : clearNested isEmpty clear filter element = element ∨
      elementSize size (clearNested isEmpty clear filter element) < elementSize size element := by
  cases filter with
  | none => exact .inl rfl
  | some sub =>
    cases element with
    | none => exact .inl (by simp [clearNested])
    | some a =>
      cases hempty : isEmpty sub with
      | true => exact .inr (by simp [clearNested, hempty, elementSize])
      | false =>
        cases h sub a with
        | inl heq => exact .inl (by simp [clearNested, hempty, heq])
        | inr hlt => exact .inr (by simp [clearNested, hempty, elementSize, hlt])

structure TimePeriodElements where
  startTime : Bool
  endTime : Bool
deriving DecidableEq

structure ScaledNumberElements where
  number : Bool
  scale : Bool
deriving DecidableEq

namespace TimePeriod

def merge (stored update : TimePeriod) : TimePeriod where
  startTime := mergeLeaf stored.startTime update.startTime
  endTime := mergeLeaf stored.endTime update.endTime

def clear (e : TimePeriodElements) (t : TimePeriod) : TimePeriod where
  startTime := clearTag e.startTime t.startTime
  endTime := clearTag e.endTime t.endTime

def retain (e : TimePeriodElements) (t : TimePeriod) : TimePeriod where
  startTime := retainTag e.startTime t.startTime
  endTime := retainTag e.endTime t.endTime

def size (t : TimePeriod) : Nat := leafSize t.startTime + leafSize t.endTime

theorem clear_shrinks (e : TimePeriodElements) (t : TimePeriod) :
    clear e t = t ∨ size (clear e t) < size t := by
  have hstart := clearTag_shrinks e.startTime t.startTime
  have hend := clearTag_shrinks e.endTime t.endTime
  cases t
  grind [clear, size]

end TimePeriod

def TimePeriodElements.isEmpty (e : TimePeriodElements) : Bool := !e.startTime && !e.endTime

namespace ScaledNumber

def merge (stored update : ScaledNumber) : ScaledNumber where
  number := mergeLeaf stored.number update.number
  scale := mergeLeaf stored.scale update.scale

def clear (e : ScaledNumberElements) (n : ScaledNumber) : ScaledNumber where
  number := clearTag e.number n.number
  scale := clearTag e.scale n.scale

def retain (e : ScaledNumberElements) (n : ScaledNumber) : ScaledNumber where
  number := retainTag e.number n.number
  scale := retainTag e.scale n.scale

def size (n : ScaledNumber) : Nat := leafSize n.number + leafSize n.scale

theorem clear_shrinks (e : ScaledNumberElements) (n : ScaledNumber) :
    clear e n = n ∨ size (clear e n) < size n := by
  have hnumber := clearTag_shrinks e.number n.number
  have hscale := clearTag_shrinks e.scale n.scale
  cases n
  grind [clear, size]

end ScaledNumber

def ScaledNumberElements.isEmpty (e : ScaledNumberElements) : Bool := !e.number && !e.scale

structure LoadControlLimitDataElements where
  limitId : Bool
  isLimitChangeable : Bool
  isLimitActive : Bool
  timePeriod : Option TimePeriodElements
  value : Option ScaledNumberElements
deriving DecidableEq

structure LoadControlLimitListDataSelectors where
  limitId : Option Nat
deriving DecidableEq

namespace LoadControlLimitData

def merge (stored update : LoadControlLimitData) : LoadControlLimitData where
  limitId := mergeLeaf stored.limitId update.limitId
  isLimitChangeable := mergeLeaf stored.isLimitChangeable update.isLimitChangeable
  isLimitActive := mergeLeaf stored.isLimitActive update.isLimitActive
  timePeriod := mergeOption TimePeriod.merge stored.timePeriod update.timePeriod
  value := mergeOption ScaledNumber.merge stored.value update.value

def clear (e : LoadControlLimitDataElements) (d : LoadControlLimitData) : LoadControlLimitData where
  limitId := clearTag e.limitId d.limitId
  isLimitChangeable := clearTag e.isLimitChangeable d.isLimitChangeable
  isLimitActive := clearTag e.isLimitActive d.isLimitActive
  timePeriod := clearNested TimePeriodElements.isEmpty TimePeriod.clear e.timePeriod d.timePeriod
  value := clearNested ScaledNumberElements.isEmpty ScaledNumber.clear e.value d.value

def retain (e : LoadControlLimitDataElements) (d : LoadControlLimitData) : LoadControlLimitData where
  limitId := retainTag e.limitId d.limitId
  isLimitChangeable := retainTag e.isLimitChangeable d.isLimitChangeable
  isLimitActive := retainTag e.isLimitActive d.isLimitActive
  timePeriod := retainNested TimePeriodElements.isEmpty TimePeriod.retain e.timePeriod d.timePeriod
  value := retainNested ScaledNumberElements.isEmpty ScaledNumber.retain e.value d.value

def restoreIdentity (d source : LoadControlLimitData) : LoadControlLimitData :=
  { d with limitId := source.limitId }

def size (d : LoadControlLimitData) : Nat :=
  leafSize d.limitId + leafSize d.isLimitChangeable + leafSize d.isLimitActive
    + elementSize TimePeriod.size d.timePeriod + elementSize ScaledNumber.size d.value

theorem clear_shrinks (e : LoadControlLimitDataElements) (d : LoadControlLimitData) :
    restoreIdentity (clear e d) d = d ∨ size (restoreIdentity (clear e d) d) < size d := by
  have hchangeable := clearTag_shrinks e.isLimitChangeable d.isLimitChangeable
  have hactive := clearTag_shrinks e.isLimitActive d.isLimitActive
  have hperiod := clearNested_shrinks TimePeriodElements.isEmpty
    TimePeriod.clear_shrinks e.timePeriod d.timePeriod
  have hvalue := clearNested_shrinks ScaledNumberElements.isEmpty
    ScaledNumber.clear_shrinks e.value d.value
  cases d
  grind [clear, restoreIdentity, size]

end LoadControlLimitData

def LoadControlLimitListDataSelectors.selects (s : LoadControlLimitListDataSelectors)
    (d : LoadControlLimitData) : Bool :=
  match s.limitId with
  | some wanted => d.limitId == some wanted
  | none => true

def loadControlLimitListType : FunctionType LoadControlLimitListData where
  Item := LoadControlLimitData
  Identity := Nat
  Selectors := LoadControlLimitListDataSelectors
  Elements := LoadControlLimitDataElements
  decEq := inferInstance
  decEqIdentity := inferInstance
  default := ⟨none⟩
  isMergeableList := true
  row := .listBoth
  merge stored update := ⟨mergeLeaf stored.loadControlLimitData update.loadControlLimitData⟩
  entries d := d.loadControlLimitData
  setEntries _ es := ⟨es⟩
  identity d := d.limitId
  mergeItem := LoadControlLimitData.merge
  restoreIdentity := LoadControlLimitData.restoreIdentity
  selects := LoadControlLimitListDataSelectors.selects
  usesUnsupported _ := false
  clearItem := LoadControlLimitData.clear
  retainItem := LoadControlLimitData.retain
  -- The elements choice addresses the entries only; the list itself has no elements filter.
  clearFrom _ d := d
  retainIn _ d := d
  itemSize := LoadControlLimitData.size
  size d := elementSize (fun es => (es.map fun x => x.size + 1).sum) d.loadControlLimitData
  merge_default u := by simp [mergeLeaf, mergeOption_none]
  entries_default := rfl
  entries_setEntries _ _ _ := rfl
  setEntries_entries _ := rfl
  entries_injective _ a b h := by
    cases a
    cases b
    exact congrArg LoadControlLimitListData.mk h
  default_least d := by
    cases d with
    | mk es =>
      cases es with
      | none => exact .inl rfl
      | some es => exact .inr (by simp [elementSize])
  clearFrom_shrinks _ _ := .inl rfl
  clearItem_shrinks := LoadControlLimitData.clear_shrinks
  setEntries_shrinks d es es' h hlt := by
    simp only [h, elementSize]
    omega

end Eebus.Model
