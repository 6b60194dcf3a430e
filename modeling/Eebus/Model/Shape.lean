import Eebus.Library.KeyedMerge
import Eebus.Model.Entries
import Eebus.Model.Places

/-! The shape of a list function: its entries are records, which the macros merge, identify and filter field by
field. -/

namespace Eebus.Model

namespace FunctionType

variable {Data : Type}

/-- What `eebus_list!` makes of a list function, and `eebus_struct!`, `eebus_identity!` and `eebus_elements!` of
its entries. The data choice need not declare the function as a list. -/
structure Shape (F : FunctionType Data) where
  row_ne_plain : F.row ≠ .plain
  entries_setEntries : ∀ d es, F.entries (F.setEntries d es) = es
  entries_injective : ∀ a b, F.entries a = F.entries b → a = b
  merge : ∀ a b, F.entries (F.merge a b) = mergeLeaf (F.entries a) (F.entries b)
  fields : Fields
  view : F.Item ≃ fields.Val
  filter : F.Elements → fields.Filter
  hasIdentity : ∀ a, F.hasIdentity a = fields.hasIdentity (view a)
  identity : ∀ a b, F.hasIdentity a = true →
    (F.identity a = F.identity b ↔ fields.key (view a) = fields.key (view b))
  mergeItem : ∀ a b, view (F.mergeItem a b) = fields.merge (view a) (view b)
  restoreIdentity : ∀ a b, view (F.restoreIdentity a b) = fields.restoreIdentity (view a) (view b)
  clearItem : ∀ e a, view (F.clearItem e a) = fields.clear (filter e) (view a)
  retainItem : ∀ e a, view (F.retainItem e a) = fields.retain (filter e) (view a)

theorem sameEntry_self (F : FunctionType Data) (item : F.Item) :
    F.sameEntry item item = F.hasIdentity item := by
  cases h : F.identity item <;> simp [sameEntry, hasIdentity, h]

theorem sameEntry_eq_true_iff (F : FunctionType Data) (a b : F.Item) :
    F.sameEntry a b = true ↔ F.hasIdentity a = true ∧ F.identity a = F.identity b := by
  cases ha : F.identity a <;> cases hb : F.identity b <;> simp [sameEntry, hasIdentity, ha, hb]

open Library in
theorem mergeEntry_eq (F : FunctionType Data) : F.mergeEntry = mergeInto F.sameEntry F.mergeItem := by
  funext held item
  induction held with
  | nil => rfl
  | cons existing rest ih => simp only [mergeEntry, mergeInto, ih]

namespace Shape

variable {F : FunctionType Data} (shape : F.Shape)

theorem sameEntry_iff (a b : F.Item) : F.sameEntry a b = true ↔
    shape.fields.hasIdentity (shape.view a) = true ∧
      shape.fields.key (shape.view a) = shape.fields.key (shape.view b) := by
  rw [F.sameEntry_eq_true_iff, ← shape.hasIdentity]
  exact and_congr_right fun ha => shape.identity a b ha

include shape in
theorem keyedMerge : Library.KeyedMerge F.sameEntry F.mergeItem where
  symm {a b} h := by
    obtain ⟨hid, hkey⟩ := (shape.sameEntry_iff a b).mp h
    exact (shape.sameEntry_iff b a).mpr ⟨shape.fields.hasIdentity_congr hkey ▸ hid, hkey.symm⟩
  trans {a b c} h h' := by
    obtain ⟨hid, hkey⟩ := (shape.sameEntry_iff a b).mp h
    exact (shape.sameEntry_iff a c).mpr ⟨hid, hkey.trans ((shape.sameEntry_iff b c).mp h').2⟩
  merge_same {a b} h := by
    obtain ⟨hid, hkey⟩ := (shape.sameEntry_iff a b).mp h
    have hmerged : shape.fields.key (shape.view (F.mergeItem a b)) = shape.fields.key (shape.view a) := by
      rw [shape.mergeItem, shape.fields.key_merge hkey]
    exact (shape.sameEntry_iff _ a).mpr ⟨shape.fields.hasIdentity_congr hmerged ▸ hid, hmerged⟩
  merge_self a := shape.view.injective (by rw [shape.mergeItem, shape.fields.merge_self])
  merge_assoc a b c := shape.view.injective (by simp only [shape.mergeItem, shape.fields.merge_assoc])

end Shape

structure ListData (Item : Type) where
  entries : Option (List Item)
deriving DecidableEq

theorem ListData.entries_injective {Item : Type} : ∀ a b : ListData Item, a.entries = b.entries → a = b
  | ⟨_⟩, ⟨_⟩, rfl => rfl

def listOf (fields : Fields) (isMergeableList : Bool) (row : RestrictRow) (Selectors : Type)
    (selects : Selectors → fields.Val → Bool) (usesUnsupported : Selectors → Bool) :
    FunctionType (ListData fields.Val) where
  Item := fields.Val
  Identity := fields.Val
  Selectors := Selectors
  Elements := fields.Filter
  decEq := inferInstance
  decEqIdentity := inferInstance
  default := ⟨none⟩
  isMergeableList := isMergeableList
  row := row
  merge stored update := ⟨mergeLeaf stored.entries update.entries⟩
  entries d := d.entries
  setEntries _ es := ⟨es⟩
  identity d := if fields.hasIdentity d then some (fields.key d) else none
  mergeItem := fields.merge
  restoreIdentity := fields.restoreIdentity
  selects := selects
  usesUnsupported := usesUnsupported
  clearItem := fields.clear
  retainItem := fields.retain
  clearFrom _ d := d
  retainIn _ d := d
  itemSize := fields.size
  size d := elementSize (fun es => (es.map fun x => fields.size x + 1).sum) d.entries
  merge_default u := by simp [mergeLeaf, mergeOption_none]
  entries_default := rfl
  entries_setEntries _ _ _ := rfl
  setEntries_entries _ := rfl
  entries_injective _ := ListData.entries_injective
  default_least d := by
    cases d with
    | mk es =>
      cases es with
      | none => exact .inl rfl
      | some es => exact .inr (by simp [elementSize])
  clearFrom_shrinks _ _ := .inl rfl
  clearItem_shrinks := fields.clear_restored_shrinks
  setEntries_shrinks d es es' h hlt := by
    simp only [h, elementSize]
    omega

def Shape.listOf (fields : Fields) (isMergeableList : Bool) {row : RestrictRow} (hrow : row ≠ .plain)
    (Selectors : Type) (selects : Selectors → fields.Val → Bool) (usesUnsupported : Selectors → Bool) :
    (FunctionType.listOf fields isMergeableList row Selectors selects usesUnsupported).Shape where
  row_ne_plain := hrow
  entries_setEntries _ _ := rfl
  entries_injective := ListData.entries_injective
  merge _ _ := rfl
  fields := fields
  view := Equiv.refl _
  filter := id
  hasIdentity (a : fields.Val) := by
    change (if fields.hasIdentity a then some (fields.key a) else none).isSome = fields.hasIdentity a
    cases fields.hasIdentity a <;> rfl
  identity (a b : fields.Val) ha := by
    change (if fields.hasIdentity a then some (fields.key a) else none).isSome = true at ha
    have ha : fields.hasIdentity a = true := by
      cases h : fields.hasIdentity a <;> simp [h] at ha ⊢
    change (if fields.hasIdentity a then some (fields.key a) else none) =
      (if fields.hasIdentity b then some (fields.key b) else none) ↔ fields.key a = fields.key b
    rw [if_pos ha]
    constructor
    · intro h
      split at h
      · exact Option.some.inj h
      · simp at h
    · intro h
      rw [if_pos (fields.hasIdentity_congr h ▸ ha), h]
  mergeItem _ _ := rfl
  restoreIdentity _ _ := rfl
  clearItem _ _ := rfl
  retainItem _ _ := rfl

section Views

variable {α β E E' : Type} (view : α ≃ β)

theorem map_symm_map (b : Option β) : (b.map view.symm).map view = b := by
  simp

theorem map_mergeOption {merge : α → α → α} {merge' : β → β → β}
    (h : ∀ a b, view (merge a b) = merge' (view a) (view b)) (a b : Option α) :
    (mergeOption merge a b).map view = mergeOption merge' (a.map view) (b.map view) := by
  cases a <;> cases b <;> simp [mergeOption, h]

theorem map_clearNested (filter : E → E') {isEmpty : E → Bool} {isEmpty' : E' → Bool}
    (hempty : ∀ e, isEmpty e = isEmpty' (filter e)) {clear : E → α → α} {clear' : E' → β → β}
    (h : ∀ e a, view (clear e a) = clear' (filter e) (view a)) (e : Option E) (a : Option α) :
    (clearNested isEmpty clear e a).map view = clearNested isEmpty' clear' (e.map filter) (a.map view) := by
  cases e with
  | none => rfl
  | some e => cases hsub : isEmpty e <;> cases a <;> simp [clearNested, ← hempty, hsub, h]

theorem map_retainNested (filter : E → E') {isEmpty : E → Bool} {isEmpty' : E' → Bool}
    (hempty : ∀ e, isEmpty e = isEmpty' (filter e)) {retain : E → α → α} {retain' : E' → β → β}
    (h : ∀ e a, view (retain e a) = retain' (filter e) (view a)) (e : Option E) (a : Option α) :
    (retainNested isEmpty retain e a).map view =
      retainNested isEmpty' retain' (e.map filter) (a.map view) := by
  cases e with
  | none => rfl
  | some e => cases hsub : isEmpty e <;> cases a <;> simp [retainNested, ← hempty, hsub, h]

end Views

abbrev timePeriodFields : Fields :=
  .leaf String inferInstance .tag false (.leaf String inferInstance .tag false .nil)

abbrev scaledNumberFields : Fields :=
  .leaf Int inferInstance .tag false (.leaf Int inferInstance .tag false .nil)

def viewTimePeriod : TimePeriod ≃ timePeriodFields.Val where
  toFun t := (t.startTime, t.endTime, ())
  invFun v := ⟨v.1, v.2.1⟩
  left_inv _ := rfl
  right_inv _ := rfl

def viewScaledNumber : ScaledNumber ≃ scaledNumberFields.Val where
  toFun n := (n.number, n.scale, ())
  invFun v := ⟨v.1, v.2.1⟩
  left_inv _ := rfl
  right_inv _ := rfl

def filterTimePeriod (e : TimePeriodElements) : timePeriodFields.Filter := (e.startTime, e.endTime, ())

def filterScaledNumber (e : ScaledNumberElements) : scaledNumberFields.Filter := (e.number, e.scale, ())

theorem isEmpty_filterTimePeriod (e : TimePeriodElements) :
    e.isEmpty = timePeriodFields.isEmpty (filterTimePeriod e) :=
  congrArg (!e.startTime && ·) (Bool.and_true _).symm

theorem isEmpty_filterScaledNumber (e : ScaledNumberElements) :
    e.isEmpty = scaledNumberFields.isEmpty (filterScaledNumber e) :=
  congrArg (!e.number && ·) (Bool.and_true _).symm

theorem viewTimePeriod_merge (a b : TimePeriod) :
    viewTimePeriod (a.merge b) = timePeriodFields.merge (viewTimePeriod a) (viewTimePeriod b) := rfl

theorem viewTimePeriod_clear (e : TimePeriodElements) (a : TimePeriod) :
    viewTimePeriod (a.clear e) = timePeriodFields.clear (filterTimePeriod e) (viewTimePeriod a) := rfl

theorem viewTimePeriod_retain (e : TimePeriodElements) (a : TimePeriod) :
    viewTimePeriod (a.retain e) = timePeriodFields.retain (filterTimePeriod e) (viewTimePeriod a) := rfl

theorem viewScaledNumber_merge (a b : ScaledNumber) :
    viewScaledNumber (a.merge b) = scaledNumberFields.merge (viewScaledNumber a) (viewScaledNumber b) := rfl

theorem viewScaledNumber_clear (e : ScaledNumberElements) (a : ScaledNumber) :
    viewScaledNumber (a.clear e) = scaledNumberFields.clear (filterScaledNumber e) (viewScaledNumber a) := rfl

theorem viewScaledNumber_retain (e : ScaledNumberElements) (a : ScaledNumber) :
    viewScaledNumber (a.retain e) = scaledNumberFields.retain (filterScaledNumber e) (viewScaledNumber a) := rfl

abbrev loadControlLimitFields : Fields :=
  .leaf Nat inferInstance .tag true (.leaf Bool inferInstance .tag false
    (.leaf Bool inferInstance .tag false (.struct .nested timePeriodFields
      (.struct .nested scaledNumberFields .nil))))

def viewLoadControlLimit : LoadControlLimitData ≃ loadControlLimitFields.Val where
  toFun d := (d.limitId, d.isLimitChangeable, d.isLimitActive, d.timePeriod.map viewTimePeriod,
    d.value.map viewScaledNumber, ())
  invFun v := ⟨v.1, v.2.1, v.2.2.1, v.2.2.2.1.map viewTimePeriod.symm, v.2.2.2.2.1.map viewScaledNumber.symm⟩
  left_inv d := by simp
  right_inv v := by
    change (v.1, v.2.1, v.2.2.1, (v.2.2.2.1.map viewTimePeriod.symm).map viewTimePeriod,
      (v.2.2.2.2.1.map viewScaledNumber.symm).map viewScaledNumber, ()) = v
    rw [map_symm_map, map_symm_map]
    rfl

def Shape.loadControlLimitListType : loadControlLimitListType.Shape where
  row_ne_plain := by simp [Eebus.Model.loadControlLimitListType]
  entries_setEntries _ _ := rfl
  entries_injective := Eebus.Model.loadControlLimitListType.entries_injective rfl
  merge _ _ := rfl
  fields := loadControlLimitFields
  view := viewLoadControlLimit
  filter (e : LoadControlLimitDataElements) := (e.limitId, e.isLimitChangeable, e.isLimitActive,
    e.timePeriod.map filterTimePeriod, e.value.map filterScaledNumber, ())
  hasIdentity (a : LoadControlLimitData) := (Bool.and_true _).symm
  identity (a b : LoadControlLimitData) _ :=
    ⟨congrArg fun id => (id, none, none, none, none, ()), congrArg Prod.fst⟩
  mergeItem (a b : LoadControlLimitData) := by
    change (_, _, _, (mergeOption TimePeriod.merge a.timePeriod b.timePeriod).map viewTimePeriod,
      (mergeOption ScaledNumber.merge a.value b.value).map viewScaledNumber, ()) = _
    rw [map_mergeOption viewTimePeriod viewTimePeriod_merge,
      map_mergeOption viewScaledNumber viewScaledNumber_merge]
    rfl
  restoreIdentity _ _ := rfl
  clearItem (e : LoadControlLimitDataElements) (a : LoadControlLimitData) := by
    change (_, _, _, (clearNested _ TimePeriod.clear e.timePeriod a.timePeriod).map viewTimePeriod,
      (clearNested _ ScaledNumber.clear e.value a.value).map viewScaledNumber, ()) = _
    rw [map_clearNested viewTimePeriod filterTimePeriod isEmpty_filterTimePeriod viewTimePeriod_clear,
      map_clearNested viewScaledNumber filterScaledNumber isEmpty_filterScaledNumber viewScaledNumber_clear]
    rfl
  retainItem (e : LoadControlLimitDataElements) (a : LoadControlLimitData) := by
    change (_, _, _, (retainNested _ TimePeriod.retain e.timePeriod a.timePeriod).map viewTimePeriod,
      (retainNested _ ScaledNumber.retain e.value a.value).map viewScaledNumber, ()) = _
    rw [map_retainNested viewTimePeriod filterTimePeriod isEmpty_filterTimePeriod viewTimePeriod_retain,
      map_retainNested viewScaledNumber filterScaledNumber isEmpty_filterScaledNumber viewScaledNumber_retain]
    rfl

abbrev setpointFields : Fields :=
  .leaf Nat inferInstance .tag true (.struct .nested scaledNumberFields
    (.leaf Bool inferInstance .tag false (.leaf Bool inferInstance .tag false
      (.struct .nested timePeriodFields .nil))))

def viewSetpoint : SetpointData ≃ setpointFields.Val where
  toFun d := (d.setpointId, d.value.map viewScaledNumber, d.isSetpointChangeable, d.isSetpointActive,
    d.timePeriod.map viewTimePeriod, ())
  invFun v := ⟨v.1, v.2.1.map viewScaledNumber.symm, v.2.2.1, v.2.2.2.1, v.2.2.2.2.1.map viewTimePeriod.symm⟩
  left_inv d := by simp
  right_inv v := by
    change (v.1, (v.2.1.map viewScaledNumber.symm).map viewScaledNumber, v.2.2.1, v.2.2.2.1,
      (v.2.2.2.2.1.map viewTimePeriod.symm).map viewTimePeriod, ()) = v
    rw [map_symm_map, map_symm_map]
    rfl

def Shape.setpointListType : setpointListType.Shape where
  row_ne_plain := by simp [Eebus.Model.setpointListType]
  entries_setEntries _ _ := rfl
  entries_injective := Eebus.Model.setpointListType.entries_injective rfl
  merge _ _ := rfl
  fields := setpointFields
  view := viewSetpoint
  filter (e : SetpointDataElements) := (e.setpointId, e.value.map filterScaledNumber,
    e.isSetpointChangeable, e.isSetpointActive, e.timePeriod.map filterTimePeriod, ())
  hasIdentity (a : SetpointData) := (Bool.and_true _).symm
  identity (a b : SetpointData) _ :=
    ⟨congrArg fun id => (id, none, none, none, none, ()), congrArg Prod.fst⟩
  mergeItem (a b : SetpointData) := by
    change (_, (mergeOption ScaledNumber.merge a.value b.value).map viewScaledNumber, _, _,
      (mergeOption TimePeriod.merge a.timePeriod b.timePeriod).map viewTimePeriod, ()) = _
    rw [map_mergeOption viewScaledNumber viewScaledNumber_merge,
      map_mergeOption viewTimePeriod viewTimePeriod_merge]
    rfl
  restoreIdentity _ _ := rfl
  clearItem (e : SetpointDataElements) (a : SetpointData) := by
    change (_, (clearNested _ ScaledNumber.clear e.value a.value).map viewScaledNumber, _, _,
      (clearNested _ TimePeriod.clear e.timePeriod a.timePeriod).map viewTimePeriod, ()) = _
    rw [map_clearNested viewScaledNumber filterScaledNumber isEmpty_filterScaledNumber viewScaledNumber_clear,
      map_clearNested viewTimePeriod filterTimePeriod isEmpty_filterTimePeriod viewTimePeriod_clear]
    rfl
  retainItem (e : SetpointDataElements) (a : SetpointData) := by
    change (_, (retainNested _ ScaledNumber.retain e.value a.value).map viewScaledNumber, _, _,
      (retainNested _ TimePeriod.retain e.timePeriod a.timePeriod).map viewTimePeriod, ()) = _
    rw [map_retainNested viewScaledNumber filterScaledNumber isEmpty_filterScaledNumber viewScaledNumber_retain,
      map_retainNested viewTimePeriod filterTimePeriod isEmpty_filterTimePeriod viewTimePeriod_retain]
    rfl

abbrev hvacSystemFunctionFields : Fields :=
  .leaf Nat inferInstance .tag true (.leaf Nat inferInstance .tag false (.leaf Bool inferInstance .tag false
    (.leaf Nat inferInstance .tag false (.leaf Bool inferInstance .tag false
      (.leaf Bool inferInstance .tag false .nil)))))

def viewHvacSystemFunction : HvacSystemFunctionData ≃ hvacSystemFunctionFields.Val where
  toFun d := (d.systemFunctionId, d.currentOperationModeId, d.isOperationModeIdChangeable,
    d.currentSetpointId, d.isSetpointIdChangeable, d.isOverrunActive, ())
  invFun v := ⟨v.1, v.2.1, v.2.2.1, v.2.2.2.1, v.2.2.2.2.1, v.2.2.2.2.2.1⟩
  left_inv _ := rfl
  right_inv _ := rfl

def Shape.hvacSystemFunctionListType : hvacSystemFunctionListType.Shape where
  row_ne_plain := by simp [Eebus.Model.hvacSystemFunctionListType]
  entries_setEntries _ _ := rfl
  entries_injective := Eebus.Model.hvacSystemFunctionListType.entries_injective rfl
  merge _ _ := rfl
  fields := hvacSystemFunctionFields
  view := viewHvacSystemFunction
  filter (e : HvacSystemFunctionDataElements) := (e.systemFunctionId, e.currentOperationModeId,
    e.isOperationModeIdChangeable, e.currentSetpointId, e.isSetpointIdChangeable, e.isOverrunActive, ())
  hasIdentity _ := (Bool.and_true _).symm
  identity _ _ _ :=
    ⟨congrArg fun id => (id, none, none, none, none, none, ()), congrArg Prod.fst⟩
  mergeItem _ _ := rfl
  restoreIdentity _ _ := rfl
  clearItem _ _ := rfl
  retainItem _ _ := rfl

end FunctionType

end Eebus.Model
