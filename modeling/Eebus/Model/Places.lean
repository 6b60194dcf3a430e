import Eebus.Model.Records

/-! The elements of a record, at any depth: what a merge leaves of each, what an elements filter takes from
it, and what it keeps of it. -/

namespace Eebus.Model

namespace Fields

inductive Place : Fields → Type → Type 1
  | leaf {T : Type} {decEq : DecidableEq T} {naming : Naming} {identifies : Bool} {rest : Fields} :
    Place (.leaf T decEq naming identifies rest) T
  | struct {naming : Naming} {inner rest : Fields} : Place (.struct naming inner rest) inner.Val
  | each {naming : Naming} {inner rest : Fields} : Place (.each naming inner rest) (List inner.Val)
  | inside {T : Type} {naming : Naming} {inner rest : Fields} (place : Place inner T) :
    Place (.struct naming inner rest) T
  | item {T : Type} {naming : Naming} {inner rest : Fields} (index : Nat) (place : Place inner T) :
    Place (.each naming inner rest) T
  | afterLeaf {T U : Type} {decEq : DecidableEq U} {naming : Naming} {identifies : Bool} {rest : Fields}
    (place : Place rest T) : Place (.leaf U decEq naming identifies rest) T
  | afterStruct {T : Type} {naming : Naming} {inner rest : Fields} (place : Place rest T) :
    Place (.struct naming inner rest) T
  | afterEach {T : Type} {naming : Naming} {inner rest : Fields} (place : Place rest T) :
    Place (.each naming inner rest) T

namespace Place

def get : {fields : Fields} → {T : Type} → Place fields T → fields.Val → Option T
  | _, _, leaf, value => value.1
  | _, _, struct, value => value.1
  | _, _, each, value => value.1
  | _, _, inside place, value => Option.bind value.1 place.get
  | _, _, item index place, value => Option.bind value.1 fun items => Option.bind items[index]? place.get
  | _, _, afterLeaf place, value => place.get value.2
  | _, _, afterStruct place, value => place.get value.2
  | _, _, afterEach place, value => place.get value.2

/-- No repeated record stands around the element. -/
def InStructs : {fields : Fields} → {T : Type} → Place fields T → Prop
  | _, _, leaf => True
  | _, _, struct => True
  | _, _, each => True
  | _, _, inside place => place.InStructs
  | _, _, item _ _ => False
  | _, _, afterLeaf place => place.InStructs
  | _, _, afterStruct place => place.InStructs
  | _, _, afterEach place => place.InStructs

def IsLeaf : {fields : Fields} → {T : Type} → Place fields T → Prop
  | _, _, leaf => True
  | _, _, struct => False
  | _, _, each => False
  | _, _, inside place => place.IsLeaf
  | _, _, item _ place => place.IsLeaf
  | _, _, afterLeaf place => place.IsLeaf
  | _, _, afterStruct place => place.IsLeaf
  | _, _, afterEach place => place.IsLeaf

def Identifies : {fields : Fields} → {T : Type} → Place fields T → Prop
  | .leaf _ _ _ identifies _, _, leaf => identifies = true
  | _, _, struct => False
  | _, _, each => False
  | _, _, inside _ => False
  | _, _, item _ _ => False
  | _, _, afterLeaf place => place.Identifies
  | _, _, afterStruct place => place.Identifies
  | _, _, afterEach place => place.Identifies

def Names : {fields : Fields} → {T : Type} → Place fields T → fields.Filter → Prop
  | .leaf _ _ naming _ _, _, leaf, filter => naming.namesWhole wholeOnly filter.1 = true
  | .struct naming inner _, _, struct, filter => naming.namesWhole inner.isEmpty filter.1 = true
  | .each naming inner _, _, each, filter => naming.namesWhole inner.isEmpty filter.1 = true
  | .struct naming inner _, _, inside place, filter =>
    naming.namesWhole inner.isEmpty filter.1 = true ∨
      ∃ sub, naming.descends inner.isEmpty filter.1 = some sub ∧ place.Names sub
  | .each naming inner _, _, item _ place, filter =>
    naming.namesWhole inner.isEmpty filter.1 = true ∨
      ∃ sub, naming.descends inner.isEmpty filter.1 = some sub ∧ place.Names sub
  | _, _, afterLeaf place, filter => place.Names filter.2
  | _, _, afterStruct place, filter => place.Names filter.2
  | _, _, afterEach place, filter => place.Names filter.2

end Place

variable {fields : Fields} {T : Type}

theorem get_merge {place : Place fields T} (hstructs : place.InStructs) {stored update : fields.Val}
    (h : place.get update = none) : place.get (fields.merge stored update) = place.get stored := by
  induction place with
  | leaf =>
    change mergeLeaf stored.1 update.1 = stored.1
    rw [show update.1 = none from h, mergeLeaf_absent]
  | @struct _ inner _ =>
    change mergeOption inner.merge stored.1 update.1 = stored.1
    rw [show update.1 = none from h, mergeOption_absent]
  | each =>
    change mergeLeaf stored.1 update.1 = stored.1
    rw [show update.1 = none from h, mergeLeaf_absent]
  | @inside _ _ inner _ place ih =>
    change Option.bind (mergeOption inner.merge stored.1 update.1) place.get = Option.bind stored.1 place.get
    have h : Option.bind update.1 place.get = none := h
    cases hupdate : update.1 with
    | none => rw [mergeOption_absent]
    | some u =>
      have hu : place.get u = none := by rw [hupdate] at h; exact h
      cases hstored : stored.1 with
      | none => exact hu
      | some s => exact ih hstructs hu
  | item _ _ => exact hstructs.elim
  | afterLeaf place ih => exact ih hstructs h
  | afterStruct place ih => exact ih hstructs h
  | afterEach place ih => exact ih hstructs h

end Fields

namespace Naming

variable {Sub α : Type} (isEmpty : Sub → Bool) (naming : Naming) (filter : naming.Filter Sub)

theorem clear_cases (clear : Sub → α → α) (element : Option α) :
    naming.namesWhole isEmpty filter = true ∧ naming.clear isEmpty clear filter element = none ∨
      naming.namesWhole isEmpty filter = false ∧
        (naming.descends isEmpty filter = none ∧ naming.clear isEmpty clear filter element = element ∨
          ∃ sub, naming.descends isEmpty filter = some sub ∧
            naming.clear isEmpty clear filter element = element.map (clear sub)) := by
  cases naming with
  | never => exact .inr ⟨rfl, .inl ⟨rfl, rfl⟩⟩
  | tag =>
    change Bool at filter
    cases filter with
    | false => exact .inr ⟨rfl, .inl ⟨rfl, rfl⟩⟩
    | true => exact .inl ⟨rfl, rfl⟩
  | nested =>
    change Option Sub at filter
    cases filter with
    | none => exact .inr ⟨rfl, .inl ⟨rfl, rfl⟩⟩
    | some sub =>
      cases hempty : isEmpty sub with
      | true => exact .inl ⟨hempty, by simp [Naming.clear, clearNested, hempty]⟩
      | false =>
        refine .inr ⟨hempty, .inr ⟨sub, ?_, by simp [Naming.clear, clearNested, hempty]⟩⟩
        simp [descends, Option.filter, hempty]

theorem clear_part {T : Type} {isEmpty : Sub → Bool} {clear : Sub → α → α} {part : α → Option T}
    {names : Sub → Prop} {isLeaf : Prop}
    (hpart : ∀ sub a, (names sub → part (clear sub a) = none) ∧
      (¬ names sub → ∃ cut : T → T, (isLeaf → cut = id) ∧ part (clear sub a) = (part a).map cut))
    (element : Option α) :
    ((naming.namesWhole isEmpty filter = true ∨ ∃ sub, naming.descends isEmpty filter = some sub ∧ names sub) →
      (naming.clear isEmpty clear filter element).bind part = none) ∧
    (¬ (naming.namesWhole isEmpty filter = true ∨
        ∃ sub, naming.descends isEmpty filter = some sub ∧ names sub) →
      ∃ cut : T → T, (isLeaf → cut = id) ∧
        (naming.clear isEmpty clear filter element).bind part = (element.bind part).map cut) := by
  obtain ⟨hnamed, hgone⟩ | ⟨hnamed, ⟨hsub, hsame⟩ | ⟨sub, hsub, hcut⟩⟩ :=
    naming.clear_cases isEmpty filter clear element
  · rw [hgone]
    exact ⟨fun _ => rfl, fun h => absurd (.inl hnamed) h⟩
  · rw [hsame]
    exact ⟨by simp [hnamed, hsub], fun _ => ⟨id, fun _ => rfl, Option.map_id_fun ▸ rfl⟩⟩
  · rw [hcut]
    simp only [hnamed, hsub, Bool.false_eq_true, false_or, Option.some.injEq, exists_eq_left']
    cases element with
    | none => exact ⟨fun _ => rfl, fun _ => ⟨id, fun _ => rfl, rfl⟩⟩
    | some a => exact hpart sub a

end Naming

namespace Fields

variable {fields : Fields} {T : Type}

/-- What the filter names is gone, and what it does not name is there as before: a leaf with its value, a record
with whatever the filter leaves of it. -/
theorem get_clear (place : Place fields T) (filter : fields.Filter) (value : fields.Val) :
    (place.Names filter → place.get (fields.clear filter value) = none) ∧
      (¬ place.Names filter →
        ∃ cut : T → T, (place.IsLeaf → cut = id) ∧
          place.get (fields.clear filter value) = (place.get value).map cut) := by
  induction place with
  | @leaf _ _ naming _ _ =>
    obtain ⟨hnamed, hgone⟩ | ⟨hnamed, hsame⟩ :=
      naming.clear_cases wholeOnly filter.1 (fun _ leaf => leaf) value.1
    · exact ⟨fun _ => hgone, fun h => absurd hnamed h⟩
    · refine ⟨fun h => absurd (hnamed.symm.trans h) (by simp), fun _ => ⟨id, fun _ => rfl, ?_⟩⟩
      obtain ⟨-, hsame⟩ | ⟨_, -, hsame⟩ := hsame
      · exact hsame.trans (Option.map_id_fun ▸ rfl)
      · exact hsame
  | @struct naming inner _ =>
    obtain ⟨hnamed, hgone⟩ | ⟨hnamed, hcut⟩ := naming.clear_cases inner.isEmpty filter.1 inner.clear value.1
    · exact ⟨fun _ => hgone, fun h => absurd hnamed h⟩
    · refine ⟨fun h => absurd (hnamed.symm.trans h) (by simp), fun _ => ?_⟩
      obtain ⟨-, hsame⟩ | ⟨sub, -, hcut⟩ := hcut
      · exact ⟨id, False.elim, hsame.trans (Option.map_id_fun ▸ rfl)⟩
      · exact ⟨inner.clear sub, False.elim, hcut⟩
  | @each naming inner _ =>
    obtain ⟨hnamed, hgone⟩ | ⟨hnamed, hcut⟩ := naming.clear_cases inner.isEmpty filter.1
      (fun sub (items : List inner.Val) => items.map (inner.clear sub)) value.1
    · exact ⟨fun _ => hgone, fun h => absurd hnamed h⟩
    · refine ⟨fun h => absurd (hnamed.symm.trans h) (by simp), fun _ => ?_⟩
      obtain ⟨-, hsame⟩ | ⟨sub, -, hcut⟩ := hcut
      · exact ⟨id, False.elim, hsame.trans (Option.map_id_fun ▸ rfl)⟩
      · exact ⟨List.map (inner.clear sub), False.elim, hcut⟩
  | @inside _ naming inner _ place ih => exact naming.clear_part filter.1 ih value.1
  | @item _ naming inner _ index place ih =>
    refine naming.clear_part filter.1 (fun sub items => ?_) value.1
    rw [List.getElem?_map]
    cases items[index]? with
    | none => exact ⟨fun _ => rfl, fun _ => ⟨id, fun _ => rfl, rfl⟩⟩
    | some a => exact ih sub a
  | afterLeaf place ih => exact ih filter.2 value.2
  | afterStruct place ih => exact ih filter.2 value.2
  | afterEach place ih => exact ih filter.2 value.2

theorem get_restoreIdentity (place : Place fields T) (value source : fields.Val) :
    (place.Identifies → place.get (fields.restoreIdentity value source) = place.get source) ∧
      (¬ place.Identifies → place.get (fields.restoreIdentity value source) = place.get value) := by
  induction place with
  | @leaf _ _ _ identifies _ =>
    cases identifies with
    | false => exact ⟨fun h => absurd h (by simp [Place.Identifies]), fun _ => rfl⟩
    | true => exact ⟨fun _ => rfl, fun h => absurd rfl h⟩
  | struct | each => exact ⟨False.elim, fun _ => rfl⟩
  | inside _ | item _ _ => exact ⟨False.elim, fun _ => rfl⟩
  | afterLeaf place ih => exact ih value.2 source.2
  | afterStruct place ih => exact ih value.2 source.2
  | afterEach place ih => exact ih value.2 source.2

end Fields

end Eebus.Model
