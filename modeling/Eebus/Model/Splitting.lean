import Eebus.Model.Shape

/-! An elements filter splits a record: clearing takes what retaining keeps, and what the filter's type does not
declare at the top stays in both copies. -/

namespace Eebus.Model

namespace Naming

variable {Sub α T : Type} {isEmpty : Sub → Bool} {naming : Naming}

/-- The filter's type declares what stands in the field: all of it by a tag, and else such `parts` as the type of
the field's own filter declares. -/
def Declares (parts : Prop) : Naming → Prop
  | .never => False
  | .tag => True
  | .nested => parts

theorem Declares.ne_never {parts : Prop} (hdeclared : naming.Declares parts) : naming ≠ .never := fun hnever => by
  rw [hnever] at hdeclared
  exact hdeclared

/-- A field that the filter's type declares goes over as a whole, to one copy or the other, or the filter of its
own cuts it down in both. -/
theorem clear_retain_cases (hdeclared : naming ≠ .never) (clear retain : Sub → α → α)
    (filter : naming.Filter Sub) (element : Option α) :
    naming.namesWhole isEmpty filter = true ∧ naming.clear isEmpty clear filter element = none ∧
        naming.retain isEmpty retain filter element = element ∨
      naming.namesWhole isEmpty filter = false ∧
        (naming.descends isEmpty filter = none ∧ naming.clear isEmpty clear filter element = element ∧
            naming.retain isEmpty retain filter element = none ∨
          ∃ sub, naming = .nested ∧ isEmpty sub = false ∧ naming.descends isEmpty filter = some sub ∧
            naming.clear isEmpty clear filter element = element.map (clear sub) ∧
            naming.retain isEmpty retain filter element = element.map (retain sub)) := by
  cases naming with
  | never => exact absurd rfl hdeclared
  | tag =>
    change Bool at filter
    cases filter with
    | false => exact .inr ⟨rfl, .inl ⟨rfl, rfl, rfl⟩⟩
    | true => exact .inl ⟨rfl, rfl, rfl⟩
  | nested =>
    change Option Sub at filter
    cases filter with
    | none => exact .inr ⟨rfl, .inl ⟨rfl, rfl, rfl⟩⟩
    | some sub =>
      cases hempty : isEmpty sub with
      | true =>
        refine .inl ⟨hempty, ?_, ?_⟩
        · simp [Naming.clear, clearNested, hempty]
        · simp [Naming.retain, retainNested, hempty]
      | false =>
        refine .inr ⟨hempty, .inr ⟨sub, rfl, hempty, ?_, ?_, ?_⟩⟩
        · simp [descends, Option.filter, hempty]
        · simp [Naming.clear, clearNested, hempty]
        · simp [Naming.retain, retainNested, hempty]

/-- One of two copies has the element as it was, and the other has lost it: retaining keeps what the filter names,
and clearing keeps the rest. -/
def SharesOut (named : Prop) (element cleared retained : Option T) : Prop :=
  named ∧ cleared = none ∧ retained = element ∨ ¬ named ∧ cleared = element ∧ retained = none

theorem sharesOut_none (named : Prop) : SharesOut named (none : Option T) none none :=
  (em named).imp (fun hnamed => ⟨hnamed, rfl, rfl⟩) fun hnamed => ⟨hnamed, rfl, rfl⟩

theorem sharesOut_whole {whole : Prop} (hdeclared : naming.Declares whole)
    (hwhole : whole → ∀ sub, isEmpty sub = true) (clear retain : Sub → α → α)
    (filter : naming.Filter Sub) (element : Option α) :
    SharesOut (naming.namesWhole isEmpty filter = true) element
      (naming.clear isEmpty clear filter element) (naming.retain isEmpty retain filter element) := by
  obtain ⟨hnamed, hgone, hkept⟩ | ⟨hnamed, ⟨-, hkept, hgone⟩ | ⟨sub, hnested, hsub, -⟩⟩ :=
    @clear_retain_cases _ _ isEmpty naming hdeclared.ne_never clear retain filter element
  · exact .inl ⟨hnamed, hgone, hkept⟩
  · exact .inr ⟨by simp [hnamed], hkept, hgone⟩
  · rw [hnested] at hdeclared
    exact absurd ((hwhole hdeclared sub).symm.trans hsub) (by simp)

theorem sharesOut_part {parts : Prop} (hdeclared : naming.Declares parts) {clear retain : Sub → α → α}
    {part : α → Option T} {names : Sub → Prop}
    (hpart : parts → ∀ sub a, SharesOut (names sub) (part a) (part (clear sub a)) (part (retain sub a)))
    (filter : naming.Filter Sub) (element : Option α) : SharesOut
      (naming.namesWhole isEmpty filter = true ∨ ∃ sub, naming.descends isEmpty filter = some sub ∧ names sub)
      (element.bind part) ((naming.clear isEmpty clear filter element).bind part)
      ((naming.retain isEmpty retain filter element).bind part) := by
  obtain ⟨hnamed, hgone, hkept⟩ | ⟨hnamed, ⟨hsub, hkept, hgone⟩ | ⟨sub, hnested, -, hsub, hcleared, hretained⟩⟩ :=
    @clear_retain_cases _ _ isEmpty naming hdeclared.ne_never clear retain filter element
  · rw [hgone, hkept]
    exact .inl ⟨.inl hnamed, rfl, rfl⟩
  · rw [hkept, hgone]
    exact .inr ⟨by simp [hnamed, hsub], rfl, rfl⟩
  · rw [hnested] at hdeclared
    rw [hcleared, hretained]
    simp only [hnamed, hsub, Bool.false_eq_true, false_or, Option.some.injEq, exists_eq_left']
    cases element with
    | none => exact sharesOut_none (names sub)
    | some a => exact hpart hdeclared sub a

end Naming

namespace Fields

open Naming (SharesOut)

namespace Place

/-- The filter's type declares the element: by a tag for it or for a record around it, or through the filters
nested in it, down to a leaf. -/
def IsDeclared : {fields : Fields} → {T : Type} → Place fields T → Prop
  | .leaf _ _ naming _ _, _, leaf => naming.Declares True
  | .struct naming _ _, _, struct => naming.Declares False
  | .each naming _ _, _, each => naming.Declares False
  | .struct naming _ _, _, inside place => naming.Declares place.IsDeclared
  | .each naming _ _, _, item _ place => naming.Declares place.IsDeclared
  | _, _, afterLeaf place => place.IsDeclared
  | _, _, afterStruct place => place.IsDeclared
  | _, _, afterEach place => place.IsDeclared

/-- The filter's type does not declare the top-level element that this one is or stands in. -/
def IsUndeclaredAtTop : {fields : Fields} → {T : Type} → Place fields T → Prop
  | .leaf _ _ naming _ _, _, leaf => naming = .never
  | .struct naming _ _, _, struct => naming = .never
  | .each naming _ _, _, each => naming = .never
  | .struct naming _ _, _, inside _ => naming = .never
  | .each naming _ _, _, item _ _ => naming = .never
  | _, _, afterLeaf place => place.IsUndeclaredAtTop
  | _, _, afterStruct place => place.IsUndeclaredAtTop
  | _, _, afterEach place => place.IsUndeclaredAtTop

end Place

variable {fields : Fields} {T : Type}

theorem get_sharesOut {place : Place fields T} (hdeclared : place.IsDeclared) (filter : fields.Filter)
    (value : fields.Val) : SharesOut (place.Names filter) (place.get value)
      (place.get (fields.clear filter value)) (place.get (fields.retain filter value)) := by
  induction place with
  | @leaf _ _ naming _ _ =>
    exact Naming.sharesOut_whole hdeclared (fun _ _ => rfl) (fun _ leaf => leaf) (fun _ leaf => leaf)
      filter.1 value.1
  | @struct naming inner _ =>
    exact Naming.sharesOut_whole hdeclared False.elim inner.clear inner.retain filter.1 value.1
  | @each naming inner _ =>
    exact Naming.sharesOut_whole hdeclared False.elim (fun sub (items : List inner.Val) => items.map (inner.clear sub))
      (fun sub items => items.map (inner.retain sub)) filter.1 value.1
  | @inside _ naming inner _ place ih => exact Naming.sharesOut_part hdeclared ih filter.1 value.1
  | @item _ naming inner _ index place ih =>
    refine Naming.sharesOut_part hdeclared (fun hparts sub items => ?_) filter.1 value.1
    rw [List.getElem?_map, List.getElem?_map]
    cases items[index]? with
    | none => exact Naming.sharesOut_none (place.Names sub)
    | some a => exact ih hparts sub a
  | afterLeaf place ih => exact ih hdeclared filter.2 value.2
  | afterStruct place ih => exact ih hdeclared filter.2 value.2
  | afterEach place ih => exact ih hdeclared filter.2 value.2

theorem get_undeclaredAtTop {place : Place fields T} (hundeclared : place.IsUndeclaredAtTop)
    (filter : fields.Filter) (value : fields.Val) :
    place.get (fields.clear filter value) = place.get value ∧
      place.get (fields.retain filter value) = place.get value := by
  induction place with
  | leaf | struct | each | inside _ | item _ _ =>
    cases hundeclared
    exact ⟨rfl, rfl⟩
  | afterLeaf place ih => exact ih hundeclared filter.2 value.2
  | afterStruct place ih => exact ih hundeclared filter.2 value.2
  | afterEach place ih => exact ih hundeclared filter.2 value.2

/-- Two copies of a record, of which one or the other has what the type of an elements filter declares, and both
have the rest of the top-level elements. -/
structure Splits (filter : fields.Filter) (value cleared retained : fields.Val) : Prop where
  /-- Which copy has a leaf is for the filter to say: it names the leaf where it names a record around it. -/
  declared : ∀ (T : Type) (place : Place fields T) (element : T), place.IsDeclared →
    place.get value = some element →
      place.Names filter ∧ place.get cleared = none ∧ place.get retained = some element ∨
        ¬ place.Names filter ∧ place.get cleared = some element ∧ place.get retained = none
  undeclared : ∀ (T : Type) (place : Place fields T), place.IsUndeclaredAtTop →
    place.get cleared = place.get value ∧ place.get retained = place.get value

theorem elements_filter_splits (fields : Fields) (filter : fields.Filter) (value : fields.Val) :
    Splits filter value (fields.clear filter value) (fields.retain filter value) where
  declared _ place element hdeclared hheld := by
    have hshared := get_sharesOut hdeclared filter value
    rwa [hheld] at hshared
  undeclared _ _ hundeclared := get_undeclaredAtTop hundeclared filter value

section EndTime

open FunctionType (loadControlLimitFields)

abbrev timedLimit : loadControlLimitFields.Val :=
  (some 1, none, some true, some (some "PT0S", some "PT2H", ()), some (some 4200, none, ()), ())

abbrev endTimeOnly : loadControlLimitFields.Filter := (false, false, false, some (false, true, ()), none, ())

example : loadControlLimitFields.clear endTimeOnly timedLimit =
    (some 1, none, some true, some (some "PT0S", none, ()), some (some 4200, none, ()), ()) := rfl

example : loadControlLimitFields.retain endTimeOnly timedLimit =
    (none, none, none, some (none, some "PT2H", ()), none, ()) := rfl

end EndTime

end Fields

end Eebus.Model
