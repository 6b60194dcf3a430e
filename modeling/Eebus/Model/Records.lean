import Eebus.Model.LoadControl

/-!
What the schema macros generate for a record type: how its values are merged, and how an elements filter
cuts them down (`eebus_struct!`, `eebus_elements!`, `eebus_identity!`), over every record type the macros
can be given.
-/

namespace Eebus.Model

/-- How an elements filter addresses a field: not at all, by a tag, or by a filter of its own. -/
inductive Naming
  | never
  | tag
  | nested
deriving DecidableEq

/-- The fields of a record, each an optional element: one without parts, a record, or a repeated record. -/
inductive Fields : Type 1
  | nil
  | leaf (T : Type) (decEq : DecidableEq T) (naming : Naming) (identifies : Bool) (rest : Fields)
  | struct (naming : Naming) (inner rest : Fields)
  | each (naming : Naming) (inner rest : Fields)

namespace Naming

def Filter (naming : Naming) (Sub : Type) : Type :=
  match naming with
  | .never => Unit
  | .tag => Bool
  | .nested => Option Sub

variable {Sub α : Type}

def isUnset : (naming : Naming) → naming.Filter Sub → Bool
  | .never, _ => true
  | .tag, named => !named
  | .nested, sub => Option.isNone (α := Sub) sub

/-- Whether the filter names the field as a whole: by a tag, or by a filter that names no part of it. -/
def namesWhole (isEmpty : Sub → Bool) : (naming : Naming) → naming.Filter Sub → Bool
  | .never, _ => false
  | .tag, named => named
  | .nested, sub => Option.any (α := Sub) isEmpty sub

def descends (isEmpty : Sub → Bool) : (naming : Naming) → naming.Filter Sub → Option Sub
  | .never, _ => none
  | .tag, _ => none
  | .nested, sub => Option.filter (α := Sub) (fun sub => !isEmpty sub) sub

def clear (isEmpty : Sub → Bool) (clear : Sub → α → α) :
    (naming : Naming) → naming.Filter Sub → Option α → Option α
  | .never, _, element => element
  | .tag, named, element => clearTag named element
  | .nested, sub, element => clearNested isEmpty clear sub element

def retain (isEmpty : Sub → Bool) (retain : Sub → α → α) :
    (naming : Naming) → naming.Filter Sub → Option α → Option α
  | .never, _, element => element
  | .tag, named, element => retainTag named element
  | .nested, sub, element => retainNested isEmpty retain sub element

end Naming

namespace Fields

def Val : Fields → Type
  | nil => Unit
  | leaf T _ _ _ rest => Option T × rest.Val
  | struct _ inner rest => Option inner.Val × rest.Val
  | each _ inner rest => Option (List inner.Val) × rest.Val

def decEqVal : (fields : Fields) → DecidableEq fields.Val
  | nil => inferInstanceAs (DecidableEq Unit)
  | leaf T _ _ _ rest =>
    have := rest.decEqVal
    inferInstanceAs (DecidableEq (Option T × rest.Val))
  | struct _ inner rest =>
    have := inner.decEqVal
    have := rest.decEqVal
    inferInstanceAs (DecidableEq (Option inner.Val × rest.Val))
  | each _ inner rest =>
    have := inner.decEqVal
    have := rest.decEqVal
    inferInstanceAs (DecidableEq (Option (List inner.Val) × rest.Val))

instance (fields : Fields) : DecidableEq fields.Val := fields.decEqVal

def empty : (fields : Fields) → fields.Val
  | nil => ()
  | leaf _ _ _ _ rest => (none, rest.empty)
  | struct _ _ rest => (none, rest.empty)
  | each _ _ rest => (none, rest.empty)

/-- A record merges field by field, and into a record it holds; a repeated one is replaced as a unit. -/
def merge : (fields : Fields) → fields.Val → fields.Val → fields.Val
  | nil => fun _ _ => ()
  | leaf _ _ _ _ rest => fun stored update => (mergeLeaf stored.1 update.1, rest.merge stored.2 update.2)
  | struct _ inner rest => fun stored update =>
    (mergeOption inner.merge stored.1 update.1, rest.merge stored.2 update.2)
  | each _ _ rest => fun stored update => (mergeLeaf stored.1 update.1, rest.merge stored.2 update.2)

def Filter : Fields → Type
  | nil => Unit
  | leaf _ _ naming _ rest => naming.Filter Unit × rest.Filter
  | struct naming inner rest => naming.Filter inner.Filter × rest.Filter
  | each naming inner rest => naming.Filter inner.Filter × rest.Filter

def isEmpty : (fields : Fields) → fields.Filter → Bool
  | nil => fun _ => true
  | leaf _ _ naming _ rest => fun filter => naming.isUnset filter.1 && rest.isEmpty filter.2
  | struct naming _ rest => fun filter => naming.isUnset filter.1 && rest.isEmpty filter.2
  | each naming _ rest => fun filter => naming.isUnset filter.1 && rest.isEmpty filter.2

abbrev wholeOnly : Unit → Bool := fun _ => true

def clear : (fields : Fields) → fields.Filter → fields.Val → fields.Val
  | nil => fun _ _ => ()
  | leaf _ _ naming _ rest => fun filter value =>
    (naming.clear wholeOnly (fun _ leaf => leaf) filter.1 value.1, rest.clear filter.2 value.2)
  | struct naming inner rest => fun filter value =>
    (naming.clear inner.isEmpty inner.clear filter.1 value.1, rest.clear filter.2 value.2)
  | each naming inner rest => fun filter value =>
    (naming.clear inner.isEmpty (fun sub items => items.map (inner.clear sub)) filter.1 value.1,
      rest.clear filter.2 value.2)

def retain : (fields : Fields) → fields.Filter → fields.Val → fields.Val
  | nil => fun _ _ => ()
  | leaf _ _ naming _ rest => fun filter value =>
    (naming.retain wholeOnly (fun _ leaf => leaf) filter.1 value.1, rest.retain filter.2 value.2)
  | struct naming inner rest => fun filter value =>
    (naming.retain inner.isEmpty inner.retain filter.1 value.1, rest.retain filter.2 value.2)
  | each naming inner rest => fun filter value =>
    (naming.retain inner.isEmpty (fun sub items => items.map (inner.retain sub)) filter.1 value.1,
      rest.retain filter.2 value.2)

def isIdentified : Fields → Bool
  | nil => false
  | leaf _ _ _ identifies rest => identifies || rest.isIdentified
  | struct _ _ rest => rest.isIdentified
  | each _ _ rest => rest.isIdentified

def identifiersPresent : (fields : Fields) → fields.Val → Bool
  | nil => fun _ => true
  | leaf _ _ _ identifies rest => fun value =>
    (!identifies || value.1.isSome) && rest.identifiersPresent value.2
  | struct _ _ rest => fun value => rest.identifiersPresent value.2
  | each _ _ rest => fun value => rest.identifiersPresent value.2

def hasIdentity (fields : Fields) (value : fields.Val) : Bool :=
  fields.isIdentified && fields.identifiersPresent value

def key : (fields : Fields) → fields.Val → fields.Val
  | nil => fun _ => ()
  | leaf _ _ _ identifies rest => fun value => (if identifies then value.1 else none, rest.key value.2)
  | struct _ _ rest => fun value => (none, rest.key value.2)
  | each _ _ rest => fun value => (none, rest.key value.2)

def restoreIdentity : (fields : Fields) → fields.Val → fields.Val → fields.Val
  | nil => fun _ _ => ()
  | leaf _ _ _ identifies rest => fun value source =>
    (if identifies then source.1 else value.1, rest.restoreIdentity value.2 source.2)
  | struct _ _ rest => fun value source => (value.1, rest.restoreIdentity value.2 source.2)
  | each _ _ rest => fun value source => (value.1, rest.restoreIdentity value.2 source.2)

def size : (fields : Fields) → fields.Val → Nat
  | nil => fun _ => 0
  | leaf _ _ _ _ rest => fun value => leafSize value.1 + rest.size value.2
  | struct _ inner rest => fun value => elementSize inner.size value.1 + rest.size value.2
  | each _ inner rest => fun value =>
    elementSize (fun items => (items.map fun item => inner.size item + 1).sum) value.1 + rest.size value.2

variable {fields : Fields}

section Elements

variable {α : Type}

theorem mergeOption_self {merge : α → α → α} (h : ∀ a, merge a a = a) (element : Option α) :
    mergeOption merge element element = element := by
  cases element with
  | none => rfl
  | some a => exact congrArg some (h a)

theorem mergeOption_assoc {merge : α → α → α} (h : ∀ a b c, merge (merge a b) c = merge a (merge b c))
    (a b c : Option α) :
    mergeOption merge (mergeOption merge a b) c = mergeOption merge a (mergeOption merge b c) := by
  cases c with
  | none => simp only [mergeOption_absent]
  | some c =>
    cases b with
    | none => simp only [mergeOption_absent, mergeOption_none]
    | some b =>
      cases a with
      | none => simp only [mergeOption_none]
      | some a => exact congrArg some (h a b c)

theorem mergeLeaf_self (element : Option α) : mergeLeaf element element = element :=
  mergeOption_self (fun _ => rfl) element

theorem mergeLeaf_assoc (a b c : Option α) :
    mergeLeaf (mergeLeaf a b) c = mergeLeaf a (mergeLeaf b c) :=
  mergeOption_assoc (fun _ _ _ => rfl) a b c

end Elements

theorem merge_self (fields : Fields) (value : fields.Val) : fields.merge value value = value := by
  induction fields with
  | nil => rfl
  | leaf _ _ _ _ rest ih => exact Prod.ext (mergeLeaf_self _) (ih _)
  | struct _ inner rest inner_ih ih => exact Prod.ext (mergeOption_self inner_ih _) (ih _)
  | each _ inner rest _ ih => exact Prod.ext (mergeLeaf_self _) (ih _)

theorem merge_assoc (fields : Fields) (a b c : fields.Val) :
    fields.merge (fields.merge a b) c = fields.merge a (fields.merge b c) := by
  induction fields with
  | nil => rfl
  | leaf _ _ _ _ rest ih => exact Prod.ext (mergeLeaf_assoc _ _ _) (ih _ _ _)
  | struct _ inner rest inner_ih ih => exact Prod.ext (mergeOption_assoc inner_ih _ _ _) (ih _ _ _)
  | each _ inner rest _ ih => exact Prod.ext (mergeLeaf_assoc _ _ _) (ih _ _ _)

theorem key_merge (fields : Fields) {stored update : fields.Val} (h : fields.key stored = fields.key update) :
    fields.key (fields.merge stored update) = fields.key stored := by
  induction fields with
  | nil => rfl
  | leaf _ _ _ identifies rest ih =>
    obtain ⟨hfirst, hrest⟩ := Prod.mk.inj h
    refine Prod.ext ?_ (ih hrest)
    cases identifies with
    | false => rfl
    | true =>
      have hfirst : stored.1 = update.1 := hfirst
      change mergeLeaf stored.1 update.1 = stored.1
      rw [← hfirst, mergeLeaf_self]
  | struct _ inner rest _ ih => exact Prod.ext rfl (ih (Prod.mk.inj h).2)
  | each _ inner rest _ ih => exact Prod.ext rfl (ih (Prod.mk.inj h).2)

theorem identifiersPresent_congr (fields : Fields) {a b : fields.Val} (h : fields.key a = fields.key b) :
    fields.identifiersPresent a = fields.identifiersPresent b := by
  induction fields with
  | nil => rfl
  | leaf _ _ _ identifies rest ih =>
    obtain ⟨hfirst, hrest⟩ := Prod.mk.inj h
    have hsame : (!identifies || a.1.isSome) = (!identifies || b.1.isSome) := by
      cases identifies with
      | false => rfl
      | true => exact congrArg Option.isSome hfirst
    exact congrArg₂ (· && ·) hsame (ih hrest)
  | struct _ inner rest _ ih => exact ih (Prod.mk.inj h).2
  | each _ inner rest _ ih => exact ih (Prod.mk.inj h).2

theorem hasIdentity_congr (fields : Fields) {a b : fields.Val} (h : fields.key a = fields.key b) :
    fields.hasIdentity a = fields.hasIdentity b :=
  congrArg (fields.isIdentified && ·) (fields.identifiersPresent_congr h)

theorem key_restoreIdentity (fields : Fields) (value source : fields.Val) :
    fields.key (fields.restoreIdentity value source) = fields.key source := by
  induction fields with
  | nil => rfl
  | leaf _ _ _ identifies rest ih =>
    refine Prod.ext ?_ (ih _ _)
    cases identifies <;> rfl
  | struct _ inner rest _ ih => exact Prod.ext rfl (ih _ _)
  | each _ inner rest _ ih => exact Prod.ext rfl (ih _ _)

theorem clear_field_shrinks {Sub α : Type} {isEmpty : Sub → Bool} {clear : Sub → α → α} {size : α → Nat}
    (h : ∀ sub a, clear sub a = a ∨ size (clear sub a) < size a) (naming : Naming)
    (filter : naming.Filter Sub) (element : Option α) :
    naming.clear isEmpty clear filter element = element ∨
      elementSize size (naming.clear isEmpty clear filter element) < elementSize size element := by
  cases naming with
  | never => exact .inl rfl
  | tag =>
    change clearTag filter element = element ∨ elementSize size (clearTag filter element) < elementSize size element
    cases filter with
    | false => exact .inl rfl
    | true =>
      cases element with
      | none => exact .inl rfl
      | some a => exact .inr (by simp [clearTag, elementSize])
  | nested => exact clearNested_shrinks isEmpty h filter element

theorem map_shrinks {α : Type} {g : α → α} {size : α → Nat} (h : ∀ a, g a = a ∨ size (g a) < size a)
    (items : List α) : items.map g = items ∨
      ((items.map g).map fun item => size item + 1).sum < (items.map fun item => size item + 1).sum := by
  induction items with
  | nil => exact .inl rfl
  | cons first rest ih =>
    simp only [List.map_cons, List.sum_cons, List.cons.injEq]
    obtain hfirst | hfirst := h first <;> obtain hrest | hrest := ih
    · exact .inl ⟨hfirst, hrest⟩
    · rw [hfirst]
      exact .inr (by omega)
    · rw [hrest]
      exact .inr (by omega)
    · exact .inr (by omega)

theorem prod_shrinks {α β : Type} {a a' : α} {b b' : β} {m m' n n' : Nat} (hfirst : a' = a ∨ m' < m)
    (hrest : b' = b ∨ n' < n) (hsame : a' = a → m' = m) (hsame' : b' = b → n' = n) :
    (a', b') = (a, b) ∨ m' + n' < m + n := by
  by_cases ha : a' = a <;> by_cases hb : b' = b
  · exact .inl (by rw [ha, hb])
  · have hlt := hrest.resolve_left hb
    have heq := hsame ha
    exact .inr (by omega)
  · have hlt := hfirst.resolve_left ha
    have heq := hsame' hb
    exact .inr (by omega)
  · have hlt := hfirst.resolve_left ha
    have hlt' := hrest.resolve_left hb
    exact .inr (by omega)

theorem clear_shrinks (fields : Fields) (filter : fields.Filter) (value : fields.Val) :
    fields.clear filter value = value ∨ fields.size (fields.clear filter value) < fields.size value := by
  induction fields with
  | nil => exact .inl rfl
  | leaf _ _ naming _ rest ih =>
    exact prod_shrinks (clear_field_shrinks (fun _ _ => .inl rfl) naming filter.1 value.1) (ih _ _)
      (congrArg leafSize) (congrArg rest.size)
  | struct naming inner rest inner_ih ih =>
    exact prod_shrinks (clear_field_shrinks inner_ih naming filter.1 value.1) (ih _ _)
      (congrArg (elementSize inner.size)) (congrArg rest.size)
  | each naming inner rest inner_ih ih =>
    exact prod_shrinks
      (clear_field_shrinks (fun sub => map_shrinks (inner_ih sub)) naming filter.1 value.1) (ih _ _)
      (congrArg (elementSize fun items : List inner.Val => (items.map fun item => inner.size item + 1).sum))
      (congrArg rest.size)

theorem clear_restored_shrinks (fields : Fields) (filter : fields.Filter) (value : fields.Val) :
    fields.restoreIdentity (fields.clear filter value) value = value ∨
      fields.size (fields.restoreIdentity (fields.clear filter value) value) < fields.size value := by
  induction fields with
  | nil => exact .inl rfl
  | leaf _ _ naming identifies rest ih =>
    cases identifies with
    | false =>
      exact prod_shrinks (clear_field_shrinks (fun _ _ => .inl rfl) naming filter.1 value.1) (ih _ _)
        (congrArg leafSize) (congrArg rest.size)
    | true => exact prod_shrinks (.inl rfl) (ih _ _) (congrArg leafSize) (congrArg rest.size)
  | struct naming inner rest _ ih =>
    exact prod_shrinks (clear_field_shrinks inner.clear_shrinks naming filter.1 value.1) (ih _ _)
      (congrArg (elementSize inner.size)) (congrArg rest.size)
  | each naming inner rest _ ih =>
    exact prod_shrinks
      (clear_field_shrinks (fun sub => map_shrinks (inner.clear_shrinks sub)) naming filter.1 value.1) (ih _ _)
      (congrArg (elementSize fun items : List inner.Val => (items.map fun item => inner.size item + 1).sum))
      (congrArg rest.size)

end Fields

end Eebus.Model
