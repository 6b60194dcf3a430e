import Mathlib.Data.List.Basic
import Mathlib.Algebra.BigOperators.Group.List.Basic
import Mathlib.Algebra.GroupWithZero.Nat

/-! What the schema tables provide for one SPINE function (`eebus_choice!`, `eebus_identity!`,
`eebus_list!`, `eebus_selectors!`, `eebus_elements!`, `eebus_restrict!`), and the Restricted
Function Exchange operations over it. -/

namespace Eebus.Model

inductive RestrictError
  | mismatch
  | unsupported
deriving DecidableEq

inductive RestrictRow
  | absent
  | listBoth
  | listSelectors
  | listElements
  | plain
deriving DecidableEq

/-- One function of the schema. A function that is not a list has an empty `Item`, one without
a filter of a kind an empty `Selectors` or `Elements`. -/
structure FunctionType (Data : Type) where
  Item : Type
  Identity : Type
  Selectors : Type
  Elements : Type
  decEq : DecidableEq Data
  decEqIdentity : DecidableEq Identity
  default : Data
  /-- Whether the data choice declares the alternative as `list`. -/
  isMergeableList : Bool
  row : RestrictRow
  merge : Data → Data → Data
  entries : Data → Option (List Item)
  setEntries : Data → Option (List Item) → Data
  /-- The identifying elements of an entry, when all of them are present. -/
  identity : Item → Option Identity
  mergeItem : Item → Item → Item
  restoreIdentity : Item → Item → Item
  selects : Selectors → Item → Bool
  usesUnsupported : Selectors → Bool
  clearItem : Elements → Item → Item
  retainItem : Elements → Item → Item
  clearFrom : Elements → Data → Data
  retainIn : Elements → Data → Data
  /-- How many elements an entry, or a whole value, holds. -/
  itemSize : Item → Nat
  size : Data → Nat
  merge_default : ∀ u, merge default u = u
  entries_default : entries default = none
  entries_setEntries : isMergeableList = true → ∀ d es, entries (setEntries d es) = es
  setEntries_entries : ∀ d, setEntries d (entries d) = d
  entries_injective : isMergeableList = true → ∀ a b, entries a = entries b → a = b
  default_least : ∀ d, d = default ∨ size default < size d
  clearFrom_shrinks : ∀ e d, clearFrom e d = d ∨ size (clearFrom e d) < size d
  clearItem_shrinks : ∀ e x,
    restoreIdentity (clearItem e x) x = x ∨ itemSize (restoreIdentity (clearItem e x) x) < itemSize x
  setEntries_shrinks : ∀ d es es', entries d = some es →
    (es'.map fun x => itemSize x + 1).sum < (es.map fun x => itemSize x + 1).sum →
    size (setEntries d (some es')) < size d

namespace FunctionType

variable {Data : Type} (F : FunctionType Data)

def hasIdentity (item : F.Item) : Bool := (F.identity item).isSome

def sameEntry (a b : F.Item) : Bool :=
  match F.identity a, F.identity b with
  | some x, some y => @decide (x = y) (F.decEqIdentity x y)
  | _, _ => false

def entriesIdentified (value : Data) : Bool :=
  if F.isMergeableList then ((F.entries value).getD []).all F.hasIdentity else true

def entryCount (value : Data) : Nat :=
  if F.isMergeableList then ((F.entries value).getD []).length else 0

def applyFull (stored update : Data) : Data := F.setEntries stored (F.entries update)

def mergeEntry : List F.Item → F.Item → List F.Item
  | [], item => [item]
  | existing :: rest, item =>
    if F.sameEntry existing item then F.mergeItem existing item :: rest
    else existing :: mergeEntry rest item

def applyPartial (stored update : Data) : Data :=
  match F.entries update with
  | none => stored
  | some incoming =>
    F.setEntries stored (some (incoming.foldl F.mergeEntry ((F.entries stored).getD [])))

def deleteEntries (stored update : Data) : Data :=
  match F.entries update, F.entries stored with
  | some targets, some entries =>
    F.setEntries stored
      (some (entries.filter fun existing => !targets.any fun t => F.sameEntry t existing))
  | _, _ => stored

def addressesNamed (named : List F.Item) (item : F.Item) : Bool :=
  named.isEmpty || named.any fun target => F.sameEntry target item

def deleteAddressed (stored : Data) (addressed : F.Item → Bool) : Data :=
  match F.entries stored with
  | some entries => F.setEntries stored (some (entries.filter fun entry => !addressed entry))
  | none => stored

def clearEntry (elements : F.Elements) (entry : F.Item) : F.Item :=
  F.restoreIdentity (F.clearItem elements entry) entry

def clearAddressed (stored : Data) (addressed : F.Item → Bool) (elements : F.Elements) : Data :=
  match F.entries stored with
  | some entries =>
    F.setEntries stored
      (some (entries.map fun entry => if addressed entry then F.clearEntry elements entry else entry))
  | none => stored

def retainEntry (elements : F.Elements) (entry : F.Item) : F.Item :=
  F.restoreIdentity (F.retainItem elements entry) entry

def restrictList (stored : Data) (selectors : Option F.Selectors) (elements : Option F.Elements) :
    Except RestrictError Data :=
  if selectors.any F.usesUnsupported then .error .unsupported
  else
    let kept := ((F.entries stored).getD []).filter fun item => selectors.all fun s => F.selects s item
    let kept := match elements with
      | some elements => kept.map (F.retainEntry elements)
      | none => kept
    .ok (F.setEntries F.default (some kept))

def restrictListBySelectors (stored : Data) (selectors : F.Selectors) : Except RestrictError Data :=
  if F.usesUnsupported selectors then .error .unsupported
  else .ok (F.setEntries F.default
    (some (((F.entries stored).getD []).filter fun item => F.selects selectors item)))

def restrictListByElements (stored : Data) (elements : F.Elements) : Data :=
  F.setEntries F.default (some (((F.entries stored).getD []).map (F.retainEntry elements)))

def apply (stored update : Data) (isPartial : Bool) : Data :=
  if F.isMergeableList then
    if isPartial then F.applyPartial stored update else F.applyFull stored update
  else
    if isPartial then F.merge stored update else update

def delete (stored update : Data) : Data :=
  if F.isMergeableList then F.deleteEntries stored update else F.default

end FunctionType

end Eebus.Model
