import Eebus.Model.Entries
import Eebus.Model.Time

/-! The durations a peer's payloads bring in: how long a limit or a setpoint is to last, and how long
a feature may take to answer. Merging and deleting bring in no duration of their own. -/

namespace Eebus.Model

namespace FunctionType

variable {Data : Type} {F : FunctionType Data} {P : F.Item → Prop}

def Every (F : FunctionType Data) (P : F.Item → Prop) (value : Data) : Prop :=
  ∀ item ∈ (F.entries value).getD [], P item

/-- Merging two entries and clearing elements of one keeps the property. -/
structure Closed (F : FunctionType Data) (P : F.Item → Prop) : Prop where
  mergeItem : ∀ existing item, P existing → P item → P (F.mergeItem existing item)
  clearEntry : ∀ elements entry, P entry → P (F.clearEntry elements entry)

theorem Closed.mergeEntry (hclosed : F.Closed P) {acc : List F.Item} {item : F.Item}
    (hacc : ∀ x ∈ acc, P x) (hitem : P item) : ∀ x ∈ F.mergeEntry acc item, P x := by
  induction acc with
  | nil =>
    intro x hx
    rwa [List.mem_singleton.mp hx]
  | cons existing rest ih =>
    have hexisting := hacc existing List.mem_cons_self
    have hrest : ∀ x ∈ rest, P x := fun x hx => hacc x (List.mem_cons_of_mem existing hx)
    intro x hx
    simp only [FunctionType.mergeEntry] at hx
    split at hx
    · rcases List.mem_cons.mp hx with rfl | hx
      · exact hclosed.mergeItem existing item hexisting hitem
      · exact hrest x hx
    · rcases List.mem_cons.mp hx with rfl | hx
      · exact hexisting
      · exact ih hrest x hx

section Lists

variable (hlist : F.isMergeableList = true) {stored update : Data}
include hlist

theorem every_setEntries {entries : List F.Item} (h : ∀ x ∈ entries, P x) (value : Data) :
    F.Every P (F.setEntries value (some entries)) := by
  rw [Every, F.entries_setEntries hlist]
  exact h

theorem Every.apply (hclosed : F.Closed P) (h : F.Every P stored) (hupdate : F.Every P update)
    (isPartial : Bool) : F.Every P (F.apply stored update isPartial) := by
  simp only [FunctionType.apply, hlist, if_true]
  cases isPartial with
  | false =>
    simp only [Bool.false_eq_true, if_false, applyFull]
    rw [Every, F.entries_setEntries hlist]
    exact hupdate
  | true =>
    simp only [if_true, applyPartial]
    cases hincoming : F.entries update with
    | none => exact h
    | some incoming =>
      rw [Every, hincoming] at hupdate
      refine every_setEntries hlist ?_ stored
      exact List.foldlRecOn (motive := fun acc => ∀ x ∈ acc, P x) incoming F.mergeEntry h
        fun acc hacc item hitem => hclosed.mergeEntry hacc (hupdate item hitem)

theorem Every.deleteAddressed (h : F.Every P stored) (addressed : F.Item → Bool) :
    F.Every P (F.deleteAddressed stored addressed) := by
  cases hentries : F.entries stored with
  | none => simpa only [FunctionType.deleteAddressed, hentries] using h
  | some entries =>
    simp only [FunctionType.deleteAddressed, hentries]
    rw [Every, hentries] at h
    exact every_setEntries hlist (fun x hx => h x (List.mem_filter.mp hx).1) stored

theorem Every.clearAddressed (hclosed : F.Closed P) (h : F.Every P stored)
    (addressed : F.Item → Bool) (elements : F.Elements) :
    F.Every P (F.clearAddressed stored addressed elements) := by
  cases hentries : F.entries stored with
  | none => simpa only [FunctionType.clearAddressed, hentries] using h
  | some entries =>
    simp only [FunctionType.clearAddressed, hentries]
    rw [Every, hentries] at h
    refine every_setEntries hlist (fun x hx => ?_) stored
    obtain ⟨entry, hentry, rfl⟩ := List.mem_map.mp hx
    split
    · exact hclosed.clearEntry elements entry (h entry hentry)
    · exact h entry hentry

theorem Every.delete (h : F.Every P stored) (update : Data) : F.Every P (F.delete stored update) := by
  simp only [FunctionType.delete, hlist, if_true, deleteEntries]
  split
  case h_2 => exact h
  case h_1 targets entries _ hentries =>
    rw [Every, hentries] at h
    exact every_setEntries hlist (fun x hx => h x (List.mem_filter.mp hx).1) stored

theorem Every.restricted (hclosed : F.Closed P) (h : F.Every P stored) (hrow : F.row ≠ .plain)
    {value : Data}
    (hvalue : value = stored ∨ (∃ addressed, value = F.deleteAddressed stored addressed) ∨
      (∃ addressed e, value = F.clearAddressed stored addressed e) ∨
      F.row = .plain ∧ ∃ e, value = F.clearFrom e stored) : F.Every P value := by
  rcases hvalue with rfl | ⟨addressed, rfl⟩ | ⟨addressed, e, rfl⟩ | ⟨hplain, -⟩
  · exact h
  · exact h.deleteAddressed hlist addressed
  · exact h.clearAddressed hlist hclosed addressed e
  · exact absurd hplain hrow

end Lists

theorem every_default : F.Every P F.default := by
  simp [Every, F.entries_default]

end FunctionType

section Lasting

variable (P : Nat → Prop)

def TimePeriod.Lasting (period : TimePeriod) : Prop :=
  ∀ text d, period.endTime = some text → parseIso8601Duration text = some d → P d

def lasting (period : Option TimePeriod) : Prop := ∀ p, period = some p → p.Lasting P

variable {P}

theorem lasting_none : lasting P none := nofun

theorem lasting_merge {stored update : Option TimePeriod} (h : lasting P stored)
    (hupdate : lasting P update) : lasting P (mergeOption TimePeriod.merge stored update) := by
  cases stored with
  | none => rwa [mergeOption_none]
  | some existing =>
    cases update with
    | none => exact h
    | some period =>
      rintro _ ⟨rfl⟩ text d htext hparse
      have hold := h existing rfl text d
      have hnew := hupdate period rfl text d
      simp only [TimePeriod.merge, mergeLeaf] at htext
      cases hend : period.endTime with
      | none =>
        rw [hend] at htext
        cases hheld : existing.endTime <;> simp_all [mergeOption]
      | some newText =>
        rw [hend] at htext
        cases hheld : existing.endTime <;> simp_all [mergeOption]

theorem lasting_clear {period : Option TimePeriod} (h : lasting P period)
    (elements : Option TimePeriodElements) :
    lasting P (clearNested TimePeriodElements.isEmpty TimePeriod.clear elements period) := by
  intro cleared hcleared text d htext hparse
  cases elements with
  | none => exact h cleared hcleared text d htext hparse
  | some named =>
    cases hempty : named.isEmpty with
    | true => simp [clearNested, hempty] at hcleared
    | false =>
      simp only [clearNested, hempty, Bool.false_eq_true, if_false, Option.map_eq_some_iff]
        at hcleared
      obtain ⟨held, hheld, rfl⟩ := hcleared
      refine h held hheld text d ?_ hparse
      simp only [TimePeriod.clear, clearTag] at htext
      split at htext
      · simp at htext
      · exact htext

theorem closed_limits :
    loadControlLimitListType.Closed fun e : LoadControlLimitData => lasting P e.timePeriod where
  mergeItem _ _ h hitem := lasting_merge h hitem
  clearEntry elements _ h := lasting_clear h elements.timePeriod

theorem closed_setpoints :
    setpointListType.Closed fun e : SetpointData => lasting P e.timePeriod where
  mergeItem _ _ h hitem := lasting_merge h hitem
  clearEntry elements _ h := lasting_clear h elements.timePeriod

end Lasting

variable {S : Schema} {P : Nat → Prop}

namespace CmdData

/-- Every limit and every setpoint of the payload that is to last for a duration has the property. -/
def Lasting (P : Nat → Prop) : CmdData S → Prop
  | ⟨.loadControlLimitListData, list⟩ =>
    loadControlLimitListType.Every (fun e => lasting P e.timePeriod) list
  | ⟨.setpointListData, list⟩ => setpointListType.Every (fun e => lasting P e.timePeriod) list
  | _ => True

theorem Lasting.apply {stored update merged : CmdData S} (h : stored.Lasting P)
    (hupdate : update.Lasting P) {isPartial : Bool}
    (hmerged : stored.apply update isPartial = .ok merged) : merged.Lasting P := by
  obtain ⟨key, stored⟩ := stored
  obtain ⟨key', update⟩ := update
  simp only [CmdData.apply] at hmerged
  split at hmerged
  case isFalse => simp at hmerged
  case isTrue hkey =>
    subst hkey
    cases hmerged
    cases key' with
    | loadControlLimitListData =>
      simp only [Lasting, S.loadControl] at h hupdate ⊢
      exact FunctionType.Every.apply rfl closed_limits h hupdate isPartial
    | setpointListData =>
      simp only [Lasting, S.setpoint] at h hupdate ⊢
      exact FunctionType.Every.apply rfl closed_setpoints h hupdate isPartial
    | _ => trivial

theorem Lasting.deleteRestricted {stored update deleted : CmdData S} (h : stored.Lasting P)
    {selectors : Option (FilterSelectors S)} {elements : Option (FilterElements S)}
    (hdeleted : stored.deleteRestricted update selectors elements = .ok deleted) :
    deleted.Lasting P := by
  obtain ⟨key, stored⟩ := stored
  simp only [CmdData.deleteRestricted] at hdeleted
  split at hdeleted
  case isFalse => simp at hdeleted
  case isTrue hkey =>
    split at hdeleted
    · cases hdeleted
      cases key with
      | loadControlLimitListData =>
        simp only [Lasting, S.loadControl] at h ⊢
        exact FunctionType.Every.delete rfl h _
      | setpointListData =>
        simp only [Lasting, S.setpoint] at h ⊢
        exact FunctionType.Every.delete rfl h _
      | _ => trivial
    · simp only [bind, Except.bind] at hdeleted
      split at hdeleted
      · simp at hdeleted
      case h_2 value hvalue =>
        cases hdeleted
        have hcases := deleteRow_cases hvalue
        cases key with
        | loadControlLimitListData =>
          rw [S.loadControl] at hcases
          exact FunctionType.Every.restricted rfl closed_limits h (fun h => by cases h) hcases
        | setpointListData =>
          rw [S.setpoint] at hcases
          exact FunctionType.Every.restricted rfl closed_setpoints h (fun h => by cases h) hcases
        | _ => trivial

theorem lasting_empty {function : Function S.Other} {data : CmdData S}
    (h : CmdData.empty function = some data) : data.Lasting P := by
  cases function with
  | extension name => simp [CmdData.empty] at h
  | known key =>
    cases h
    cases key with
    | loadControlLimitListData =>
      simp only [Lasting, S.loadControl]
      exact FunctionType.every_default
    | setpointListData =>
      simp only [Lasting, S.setpoint]
      exact FunctionType.every_default
    | _ => trivial

end CmdData

/-- A feature that says how long it may take to answer says a duration with the property. -/
def FeatureInformation.Delaying {Other : Type} (P : Nat → Prop) (entry : FeatureInformation Other) :
    Prop :=
  ∀ description, entry.description = some description →
    ∀ text d, description.maxResponseDelay = some text → parseIso8601Duration text = some d → P d

def NodeManagementDetailedDiscoveryData.Delaying {Other : Type} (P : Nat → Prop)
    (data : NodeManagementDetailedDiscoveryData Other) : Prop :=
  ∀ entry ∈ data.featureInformation.getD [], entry.Delaying P

/-- The durations of a received payload that end up on the clock have the property. -/
def CmdData.Timed (P : Nat → Prop) (data : CmdData S) : Prop :=
  data.Lasting P ∧
    match data with
    | ⟨.nodeManagementDetailedDiscoveryData, document⟩ => document.Delaying P
    | _ => True

end Eebus.Model
