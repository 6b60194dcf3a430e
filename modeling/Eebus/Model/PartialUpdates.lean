import Eebus.Model.Shape

/-! What partial updates of a list amount to: taken twice they change nothing more, one after the other they
can be merged first, and an entry keeps what they leave out. -/

namespace Eebus.Model

namespace FunctionType

variable {Data : Type} {F : FunctionType Data}

def listed (F : FunctionType Data) (value : Data) : List F.Item := (F.entries value).getD []

open Library (mergeAll)

theorem applyPartial_cases (F : FunctionType Data) (stored update : Data) :
    F.entries update = none ∧ F.applyPartial stored update = stored ∨
      ∃ incoming, F.entries update = some incoming ∧ F.applyPartial stored update =
        F.setEntries stored (some (mergeAll F.sameEntry F.mergeItem (F.listed stored) incoming)) := by
  cases h : F.entries update with
  | none => exact .inl ⟨rfl, by simp [applyPartial, h]⟩
  | some incoming => exact .inr ⟨incoming, rfl, by simp [applyPartial, h, mergeAll, mergeEntry_eq, listed]⟩

/-- Every entry carries its identifiers. -/
def AllIdentified (F : FunctionType Data) (value : Data) : Prop :=
  ∀ item ∈ F.listed value, F.hasIdentity item = true

/-- No two entries carry the same identifiers. -/
def NamesOnce (F : FunctionType Data) (value : Data) : Prop :=
  (F.listed value).Pairwise fun a b => F.sameEntry a b = false

theorem entriesIdentified_iff (hlist : F.isMergeableList = true) (value : Data) :
    F.entriesIdentified value = true ↔ F.AllIdentified value := by
  simp [entriesIdentified, hlist, AllIdentified, listed]

theorem AllIdentified.named {value : Data} (h : F.AllIdentified value) :
    ∀ item ∈ F.listed value, F.sameEntry item item = true := by
  intro item hitem
  rw [sameEntry_self, h item hitem]

namespace Shape

variable (shape : F.Shape)

include shape

theorem listed_applyPartial (stored update : Data) : F.listed (F.applyPartial stored update) =
      mergeAll F.sameEntry F.mergeItem (F.listed stored) (F.listed update) := by
  obtain ⟨hnone, heq⟩ | ⟨incoming, hsome, heq⟩ := F.applyPartial_cases stored update
  · rw [heq, show F.listed update = [] by simp [listed, hnone]]
    rfl
  · rw [heq, show F.listed update = incoming by simp [listed, hsome]]
    simp [listed, shape.entries_setEntries]

theorem isSome_entries_applyPartial (stored update : Data) :
    (F.entries (F.applyPartial stored update)).isSome =
      ((F.entries stored).isSome || (F.entries update).isSome) := by
  obtain ⟨hnone, heq⟩ | ⟨incoming, hsome, heq⟩ := F.applyPartial_cases stored update
  · simp [heq, hnone]
  · simp [heq, hsome, shape.entries_setEntries]

theorem eq_of_listed {a b : Data} (hsome : (F.entries a).isSome = (F.entries b).isSome)
    (hlisted : F.listed a = F.listed b) : a = b := by
  refine shape.entries_injective a b ?_
  cases ha : F.entries a <;> cases hb : F.entries b <;> simp_all [listed]

theorem applyPartial_idem {stored update : Data} (h : F.AllIdentified update) :
    F.applyPartial (F.applyPartial stored update) update = F.applyPartial stored update := by
  apply shape.eq_of_listed
  · simp only [shape.isSome_entries_applyPartial, Bool.or_assoc, Bool.or_self]
  · simp only [shape.listed_applyPartial]
    exact shape.keyedMerge.mergeAll_idem h.named _

theorem applyPartial_assoc {stored first second : Data} (h : F.NamesOnce first) :
    F.applyPartial (F.applyPartial stored first) second = F.applyPartial stored (F.applyPartial first second) := by
  apply shape.eq_of_listed
  · simp only [shape.isSome_entries_applyPartial, Bool.or_assoc]
  · simp only [shape.listed_applyPartial]
    exact shape.keyedMerge.mergeAll_assoc h _ _

theorem applyPartial_distinct {stored : Data} (update : Data) (h : F.NamesOnce stored) :
    F.NamesOnce (F.applyPartial stored update) := by
  rw [NamesOnce, shape.listed_applyPartial]
  exact shape.keyedMerge.pairwise_mergeAll h _

theorem applyPartial_identified {stored update : Data} (hstored : F.AllIdentified stored)
    (hupdate : F.AllIdentified update) : F.AllIdentified (F.applyPartial stored update) := by
  intro item hitem
  rw [shape.listed_applyPartial] at hitem
  rw [← sameEntry_self]
  exact shape.keyedMerge.named_mergeAll hstored.named hupdate.named item hitem

theorem get_foldl_mergeItem {T : Type} {place : shape.fields.Place T} (hstructs : place.InStructs)
    {merged : List F.Item} (h : ∀ item ∈ merged, place.get (shape.view item) = none) (old : F.Item) :
    place.get (shape.view (merged.foldl F.mergeItem old)) = place.get (shape.view old) := by
  induction merged generalizing old with
  | nil => rfl
  | cons item rest ih =>
    obtain ⟨hitem, hrest⟩ := List.forall_mem_cons.mp h
    rw [List.foldl_cons, ih hrest, shape.mergeItem, Fields.get_merge hstructs hitem]

/-- An entry the update does not name is as it was, and one that it names has every element that it leaves out. -/
def Keeps (update : Data) (old new : F.Item) : Prop :=
  ((∀ item ∈ F.listed update, F.sameEntry old item = false) → new = old) ∧
    ∀ (T : Type) (place : shape.fields.Place T), place.InStructs →
      (∀ item ∈ F.listed update, F.sameEntry old item = true → place.get (shape.view item) = none) →
      place.get (shape.view new) = place.get (shape.view old)

theorem applyPartial_keeps (stored update : Data) :
    ∃ kept appended, F.listed (F.applyPartial stored update) = kept ++ appended ∧
      List.Forall₂ (shape.Keeps update) (F.listed stored) kept := by
  obtain ⟨kept, appended, heq, hgrown⟩ :=
    Library.mergeAll_grows shape.keyedMerge (F.listed stored) (F.listed update)
  refine ⟨kept, appended, by rw [shape.listed_applyPartial, heq], hgrown.imp ?_⟩
  rintro old new ⟨merged, hmerged, rfl⟩
  constructor
  · intro hunnamed
    have hnil : merged = [] := List.eq_nil_iff_forall_not_mem.mpr fun item hitem => by
      have hsame := (hmerged item hitem).2
      rw [hunnamed item (hmerged item hitem).1] at hsame
      simp at hsame
    rw [hnil]
    rfl
  · intro T place hstructs hleft
    exact shape.get_foldl_mergeItem hstructs
      (fun item hitem => hleft item (hmerged item hitem).1 (hmerged item hitem).2) old

end Shape

/-- The laws of partial updates: they are idempotent where every entry is identified, associative where the first
names no entry twice, keep identifiers distinct, and keep what they leave out. -/
theorem applyPartial_laws (shape : F.Shape) : (∀ stored update, F.AllIdentified update →
      F.applyPartial (F.applyPartial stored update) update = F.applyPartial stored update) ∧
    (∀ stored first second, F.NamesOnce first →
      F.applyPartial (F.applyPartial stored first) second =
        F.applyPartial stored (F.applyPartial first second)) ∧
    (∀ stored update, F.NamesOnce stored → F.AllIdentified update →
      F.NamesOnce (F.applyPartial stored update) ∧
        (F.AllIdentified stored → F.AllIdentified (F.applyPartial stored update))) ∧
    ∀ stored update, ∃ kept appended, F.listed (F.applyPartial stored update) = kept ++ appended ∧
      List.Forall₂ (shape.Keeps update) (F.listed stored) kept :=
  ⟨fun _ _ h => shape.applyPartial_idem h, fun _ _ _ h => shape.applyPartial_assoc h,
    fun _ update h h' => ⟨shape.applyPartial_distinct update h, fun hs => shape.applyPartial_identified hs h'⟩,
    shape.applyPartial_keeps⟩

/-- A limit that is raised without a word on its scale, twice. -/
theorem applyPartial_limit_twice :
    let stored : LoadControlLimitListData :=
      ⟨some [⟨some 0, some true, some true, none, some ⟨some 42, some 2⟩⟩,
        ⟨some 1, some true, some false, none, some ⟨some 60, some 2⟩⟩]⟩
    let update : LoadControlLimitListData := ⟨some [⟨some 0, none, none, none, some ⟨some 50, none⟩⟩]⟩
    loadControlLimitListType.applyPartial (loadControlLimitListType.applyPartial stored update) update =
      loadControlLimitListType.applyPartial stored update :=
  (applyPartial_laws Shape.loadControlLimitListType).1 _ _ ((entriesIdentified_iff rfl _).mp (by decide))

end FunctionType

end Eebus.Model
