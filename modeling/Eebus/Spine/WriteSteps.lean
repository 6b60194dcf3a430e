import Eebus.Model.Deletion
import Eebus.Spine.Engine

/-! A write command on one feature: the deletions of its filters, run on what is stored, and then
its update. -/

namespace Eebus.Spine

open Eebus.Library Eebus.Model

variable {S : Schema}

def servableStep (key : Key S.Other)
    (step : Option (FilterSelectors S) × Option (FilterElements S)) : Bool :=
  CmdData.servable key step.1 step.2

theorem deleteStep_shrinking (update : CmdData S) :
    Shrinking (deleteStep update) (fun stored => stored.key = update.key)
      (servableStep update.key) CmdData.size where
  serves _ _ hkey hservable := CmdData.deleteRestricted_serves hkey hservable
  refuses _ _ hkey hservable := CmdData.deleteRestricted_refuses hkey hservable

theorem key_eq_of_function {a b : CmdData S} (h : a.function = b.function) : a.key = b.key := by
  simpa [CmdData.function] using h

theorem runDeletes_function {stored update : CmdData S} (h : stored.function = update.function)
    (steps : List (Option (FilterSelectors S) × Option (FilterElements S))) :
    (runSteps (deleteStep update) steps stored).1.function = update.function := by
  have hinv := ((deleteStep_shrinking update).run_size_le steps stored (key_eq_of_function h)).1
  exact congrArg Function.known hinv

theorem apply_sameFunction {stored update : CmdData S} (h : stored.function = update.function)
    (isPartial : Bool) :
    ∃ merged, stored.apply update isPartial = .ok merged ∧ merged.function = stored.function := by
  have hkey := (key_eq_of_function h).symm
  exact ⟨⟨stored.key, (S.type stored.key).apply stored.value (hkey ▸ update.value) isPartial⟩,
    by rw [CmdData.apply, dif_pos hkey], rfl⟩

namespace LocalFeature

theorem writeableFunction_eq_ok {f : LocalFeature S} {data : CmdData S} {entry : FunctionEntry S} :
    f.writeableFunction data = .ok entry ↔
      f.function data.function = some entry ∧ entry.operations.write = true ∧
        data.entriesIdentified = true := by
  cases hentry : f.function data.function with
  | none => simp [writeableFunction, hentry]
  | some found =>
    cases hwrite : found.operations.write <;> cases hident : data.entriesIdentified <;>
      simp_all [writeableFunction]
    · rintro rfl
      simp [hwrite]
    · rintro rfl
      simp [hwrite]

theorem checkWrite_eq_ok {f : LocalFeature S} {data : CmdData S} {restricted : Bool}
    (h : f.checkWrite data restricted = .ok ()) :
    ∃ entry, f.writeableFunction data = .ok entry ∧
      (restricted && !entry.operations.writePartial) = false := by
  simp only [checkWrite] at h
  split at h
  case h_1 => simp at h
  case h_2 entry hentry =>
    split at h
    case isTrue => simp at h
    case isFalse hwrite =>
      split at h
      case isTrue => simp at h
      case isFalse hmerged =>
        split at h
        case isTrue => simp at h
        case isFalse hident =>
          refine ⟨entry, writeableFunction_eq_ok.mpr ⟨hentry, ?_, ?_⟩, ?_⟩
          · simpa using hwrite
          · simpa using hident
          · simpa using hmerged

/-- The entry a write finds, and what is stored there. -/
structure Holds (f : LocalFeature S) (data : CmdData S) (entry : FunctionEntry S)
    (stored : CmdData S) : Prop where
  writeable : f.writeableFunction data = .ok entry
  stored : entry.data = some stored

variable {f : LocalFeature S} {data stored : CmdData S} {entry : FunctionEntry S}

namespace Holds

section

variable (h : f.Holds data entry stored)

include h

theorem found : f.function data.function = some entry :=
  (writeableFunction_eq_ok.mp h.writeable).1

theorem function_eq : stored.function = data.function :=
  f.stored_function h.found h.stored

theorem data_eq : f.data data.function = some stored := by
  simp [LocalFeature.data, h.found, h.stored]

theorem store {d : CmdData S} (hd : d.function = data.function) :
    ∃ entry', (f.store d).Holds data entry' d ∧ entry'.operations = entry.operations := by
  have hfound : f.function d.function = some entry := by rw [hd]; exact h.found
  obtain ⟨-, hwrite, hident⟩ := writeableFunction_eq_ok.mp h.writeable
  refine ⟨entry.store d (f.function_eq hfound).symm, ⟨?_, rfl⟩, rfl⟩
  refine writeableFunction_eq_ok.mpr ⟨?_, hwrite, hident⟩
  rw [← hd]
  exact f.function_store hfound

theorem store_eq_self_iff {d : CmdData S}
    (hd : d.function = data.function) : f.store d = f ↔ d = stored := by
  have hfound : f.function d.function = some entry := by rw [hd]; exact h.found
  rw [LocalFeature.store_eq_self_iff f hfound, h.stored, Option.some.injEq]
  exact eq_comm

theorem data_store {d : CmdData S}
    (hd : d.function = data.function) : (f.store d).data data.function = some d := by
  rw [← hd]
  exact LocalFeature.data_store f (by rw [hd]; exact h.found)

end

end Holds

end LocalFeature

namespace WriteOps

variable {f : LocalFeature S} {data stored : CmdData S} {entry : FunctionEntry S}

theorem applyDeletes_holds (filters : List (Filter S)) (h : f.Holds data entry stored) :
    applyDeletes data filters f =
      (f.store (runSteps (deleteStep data) (filters.flatMap addressedBy) stored).1,
        (runSteps (deleteStep data) (filters.flatMap addressedBy) stored).2.mapError
          FeatureError.restricted) := by
  induction filters generalizing f entry stored with
  | nil =>
    have hself : f.store stored = f := (h.store_eq_self_iff h.function_eq).mpr rfl
    simp [applyDeletes, runSteps, hself, Except.mapError]
  | cons filter rest ih =>
    have hfunction := runDeletes_function h.function_eq (addressedBy filter)
    obtain ⟨entry', hstored', -⟩ := h.store hfunction
    simp only [applyDeletes, LocalFeature.deleteFiltered, h.writeable, h.stored, List.flatMap_cons,
      runSteps_append]
    rcases hrun : runSteps (deleteStep data) (addressedBy filter) stored with ⟨stored', result⟩
    rw [hrun] at hfunction hstored'
    cases result with
    | error e => rfl
    | ok _ =>
      have hrest := runDeletes_function hfunction (rest.flatMap addressedBy)
      simp only [ih hstored', LocalFeature.store_store f (hfunction.trans hrest.symm)]

theorem applyDeletes_nothing (filters : List (Filter S))
    (h : f.writeableFunction data = .ok entry) (hdata : entry.data = none) :
    applyDeletes data filters f = (f, .ok ()) := by
  induction filters with
  | nil => rfl
  | cons filter rest ih => simpa [applyDeletes, LocalFeature.deleteFiltered, h, hdata] using ih

theorem applyDeletes_refused (filters : List (Filter S)) {e : FeatureError S}
    (h : f.writeableFunction data = .error e) : (applyDeletes data filters f).1 = f := by
  cases filters with
  | nil => rfl
  | cons filter rest => simp [applyDeletes, LocalFeature.deleteFiltered, h]

def updateRefusal (entry : FunctionEntry S) (stored : Option (CmdData S)) (data : CmdData S)
    (isPartial : Bool) : Option (FeatureError S) :=
  if isPartial && !entry.operations.writePartial then some .partialNotSupported
  else if LocalFeature.wouldHold stored data isPartial > maxListEntries then some .tooManyEntries
  else none

theorem apply_of_writeable (h : f.writeableFunction data = .ok entry) (isPartial : Bool) :
    f.apply data isPartial =
      match updateRefusal entry entry.data data isPartial with
      | some e => .error e
      | none =>
        match entry.data with
        | some stored =>
          match stored.apply data isPartial with
          | .ok merged => .ok (f.store merged)
          | .error e => .error (.mismatch e)
        | none => .ok (f.store data) := by
  obtain ⟨hfound, hwrite, hident⟩ := LocalFeature.writeableFunction_eq_ok.mp h
  simp only [LocalFeature.apply, hfound, hwrite, hident, updateRefusal]
  cases isPartial && !entry.operations.writePartial with
  | true => rfl
  | false =>
    by_cases hbound : LocalFeature.wouldHold entry.data data isPartial > maxListEntries
    · simp [hbound]
    · simp only [hbound]
      rfl

theorem applyTo_holds (ops : WriteOps S) (h : f.Holds data entry stored) :
    let deleted := runSteps (deleteStep data) ops.deleteSteps stored
    ops.applyTo f data =
      match deleted.2 with
      | .error e => (f.store deleted.1, .error (.restricted e))
      | .ok () =>
        if ops.stores then
          match updateRefusal entry (some deleted.1) data ops.isPartial with
          | some e => (f.store deleted.1, .error e)
          | none =>
            match deleted.1.apply data ops.isPartial with
            | .ok merged => (f.store merged, .ok ())
            | .error e => (f.store deleted.1, .error (.mismatch e))
        else (f.store deleted.1, .ok ()) := by
  intro deleted
  have hfunction : deleted.1.function = data.function :=
    runDeletes_function h.function_eq ops.deleteSteps
  obtain ⟨entry', hstored', hoperations⟩ := h.store hfunction
  have hrefusal : updateRefusal entry' entry'.data data ops.isPartial =
      updateRefusal entry (some deleted.1) data ops.isPartial := by
    simp [updateRefusal, hoperations, hstored'.stored]
  have hdeletes : applyDeletes data ops.deletes f =
      (f.store deleted.1, deleted.2.mapError FeatureError.restricted) :=
    applyDeletes_holds ops.deletes h
  simp only [applyTo, hdeletes]
  cases hresult : deleted.2 with
  | error e => rfl
  | ok _ =>
    simp only [Except.mapError]
    cases hstores : ops.stores with
    | false => rfl
    | true =>
      simp only [if_true, apply_of_writeable hstored'.writeable, hrefusal]
      cases updateRefusal entry (some deleted.1) data ops.isPartial with
      | some e => rfl
      | none =>
        obtain ⟨merged, hmerged, hmfunction⟩ := apply_sameFunction hfunction ops.isPartial
        simp only [hstored'.stored, hmerged]
        rw [LocalFeature.store_store f hmfunction.symm]

theorem applyTo_error_of_not_holds (ops : WriteOps S) {e : FeatureError S}
    (h : ∀ entry stored, ¬f.Holds data entry stored) (herr : (ops.applyTo f data).2 = .error e) :
    (ops.applyTo f data).1 = f := by
  have hdeletes : (applyDeletes data ops.deletes f).1 = f := by
    cases hfind : f.writeableFunction data with
    | error e => exact applyDeletes_refused ops.deletes hfind
    | ok entry =>
      cases hdata : entry.data with
      | none => rw [applyDeletes_nothing ops.deletes hfind hdata]
      | some stored => exact absurd ⟨hfind, hdata⟩ (h entry stored)
  simp only [applyTo] at herr ⊢
  rcases hrun : applyDeletes data ops.deletes f with ⟨feature, result⟩
  rw [hrun] at hdeletes herr
  simp only at hdeletes
  subst hdeletes
  cases result with
  | error e => rfl
  | ok _ =>
    simp only at herr ⊢
    split at herr
    · split at herr
      · simp at herr
      · simp_all
    · simp at herr

end WriteOps

structure SameShape (f f' : LocalFeature S) : Prop where
  address : f'.address = f.address
  approval : f'.approval = f.approval
  functions : f'.functions.map FunctionEntry.function = f.functions.map FunctionEntry.function

namespace SameShape

theorem refl (f : LocalFeature S) : SameShape f f := ⟨rfl, rfl, rfl⟩

theorem trans {f f' f'' : LocalFeature S} (h : SameShape f f') (h' : SameShape f' f'') :
    SameShape f f'' :=
  ⟨h'.address.trans h.address, h'.approval.trans h.approval, h'.functions.trans h.functions⟩

theorem store (f : LocalFeature S) (d : CmdData S) : SameShape f (f.store d) :=
  ⟨rfl, rfl, map_modifyFirst _ _ fun _ _ => rfl⟩

theorem setData {f f' : LocalFeature S} {d : CmdData S} {changed : Bool}
    (h : f.setData d = .ok (f', changed)) : SameShape f f' := by
  unfold LocalFeature.setData at h
  repeat' split at h
  · cases h
  · cases h
    exact refl f
  · cases h
    exact store f d

theorem apply {f f' : LocalFeature S} {d : CmdData S} {isPartial : Bool}
    (h : f.apply d isPartial = .ok f') : SameShape f f' := by
  unfold LocalFeature.apply at h
  repeat' split at h
  all_goals cases h
  · exact store f _
  · exact store f d

theorem deleteFiltered (f : LocalFeature S) (d : CmdData S) (filter : Filter S) :
    SameShape f (f.deleteFiltered d filter).1 := by
  unfold LocalFeature.deleteFiltered
  repeat' split
  · exact refl f
  · exact refl f
  · exact store f _
  · exact store f _

theorem applyTo (ops : WriteOps S) (f : LocalFeature S) (d : CmdData S) :
    SameShape f (ops.applyTo f d).1 :=
  WriteOps.applyTo_keeps (P := SameShape f) (fun f' filter h => h.trans (deleteFiltered f' d filter))
    (fun h hok => h.trans (apply hok)) (refl f)

theorem isSome_function {f f' : LocalFeature S} (h : SameShape f f') (name : Function S.Other) :
    (f'.function name).isSome = (f.function name).isSome := by
  have hany : ∀ f : LocalFeature S, (f.function name).isSome =
      (f.functions.map FunctionEntry.function).any fun x => decide (x = name) := by
    intro f
    rw [Bool.eq_iff_iff, LocalFeature.function, List.find?_isSome, List.any_map, List.any_eq_true]
    rfl
  rw [hany, hany, h.functions]

end SameShape

end Eebus.Spine
