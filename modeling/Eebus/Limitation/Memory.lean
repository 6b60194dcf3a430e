import Eebus.Limitation.Diary

/-!
What the guard remembers of what was required: in the record of a peer it is attached to, and in its
list of the others.
-/

namespace Eebus.Limitation

open Eebus.Library Eebus.Model Eebus.Spine

def Mark.isPlain : Mark → Bool
  | .attached | .detached | .required _ => false
  | _ => true

variable {holder : Option AddressDevice}

section Entries

variable {device other : AddressDevice} {time : Nat} {mark : Mark} {diary : List Entry}

theorem attachedTo_plain (h : mark.isPlain = true) :
    attachedTo device (⟨time, holder, mark⟩ :: diary) = attachedTo device diary := by
  cases mark <;> first | exact absurd h Bool.false_ne_true | simp [attachedTo]

theorem memory_plain (h : mark.isPlain = true) :
    memory device (⟨time, holder, mark⟩ :: diary) = memory device diary := by
  cases mark <;> first | exact absurd h Bool.false_ne_true | rfl

theorem attachedTo_required (limit : Option LimitWrite) :
    attachedTo device (⟨time, holder, .required limit⟩ :: diary) = attachedTo device diary := by
  simp [attachedTo]

theorem memory_required (limit : Option LimitWrite) :
    memory device (⟨time, holder, .required limit⟩ :: diary) =
      if holder = some device ∨ holder = none ∧ attachedTo device diary = true then some limit
      else memory device diary := by
  have hrequires : (⟨time, holder, .required limit⟩ : Entry).requires device diary = true ↔
      (holder = some device ∨ holder = none ∧ attachedTo device diary = true) := by
    simp [Entry.requires]
  by_cases hcovers : holder = some device ∨ holder = none ∧ attachedTo device diary = true
  · have hremembered : remembered device (⟨time, holder, .required limit⟩ :: diary) = true :=
      Bool.or_eq_true_iff.mpr (.inl (hrequires.mpr hcovers))
    have hlast : lastRequired device (⟨time, holder, .required limit⟩ :: diary) = some limit :=
      if_pos (hrequires.mpr hcovers)
    rw [memory, hremembered, if_pos rfl, hlast, if_pos hcovers]
  · have hnot : ¬(⟨time, holder, .required limit⟩ : Entry).requires device diary = true :=
      fun h => hcovers (hrequires.mp h)
    have hremembered : remembered device (⟨time, holder, .required limit⟩ :: diary) =
        remembered device diary :=
      (congrArg (· || remembered device diary) (Bool.eq_false_iff.mpr hnot)).trans (Bool.false_or _)
    have hlast : lastRequired device (⟨time, holder, .required limit⟩ :: diary) =
        lastRequired device diary := if_neg hnot
    rw [memory, hremembered, hlast, if_neg hcovers, memory]

theorem attachedTo_attached : attachedTo device (⟨time, some other, .attached⟩ :: diary) =
      (decide (other = device) || attachedTo device diary) := by
  by_cases h : other = device <;> simp [attachedTo, h]

theorem attachedTo_detached : attachedTo device (⟨time, some other, .detached⟩ :: diary) =
      (!decide (other = device) && attachedTo device diary) := by
  by_cases h : other = device <;> simp [attachedTo, h]

theorem memory_moved (hmark : mark = .attached ∨ mark = .detached) :
    memory device (⟨time, some other, mark⟩ :: diary) =
      if other = device ∧ attachedTo device diary = true then none else memory device diary := by
  rcases hmark with rfl | rfl <;>
  · simp only [memory, remembered, lastRequired, Option.some.injEq]
    split <;> simp

end Entries

/-- What the guard is to know: `known` pairs the attached peers with what their records require. -/
structure Memory (known deferred : List (AddressDevice × Option LimitWrite)) (diary : List Entry) :
    Prop where
  attached : ∀ device, attachedTo device diary = true ↔ device ∈ known.map Prod.fst
  required : ∀ p ∈ known, p.2 = ((memory p.1 diary).getD none).map normalise
  waiting : ∀ device, (deferred.find? fun entry => entry.1 == device).map Prod.snd =
    if attachedTo device diary = true then none else memory device diary
  apart : (deferred.map Prod.fst).Nodup
  carried : Carried diary

theorem Carried.cons {diary : List Entry} (h : Carried diary) {entry : Entry}
    (hentry : ∀ device limitId limit, entry.device = some device → entry.mark = .wrote limitId limit →
      limit = carried ((memory device diary).getD none)) : Carried (entry :: diary) :=
  forall_wrote_cons h hentry

namespace Memory

variable {known deferred : List (AddressDevice × Option LimitWrite)} {diary : List Entry}
  {device : AddressDevice} {time : Nat} {limit : Option LimitWrite}

theorem nil : Memory [] [] [] where
  attached _ := by simp [attachedTo]
  required _ hp := absurd hp List.not_mem_nil
  waiting _ := rfl
  apart := List.nodup_nil
  carried later _ _ _ _ _ h := by cases later <;> cases h

theorem plain (h : Memory known deferred diary) {mark : Mark}
    (hmark : mark.isPlain = true)
    (hwrote : ∀ device limitId limit, holder = some device → mark = .wrote limitId limit →
      limit = Limitation.carried ((memory device diary).getD none)) :
    Memory known deferred (⟨time, holder, mark⟩ :: diary) where
  attached device := by rw [attachedTo_plain hmark]; exact h.attached device
  required p hp := by rw [memory_plain hmark]; exact h.required p hp
  waiting device := by rw [attachedTo_plain hmark, memory_plain hmark]; exact h.waiting device
  apart := h.apart
  carried := h.carried.cons hwrote

theorem requireAll (h : Memory known deferred diary) (limit : Option LimitWrite) :
    Memory (known.map fun p => (p.1, limit.map normalise)) deferred
      (⟨time, none, .required limit⟩ :: diary) where
  attached device := by
    rw [attachedTo_required, h.attached, List.map_map]
    rfl
  required p hp := by
    obtain ⟨q, hq, rfl⟩ := List.mem_map.mp hp
    have hattached := (h.attached q.1).mpr (List.mem_map_of_mem hq)
    rw [memory_required, if_pos (.inr ⟨rfl, hattached⟩)]
    rfl
  waiting device := by
    rw [attachedTo_required, memory_required, h.waiting device]
    by_cases hattached : attachedTo device diary = true
    · rw [if_pos hattached, if_pos hattached]
    · rw [if_neg hattached, if_neg hattached, if_neg (by simp [hattached])]
  apart := h.apart
  carried := h.carried.cons fun _ _ _ _ hmark => nomatch hmark

theorem require_known (h : Memory known deferred diary) (hknown : device ∈ known.map Prod.fst)
    (limit : Option LimitWrite) :
    Memory (known.map fun p => if p.1 = device then (p.1, limit.map normalise) else p) deferred
      (⟨time, some device, .required limit⟩ :: diary) where
  attached other := by
    have hsame : (known.map fun p => if p.1 = device then (p.1, limit.map normalise) else p).map
        Prod.fst = known.map Prod.fst := by
      rw [List.map_map]
      refine List.map_congr_left fun p _ => ?_
      simp only [Function.comp]
      split <;> rfl
    rw [attachedTo_required, h.attached, hsame]
  required p hp := by
    obtain ⟨q, hq, rfl⟩ := List.mem_map.mp hp
    rw [memory_required]
    split
    case isTrue heq => rw [if_pos (.inl (congrArg some heq.symm))]; rfl
    case isFalse hne => rw [if_neg (by simp [Ne.symm hne])]; exact h.required q hq
  waiting other := by
    rw [attachedTo_required, memory_required, h.waiting other]
    by_cases heq : device = other
    · rw [← heq, if_pos ((h.attached device).mpr hknown), if_pos ((h.attached device).mpr hknown)]
    · have hcovers : ¬(some device = some other ∨ some device = none ∧
          attachedTo other diary = true) := by simp [heq]
      rw [if_neg hcovers]
  apart := h.apart
  carried := h.carried.cons fun _ _ _ _ hmark => nomatch hmark

theorem find?_without (deferred : List (AddressDevice × Option LimitWrite)) {device other : AddressDevice}
    (h : device ≠ other) :
    (deferred.filter fun entry => entry.1 != device).find? (fun entry => entry.1 == other) =
      deferred.find? fun entry => entry.1 == other := by
  rw [List.find?_filter]
  refine congrArg (fun p => List.find? p deferred) (funext fun entry => ?_)
  by_cases hentry : entry.1 = other
  · simp [hentry, Ne.symm h]
  · simp [hentry]

theorem require_unknown (h : Memory known deferred diary) (hunknown : device ∉ known.map Prod.fst)
    (limit : Option LimitWrite) :
    Memory known ((deferred.filter fun entry => entry.1 != device) ++ [(device, limit)])
      (⟨time, some device, .required limit⟩ :: diary) where
  attached other := by rw [attachedTo_required]; exact h.attached other
  required p hp := by
    have hne : device ≠ p.1 := fun heq => hunknown (heq ▸ List.mem_map_of_mem hp)
    rw [memory_required, if_neg (by simp [hne])]
    exact h.required p hp
  waiting other := by
    rw [attachedTo_required, memory_required, List.find?_append]
    by_cases heq : device = other
    · subst heq
      have hnone : (deferred.filter fun entry => entry.1 != device).find?
          (fun entry => entry.1 == device) = none :=
        List.find?_eq_none.mpr fun entry hentry => by simpa using (List.mem_filter.mp hentry).2
      have hnot : ¬attachedTo device diary = true := fun ha => hunknown ((h.attached device).mp ha)
      rw [hnone, if_neg hnot, if_pos (.inl rfl)]
      simp
    · have hcovers : ¬(some device = some other ∨ some device = none ∧
          attachedTo other diary = true) := by simp [heq]
      rw [find?_without deferred heq, if_neg hcovers, ← h.waiting other]
      simp [heq]
  apart := by
    rw [List.map_append, List.nodup_append]
    refine ⟨h.apart.sublist (List.filter_sublist.map _), List.nodup_singleton _, fun a ha b hb heq => ?_⟩
    obtain ⟨entry, hentry, rfl⟩ := List.mem_map.mp ha
    have hne := (List.mem_filter.mp hentry).2
    rw [heq, List.mem_singleton.mp hb, bne_self_eq_false] at hne
    cases hne
  carried := h.carried.cons fun _ _ _ _ hmark => nomatch hmark

theorem mem_without {other : AddressDevice} :
    other ∈ (known.filter fun p => p.1 != device).map Prod.fst ↔
      other ∈ known.map Prod.fst ∧ other ≠ device := by
  constructor
  · intro hmem
    obtain ⟨p, hp, rfl⟩ := List.mem_map.mp hmem
    obtain ⟨hknown, hne⟩ := List.mem_filter.mp hp
    exact ⟨List.mem_map_of_mem hknown, bne_iff_ne.mp hne⟩
  · rintro ⟨hmem, hne⟩
    obtain ⟨p, hp, rfl⟩ := List.mem_map.mp hmem
    exact List.mem_map_of_mem (List.mem_filter.mpr ⟨hp, bne_iff_ne.mpr hne⟩)

theorem detach (h : Memory known deferred diary) (device : AddressDevice) :
    Memory (known.filter fun p => p.1 != device) deferred (⟨time, some device, .detached⟩ :: diary) where
  attached other := by
    rw [attachedTo_detached, Bool.and_eq_true, h.attached, mem_without]
    simp only [Bool.not_eq_true', decide_eq_false_iff_not]
    exact ⟨fun hboth => ⟨hboth.2, Ne.symm hboth.1⟩, fun hboth => ⟨Ne.symm hboth.2, hboth.1⟩⟩
  required p hp := by
    obtain ⟨hknown, hne⟩ := List.mem_filter.mp hp
    rw [memory_moved (.inr rfl), if_neg fun hboth => bne_iff_ne.mp hne hboth.1.symm]
    exact h.required p hknown
  waiting other := by
    rw [attachedTo_detached, memory_moved (.inr rfl), h.waiting other]
    by_cases heq : device = other
    · by_cases hattached : attachedTo other diary = true <;> simp [heq, hattached]
    · simp [heq]
  apart := h.apart
  carried := h.carried.cons fun _ _ _ _ hmark => nomatch hmark

theorem find?_eraseP_own (hapart : (deferred.map Prod.fst).Nodup) :
    (deferred.eraseP fun entry => entry.1 == device).find? (fun entry => entry.1 == device) = none := by
  induction deferred with
  | nil => rfl
  | cons entry rest ih =>
    obtain ⟨hentry, hrest⟩ := List.nodup_cons.mp hapart
    by_cases heq : entry.1 = device
    · rw [List.eraseP_cons_of_pos (by simp [heq])]
      refine List.find?_eq_none.mpr fun other hother => ?_
      have hne : other.1 ≠ entry.1 := fun h => hentry (h ▸ List.mem_map_of_mem hother)
      simpa [heq] using heq ▸ hne
    · rw [List.eraseP_cons_of_neg (by simp [heq]), List.find?_cons_of_neg (by simp [heq])]
      exact ih hrest

theorem find?_eraseP_other {other : AddressDevice} (h : device ≠ other) :
    (deferred.eraseP fun entry => entry.1 == device).find? (fun entry => entry.1 == other) =
      deferred.find? fun entry => entry.1 == other := by
  induction deferred with
  | nil => rfl
  | cons entry rest ih =>
    by_cases heq : entry.1 = device
    · rw [List.eraseP_cons_of_pos (by simp [heq]), List.find?_cons_of_neg (by simp [heq, h])]
    · rw [List.eraseP_cons_of_neg (by simp [heq])]
      by_cases hentry : entry.1 = other
      · rw [List.find?_cons_of_pos (by simp [hentry]), List.find?_cons_of_pos (by simp [hentry])]
      · rw [List.find?_cons_of_neg (by simp [hentry]), List.find?_cons_of_neg (by simp [hentry])]
        exact ih

theorem attach (h : Memory known deferred diary) (device : AddressDevice) :
    Memory ((known.filter fun p => p.1 != device) ++ [(device,
        (((deferred.find? fun entry => entry.1 == device).map Prod.snd).getD none).map normalise)])
      (deferred.eraseP fun entry => entry.1 == device) (⟨time, some device, .attached⟩ :: diary) where
  attached other := by
    rw [attachedTo_attached, List.map_append, List.mem_append, mem_without, Bool.or_eq_true, h.attached]
    simp only [List.map_cons, List.map_nil, List.mem_singleton, decide_eq_true_eq]
    by_cases heq : device = other
    · simp [heq]
    · simp [heq, Ne.symm heq]
  required p hp := by
    rw [memory_moved (.inl rfl)]
    cases List.mem_append.mp hp with
    | inl hold =>
      obtain ⟨hknown, hne⟩ := List.mem_filter.mp hold
      rw [if_neg fun hboth => bne_iff_ne.mp hne hboth.1.symm]
      exact h.required p hknown
    | inr hnew =>
      obtain rfl := List.mem_singleton.mp hnew
      dsimp only
      rw [h.waiting device]
      by_cases hattached : attachedTo device diary = true <;> simp [hattached]
  waiting other := by
    rw [attachedTo_attached, memory_moved (.inl rfl)]
    by_cases heq : device = other
    · subst heq
      rw [find?_eraseP_own h.apart]
      simp
    · rw [find?_eraseP_other heq, h.waiting other]
      simp [heq]
  apart := h.apart.sublist (List.eraseP_sublist.map _)
  carried := h.carried.cons fun _ _ _ _ hmark => nomatch hmark

end Memory

end Eebus.Limitation
