import Eebus.Library.Machine
import Mathlib.Data.List.Nodup

/-!
Books of what is open: what a step opens is added, what it closes leaves, and over a whole run nothing
is closed that was not opened, and nothing twice.
-/

namespace Eebus.Library

variable {α β σ ι ω : Type*}

/-- What was open before and what has been opened is what has been closed and what is open now. -/
def Balances (opened closed live live' : List α) : Prop := (closed ++ live').Perm (live ++ opened)

namespace Balances

variable {opened opened' closed closed' live live' live'' : List α}

theorem refl (live : List α) : Balances [] [] live live := by simp [Balances]

theorem trans (h : Balances opened closed live live') (h' : Balances opened' closed' live' live'') :
    Balances (opened ++ opened') (closed ++ closed') live live'' := by
  have hlater : (closed ++ (closed' ++ live'')).Perm (closed ++ (live' ++ opened')) := h'.append_left closed
  have hearlier : (closed ++ live' ++ opened').Perm (live ++ opened ++ opened') := h.append_right opened'
  rw [Balances, List.append_assoc, ← List.append_assoc live]
  rw [← List.append_assoc closed live'] at hlater
  exact hlater.trans hearlier

theorem trans_idle (h : Balances opened closed live live') (h' : Balances [] [] live' live'') :
    Balances opened closed live live'' := by
  have hall := h.trans h'
  rwa [List.append_nil opened, List.append_nil closed] at hall

theorem opens (live : List α) (a : α) : Balances [a] [] live (live ++ [a]) := by simp [Balances]

theorem closes_filter (live : List α) (picked : α → Bool) :
    Balances [] (live.filter picked) live (live.filter fun a => !picked a) := by
  rw [Balances, List.append_nil]
  exact List.filter_append_perm picked live

theorem closes_first {picked : α → Bool} {a : α} (h : live.find? picked = some a) :
    Balances [] [a] live (live.eraseP picked) := by
  obtain ⟨hpicked, before, after, rfl, hbefore⟩ := List.find?_eq_some_iff_append.mp h
  have herase : (before ++ a :: after).eraseP picked = before ++ after := by
    rw [List.eraseP_append_right _ fun b hb => by simpa using hbefore b hb, List.eraseP_cons_of_pos hpicked]
  rw [Balances, herase, List.append_nil]
  have hmoved : (before ++ a :: after).Perm (a :: (before ++ after)) := List.perm_middle
  exact hmoved.symm

theorem map (f : α → β) (h : Balances opened closed live live') :
    Balances (opened.map f) (closed.map f) (live.map f) (live'.map f) := by
  rw [Balances, ← List.map_append, ← List.map_append]
  exact List.Perm.map f h

theorem perm_closed (h : Balances opened closed live live') (hclosed : closed'.Perm closed) :
    Balances opened closed' live live' :=
  (hclosed.append_right live').trans h

end Balances

def entriesOf [DecidableEq α] (a : α) (entries : List (α × β)) : List (α × β) :=
  entries.filter fun entry => entry.1 == a

section Entries

variable [DecidableEq α] {opened live : List α} {closed : List (α × β)}

theorem entriesOf_length (a : α) (entries : List (α × β)) :
    (entriesOf a entries).length = (entries.map Prod.fst).count a := by
  rw [entriesOf, List.count, List.countP_map, List.countP_eq_length_filter]
  rfl

theorem Balances.once (h : Balances opened (closed.map Prod.fst) [] live) (hopened : opened.Nodup) :
    (∀ a, a ∈ opened ↔ a ∈ live ∨ ∃ b, (a, b) ∈ closed) ∧ (∀ a ∈ live, entriesOf a closed = []) ∧
      ∀ a b, (a, b) ∈ closed → entriesOf a closed = [(a, b)] ∧ a ∉ live := by
  rw [Balances, List.nil_append] at h
  obtain ⟨hclosed, -, hapart⟩ := List.nodup_append'.mp (h.nodup_iff.mpr hopened)
  refine ⟨fun a => ?_, fun a ha => ?_, fun a b hab => ⟨?_, fun ha => ?_⟩⟩
  · rw [← h.mem_iff, List.mem_append, List.mem_map, Or.comm]
    simp
  · refine List.filter_eq_nil_iff.mpr fun entry hentry heq => ?_
    exact hapart (List.mem_map_of_mem hentry) (beq_iff_eq.mp heq ▸ ha)
  · have hin : (a, b) ∈ entriesOf a closed := List.mem_filter.mpr ⟨hab, beq_self_eq_true a⟩
    have honce : (entriesOf a closed).length ≤ 1 := by
      rw [entriesOf_length]
      exact List.nodup_iff_count_le_one.mp hclosed a
    obtain ⟨entry, hentry⟩ := List.length_eq_one_iff.mp
      (Nat.le_antisymm honce (List.length_pos_of_mem hin))
    rw [hentry] at hin ⊢
    rw [List.mem_singleton.mp hin]
  · exact hapart (List.mem_map_of_mem hab) ha

end Entries

namespace Machine

variable (M : Machine σ ι ω)

/-- What the steps of a run put on record, in order. -/
def collect (f : σ → ι → List α) : σ → List ι → List α
  | _, [] => []
  | s, i :: is => f s i ++ collect f (M.next s i) is

theorem collect_append (f : σ → ι → List α) (s : σ) (is js : List ι) :
    M.collect f s (is ++ js) = M.collect f s is ++ M.collect f (M.run s is) js := by
  induction is generalizing s with
  | nil => rfl
  | cons i is ih =>
    simp only [List.cons_append, collect, run_cons, List.append_assoc]
    rw [ih (M.next s i)]

theorem map_collect (g : α → β) (f : σ → ι → List α) (s : σ) (is : List ι) :
    (M.collect f s is).map g = M.collect (fun s i => (f s i).map g) s is := by
  induction is generalizing s with
  | nil => rfl
  | cons i is ih => simp only [collect, List.map_append, ih (M.next s i)]

theorem collect_sublist {f g : σ → ι → List α} (h : ∀ s i, (f s i).Sublist (g s i)) (s : σ)
    (is : List ι) : (M.collect f s is).Sublist (M.collect g s is) := by
  induction is generalizing s with
  | nil => exact List.Sublist.refl _
  | cons i is ih => exact (h s i).append (ih (M.next s i))

theorem length_collect_le {f : σ → ι → List α} {g : σ → ι → List β} {kept : β → Bool}
    (h : ∀ s i, (f s i).length ≤ ((g s i).filter kept).length) (s : σ) (is : List ι) :
    (M.collect f s is).length ≤ ((M.collect g s is).filter kept).length := by
  induction is generalizing s with
  | nil => exact Nat.le_refl 0
  | cons i is ih =>
    simp only [collect, List.length_append, List.filter_append]
    exact Nat.add_le_add (h s i) (ih (M.next s i))

theorem collect_balanced {live : σ → List α} {opened closed : σ → ι → List α}
    (hstep : ∀ s i, Balances (opened s i) (closed s i) (live s) (live (M.next s i))) (s : σ)
    (is : List ι) :
    Balances (M.collect opened s is) (M.collect closed s is) (live s) (live (M.run s is)) := by
  induction is generalizing s with
  | nil => exact Balances.refl _
  | cons i is ih => exact (hstep s i).trans (ih (M.next s i))

end Machine

end Eebus.Library
