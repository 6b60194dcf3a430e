import Mathlib.Data.List.Nodup

/-! The order in which keys were last used, and tables that are kept in it. A past is newest first. -/

namespace Eebus.Library

variable {κ : Type*} [DecidableEq κ]

def recency : List κ → List κ
  | [] => []
  | k :: past => k :: (recency past).filter (· ≠ k)

/-- Of all the keys in the table, the last use of this one lies furthest back. -/
def LeastRecent (past table : List κ) (k : κ) : Prop :=
  k ∈ table ∧ ∃ newer older, recency past = newer ++ k :: older ∧ ∀ other ∈ table, other = k ∨ other ∈ newer

variable {past table : List κ} {k : κ}

theorem nodup_recency (past : List κ) : (recency past).Nodup := by
  induction past with
  | nil => exact List.nodup_nil
  | cons k past ih => exact List.nodup_cons.mpr ⟨by simp, ih.filter _⟩

theorem Sublist.filter_recency (h : table.Sublist (recency past)) (hk : k ∉ table) :
    table.Sublist ((recency past).filter (· ≠ k)) := by
  have htable : table.filter (· ≠ k) = table :=
    List.filter_eq_self.mpr fun other hother => decide_eq_true fun heq => hk (heq ▸ hother)
  rw [← htable]
  exact h.filter _

theorem Sublist.unused (h : table.Sublist (recency past)) (hk : k ∉ table) :
    table.Sublist (recency (k :: past)) :=
  (Sublist.filter_recency h hk).cons k

theorem Sublist.used (h : table.Sublist (recency past)) (hk : k ∉ table) :
    (k :: table).Sublist (recency (k :: past)) :=
  (Sublist.filter_recency h hk).cons_cons k

theorem leastRecent_last (h : (table ++ [k]).Sublist (recency past)) :
    LeastRecent past (table ++ [k]) k := by
  obtain ⟨front, back, hsplit, hfront, hback⟩ := List.append_sublist_iff.mp h
  obtain ⟨between, older, hbetween⟩ := List.append_of_mem (List.singleton_sublist.mp hback)
  refine ⟨List.mem_append_right _ (List.mem_singleton_self k), front ++ between, older, ?_, ?_⟩
  · rw [hsplit, hbetween, List.append_assoc]
  · intro other hother
    cases List.mem_append.mp hother with
    | inl hmem => exact .inr (List.mem_append_left _ (hfront.subset hmem))
    | inr hmem => exact .inl (List.mem_singleton.mp hmem)

end Eebus.Library
