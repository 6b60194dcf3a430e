import Mathlib.Data.List.Basic
import Mathlib.Data.List.Induction

/-! Lists with the positions of their elements: removing the marked positions from the back, and
finding the last of the greatest elements. -/

namespace Eebus.Library

universe u
variable {α : Type u}

theorem foldr_eraseIdx_positions (p : α × Nat → Bool) (xs before : List α) :
    (((xs.zipIdx before.length).filter p).map Prod.snd).foldr (fun i ys => ys.eraseIdx i)
        (before ++ xs) =
      before ++ ((xs.zipIdx before.length).filter fun e => !p e).map Prod.fst := by
  induction xs generalizing before with
  | nil => simp
  | cons x rest ih =>
    have hrest := ih (before ++ [x])
    simp only [List.length_append, List.length_singleton, List.append_assoc,
      List.singleton_append] at hrest
    rw [List.zipIdx_cons]
    cases hp : p (x, before.length) with
    | true =>
      simp only [List.filter_cons, hp, if_true, List.map_cons, List.foldr_cons, hrest,
        Bool.not_true, Bool.false_eq_true, if_false]
      rw [List.eraseIdx_append_of_length_le (Nat.le_refl _)]
      simp
    | false =>
      simp only [List.filter_cons, hp, Bool.false_eq_true, if_false, hrest, Bool.not_false, if_true,
        List.map_cons]

theorem foldl_eraseIdx_positions (p : α × Nat → Bool) (xs : List α) :
    ((xs.zipIdx.filter p).map Prod.snd).reverse.foldl List.eraseIdx xs =
      (xs.zipIdx.filter fun e => !p e).map Prod.fst := by
  rw [List.foldl_reverse]
  exact foldr_eraseIdx_positions p xs []

theorem pairwise_positions (p : α × Nat → Bool) (xs : List α) :
    ((xs.zipIdx.filter p).map Prod.snd).reverse.Pairwise fun i j => j < i := by
  rw [List.pairwise_reverse]
  refine List.Pairwise.sublist (List.filter_sublist.map Prod.snd) ?_
  rw [List.zipIdx_map_snd]
  exact List.pairwise_lt_range'

theorem map_fst_filter_zipIdx (p : α → Bool) (xs : List α) (k : Nat) :
    ((xs.zipIdx k).filter fun e => p e.1).map Prod.fst = xs.filter p := by
  induction xs generalizing k with
  | nil => rfl
  | cons x rest ih =>
    rw [List.zipIdx_cons, List.filter_cons, List.filter_cons]
    cases hp : p x with
    | true => simp [ih]
    | false => simp [ih]

/-- Rewriting the elements in place leaves the positions marked, as long as the marks do not depend
on what is rewritten. -/
theorem positions_mapIdx {f : Nat → α → α} {p : α → Nat → Bool} (xs : List α)
    (h : ∀ i x, p (f i x) i = p x i) :
    ((xs.mapIdx f).zipIdx.filter fun e => p e.1 e.2).map Prod.snd =
      (xs.zipIdx.filter fun e => p e.1 e.2).map Prod.snd := by
  have hzip : (xs.mapIdx f).zipIdx = xs.zipIdx.map fun e => (f e.2 e.1, e.2) := by
    apply List.ext_getElem?
    intro i
    simp only [List.getElem?_zipIdx, List.getElem?_mapIdx, List.getElem?_map, Option.map_map]
    congr 1
    funext x
    simp
  rw [hzip, List.filter_map, List.map_map]
  have hmarks : ((fun e : α × Nat => p e.1 e.2) ∘ fun e : α × Nat => (f e.2 e.1, e.2)) =
      fun e => p e.1 e.2 := funext fun e => h e.2 e.1
  rw [hmarks]
  rfl

theorem filter_zipIdx_at {xs : List α} {i : Nat} {x : α} (h : xs[i]? = some x) (k : Nat) :
    (xs.zipIdx k).filter (fun e => e.2 == k + i) = [(x, k + i)] := by
  induction xs generalizing i k with
  | nil => simp at h
  | cons y rest ih =>
    rw [List.zipIdx_cons, List.filter_cons]
    cases i with
    | zero =>
      have hx : y = x := by simpa using h
      have hrest : (rest.zipIdx (k + 1)).filter (fun e => e.2 == k + 0) = [] := by
        rw [List.filter_eq_nil_iff]
        intro e he
        have := List.le_snd_of_mem_zipIdx he
        simp
        omega
      rw [hrest, hx]
      simp
    | succ i =>
      have hrest : (rest.zipIdx (k + 1)).filter (fun e => e.2 == k + (i + 1)) =
          [(x, k + (i + 1))] := by
        have := ih (by simpa using h) (k + 1)
        rwa [show k + 1 + i = k + (i + 1) by omega] at this
      rw [if_neg (by simp), hrest]

/-- The last of the elements with the greatest key: the key, and the element's position. -/
def latest (key : α → Nat) (entries : List (α × Nat)) : Option (Nat × Nat) :=
  entries.foldl (fun best entry =>
    match best with
    | some (greatest, index) =>
      if greatest ≤ key entry.1 then some (key entry.1, entry.2) else some (greatest, index)
    | none => some (key entry.1, entry.2)) none

theorem latest_concat (key : α → Nat) (entries : List (α × Nat)) (last : α × Nat) :
    latest key (entries ++ [last]) =
      match latest key entries with
      | some (greatest, index) =>
        if greatest ≤ key last.1 then some (key last.1, last.2) else some (greatest, index)
      | none => some (key last.1, last.2) := by
  rw [latest, List.foldl_append]
  rfl

theorem latest_none_iff {key : α → Nat} {entries : List (α × Nat)} :
    latest key entries = none ↔ entries = [] := by
  induction entries using List.reverseRecOn with
  | nil => simp [latest]
  | append_singleton entries last ih =>
    rw [latest_concat]
    cases latest key entries with
    | none => simp
    | some best =>
      simp only [List.append_eq_nil_iff, List.cons_ne_nil, and_false, iff_false]
      split <;> simp

theorem latest_spec {key : α → Nat} {entries : List (α × Nat)} {greatest index : Nat}
    (h : latest key entries = some (greatest, index)) :
    (∃ a, (a, index) ∈ entries ∧ key a = greatest) ∧ ∀ e ∈ entries, key e.1 ≤ greatest := by
  induction entries using List.reverseRecOn generalizing greatest index with
  | nil => simp [latest] at h
  | append_singleton entries last ih =>
    rw [latest_concat] at h
    cases hbest : latest key entries with
    | none =>
      have hnil := latest_none_iff.mp hbest
      simp only [hbest, Option.some.injEq, Prod.mk.injEq] at h
      obtain ⟨rfl, rfl⟩ := h
      exact ⟨⟨last.1, by simp, rfl⟩, by simp [hnil]⟩
    | some best =>
      obtain ⟨⟨a, ha, hkey⟩, hmax⟩ := ih hbest
      simp only [hbest] at h
      split at h
      case isTrue hle =>
        simp only [Option.some.injEq, Prod.mk.injEq] at h
        obtain ⟨rfl, rfl⟩ := h
        refine ⟨⟨last.1, by simp, rfl⟩, fun e he => ?_⟩
        rcases List.mem_append.mp he with he | he
        · exact Nat.le_trans (hmax e he) hle
        · exact Nat.le_of_eq (by rw [List.mem_singleton.mp he])
      case isFalse hgt =>
        simp only [Option.some.injEq, Prod.mk.injEq] at h
        obtain ⟨rfl, rfl⟩ := h
        refine ⟨⟨a, by simp [ha], hkey⟩, fun e he => ?_⟩
        rcases List.mem_append.mp he with he | he
        · exact hmax e he
        · rw [List.mem_singleton.mp he]
          omega

end Eebus.Library
