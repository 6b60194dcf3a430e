import Mathlib.Data.List.Basic

/-! Updating the first element of a list that satisfies a test (`iter_mut().find(..)`), removing
it, and what neither changes for the elements that pass another test. -/

namespace Eebus.Library

universe u
variable {α : Type u}

/-- Replaces the first element that passes the test. The replacement may use that it passed. -/
def modifyFirst (p : α → Bool) (g : (a : α) → p a = true → α) : List α → List α
  | [] => []
  | a :: rest => if h : p a = true then g a h :: rest else a :: modifyFirst p g rest

variable {p : α → Bool} {g : (a : α) → p a = true → α}

@[simp]
theorem modifyFirst_nil : modifyFirst p g [] = [] := rfl

theorem modifyFirst_cons_pos {a : α} (rest : List α) (h : p a = true) :
    modifyFirst p g (a :: rest) = g a h :: rest := by
  simp [modifyFirst, h]

theorem modifyFirst_cons_neg {a : α} (rest : List α) (h : p a = false) :
    modifyFirst p g (a :: rest) = a :: modifyFirst p g rest := by
  simp [modifyFirst, h]

variable {xs : List α}

theorem find?_modifyFirst {a : α} (h : xs.find? p = some a)
    (hg : ∀ ha : p a = true, p (g a ha) = true) :
    (modifyFirst p g xs).find? p = some (g a (List.find?_some h)) := by
  induction xs with
  | nil => simp at h
  | cons x rest ih =>
    cases hx : p x with
    | true =>
      have heq : x = a := by simpa [List.find?_cons, hx] using h
      subst heq
      rw [modifyFirst_cons_pos rest hx, List.find?_cons, hg hx]
    | false =>
      have hrest : rest.find? p = some a := by simpa [List.find?_cons, hx] using h
      rw [modifyFirst_cons_neg rest hx, List.find?_cons, hx]
      exact ih hrest

/-- What another test finds is unchanged when the replacement answers it as the original did
and carries the same image. -/
theorem map_modifyFirst {β : Type*} (f : α → β) (xs : List α)
    (h : ∀ a ha, f (g a ha) = f a) : (modifyFirst p g xs).map f = xs.map f := by
  induction xs with
  | nil => rfl
  | cons x rest ih =>
    cases hx : p x with
    | true => simp [modifyFirst_cons_pos rest hx, h]
    | false => simp [modifyFirst_cons_neg rest hx, ih]

theorem modifyFirst_eq_self_iff {a : α} (h : xs.find? p = some a) :
    modifyFirst p g xs = xs ↔ g a (List.find?_some h) = a := by
  induction xs with
  | nil => simp at h
  | cons x rest ih =>
    cases hx : p x with
    | true =>
      have heq : x = a := by simpa [List.find?_cons, hx] using h
      subst heq
      simp [modifyFirst_cons_pos rest hx]
    | false =>
      have hrest : rest.find? p = some a := by simpa [List.find?_cons, hx] using h
      rw [modifyFirst_cons_neg rest hx, List.cons.injEq]
      simp only [true_and]
      exact ih hrest

theorem length_modifyFirst (xs : List α) : (modifyFirst p g xs).length = xs.length := by
  induction xs with
  | nil => rfl
  | cons x rest ih =>
    cases hx : p x with
    | true => simp [modifyFirst_cons_pos rest hx]
    | false => simp [modifyFirst_cons_neg rest hx, ih]

theorem forall_mem_modifyFirst {P : α → Prop} (h : ∀ x ∈ xs, P x)
    (hg : ∀ x hx, x ∈ xs → P (g x hx)) : ∀ y ∈ modifyFirst p g xs, P y := by
  induction xs with
  | nil => simp
  | cons x rest ih =>
    intro y hy
    cases hx : p x with
    | true =>
      rw [modifyFirst_cons_pos rest hx] at hy
      cases List.mem_cons.mp hy with
      | inl heq => exact heq ▸ hg x hx List.mem_cons_self
      | inr hmem => exact h y (List.mem_cons_of_mem x hmem)
    | false =>
      rw [modifyFirst_cons_neg rest hx] at hy
      cases List.mem_cons.mp hy with
      | inl heq => exact heq ▸ h x List.mem_cons_self
      | inr hmem =>
        exact ih (fun z hz => h z (List.mem_cons_of_mem x hz))
          (fun z hz hmem => hg z hz (List.mem_cons_of_mem x hmem)) y hmem

theorem mem_modifyFirst_of_find? {a y : α} (h : xs.find? p = some a)
    (hy : y ∈ modifyFirst p g xs) : y ∈ xs ∨ y = g a (List.find?_some h) := by
  induction xs with
  | nil => cases h
  | cons x rest ih =>
    cases hx : p x with
    | true =>
      rw [modifyFirst_cons_pos rest hx] at hy
      have hsame : x = a := by simpa [List.find?_cons, hx] using h
      subst hsame
      exact (List.mem_cons.mp hy).elim .inr fun hmem => .inl (List.mem_cons_of_mem _ hmem)
    | false =>
      rw [modifyFirst_cons_neg rest hx] at hy
      have hrest : rest.find? p = some a := by simpa [List.find?_cons, hx] using h
      cases List.mem_cons.mp hy with
      | inl heq => exact .inl (heq ▸ List.mem_cons_self)
      | inr hmem => exact (ih hrest hmem).imp_left (List.mem_cons_of_mem _)

theorem modifyFirst_mem {a : α} (h : xs.find? p = some a) :
    g a (List.find?_some h) ∈ modifyFirst p g xs := by
  induction xs with
  | nil => cases h
  | cons x rest ih =>
    cases hx : p x with
    | true =>
      have hsame : x = a := by simpa [List.find?_cons, hx] using h
      subst hsame
      rw [modifyFirst_cons_pos rest hx]
      exact List.mem_cons_self
    | false =>
      have hrest : rest.find? p = some a := by simpa [List.find?_cons, hx] using h
      rw [modifyFirst_cons_neg rest hx]
      exact List.mem_cons_of_mem _ (ih hrest)

theorem modifyFirst_of_find?_none (h : xs.find? p = none) : modifyFirst p g xs = xs := by
  induction xs with
  | nil => rfl
  | cons x rest ih =>
    have hx : p x = false := by simpa using List.find?_eq_none.mp h x (by simp)
    have hrest : rest.find? p = none := by simpa [List.find?_cons, hx] using h
    rw [modifyFirst_cons_neg rest hx, ih hrest]

theorem filter_modifyFirst {q : α → Bool} (xs : List α)
    (h : ∀ a ha, q a = false ∧ q (g a ha) = false) :
    (modifyFirst p g xs).filter q = xs.filter q := by
  induction xs with
  | nil => rfl
  | cons x rest ih =>
    cases hx : p x with
    | true =>
      obtain ⟨hold, hnew⟩ := h x hx
      simp [modifyFirst_cons_pos rest hx, hold, hnew]
    | false => simp [modifyFirst_cons_neg rest hx, List.filter_cons, ih]

theorem filter_eraseP {q : α → Bool} (xs : List α) (h : ∀ a, p a = true → q a = false) :
    (xs.eraseP p).filter q = xs.filter q := by
  induction xs with
  | nil => rfl
  | cons x rest ih =>
    cases hx : p x with
    | true => simp [hx, h x hx]
    | false => simp [hx, List.filter_cons, ih]

theorem eraseP_congr {q : α → Bool} (h : ∀ a ∈ xs, p a = q a) : xs.eraseP p = xs.eraseP q := by
  induction xs with
  | nil => rfl
  | cons x rest ih =>
    rw [List.eraseP_cons, List.eraseP_cons, h x List.mem_cons_self,
      ih fun a ha => h a (List.mem_cons_of_mem x ha)]

theorem filter_eraseIdx {q : α → Bool} (xs : List α) (i : Nat)
    (h : ∀ a, xs[i]? = some a → q a = false) : (xs.eraseIdx i).filter q = xs.filter q := by
  induction xs generalizing i with
  | nil => rfl
  | cons x rest ih =>
    cases i with
    | zero => simp [h x rfl]
    | succ i => simp [List.eraseIdx_cons_succ, List.filter_cons, ih i fun a ha => h a (by simpa using ha)]

theorem find?_modifyFirst_of_disjoint {q : α → Bool} (xs : List α)
    (h : ∀ a ha, q a = false ∧ q (g a ha) = false) :
    (modifyFirst p g xs).find? q = xs.find? q := by
  rw [← List.head?_filter, filter_modifyFirst xs h, List.head?_filter]

theorem find?_modifyFirst_self {f : α → α} (hf : ∀ a, p a = true → p (f a) = true) (xs : List α) :
    (modifyFirst p (fun a _ => f a) xs).find? p = (xs.find? p).map f := by
  cases h : xs.find? p with
  | none => rw [modifyFirst_of_find?_none h, h]; rfl
  | some a => exact find?_modifyFirst h fun ha => hf a ha

theorem find?_eq_of_perm {ys : List α} (h : xs.Perm ys) (hone : (xs.filter p).length ≤ 1) :
    xs.find? p = ys.find? p := by
  have hfilter := h.filter p
  rw [← List.head?_filter, ← List.head?_filter]
  cases hxs : xs.filter p with
  | nil => rw [hxs] at hfilter; rw [hfilter.nil_eq]
  | cons a rest =>
    rw [hxs] at hone hfilter
    have hrest : rest = [] := List.eq_nil_of_length_eq_zero (by simpa using hone)
    rw [hrest] at hfilter ⊢
    rw [List.perm_singleton.mp hfilter.symm]

theorem filterMap_sublist_map {β : Type*} {f : α → Option β} {g : α → β} (h : ∀ a b, f a = some b → b = g a)
    (xs : List α) : (xs.filterMap f).Sublist (xs.map g) := by
  induction xs with
  | nil => exact List.Sublist.slnil
  | cons a xs ih =>
    rw [List.map_cons]
    cases hf : f a with
    | none =>
      rw [List.filterMap_cons_none hf]
      exact ih.cons _
    | some b =>
      rw [List.filterMap_cons_some hf, ← h a b hf]
      exact ih.cons_cons b

end Eebus.Library
