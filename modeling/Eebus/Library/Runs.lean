import Mathlib.Algebra.GroupWithZero.Nat
import Mathlib.Data.List.Basic

/-!
A text cut behind each of its closing elements: a run is what stands before a closing element,
with that element. A loop that collects a run in a buffer and acts on its closing element is a fold
over the runs.
-/

namespace Eebus.Library

variable {α σ : Type*} {closes : α → Bool}

/-- The runs of a text, and what is left behind the last of them. `buffer` is what has been collected
before the text begins. -/
def runs (closes : α → Bool) : List α → List α → List (List α × α) × List α
  | buffer, [] => ([], buffer)
  | buffer, x :: xs =>
    if closes x then ((buffer, x) :: (runs closes [] xs).1, (runs closes [] xs).2)
    else runs closes (buffer ++ [x]) xs

def joinRuns (rs : List (List α × α)) : List α := rs.flatMap fun r => r.1 ++ [r.2]

@[simp] theorem joinRuns_nil : joinRuns ([] : List (List α × α)) = [] := rfl

@[simp] theorem joinRuns_cons (r : List α × α) (rs : List (List α × α)) :
    joinRuns (r :: rs) = r.1 ++ r.2 :: joinRuns rs := by
  simp [joinRuns]

theorem joinRuns_append (rs rs' : List (List α × α)) :
    joinRuns (rs ++ rs') = joinRuns rs ++ joinRuns rs' :=
  List.flatMap_append

theorem runs_closing {x : α} (h : closes x = true) (buffer xs : List α) :
    runs closes buffer (x :: xs) = ((buffer, x) :: (runs closes [] xs).1, (runs closes [] xs).2) := by
  rw [runs, if_pos h]

theorem runs_open {x : α} (h : closes x = false) (buffer xs : List α) :
    runs closes buffer (x :: xs) = runs closes (buffer ++ [x]) xs := by
  rw [runs, h, if_neg Bool.false_ne_true]

theorem join_runs (closes : α → Bool) (buffer xs : List α) :
    joinRuns (runs closes buffer xs).1 ++ (runs closes buffer xs).2 = buffer ++ xs := by
  induction xs generalizing buffer with
  | nil => simp [runs]
  | cons x xs ih =>
    by_cases hx : closes x = true
    · rw [runs_closing hx, joinRuns_cons, List.append_assoc, List.cons_append, ih, List.nil_append]
    · rw [runs_open (by simpa using hx), ih, List.append_assoc, List.singleton_append]

theorem runs_collect {number : List α} (h : ∀ x ∈ number, closes x = false) (buffer xs : List α) :
    runs closes buffer (number ++ xs) = runs closes (buffer ++ number) xs := by
  induction number generalizing buffer with
  | nil => rw [List.nil_append, List.append_nil]
  | cons x number ih =>
    rw [List.cons_append, runs_open (h x List.mem_cons_self),
      ih (fun y hy => h y (List.mem_cons_of_mem _ hy)), List.append_assoc, List.singleton_append]

theorem runs_join {rs : List (List α × α)}
    (h : ∀ r ∈ rs, (∀ x ∈ r.1, closes x = false) ∧ closes r.2 = true) :
    runs closes [] (joinRuns rs) = (rs, []) := by
  induction rs with
  | nil => rfl
  | cons r rs ih =>
    obtain ⟨hnumber, hunit⟩ := h r List.mem_cons_self
    rw [joinRuns_cons, runs_collect hnumber, List.nil_append, runs_closing hunit,
      ih fun r' hr' => h r' (List.mem_cons_of_mem _ hr')]

/-- A loop over the elements with a buffer, once its step is known, is a fold over the runs. The step
has to be known only in the states the loop comes to. -/
theorem loop_eq_runs {step : σ → List α × α → Option σ} (loop : List α → List α → σ → Option σ)
    (inv : σ → Prop) (hstep : ∀ s r s', inv s → step s r = some s' → inv s')
    (hnil : ∀ buffer s, loop [] buffer s = if buffer.isEmpty then some s else none)
    (hclosing : ∀ x xs buffer s, inv s → closes x = true →
      loop (x :: xs) buffer s = (step s (buffer, x)).bind (loop xs []))
    (hopen : ∀ x xs buffer s, closes x = false → loop (x :: xs) buffer s = loop xs (buffer ++ [x]) s)
    (xs buffer : List α) {s : σ} (hs : inv s) :
    loop xs buffer s = ((runs closes buffer xs).1.foldlM step s).bind fun s' =>
      if (runs closes buffer xs).2.isEmpty then some s' else none := by
  induction xs generalizing buffer s with
  | nil => simp [hnil, runs]
  | cons x xs ih =>
    by_cases hx : closes x = true
    · rw [hclosing x xs buffer s hs hx, runs_closing hx, List.foldlM_cons, Option.bind_eq_bind,
        Option.bind_assoc]
      cases hnext : step s (buffer, x) with
      | none => rfl
      | some s' => exact ih [] (hstep s _ s' hs hnext)
    · rw [hopen x xs buffer s (by simpa using hx), runs_open (by simpa using hx), ih _ hs]

section Sums

variable {ρ τ : Type*} {ok : ρ → Bool} {weight : ρ → Nat} {next : τ → ρ → τ} {limit : Nat}

/-- One step of a sum that stops at its first bad summand, and at its limit. -/
def addStep (ok : ρ → Bool) (weight : ρ → Nat) (next : τ → ρ → τ) (limit : Nat) (s : Nat × τ) (r : ρ) :
    Option (Nat × τ) :=
  if ok r = true ∧ s.1 + weight r < limit then some (s.1 + weight r, next s.2 r) else none

theorem addStep_lt {s s' : Nat × τ} {r : ρ} (h : addStep ok weight next limit s r = some s') :
    s'.1 < limit := by
  unfold addStep at h
  split at h
  case isTrue hfits => exact Option.some.inj h ▸ hfits.2
  case isFalse => cases h

theorem foldlM_addStep (rs : List ρ) {s : Nat × τ} (hs : s.1 < limit) :
    rs.foldlM (addStep ok weight next limit) s =
      if rs.all ok = true ∧ s.1 + (rs.map weight).sum < limit then
        some (s.1 + (rs.map weight).sum, rs.foldl next s.2) else none := by
  induction rs generalizing s with
  | nil => simp [hs]
  | cons r rs ih =>
    rw [List.foldlM_cons, Option.bind_eq_bind, List.all_cons, List.map_cons, List.sum_cons,
      List.foldl_cons, ← Nat.add_assoc]
    by_cases hr : ok r = true ∧ s.1 + weight r < limit
    · rw [addStep, if_pos hr, Option.bind_some, ih hr.2]
      simp only [hr.1, Bool.true_and]
    · rw [addStep, if_neg hr, Option.bind_none]
      exact (if_neg fun h => hr ⟨(Bool.and_eq_true_iff.mp h.1).1, by omega⟩).symm

end Sums

end Eebus.Library
