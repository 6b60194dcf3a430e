import Mathlib.Data.List.Infix
import Mathlib.Logic.Function.Iterate

/-!
State machines with outputs, their runs, and the histories runs leave behind. An invariant is
proved for one step and carried to whole runs by the rules of this file.
-/

namespace Eebus.Library

variable {σ ι ω : Type*}

/-- A deterministic machine: each input moves the state and yields one output. -/
structure Machine (σ ι ω : Type*) where
  step : σ → ι → σ × ω

structure Event (σ ι ω : Type*) where
  before : σ
  input : ι
  output : ω
  after : σ

variable {is : List ι} {ok : σ → ι → Prop}

namespace Machine

variable (M : Machine σ ι ω)

def next (s : σ) (i : ι) : σ := (M.step s i).1

def run : σ → List ι → σ
  | s, [] => s
  | s, i :: is => run (M.next s i) is

def outputs : σ → List ι → List ω
  | _, [] => []
  | s, i :: is => (M.step s i).2 :: outputs (M.next s i) is

/-- Every input of the run is admissible in the state it meets. -/
def Admits (ok : σ → ι → Prop) : σ → List ι → Prop
  | _, [] => True
  | s, i :: is => ok s i ∧ Admits ok (M.next s i) is

instance decidableAdmits {ok : σ → ι → Prop} [∀ s i, Decidable (ok s i)] :
    ∀ (s : σ) (is : List ι), Decidable (M.Admits ok s is)
  | _, [] => .isTrue trivial
  | s, _ :: is => @instDecidableAnd _ _ _ (decidableAdmits (M.next s _) is)

@[simp] theorem run_nil (s : σ) : M.run s [] = s := rfl
@[simp] theorem run_cons (s : σ) (i : ι) (is : List ι) :
    M.run s (i :: is) = M.run (M.next s i) is := rfl

@[simp] theorem outputs_nil (s : σ) : M.outputs s [] = [] := rfl
@[simp] theorem outputs_cons (s : σ) (i : ι) (is : List ι) :
    M.outputs s (i :: is) = (M.step s i).2 :: M.outputs (M.next s i) is := rfl

theorem run_append (s : σ) (is js : List ι) : M.run s (is ++ js) = M.run (M.run s is) js := by
  induction is generalizing s with
  | nil => rfl
  | cons i is ih => simpa using ih (M.next s i)

theorem admits_append (s : σ) (is js : List ι) :
    M.Admits ok s (is ++ js) ↔ M.Admits ok s is ∧ M.Admits ok (M.run s is) js := by
  induction is generalizing s with
  | nil => simp [Admits]
  | cons i is ih => simp [Admits, ih, and_assoc]

theorem admits_of_forall (h : ∀ s i, ok s i) :
    ∀ (is : List ι) (s : σ), M.Admits ok s is
  | [], _ => trivial
  | i :: is, s => ⟨h s i, admits_of_forall h is (M.next s i)⟩

theorem admits_of_forall_mem {ok : ι → Prop} :
    ∀ (is : List ι) (s : σ), (∀ i ∈ is, ok i) → M.Admits (fun _ => ok) s is
  | [], _, _ => trivial
  | i :: is, s, h => ⟨h i List.mem_cons_self,
      admits_of_forall_mem is (M.next s i) fun j hj => h j (List.mem_cons_of_mem i hj)⟩

theorem admits_and {ok' : σ → ι → Prop} {s : σ} (h : M.Admits ok s is)
    (h' : M.Admits ok' s is) : M.Admits (fun s i => ok s i ∧ ok' s i) s is := by
  induction is generalizing s with
  | nil => exact trivial
  | cons i is ih => exact ⟨⟨h.1, h'.1⟩, ih h.2 h'.2⟩

theorem admits_mono {ok' : σ → ι → Prop} (himp : ∀ s i, ok s i → ok' s i) {s : σ}
    (h : M.Admits ok s is) : M.Admits ok' s is := by
  induction is generalizing s with
  | nil => exact trivial
  | cons i is ih => exact ⟨himp s i h.1, ih h.2⟩

theorem run_invariant (ok : σ → ι → Prop) (Inv : σ → Prop)
    (hstep : ∀ s i, Inv s → ok s i → Inv (M.next s i)) :
    ∀ (is : List ι) (s : σ), Inv s → M.Admits ok s is → Inv (M.run s is) := by
  intro is
  induction is with
  | nil => exact fun s hs _ => hs
  | cons i is ih => exact fun s hs h => ih (M.next s i) (hstep s i hs h.1) h.2

theorem admits_prefix {s : σ} {js : List ι}
    (h : M.Admits ok s is) (hp : js <+: is) : M.Admits ok s js := by
  obtain ⟨ks, rfl⟩ := hp
  exact ((M.admits_append s js ks).mp h).1

theorem run_steps (Inv : σ → Prop) {P : σ → ι → Prop}
    (hinv : ∀ s i, Inv s → ok s i → Inv (M.next s i)) (hP : ∀ s i, Inv s → ok s i → P s i)
    {s : σ} (h0 : Inv s) (h : M.Admits ok s is) :
    ∀ before i, before ++ [i] <+: is → P (M.run s before) i := by
  intro before i hp
  obtain ⟨hbefore, hlast⟩ := (M.admits_append s before [i]).mp (M.admits_prefix h hp)
  exact hP _ i (M.run_invariant ok Inv hinv before s h0 hbefore) hlast.1

theorem admits_of_steps {s : σ}
    (h : ∀ before i, before ++ [i] <+: is → ok (M.run s before) i) : M.Admits ok s is := by
  induction is generalizing s with
  | nil => trivial
  | cons i is ih =>
    refine ⟨h [] i (List.prefix_append [i] is), ih fun before j hp => ?_⟩
    exact h (i :: before) j (List.cons_prefix_cons.mpr ⟨rfl, hp⟩)

/-- The machine that also writes down its steps, newest first. -/
def recorded : Machine (σ × List (Event σ ι ω)) ι ω where
  step p i :=
    let r := M.step p.1 i
    ((r.1, ⟨p.1, i, r.2, r.1⟩ :: p.2), r.2)

theorem admits_recorded (is : List ι) (s : σ) (past : List (Event σ ι ω)) :
    M.recorded.Admits (fun p => ok p.1) (s, past) is ↔ M.Admits ok s is := by
  induction is generalizing s past with
  | nil => exact Iff.rfl
  | cons i is ih => exact and_congr_right fun _ => ih (M.next s i) _

/-- A property of each event and its past that the invariant gives for the step being taken
holds of every event a recorded run has written down. -/
theorem recorded_run_events {ok : σ × List (Event σ ι ω) → ι → Prop}
    {Inv : σ × List (Event σ ι ω) → Prop} {P : Event σ ι ω → List (Event σ ι ω) → Prop}
    (hinv : ∀ p i, Inv p → ok p i → Inv (M.recorded.next p i))
    (hevent : ∀ s past i, Inv (s, past) → ok (s, past) i →
      P ⟨s, i, (M.step s i).2, M.next s i⟩ past) {s : σ} (h0 : Inv (s, []))
    (hok : M.recorded.Admits ok (s, []) is) :
    ∀ e past, e :: past <:+ (M.recorded.run (s, []) is).2 → P e past := by
  have key := M.recorded.run_invariant ok
    (fun p => Inv p ∧ ∀ e past, e :: past <:+ p.2 → P e past)
    (fun p i hp hi => by
      refine ⟨hinv p i hp.1 hi, fun e past hs => ?_⟩
      rcases List.suffix_cons_iff.mp hs with he | hs'
      · obtain ⟨rfl, rfl⟩ := List.cons.inj he
        exact hevent p.1 p.2 i hp.1 hi
      · exact hp.2 e past hs')
    is (s, []) ⟨h0, by simp⟩ hok
  exact key.2

end Machine

section Settling

variable {α β : Type*} {f : β → α → β} {P : β → Prop}

theorem foldl_preserves (hstep : ∀ x a, P x → P (f x a)) (as : List α) {x : β} (h : P x) :
    P (as.foldl f x) := by
  induction as generalizing x with
  | nil => exact h
  | cons a rest ih => exact ih (hstep x a h)

theorem foldl_settles {y : β} (hstep : ∀ x a, P x → P (f x a)) (as : List α)
    (hkeep : ∀ a ∈ as, f y a = y) {x : β} (hP : P x)
    (h : x = y ∨ ∃ a ∈ as, ∀ x, P x → f x a = y) : as.foldl f x = y := by
  induction as generalizing x with
  | nil => exact h.resolve_right (by simp)
  | cons a rest ih =>
    refine ih (fun b hb => hkeep b (List.mem_cons_of_mem a hb)) (hstep x a hP) ?_
    rcases h with rfl | ⟨b, hb, hlead⟩
    · exact .inl (hkeep a List.mem_cons_self)
    · cases List.mem_cons.mp hb with
      | inl heq => exact .inl (heq ▸ hlead x hP)
      | inr hmem => exact .inr ⟨b, hmem, hlead⟩

end Settling

theorem iterate_reaches {α : Type*} {f : α → α} {P Done : α → Prop} (rank : α → Nat)
    (hstep : ∀ x, P x → ¬Done x → Done (f x) ∨ P (f x) ∧ rank (f x) < rank x) {x : α} (h : P x) :
    ∃ n, Done (f^[n] x) := by
  induction hr : rank x using Nat.strong_induction_on generalizing x with
  | h r ih =>
    by_cases hdone : Done x
    · exact ⟨0, hdone⟩
    cases hstep x h hdone with
    | inl hnext => exact ⟨1, hnext⟩
    | inr hnext =>
      obtain ⟨n, hn⟩ := ih (rank (f x)) (hr ▸ hnext.2) hnext.1 rfl
      exact ⟨n + 1, hn⟩

end Eebus.Library
