import Mathlib.Data.List.DropRight

/-!
Lists and what stands between and around their elements: a kind of element taken off both ends, a list
cut at a separator, and separators put in at fixed places.
-/

namespace Eebus.Library

variable {α β : Type*}

/-- A list without the elements of a kind at either end. -/
def trimmed (p : α → Bool) (l : List α) : List α := (l.dropWhile p).rdropWhile p

section Trimmed

variable {p : α → Bool} {l : List α}

theorem trimmed_sublist : List.Sublist (trimmed p l) l :=
  (List.rdropWhile_prefix p _).sublist.trans (List.dropWhile_sublist p)

theorem mem_of_mem_trimmed {a : α} (h : a ∈ trimmed p l) : a ∈ l := trimmed_sublist.mem h

theorem head?_trimmed : (trimmed p l).head?.any p = false := by
  cases htrim : trimmed p l with
  | nil => rfl
  | cons a rest =>
    have hhead : (l.dropWhile p).head? = some a := by
      obtain ⟨tail, htail⟩ : trimmed p l <+: l.dropWhile p := List.rdropWhile_prefix p _
      rw [← htail, htrim]
      rfl
    have hnot := List.head?_dropWhile_not p l
    rw [hhead] at hnot
    exact Bool.eq_false_iff.mpr (by simpa using hnot)

theorem getLast?_trimmed : (trimmed p l).getLast?.any p = false := by
  cases hlast : (trimmed p l).getLast? with
  | none => rfl
  | some a =>
    obtain ⟨hne, rfl⟩ := List.mem_getLast?_eq_getLast hlast
    exact Bool.eq_false_iff.mpr (List.rdropWhile_last_not p _ hne)

theorem trimmed_eq_self_iff :
    trimmed p l = l ↔ l.head?.any p = false ∧ l.getLast?.any p = false := by
  constructor
  · intro h
    have hends := And.intro (head?_trimmed (p := p) (l := l)) (getLast?_trimmed (p := p) (l := l))
    rwa [h] at hends
  · rintro ⟨hhead, hlast⟩
    have hdrop : l.dropWhile p = l := by
      cases l with
      | nil => rfl
      | cons a rest => exact List.dropWhile_cons_of_neg (Bool.eq_false_iff.mp hhead)
    rw [trimmed, hdrop, List.rdropWhile_eq_self_iff]
    intro hne hp
    rw [List.getLast?_eq_some_getLast hne] at hlast
    exact Bool.eq_false_iff.mp hlast hp

theorem trimmed_trimmed : trimmed p (trimmed p l) = trimmed p l :=
  trimmed_eq_self_iff.mpr ⟨head?_trimmed, getLast?_trimmed⟩

theorem trimmed_of_forall (h : ∀ a ∈ l, p a = false) : trimmed p l = l := by
  have hany : ∀ o : Option α, (∀ a ∈ o, a ∈ l) → o.any p = false := by
    rintro (_ | a) ho
    · rfl
    · exact h a (ho a rfl)
  exact trimmed_eq_self_iff.mpr
    ⟨hany _ fun a ha => List.mem_of_mem_head? ha, hany _ fun a ha => List.mem_of_mem_getLast? ha⟩

end Trimmed

section Cut

variable [BEq α] [LawfulBEq α] {sep : α}

theorem not_mem_of_mem_splitOn {l piece : List α} (h : piece ∈ l.splitOn sep) : sep ∉ piece := by
  induction l generalizing piece with
  | nil =>
    rw [List.splitOn_nil, List.mem_singleton] at h
    exact h ▸ List.not_mem_nil
  | cons a l ih =>
    rw [List.splitOn_cons_eq_if_modifyHead] at h
    split at h
    case isTrue =>
      cases h with
      | head => exact List.not_mem_nil
      | tail _ h => exact ih h
    case isFalse ha =>
      cases hsplit : l.splitOn sep with
      | nil => exact absurd hsplit (List.splitOn_ne_nil sep l)
      | cons first others =>
        rw [hsplit, List.modifyHead_cons] at h
        rw [hsplit] at ih
        cases h with
        | head =>
          rw [List.mem_cons, not_or]
          exact ⟨fun heq => ha (by rw [heq, BEq.refl]), ih List.mem_cons_self⟩
        | tail _ h => exact ih (List.mem_cons_of_mem _ h)

theorem splitOn_flatMap {pieces : List (List α)} (h : ∀ piece ∈ pieces, sep ∉ piece) (rest : List α) :
    (pieces.flatMap (· ++ [sep]) ++ rest).splitOn sep = pieces ++ rest.splitOn sep := by
  induction pieces with
  | nil => rfl
  | cons piece pieces ih =>
    rw [List.flatMap_cons, List.append_assoc, List.append_assoc, List.singleton_append,
      List.splitOn_append_cons_self_of_not_mem (h piece List.mem_cons_self),
      ih fun other hother => h other (List.mem_cons_of_mem _ hother), List.cons_append]

end Cut

section Mark

variable [DecidableEq α] {mark : α} {before : List α}

theorem takeWhile_ne_of_plain (h : ∀ a ∈ before, a ≠ mark) : before.takeWhile (· ≠ mark) = before :=
  List.takeWhile_eq_self_iff.mpr fun a ha => decide_eq_true (h a ha)

theorem dropWhile_ne_of_plain (h : ∀ a ∈ before, a ≠ mark) : before.dropWhile (· ≠ mark) = [] :=
  List.dropWhile_eq_nil_iff.mpr fun a ha => decide_eq_true (h a ha)

theorem takeWhile_ne_append (h : ∀ a ∈ before, a ≠ mark) (rest : List α) :
    (before ++ mark :: rest).takeWhile (· ≠ mark) = before := by
  rw [List.takeWhile_append_of_pos fun a ha => decide_eq_true (h a ha),
    List.takeWhile_cons_of_neg (by simp), List.append_nil]

theorem dropWhile_ne_append (h : ∀ a ∈ before, a ≠ mark) (rest : List α) :
    (before ++ mark :: rest).dropWhile (· ≠ mark) = mark :: rest := by
  rw [List.dropWhile_append_of_pos fun a ha => decide_eq_true (h a ha), List.dropWhile_cons_of_neg (by simp)]

theorem dropWhile_ne_eq_cons {l rest : List α} {a : α} (h : l.dropWhile (· ≠ mark) = a :: rest) :
    a = mark ∧ l.takeWhile (· ≠ mark) ++ mark :: rest = l := by
  have hhead := List.head?_dropWhile_not (fun x => decide (x ≠ mark)) l
  rw [h] at hhead
  have hmark : a = mark := by simpa using hhead
  have hsplit : l.takeWhile (· ≠ mark) ++ l.dropWhile (· ≠ mark) = l := List.takeWhile_append_dropWhile
  rw [h, hmark] at hsplit
  exact ⟨hmark, hsplit⟩

end Mark

theorem mem_intercalate {sep : List α} {pieces : List (List α)} {a : α} (h : a ∈ sep.intercalate pieces) :
    a ∈ sep ∨ ∃ piece ∈ pieces, a ∈ piece := by
  induction pieces with
  | nil => cases h
  | cons piece pieces ih =>
    cases pieces with
    | nil =>
      rw [List.intercalate_singleton] at h
      exact .inr ⟨piece, List.mem_cons_self, h⟩
    | cons next pieces =>
      rw [List.intercalate_cons_cons, List.append_assoc] at h
      obtain hpiece | h := List.mem_append.mp h
      · exact .inr ⟨piece, List.mem_cons_self, hpiece⟩
      · obtain hsep | hrest := List.mem_append.mp h
        · exact .inl hsep
        · obtain hsep | ⟨other, hother, ha⟩ := ih hrest
          · exact .inl hsep
          · exact .inr ⟨other, List.mem_cons_of_mem _ hother, ha⟩

/-- The texts of a list's elements, a separator before those whose positions ask for one. -/
def withSeparators (sep : α) (before : Nat → Bool) (text : β → List α) (l : List β) : List α :=
  l.zipIdx.flatMap fun p => (if before p.2 then [sep] else []) ++ text p.1

section WithSeparators

variable {sep : α} {before : Nat → Bool} {text : β → List α} {l : List β} {keep : α → Bool}

theorem mem_withSeparators {a : α} (h : a ∈ withSeparators sep before text l) :
    a = sep ∨ ∃ b ∈ l, a ∈ text b := by
  obtain ⟨⟨b, i⟩, hb, ha⟩ := List.mem_flatMap.mp h
  obtain hsep | htext := List.mem_append.mp ha
  · split at hsep
    · exact .inl (List.mem_singleton.mp hsep)
    · cases hsep
  · exact .inr ⟨b, List.fst_mem_of_mem_zipIdx hb, htext⟩

theorem filter_withSeparators (hsep : keep sep = false) (hkeep : ∀ b ∈ l, ∀ a ∈ text b, keep a = true) :
    (withSeparators sep before text l).filter keep = l.flatMap text := by
  have hshift : ∀ n, ((l.zipIdx n).flatMap fun p => (if before p.2 then [sep] else []) ++ text p.1).filter keep =
      l.flatMap text := by
    induction l with
    | nil => exact fun _ => rfl
    | cons b l ih =>
      intro n
      have hnone : (if before n then [sep] else []).filter keep = [] := by
        split
        · exact List.filter_cons_of_neg (Bool.eq_false_iff.mp hsep)
        · rfl
      have hall : (text b).filter keep = text b := List.filter_eq_self.mpr (hkeep b List.mem_cons_self)
      rw [List.zipIdx_cons, List.flatMap_cons, List.filter_append, List.filter_append, hnone, hall,
        List.nil_append, ih (fun b hb => hkeep b (List.mem_cons_of_mem _ hb)), List.flatMap_cons]
  exact hshift 0

theorem trimmed_withSeparators {p : α → Bool} (hfirst : before 0 = false)
    (htext : ∀ b ∈ l, text b ≠ [] ∧ ∀ a ∈ text b, p a = false) :
    trimmed p (withSeparators sep before text l) = withSeparators sep before text l := by
  refine trimmed_eq_self_iff.mpr ⟨?_, ?_⟩
  · cases l with
    | nil => rfl
    | cons b l =>
      obtain ⟨hne, hplain⟩ := htext b List.mem_cons_self
      obtain ⟨a, rest, ha⟩ := List.exists_cons_of_ne_nil hne
      rw [withSeparators, List.zipIdx_cons, List.flatMap_cons, hfirst, ha]
      exact hplain a (ha ▸ List.mem_cons_self)
  · obtain rfl | ⟨l, b, rfl⟩ := List.eq_nil_or_concat l
    · rfl
    · obtain ⟨hne, hplain⟩ := htext b (by simp)
      rw [withSeparators, List.concat_eq_append, List.zipIdx_append, List.flatMap_append,
        List.zipIdx_singleton, List.flatMap_singleton, ← List.append_assoc,
        List.getLast?_append_of_ne_nil _ hne, List.getLast?_eq_some_getLast hne]
      exact hplain _ (List.getLast_mem hne)

end WithSeparators

end Eebus.Library
