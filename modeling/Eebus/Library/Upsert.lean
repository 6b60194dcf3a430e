import Eebus.Library.FirstMatch
import Mathlib.Data.List.Induction
import Mathlib.Data.List.Nodup
import Mathlib.Data.List.Perm.Subperm

/-! Lists with at most one element for each key. An element takes the place of the one that has its
key, or goes to the end. -/

namespace Eebus.Library

universe u v
variable {α : Type u} {κ : Type v} [DecidableEq κ] (key : α → κ)

def hasKey (k : κ) (a : α) : Bool := decide (key a = k)

def upsert (entry : α) (held : List α) : List α :=
  if held.any (hasKey key (key entry)) then
    modifyFirst (hasKey key (key entry)) (fun _ _ => entry) held
  else held ++ [entry]

def upsertAll (held new : List α) : List α := new.foldl (fun held entry => upsert key entry held) held

variable {key} {entry : α} {held new : List α}

theorem hasKey_iff {k : κ} {a : α} : hasKey key k a = true ↔ key a = k := by
  simp [hasKey]

theorem mem_modifyFirst_hasKey (h : (held.map key).Nodup)
    (hany : held.any (hasKey key (key entry)) = true) (x : α) :
    x ∈ modifyFirst (hasKey key (key entry)) (fun _ _ => entry) held ↔
      x = entry ∨ x ∈ held ∧ key x ≠ key entry := by
  induction held with
  | nil => simp at hany
  | cons a rest ih =>
    rw [List.map_cons, List.nodup_cons] at h
    cases ha : hasKey key (key entry) a with
    | true =>
      have hkey : key a = key entry := hasKey_iff.mp ha
      have hrest : ∀ y ∈ rest, key y ≠ key entry := by
        intro y hy heq
        exact h.1 (List.mem_map.mpr ⟨y, hy, heq.trans hkey.symm⟩)
      rw [modifyFirst_cons_pos rest ha, List.mem_cons, List.mem_cons]
      constructor
      · rintro (rfl | hx)
        · exact .inl rfl
        · exact .inr ⟨.inr hx, hrest x hx⟩
      · rintro (rfl | ⟨rfl | hx, hne⟩)
        · exact .inl rfl
        · exact absurd hkey hne
        · exact .inr hx
    | false =>
      have hne : key a ≠ key entry := fun heq => by simp [hasKey, heq] at ha
      have hany' : rest.any (hasKey key (key entry)) = true := by simpa [ha] using hany
      rw [modifyFirst_cons_neg rest ha, List.mem_cons, List.mem_cons, ih h.2 hany']
      constructor
      · rintro (rfl | rfl | ⟨hx, hx'⟩)
        · exact .inr ⟨.inl rfl, hne⟩
        · exact .inl rfl
        · exact .inr ⟨.inr hx, hx'⟩
      · rintro (rfl | ⟨rfl | hx, hx'⟩)
        · exact .inr (.inl rfl)
        · exact .inl rfl
        · exact .inr (.inr ⟨hx, hx'⟩)

theorem not_any_hasKey {k : κ} (h : ¬ held.any (hasKey key k) = true) :
    ∀ y ∈ held, key y ≠ k := by
  intro y hy heq
  exact h (List.any_eq_true.mpr ⟨y, hy, hasKey_iff.mpr heq⟩)

theorem mem_upsert (h : (held.map key).Nodup) (x : α) :
    x ∈ upsert key entry held ↔ x = entry ∨ x ∈ held ∧ key x ≠ key entry := by
  unfold upsert
  split
  case isTrue hany => exact mem_modifyFirst_hasKey h hany x
  case isFalse hany =>
    have hfresh := not_any_hasKey hany
    rw [List.mem_append, List.mem_singleton, or_comm]
    exact or_congr_right ⟨fun hx => ⟨hx, hfresh x hx⟩, And.left⟩

theorem nodup_upsert (h : (held.map key).Nodup) : ((upsert key entry held).map key).Nodup := by
  unfold upsert
  split
  case isTrue =>
    rw [map_modifyFirst key held fun a ha => (hasKey_iff.mp ha).symm]
    exact h
  case isFalse hany =>
    rw [List.map_append, List.nodup_append]
    refine ⟨h, List.nodup_singleton _, ?_⟩
    intro k hk k' hk' heq
    obtain ⟨y, hy, rfl⟩ := List.mem_map.mp hk
    exact not_any_hasKey hany y hy (heq.trans (List.mem_singleton.mp hk'))

theorem modifyFirst_eq_map {p : α → Bool} {k : κ} (hp : ∀ a, p a = true ↔ key a = k)
    (h : (held.map key).Nodup) (g : α → α) :
    modifyFirst p (fun a _ => g a) held = held.map fun a => if key a = k then g a else a := by
  induction held with
  | nil => rfl
  | cons a rest ih =>
    rw [List.map_cons, List.nodup_cons] at h
    cases ha : p a with
    | true =>
      have hkey := (hp a).mp ha
      have hrest : rest.map (fun a => if key a = k then g a else a) = rest := by
        conv_rhs => rw [← List.map_id rest]
        refine List.map_congr_left fun y hy => ?_
        have hne : key y ≠ k := fun heq => h.1 (List.mem_map.mpr ⟨y, hy, heq.trans hkey.symm⟩)
        simp [hne]
      rw [modifyFirst_cons_pos rest ha, List.map_cons, hrest, if_pos hkey]
    | false =>
      have hne : key a ≠ k := fun heq => by simp [(hp a).mpr heq] at ha
      rw [modifyFirst_cons_neg rest ha, List.map_cons, ih h.2, if_neg hne]

theorem upsert_of_mem (h : (held.map key).Nodup) (hentry : entry ∈ held) :
    upsert key entry held = held := by
  have hany : held.any (hasKey key (key entry)) = true :=
    List.any_eq_true.mpr ⟨entry, hentry, hasKey_iff.mpr rfl⟩
  unfold upsert
  rw [if_pos hany, modifyFirst_eq_map (fun _ => hasKey_iff) h fun _ => entry]
  conv_rhs => rw [← List.map_id held]
  refine List.map_congr_left fun y hy => ?_
  split
  case isTrue heq => exact (List.inj_on_of_nodup_map h hy hentry heq).symm
  case isFalse => rfl

theorem forall_mem_upsert {P : α → Prop} (hentry : P entry) (h : ∀ x ∈ held, P x) :
    ∀ x ∈ upsert key entry held, P x := by
  unfold upsert
  split
  · exact forall_mem_modifyFirst h fun _ _ _ => hentry
  · intro x hx
    cases List.mem_append.mp hx with
    | inl hheld => exact h x hheld
    | inr hnew => exact List.mem_singleton.mp hnew ▸ hentry

theorem length_le_upsert : held.length ≤ (upsert key entry held).length := by
  unfold upsert
  split
  · exact Nat.le_of_eq (length_modifyFirst held).symm
  · simp

theorem nodup_upsertAll (h : (held.map key).Nodup) : ((upsertAll key held new).map key).Nodup := by
  induction new generalizing held with
  | nil => exact h
  | cons entry rest ih => exact ih (nodup_upsert h)

theorem nodup_upsertAll_nil : ((upsertAll key [] new).map key).Nodup := nodup_upsertAll (by simp)

theorem length_le_upsertAll : held.length ≤ (upsertAll key held new).length := by
  induction new generalizing held with
  | nil => exact Nat.le_refl _
  | cons entry rest ih => exact Nat.le_trans length_le_upsert ih

theorem mem_upsertAll (h : (held.map key).Nodup) (hnew : (new.map key).Nodup) (x : α) :
    x ∈ upsertAll key held new ↔ x ∈ new ∨ x ∈ held ∧ key x ∉ new.map key := by
  induction new generalizing held with
  | nil => simp [upsertAll]
  | cons entry rest ih =>
    rw [List.map_cons, List.nodup_cons] at hnew
    have hfirst : ((upsert key entry held).map key).Nodup := nodup_upsert h
    have hrest := ih hfirst hnew.2
    rw [mem_upsert h] at hrest
    refine Iff.trans hrest ?_
    rw [List.mem_cons, List.map_cons, List.mem_cons, not_or]
    constructor
    · rintro (hx | ⟨rfl | ⟨hx, hne⟩, hlater⟩)
      · exact .inl (.inr hx)
      · exact .inl (.inl rfl)
      · exact .inr ⟨hx, hne, hlater⟩
    · rintro ((rfl | hx) | ⟨hx, hne, hlater⟩)
      · exact .inr ⟨.inl rfl, hnew.1⟩
      · exact .inl hx
      · exact .inr ⟨.inr ⟨hx, hne⟩, hlater⟩

theorem find?_upsert (k : κ) : (upsert key entry held).find? (hasKey key k) =
    if key entry = k then some entry else held.find? (hasKey key k) := by
  unfold upsert
  split
  case isTrue hany =>
    split
    case isTrue hk =>
      subst hk
      obtain ⟨a, ha⟩ := Option.isSome_iff_exists.mp (List.find?_isSome.mpr (List.any_eq_true.mp hany))
      rw [find?_modifyFirst ha fun _ => hasKey_iff.mpr rfl]
    case isFalse hk =>
      refine find?_modifyFirst_of_disjoint held fun a ha => ?_
      have ha : key a = key entry := hasKey_iff.mp ha
      simp [hasKey, ha, hk]
  case isFalse hany =>
    rw [List.find?_append]
    split
    case isTrue hk =>
      subst hk
      have hnone : held.find? (hasKey key (key entry)) = none :=
        List.find?_eq_none.mpr fun y hy hy' => not_any_hasKey hany y hy (hasKey_iff.mp hy')
      simp [hnone, hasKey]
    case isFalse hk => simp [hasKey, hk]

theorem find?_hasKey_of_mem (h : (held.map key).Nodup) {x : α} (hx : x ∈ held) :
    held.find? (hasKey key (key x)) = some x := by
  have hself : hasKey key (key x) x = true := hasKey_iff.mpr rfl
  obtain ⟨y, hy⟩ := Option.isSome_iff_exists.mp (List.find?_isSome.mpr ⟨x, hx, hself⟩)
  have hkey : key y = key x := hasKey_iff.mp (List.find?_some hy)
  rw [hy, List.inj_on_of_nodup_map h (List.mem_of_find?_eq_some hy) hx hkey]

theorem find?_hasKey_any (h : (held.map key).Nodup) {k : κ} {q : α → Bool} :
    (held.find? (hasKey key k)).any q = true ↔ ∃ x ∈ held, key x = k ∧ q x = true := by
  rw [Option.any_eq_true]
  constructor
  · rintro ⟨x, hx, hq⟩
    have hkey := List.find?_some hx
    exact ⟨x, List.mem_of_find?_eq_some hx, hasKey_iff.mp hkey, hq⟩
  · rintro ⟨x, hx, rfl, hq⟩
    exact ⟨x, find?_hasKey_of_mem h hx, hq⟩

theorem filter_eq_singleton_iff (h : (held.map key).Nodup) {q : α → Bool} {k : κ} :
    (∃ x, held.filter q = [x] ∧ key x = k) ↔
      ∀ k', (held.find? (hasKey key k')).any q = true ↔ k' = k := by
  constructor
  · rintro ⟨x, hx, rfl⟩ k'
    rw [find?_hasKey_any h]
    constructor
    · rintro ⟨y, hy, rfl, hq⟩
      have hmem : y ∈ held.filter q := List.mem_filter.mpr ⟨hy, hq⟩
      rw [hx, List.mem_singleton] at hmem
      rw [hmem]
    · rintro rfl
      have hmem : x ∈ held.filter q := hx ▸ List.mem_singleton_self x
      exact ⟨x, (List.mem_filter.mp hmem).1, rfl, (List.mem_filter.mp hmem).2⟩
  · intro hall
    have hkey : ∀ x ∈ held.filter q, key x = k := fun x hx =>
      (hall (key x)).mp ((find?_hasKey_any h).mpr
        ⟨x, (List.mem_filter.mp hx).1, rfl, (List.mem_filter.mp hx).2⟩)
    have hnodup : ((held.filter q).map key).Nodup := (List.filter_sublist.map key).nodup h
    obtain ⟨x, hx, hxk, hq⟩ := (find?_hasKey_any h).mp ((hall k).mpr rfl)
    have hmem : x ∈ held.filter q := List.mem_filter.mpr ⟨hx, hq⟩
    cases hfilter : held.filter q with
    | nil => rw [hfilter] at hmem; cases hmem
    | cons y rest =>
      cases rest with
      | nil => exact ⟨y, rfl, hkey y (hfilter ▸ List.mem_cons_self)⟩
      | cons z rest =>
        rw [hfilter] at hkey hnodup
        have hsame : key y = key z :=
          (hkey y List.mem_cons_self).trans (hkey z (List.mem_cons_of_mem _ List.mem_cons_self)).symm
        rw [List.map_cons, List.map_cons, hsame] at hnodup
        exact absurd List.mem_cons_self (List.nodup_cons.mp hnodup).1

omit [DecidableEq κ] in
theorem flatMap_eq_of_unique {β : Type v} {g : α → List β} {x : α}
    (hkeys : (held.map key).Nodup) (hx : x ∈ held) (h : ∀ y ∈ held, key y ≠ key x → g y = []) :
    held.flatMap g = g x := by
  induction held with
  | nil => cases hx
  | cons y rest ih =>
    rw [List.map_cons, List.nodup_cons] at hkeys
    rw [List.flatMap_cons]
    cases List.mem_cons.mp hx with
    | inl heq =>
      subst heq
      have hrest : rest.flatMap g = [] := by
        refine List.flatMap_eq_nil_iff.mpr fun z hz => ?_
        exact h z (List.mem_cons_of_mem _ hz) fun heq =>
          hkeys.1 (heq ▸ List.mem_map_of_mem hz)
      rw [hrest, List.append_nil]
    | inr hmem =>
      have hne : key y ≠ key x := fun heq => hkeys.1 (heq ▸ List.mem_map_of_mem hmem)
      rw [h y List.mem_cons_self hne, List.nil_append]
      exact ih hkeys.2 hmem fun z hz => h z (List.mem_cons_of_mem _ hz)

def lastOf (p : α → Bool) (xs : List α) : Option α := (xs.filter p).getLast?

theorem getLast?_filterMap_concat {β : Type v} (f : α → Option β) (xs : List α) (x : α) :
    ((xs ++ [x]).filterMap f).getLast? = (f x).or (xs.filterMap f).getLast? := by
  rw [List.filterMap_append]
  cases h : f x with
  | none => rw [List.filterMap_cons_none h, List.filterMap_nil, List.append_nil, Option.none_or]
  | some y => rw [List.filterMap_cons_some h, List.filterMap_nil, List.getLast?_concat, Option.some_or]

section Latest

variable {p : α → Bool} {xs : List α} {x : α}

theorem lastOf_append_singleton : lastOf p (xs ++ [x]) = if p x then some x else lastOf p xs := by
  unfold lastOf
  by_cases h : p x = true
  · rw [if_pos h, List.filter_append, List.filter_cons_of_pos h, List.filter_nil, List.getLast?_concat]
  · rw [if_neg h, List.filter_append, List.filter_cons_of_neg h, List.filter_nil, List.append_nil]

theorem lastOf_mem (h : lastOf p xs = some x) : x ∈ xs ∧ p x = true :=
  List.mem_filter.mp (List.mem_of_getLast? h)

theorem lastOf_isSome (hx : x ∈ xs) (h : p x = true) : ∃ y, lastOf p xs = some y := by
  have hmem : x ∈ xs.filter p := List.mem_filter.mpr ⟨hx, h⟩
  exact ⟨_, List.getLast?_eq_some_getLast (List.ne_nil_of_mem hmem)⟩

theorem lastOf_of_imp {q : α → Bool} (hq : ∀ a, q a = true → p a = true) (h : lastOf p xs = some x)
    (hx : q x = true) : lastOf q xs = some x := by
  induction xs using List.reverseRecOn with
  | nil => cases h
  | append_singleton rest a ih =>
    rw [lastOf_append_singleton] at h ⊢
    by_cases ha : p a = true
    · rw [if_pos ha] at h
      rw [Option.some.inj h, if_pos hx]
    · rw [if_neg ha] at h
      rw [if_neg fun hqa => ha (hq a hqa), ih h]

theorem lastOf_filterMap {β : Type v} (f : α → Option β) (q : β → Bool) (xs : List α) :
    lastOf q (xs.filterMap f) = (lastOf (fun a => (f a).any q) xs).bind f := by
  induction xs using List.reverseRecOn with
  | nil => rfl
  | append_singleton rest a ih =>
    rw [List.filterMap_append, lastOf_append_singleton]
    cases ha : f a with
    | none => rw [List.filterMap_cons_none ha, List.filterMap_nil, List.append_nil, ih]; rfl
    | some b =>
      rw [List.filterMap_cons_some ha, List.filterMap_nil, lastOf_append_singleton, ih]
      by_cases hb : q b = true
      · rw [if_pos hb, if_pos (by exact hb), Option.bind_some, ha]
      · rw [if_neg hb, if_neg (by exact hb)]

end Latest

theorem upsertAll_append (new new' : List α) :
    upsertAll key held (new ++ new') = upsertAll key (upsertAll key held new) new' :=
  List.foldl_append

theorem upsertAll_append_singleton (new : List α) :
    upsertAll key held (new ++ [entry]) = upsert key entry (upsertAll key held new) :=
  upsertAll_append new [entry]

theorem foldl_eq_upsertAll {ε : Type v} {learn : List α → ε → List α} {read : ε → Option α}
    (h : ∀ held entry, learn held entry = upsertAll key held (read entry).toList) (entries : List ε)
    (held : List α) : entries.foldl learn held = upsertAll key held (entries.filterMap read) := by
  induction entries generalizing held with
  | nil => rfl
  | cons entry rest ih =>
    rw [List.foldl_cons, ih, h, ← upsertAll_append]
    cases hread : read entry with
    | none => rw [List.filterMap_cons_none hread]; rfl
    | some x => rw [List.filterMap_cons_some hread]; rfl

theorem find?_upsertAll_hasKey (new : List α) (k : κ) :
    (upsertAll key [] new).find? (hasKey key k) = lastOf (hasKey key k) new := by
  induction new using List.reverseRecOn with
  | nil => rfl
  | append_singleton new a ih =>
    rw [upsertAll_append_singleton, find?_upsert, lastOf_append_singleton, ih]
    by_cases ha : key a = k
    · rw [if_pos ha, if_pos (hasKey_iff.mpr ha)]
    · rw [if_neg ha, if_neg fun h => ha (hasKey_iff.mp h)]

theorem any_upsertAll (new : List α) (k : κ) :
    (upsertAll key [] new).any (hasKey key k) = true ↔ ∃ a ∈ new, key a = k := by
  rw [List.any_eq_true, ← List.find?_isSome, find?_upsertAll_hasKey]
  constructor
  · intro h
    obtain ⟨a, ha⟩ := Option.isSome_iff_exists.mp h
    exact ⟨a, (lastOf_mem ha).1, hasKey_iff.mp (lastOf_mem ha).2⟩
  · rintro ⟨a, ha, hkey⟩
    obtain ⟨b, hb⟩ := lastOf_isSome ha (hasKey_iff.mpr hkey)
    rw [hb]
    rfl

theorem findSome?_congr {β : Type v} {f g : α → Option β} {xs : List α} (h : ∀ a ∈ xs, f a = g a) :
    xs.findSome? f = xs.findSome? g := by
  induction xs with
  | nil => rfl
  | cons a rest ih =>
    rw [List.findSome?_cons, List.findSome?_cons, h a List.mem_cons_self,
      ih fun b hb => h b (List.mem_cons_of_mem _ hb)]

theorem find?_upsertAll (q : α → Bool) (new : List α) :
    (upsertAll key [] new).find? q =
      new.findSome? fun a => (lastOf (hasKey key (key a)) new).filter q := by
  induction new using List.reverseRecOn generalizing q with
  | nil => rfl
  | append_singleton new a ih =>
    have hnodup : ((upsertAll key [] new).map key).Nodup := nodup_upsertAll_nil
    rw [upsertAll_append_singleton, List.findSome?_append, List.findSome?_singleton,
      lastOf_append_singleton, if_pos (hasKey_iff.mpr rfl)]
    by_cases hany : (upsertAll key [] new).any (hasKey key (key a)) = true
    · let put := fun c => if key c = key a then a else c
      have heach : ∀ b ∈ new, (lastOf (hasKey key (key b)) (new ++ [a])).filter q =
          ((lastOf (hasKey key (key b)) new).filter (q ∘ put)).map put := by
        intro b hb
        have hself : hasKey key (key b) b = true := hasKey_iff.mpr rfl
        obtain ⟨c, hc⟩ := lastOf_isSome hb hself
        have hkey : key c = key b := hasKey_iff.mp (lastOf_mem hc).2
        rw [lastOf_append_singleton, hc]
        by_cases ha : key a = key b
        · have hput : put c = a := if_pos (hkey.trans ha.symm)
          rw [if_pos (hasKey_iff.mpr ha)]
          cases hq : q a <;> simp [Option.filter, hput, hq]
        · have hput : put c = c := if_neg fun h => ha (h.symm.trans hkey)
          rw [if_neg fun h => ha (hasKey_iff.mp h)]
          cases hq : q c <;> simp [Option.filter, hput, hq]
      have hmap : modifyFirst (hasKey key (key a)) (fun _ _ => a) (upsertAll key [] new) =
          (upsertAll key [] new).map put :=
        modifyFirst_eq_map (fun _ => hasKey_iff) hnodup fun _ => a
      have hfind : (upsert key a (upsertAll key [] new)).find? q =
          new.findSome? fun b => (lastOf (hasKey key (key b)) (new ++ [a])).filter q := by
        rw [upsert, if_pos hany, hmap, List.find?_map, ih, List.map_findSome?]
        exact findSome?_congr fun b hb => (heach b hb).symm
      rw [hfind]
      cases hfound : new.findSome? fun b => (lastOf (hasKey key (key b)) (new ++ [a])).filter q with
      | some c => rfl
      | none =>
        obtain ⟨b, hb, hkey⟩ := (any_upsertAll new (key a)).mp hany
        have hnone := List.findSome?_eq_none_iff.mp hfound b hb
        rw [lastOf_append_singleton, if_pos (hasKey_iff.mpr hkey.symm)] at hnone
        rw [hnone]
        rfl
    · have hearlier : ∀ b ∈ new, (lastOf (hasKey key (key b)) (new ++ [a])).filter q =
          (lastOf (hasKey key (key b)) new).filter q := by
        intro b hb
        have hne : ¬hasKey key (key b) a = true := fun h =>
          hany ((any_upsertAll new (key a)).mpr ⟨b, hb, (hasKey_iff.mp h).symm⟩)
        rw [lastOf_append_singleton, if_neg hne]
      rw [upsert, if_neg hany, List.find?_append, ih, findSome?_congr hearlier]
      cases hq : q a <;> simp [Option.filter, hq]

theorem eraseP_hasKey (h : (held.map key).Nodup) (k : κ) :
    held.eraseP (hasKey key k) = held.filter fun a => !hasKey key k a := by
  induction held with
  | nil => rfl
  | cons x rest ih =>
    rw [List.map_cons, List.nodup_cons] at h
    cases hx : hasKey key k x with
    | true =>
      have hkey := hasKey_iff.mp hx
      have hrest : ∀ a ∈ rest, (!hasKey key k a) = true := by
        intro a ha
        have hne : key a ≠ k := fun heq => h.1 (List.mem_map.mpr ⟨a, ha, heq.trans hkey.symm⟩)
        simpa [hasKey] using hne
      rw [List.eraseP_cons_of_pos hx, List.filter_cons_of_neg (by simp [hx]),
        List.filter_eq_self.mpr hrest]
    | false => rw [List.eraseP_cons_of_neg (by simp [hx]), ih h.2,
        List.filter_cons_of_pos (by simp [hx])]

theorem find?_eraseP_hasKey (h : (held.map key).Nodup) (k k' : κ) :
    (held.eraseP (hasKey key k)).find? (hasKey key k') =
      if k = k' then none else held.find? (hasKey key k') := by
  rw [eraseP_hasKey h, List.find?_filter]
  split
  case isTrue heq =>
    subst heq
    rw [List.find?_eq_none]
    simp
  case isFalse hne =>
    congr 1
    funext a
    by_cases ha : key a = k'
    · simp [hasKey, ha, Ne.symm hne]
    · simp [hasKey, ha]

theorem length_eraseP_hasKey_lt {keys : List κ} (h : (held.map key).Nodup)
    (hkeys : ∀ a ∈ held, key a ∈ keys) {k : κ} (hk : k ∈ keys) :
    (held.eraseP (hasKey key k)).length < keys.length := by
  let rest := held.eraseP (hasKey key k)
  have hrest : rest = held.filter fun a => !hasKey key k a := eraseP_hasKey h k
  have hsub : rest.Sublist held := List.eraseP_sublist
  have hnodup : (k :: rest.map key).Nodup := by
    rw [List.nodup_cons]
    refine ⟨fun hmem => ?_, (hsub.map key).nodup h⟩
    obtain ⟨a, ha, heq⟩ := List.mem_map.mp hmem
    rw [hrest, List.mem_filter] at ha
    simp [hasKey, heq] at ha
  have hsubset : (k :: rest.map key) ⊆ keys := by
    intro x hx
    cases List.mem_cons.mp hx with
    | inl heq => rwa [heq]
    | inr hmem =>
      obtain ⟨a, ha, rfl⟩ := List.mem_map.mp hmem
      exact hkeys a (hsub.subset ha)
  have hlength := (List.subperm_of_subset hnodup hsubset).length_le
  rw [List.length_cons, List.length_map] at hlength
  exact hlength

end Eebus.Library
