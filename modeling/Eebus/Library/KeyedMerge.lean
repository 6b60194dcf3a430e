import Mathlib.Data.List.Basic
import Mathlib.Data.List.Forall2

/-! Lists whose elements are merged by what they stand for. An element is merged into the first one that
stands for the same thing, or goes to the end. Some elements stand for nothing, not even themselves. -/

namespace Eebus.Library

universe u
variable {α : Type u} (same : α → α → Bool) (merge : α → α → α)

def mergeInto : List α → α → List α
  | [], item => [item]
  | existing :: rest, item =>
    if same existing item then merge existing item :: rest else existing :: mergeInto rest item

def mergeAll (held incoming : List α) : List α := incoming.foldl (mergeInto same merge) held

/-- Standing for the same thing is an equivalence between the elements that stand for something, and a
merge keeps what the element stands for. -/
structure KeyedMerge : Prop where
  symm : ∀ {a b}, same a b = true → same b a = true
  trans : ∀ {a b c}, same a b = true → same b c = true → same a c = true
  merge_same : ∀ {a b}, same a b = true → same (merge a b) a = true
  merge_self : ∀ a, merge a a = a
  merge_assoc : ∀ a b c, merge (merge a b) c = merge a (merge b c)

namespace KeyedMerge

variable {same merge} (laws : KeyedMerge same merge) {a b item : α} {held first : List α}

include laws

theorem same_left (h : same a b = true) (item : α) : same a item = same b item :=
  Bool.eq_iff_iff.mpr ⟨laws.trans (laws.symm h), laws.trans h⟩

theorem same_comm (a b : α) : same a b = same b a :=
  Bool.eq_iff_iff.mpr ⟨laws.symm, laws.symm⟩

theorem same_merge (h : same a b = true) (item : α) : same (merge a b) item = same a item :=
  laws.same_left (laws.merge_same h) item

theorem mergeInto_mergeInto_of_same (h : same a item = true) (held : List α) :
    mergeInto same merge (mergeInto same merge held a) item = mergeInto same merge held (merge a item) := by
  have hmerged : ∀ e, same e (merge a item) = same e a := fun e => by
    rw [laws.same_comm, laws.same_merge h, laws.same_comm]
  induction held with
  | nil => simp [mergeInto, h]
  | cons e rest ih =>
    cases he : same e a with
    | true =>
      have hitem : same (merge e a) item = true := by rw [laws.same_merge he, laws.same_left he, h]
      simp [mergeInto, he, hmerged, hitem, laws.merge_assoc]
    | false =>
      have hitem : same e item = false := by rw [laws.same_comm, ← laws.same_left h, laws.same_comm, he]
      simp [mergeInto, he, hmerged, hitem, ih]

theorem mergeInto_comm (h : same b item = false) (hheld : ∃ e ∈ held, same e item = true) :
    mergeInto same merge (mergeInto same merge held b) item =
      mergeInto same merge (mergeInto same merge held item) b := by
  induction held with
  | nil => simp at hheld
  | cons e rest ih =>
    cases hb : same e b <;> cases hitem : same e item
    · have hrest : ∃ e ∈ rest, same e item = true := by
        obtain ⟨x, hx, hsame⟩ := hheld
        obtain rfl | hx := List.mem_cons.mp hx
        · rw [hitem] at hsame
          simp at hsame
        · exact ⟨x, hx, hsame⟩
      simp [mergeInto, hb, hitem, ih hrest]
    · simp [mergeInto, hb, hitem, laws.same_merge hitem]
    · simp [mergeInto, hb, hitem, laws.same_merge hb]
    · rw [← laws.same_left hb, hitem] at h
      simp at h

theorem exists_same_mergeInto (h : ∃ e ∈ held, same e item = true) (b : α) :
    ∃ e ∈ mergeInto same merge held b, same e item = true := by
  induction held with
  | nil => simp at h
  | cons e rest ih =>
    obtain ⟨x, hx, hsame⟩ := h
    cases hb : same e b with
    | true =>
      obtain rfl | hx := List.mem_cons.mp hx
      · exact ⟨merge x b, by simp [mergeInto, hb], by rw [laws.same_merge hb, hsame]⟩
      · exact ⟨x, by simp [mergeInto, hb, hx], hsame⟩
    | false =>
      obtain rfl | hx := List.mem_cons.mp hx
      · exact ⟨x, by simp [mergeInto, hb], hsame⟩
      · obtain ⟨y, hy, hsame⟩ := ih ⟨x, hx, hsame⟩
        exact ⟨y, by simp [mergeInto, hb, hy], hsame⟩

omit laws in
theorem exists_same_mergeInto_self (h : same a item = true)
    (hmerge : ∀ e, same e a = true → same (merge e a) item = true) (held : List α) :
    ∃ e ∈ mergeInto same merge held a, same e item = true := by
  induction held with
  | nil => exact ⟨a, by simp [mergeInto], h⟩
  | cons e rest ih =>
    cases he : same e a with
    | true => exact ⟨merge e a, by simp [mergeInto, he], hmerge e he⟩
    | false =>
      obtain ⟨y, hy, hsame⟩ := ih
      exact ⟨y, by simp [mergeInto, he, hy], hsame⟩

theorem mergeAll_comm (h : ∀ b ∈ first, same b item = false) (hheld : ∃ e ∈ held, same e item = true) :
    mergeInto same merge (mergeAll same merge held first) item =
      mergeAll same merge (mergeInto same merge held item) first := by
  induction first generalizing held with
  | nil => rfl
  | cons b rest ih =>
    have hb := laws.mergeInto_comm (h b List.mem_cons_self) hheld
    have hrest := ih (fun b hb => h b (List.mem_cons_of_mem _ hb)) (laws.exists_same_mergeInto hheld b)
    calc
      mergeInto same merge (mergeAll same merge held (b :: rest)) item
          = mergeAll same merge (mergeInto same merge (mergeInto same merge held b) item) rest := hrest
      _ = mergeAll same merge (mergeInto same merge held item) (b :: rest) := by rw [hb]; rfl

section

variable (hdistinct : first.Pairwise fun a b => same a b = false)

include hdistinct

theorem mergeAll_mergeInto (held : List α) (item : α) :
    mergeAll same merge held (mergeInto same merge first item) =
      mergeInto same merge (mergeAll same merge held first) item := by
  induction first generalizing held with
  | nil => rfl
  | cons a rest ih =>
    obtain ⟨ha, hrest⟩ := List.pairwise_cons.mp hdistinct
    cases hsame : same a item with
    | true =>
      have hothers : ∀ b ∈ rest, same b item = false := fun b hb => by
        rw [laws.same_comm, ← laws.same_left hsame, ha b hb]
      have hstands := exists_same_mergeInto_self hsame
        (fun e he => by rw [laws.same_merge he, laws.same_left he, hsame]) held
      calc
        mergeAll same merge held (mergeInto same merge (a :: rest) item)
            = mergeAll same merge (mergeInto same merge held (merge a item)) rest := by
              simp [mergeInto, hsame, mergeAll]
        _ = mergeAll same merge (mergeInto same merge (mergeInto same merge held a) item) rest := by
              rw [laws.mergeInto_mergeInto_of_same hsame]
        _ = mergeInto same merge (mergeAll same merge held (a :: rest)) item :=
              (laws.mergeAll_comm hothers hstands).symm
    | false =>
      have hcons : mergeInto same merge (a :: rest) item = a :: mergeInto same merge rest item := by
        simp [mergeInto, hsame]
      rw [hcons]
      exact ih hrest (mergeInto same merge held a)

theorem pairwise_mergeInto (item : α) :
    (mergeInto same merge first item).Pairwise fun a b => same a b = false := by
  have hmem : ∀ {held : List α} {x : α}, x ∈ mergeInto same merge held item →
      (∃ e ∈ held, ∀ c, same x c = same e c) ∨ x = item := by
    intro held
    induction held with
    | nil =>
      intro x hx
      exact .inr (List.mem_singleton.mp hx)
    | cons e rest ih =>
      intro x hx
      cases he : same e item with
      | true =>
        rw [mergeInto, if_pos he] at hx
        obtain rfl | hx := List.mem_cons.mp hx
        · exact .inl ⟨e, List.mem_cons_self, laws.same_merge he⟩
        · exact .inl ⟨x, List.mem_cons_of_mem _ hx, fun _ => rfl⟩
      | false =>
        rw [mergeInto, if_neg (by simp [he])] at hx
        obtain rfl | hx := List.mem_cons.mp hx
        · exact .inl ⟨x, List.mem_cons_self, fun _ => rfl⟩
        · obtain ⟨y, hy, hsame⟩ | rfl := ih hx
          · exact .inl ⟨y, List.mem_cons_of_mem _ hy, hsame⟩
          · exact .inr rfl
  induction first with
  | nil => simp [mergeInto]
  | cons a rest ih =>
    obtain ⟨ha, hrest⟩ := List.pairwise_cons.mp hdistinct
    cases hsame : same a item with
    | true =>
      rw [mergeInto, if_pos hsame, List.pairwise_cons]
      exact ⟨fun b hb => by rw [laws.same_merge hsame, ha b hb], hrest⟩
    | false =>
      rw [mergeInto, if_neg (by simp [hsame]), List.pairwise_cons]
      refine ⟨fun b hb => ?_, ih hrest⟩
      obtain ⟨e, he, hsame'⟩ | rfl := hmem hb
      · rw [laws.same_comm, hsame', laws.same_comm, ha e he]
      · exact hsame

theorem pairwise_mergeAll (incoming : List α) :
    (mergeAll same merge first incoming).Pairwise fun a b => same a b = false := by
  induction incoming generalizing first with
  | nil => exact hdistinct
  | cons item rest ih => exact ih (laws.pairwise_mergeInto hdistinct item)

/-- Merging in two lists after each other is merging in what the second makes of the first, where the first
names each thing once. -/
theorem mergeAll_assoc (held second : List α) :
    mergeAll same merge (mergeAll same merge held first) second =
      mergeAll same merge held (mergeAll same merge first second) := by
  induction second generalizing first with
  | nil => rfl
  | cons item rest ih =>
    calc
      mergeAll same merge (mergeAll same merge held first) (item :: rest)
          = mergeAll same merge (mergeAll same merge held (mergeInto same merge first item)) rest := by
            rw [laws.mergeAll_mergeInto hdistinct]; rfl
      _ = mergeAll same merge held (mergeAll same merge first (item :: rest)) :=
            ih (laws.pairwise_mergeInto hdistinct item)

end

omit laws in
/-- The element that stands for what `item` stands for would take nothing from it. -/
def Absorbed (same : α → α → Bool) (merge : α → α → α) (held : List α) (item : α) : Prop :=
  ∃ e, held.find? (fun e => same e item) = some e ∧ merge e item = e

omit laws in
theorem mergeInto_of_absorbed (h : Absorbed same merge held item) : mergeInto same merge held item = held := by
  obtain ⟨e, hfind, he⟩ := h
  induction held with
  | nil => simp at hfind
  | cons x rest ih =>
    cases hx : same x item with
    | true =>
      obtain rfl : x = e := by simpa [hx] using hfind
      simp [mergeInto, hx, he]
    | false =>
      have hrest : rest.find? (fun e => same e item) = some e := by simpa [hx] using hfind
      simp [mergeInto, hx, ih hrest]

theorem find?_mergeInto_of_not_same (h : same a item = false) (held : List α) :
    (mergeInto same merge held a).find? (fun e => same e item) = held.find? fun e => same e item := by
  induction held with
  | nil => simp [mergeInto, h]
  | cons e rest ih =>
    cases he : same e a with
    | true =>
      have hitem : same e item = false := by rw [laws.same_left he, h]
      simp [mergeInto, he, laws.same_merge he, hitem]
    | false =>
      cases hitem : same e item with
      | true => simp [mergeInto, he, hitem]
      | false => simp [mergeInto, he, hitem, ih]

theorem absorbed_mergeInto (h : same item item = true) (held : List α) :
    Absorbed same merge (mergeInto same merge held item) item := by
  induction held with
  | nil => exact ⟨item, by simp [mergeInto, h], laws.merge_self item⟩
  | cons e rest ih =>
    cases he : same e item with
    | true =>
      have hmerged : same (merge e item) item = true := by rw [laws.same_merge he, he]
      refine ⟨merge e item, by simp [mergeInto, he, hmerged], ?_⟩
      rw [laws.merge_assoc, laws.merge_self]
    | false =>
      obtain ⟨x, hfind, hx⟩ := ih
      exact ⟨x, by simp [mergeInto, he, hfind], hx⟩

theorem absorbed_mergeAll (h : Absorbed same merge held item)
    (hothers : ∀ a ∈ first, same a item = false) :
    Absorbed same merge (mergeAll same merge held first) item := by
  induction first generalizing held with
  | nil => exact h
  | cons a rest ih =>
    obtain ⟨e, hfind, he⟩ := h
    refine ih ⟨e, ?_, he⟩ fun b hb => hothers b (List.mem_cons_of_mem _ hb)
    rw [laws.find?_mergeInto_of_not_same (hothers a List.mem_cons_self), hfind]

omit laws in
theorem mergeAll_of_absorbed (h : ∀ item ∈ first, Absorbed same merge held item) :
    mergeAll same merge held first = held := by
  induction first with
  | nil => rfl
  | cons item rest ih =>
    change mergeAll same merge (mergeInto same merge held item) rest = held
    rw [mergeInto_of_absorbed (h item List.mem_cons_self)]
    exact ih fun b hb => h b (List.mem_cons_of_mem _ hb)

theorem absorbed_of_distinct (hdistinct : first.Pairwise fun a b => same a b = false)
    (hnamed : ∀ item ∈ first, same item item = true) (held : List α) :
    ∀ item ∈ first, Absorbed same merge (mergeAll same merge held first) item := by
  induction first generalizing held with
  | nil => simp
  | cons a rest ih =>
    obtain ⟨ha, hrest⟩ := List.pairwise_cons.mp hdistinct
    obtain ⟨hname, hnames⟩ := List.forall_mem_cons.mp hnamed
    refine List.forall_mem_cons.mpr ⟨?_, ih hrest hnames (mergeInto same merge held a)⟩
    have hothers : ∀ b ∈ rest, same b a = false := fun b hb => by rw [laws.same_comm, ha b hb]
    change Absorbed same merge (mergeAll same merge (mergeInto same merge held a) rest) a
    exact laws.absorbed_mergeAll (laws.absorbed_mergeInto hname held) hothers

theorem named_mergeInto (hheld : ∀ e ∈ held, same e e = true) (hitem : same item item = true) :
    ∀ e ∈ mergeInto same merge held item, same e e = true := by
  induction held with
  | nil => simpa [mergeInto] using hitem
  | cons a rest ih =>
    obtain ⟨ha, hrest⟩ := List.forall_mem_cons.mp hheld
    cases hsame : same a item with
    | true =>
      have hmerged : same (merge a item) (merge a item) = true := by
        rw [laws.same_merge hsame, laws.same_comm, laws.same_merge hsame, ha]
      simpa [mergeInto, hsame, hmerged] using hrest
    | false => simpa [mergeInto, hsame, ha] using ih hrest

theorem named_mergeAll (hheld : ∀ e ∈ held, same e e = true)
    (hnamed : ∀ item ∈ first, same item item = true) :
    ∀ e ∈ mergeAll same merge held first, same e e = true := by
  induction first generalizing held with
  | nil => exact hheld
  | cons item rest ih =>
    obtain ⟨hitem, hrest⟩ := List.forall_mem_cons.mp hnamed
    exact ih (laws.named_mergeInto hheld hitem) hrest

theorem mergeAll_idem (hnamed : ∀ item ∈ first, same item item = true) (held : List α) :
    mergeAll same merge (mergeAll same merge held first) first = mergeAll same merge held first := by
  -- Each thing is named once in what the elements make of each other.
  have hdistinct : (mergeAll same merge [] first).Pairwise fun a b => same a b = false :=
    laws.pairwise_mergeAll List.Pairwise.nil first
  have hnamed' : ∀ item ∈ mergeAll same merge [] first, same item item = true :=
    laws.named_mergeAll (by simp) hnamed
  have hcollect : ∀ held, mergeAll same merge held first =
      mergeAll same merge held (mergeAll same merge [] first) :=
    fun held => laws.mergeAll_assoc List.Pairwise.nil held first
  rw [hcollect (mergeAll same merge held first), hcollect held]
  exact mergeAll_of_absorbed (laws.absorbed_of_distinct hdistinct hnamed' held)

end KeyedMerge

section Held

variable {same merge} (laws : KeyedMerge same merge)

include laws

theorem mergeAll_cons (e : α) (rest incoming : List α) :
    mergeAll same merge (e :: rest) incoming =
      (incoming.filter (same e)).foldl merge e ::
        mergeAll same merge rest (incoming.filter fun item => !same e item) := by
  induction incoming generalizing e rest with
  | nil => rfl
  | cons item incoming ih =>
    cases he : same e item with
    | true =>
      have hkey : same (merge e item) = same e := funext (laws.same_merge he)
      calc
        mergeAll same merge (e :: rest) (item :: incoming)
            = mergeAll same merge (merge e item :: rest) incoming := by simp [mergeAll, mergeInto, he]
        _ = _ := by rw [ih, hkey]; simp [he]
    | false =>
      calc
        mergeAll same merge (e :: rest) (item :: incoming)
            = mergeAll same merge (e :: mergeInto same merge rest item) incoming := by
              simp [mergeAll, mergeInto, he]
        _ = _ := by rw [ih]; simp [he, mergeAll]

/-- An element after those among `incoming` that stand for what it stands for. -/
def Grown (same : α → α → Bool) (merge : α → α → α) (incoming : List α) (old new : α) : Prop :=
  ∃ merged, (∀ item ∈ merged, item ∈ incoming ∧ same old item = true) ∧ new = List.foldl merge old merged

omit laws in
theorem Grown.mono {first second : List α} {old new : α} (h : Grown same merge first old new)
    (hsub : ∀ item ∈ first, item ∈ second) : Grown same merge second old new := by
  obtain ⟨merged, hmerged, heq⟩ := h
  exact ⟨merged, fun item hitem => ⟨hsub item (hmerged item hitem).1, (hmerged item hitem).2⟩, heq⟩

theorem mergeAll_grows (held incoming : List α) :
    ∃ kept appended, mergeAll same merge held incoming = kept ++ appended ∧
      List.Forall₂ (Grown same merge incoming) held kept := by
  induction held generalizing incoming with
  | nil => exact ⟨[], _, rfl, .nil⟩
  | cons e rest ih =>
    obtain ⟨kept, appended, heq, hgrown⟩ := ih (incoming.filter fun item => !same e item)
    refine ⟨(incoming.filter (same e)).foldl merge e :: kept, appended, ?_, .cons ⟨_, ?_, rfl⟩ ?_⟩
    · rw [mergeAll_cons laws, heq, List.cons_append]
    · exact fun item hitem => List.mem_filter.mp hitem
    · exact hgrown.imp fun _ _ h => h.mono fun item hitem => (List.mem_filter.mp hitem).1

end Held

end Eebus.Library
