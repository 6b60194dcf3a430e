import Eebus.Model.Deletion

/-! What an update makes of a function that holds nothing yet. Merging the entries of a partial
update one by one gives the update back exactly when no two of them are the same entry. -/

namespace Eebus.Model

namespace FunctionType

variable {Data : Type} (F : FunctionType Data)

theorem mergeEntry_of_new {acc : List F.Item} {item : F.Item}
    (h : ∀ a ∈ acc, F.sameEntry a item = false) : F.mergeEntry acc item = acc ++ [item] := by
  induction acc with
  | nil => rfl
  | cons existing rest ih =>
    have hfirst := h existing List.mem_cons_self
    have hrest := ih fun a ha => h a (List.mem_cons_of_mem existing ha)
    simp [mergeEntry, hfirst, hrest]

theorem length_mergeEntry_of_known {acc : List F.Item} {item : F.Item}
    (h : ∃ a ∈ acc, F.sameEntry a item = true) : (F.mergeEntry acc item).length = acc.length := by
  induction acc with
  | nil => simp at h
  | cons existing rest ih =>
    cases hsame : F.sameEntry existing item with
    | true => simp [mergeEntry, hsame]
    | false =>
      have hrest : ∃ a ∈ rest, F.sameEntry a item = true := by
        obtain ⟨a, ha, hsame'⟩ := h
        cases List.mem_cons.mp ha with
        | inl heq =>
          rw [heq, hsame] at hsame'
          simp at hsame'
        | inr ha => exact ⟨a, ha, hsame'⟩
      simp [mergeEntry, hsame, ih hrest]

theorem length_foldl_mergeEntry_le (incoming acc : List F.Item) :
    (incoming.foldl F.mergeEntry acc).length ≤ acc.length + incoming.length := by
  induction incoming generalizing acc with
  | nil => simp
  | cons item rest ih =>
    have hstep : (F.mergeEntry acc item).length ≤ acc.length + 1 := by
      by_cases h : ∃ a ∈ acc, F.sameEntry a item = true
      · rw [F.length_mergeEntry_of_known h]
        omega
      · push Not at h
        rw [F.mergeEntry_of_new fun a ha => by simpa using h a ha]
        simp
    have hrest := ih (F.mergeEntry acc item)
    simp only [List.foldl_cons, List.length_cons]
    omega

/-- Entries are appended one by one exactly when none of them has been seen before: an entry that
is merged into an earlier one leaves the list shorter, and nothing makes up for it. -/
theorem foldl_mergeEntry_eq_append_iff (incoming acc : List F.Item) :
    incoming.foldl F.mergeEntry acc = acc ++ incoming ↔
      (incoming.Pairwise fun a b => F.sameEntry a b = false) ∧
        ∀ a ∈ acc, ∀ b ∈ incoming, F.sameEntry a b = false := by
  induction incoming generalizing acc with
  | nil => simp
  | cons item rest ih =>
    rw [List.foldl_cons]
    by_cases h : ∃ a ∈ acc, F.sameEntry a item = true
    · have hlength := F.length_foldl_mergeEntry_le rest (F.mergeEntry acc item)
      rw [F.length_mergeEntry_of_known h] at hlength
      obtain ⟨a, ha, hsame⟩ := h
      constructor
      · intro heq
        rw [heq] at hlength
        simp at hlength
      · rintro ⟨-, hnew⟩
        rw [hnew a ha item List.mem_cons_self] at hsame
        simp at hsame
    · push Not at h
      have hnew : ∀ a ∈ acc, F.sameEntry a item = false := fun a ha => by simpa using h a ha
      rw [F.mergeEntry_of_new hnew, show acc ++ item :: rest = acc ++ [item] ++ rest by simp, ih,
        List.pairwise_cons]
      constructor
      · rintro ⟨hrest, hacc⟩
        refine ⟨⟨fun b hb => hacc item (by simp) b hb, hrest⟩, fun a ha b hb => ?_⟩
        cases List.mem_cons.mp hb with
        | inl heq => rw [heq]; exact hnew a ha
        | inr hb => exact hacc a (List.mem_append_left _ ha) b hb
      · rintro ⟨⟨hitem, hrest⟩, hacc⟩
        refine ⟨hrest, fun a ha b hb => ?_⟩
        cases List.mem_append.mp ha with
        | inl ha => exact hacc a ha b (List.mem_cons_of_mem item hb)
        | inr ha => rw [List.mem_singleton.mp ha]; exact hitem b hb

def identifiersDistinct (value : Data) : Prop :=
  F.isMergeableList = true →
    ((F.entries value).getD []).Pairwise fun a b => F.sameEntry a b = false

theorem setEntries_eq_iff (hlist : F.isMergeableList = true) (stored value : Data)
    (es : Option (List F.Item)) : F.setEntries stored es = value ↔ es = F.entries value := by
  constructor
  · intro h
    rw [← h, F.entries_setEntries hlist]
  · intro h
    exact F.entries_injective hlist _ _ (by rw [F.entries_setEntries hlist, h])

theorem apply_full (stored update : Data) : F.apply stored update false = update := by
  cases hlist : F.isMergeableList with
  | false => simp [apply, hlist]
  | true => simp [apply, hlist, applyFull, F.setEntries_eq_iff hlist]

theorem applyPartial_default_eq_iff (hlist : F.isMergeableList = true) (update : Data) :
    F.applyPartial F.default update = update ↔
      ((F.entries update).getD []).Pairwise fun a b => F.sameEntry a b = false := by
  cases hentries : F.entries update with
  | none =>
    have hdefault : F.default = update :=
      F.entries_injective hlist _ _ (by rw [F.entries_default, hentries])
    simp [applyPartial, hentries, hdefault]
  | some incoming =>
    simp only [applyPartial, hentries, F.entries_default, Option.getD_none, Option.getD_some]
    rw [F.setEntries_eq_iff hlist, hentries, Option.some.injEq]
    have happend := F.foldl_mergeEntry_eq_append_iff incoming []
    simpa using happend

theorem apply_default_eq_iff (update : Data) (isPartial : Bool) :
    F.apply F.default update isPartial = update ↔
      (isPartial = true → F.identifiersDistinct update) := by
  cases isPartial with
  | false => simp [apply_full]
  | true =>
    cases hlist : F.isMergeableList with
    | false => simp [apply, hlist, F.merge_default, identifiersDistinct]
    | true => simpa [apply, hlist, identifiersDistinct] using F.applyPartial_default_eq_iff hlist update

end FunctionType

namespace CmdData

variable {S : Schema}

def identifiersDistinct (data : CmdData S) : Prop :=
  (S.type data.key).identifiersDistinct data.value

def blank (data : CmdData S) : CmdData S := ⟨data.key, (S.type data.key).default⟩

theorem empty_function (data : CmdData S) : empty data.function = some data.blank := rfl

theorem apply_blank (data : CmdData S) (isPartial : Bool) : data.blank.apply data isPartial =
      .ok ⟨data.key, (S.type data.key).apply (S.type data.key).default data.value isPartial⟩ := by
  simp [apply, blank]

theorem apply_full {stored data : CmdData S} (hkey : stored.key = data.key) :
    stored.apply data false = .ok data := by
  obtain ⟨key, value⟩ := stored
  obtain ⟨key', update⟩ := data
  cases hkey
  simp [apply, FunctionType.apply_full]

theorem eq_blank_of_size_le {data stored : CmdData S} (hkey : stored.key = data.key)
    (hsize : stored.size ≤ data.blank.size) : stored = data.blank := by
  obtain ⟨key, value⟩ := stored
  obtain ⟨key', update⟩ := data
  cases hkey
  simp only [size, blank] at hsize
  cases (S.type key).default_least value with
  | inl heq => rw [heq, blank]
  | inr hlt => omega

end CmdData

end Eebus.Model
