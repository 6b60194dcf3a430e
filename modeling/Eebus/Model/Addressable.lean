import Eebus.Model.Entries

/-! Which lists can be addressed entry by entry, and what the operations of the data choice leave
of that. A partial update and a deletion keep a list addressable; what is stored as it comes is
only as addressable as it came. -/

namespace Eebus.Model

namespace FunctionType

variable {Data : Type} (F : FunctionType Data)

/-- Every entry of a list value carries its identifiers, and no two entries carry the same. -/
structure Addressable (value : Data) : Prop where
  identified : F.entriesIdentified value = true
  distinct : F.identifiersDistinct value

/-- What the schema tables say of every function: merging an entry into the one it names and
restoring identifiers keep the identifiers, and a list has no filter that clears it as a whole. -/
structure KeepsIdentity : Prop where
  mergeItem : ∀ existing item, F.sameEntry existing item = true →
    F.identity (F.mergeItem existing item) = F.identity existing
  restoreIdentity : ∀ item source, F.identity (F.restoreIdentity item source) = F.identity source
  listRow : F.isMergeableList = true → F.row ≠ .plain

variable {F}

theorem sameEntry_iff {a b : F.Item} :
    F.sameEntry a b = true ↔ F.hasIdentity a = true ∧ F.identity a = F.identity b := by
  unfold sameEntry hasIdentity
  cases F.identity a <;> cases F.identity b <;> simp

/-- The identifiers of a list, as they stand in it: addressable when none is missing or repeated. -/
def Distinct (identities : List (Option F.Identity)) : Prop :=
  none ∉ identities ∧ identities.Nodup

theorem Distinct.sublist {l l' : List (Option F.Identity)} (h : Distinct l) (hsub : l'.Sublist l) :
    Distinct l' :=
  ⟨fun hmem => h.1 (hsub.subset hmem), h.2.sublist hsub⟩

theorem distinct_identities_iff (es : List F.Item) :
    Distinct (es.map F.identity) ↔
      es.all F.hasIdentity = true ∧ es.Pairwise fun a b => F.sameEntry a b = false := by
  induction es with
  | nil => simp [Distinct]
  | cons x es ih =>
    simp only [Distinct, List.map_cons, List.mem_cons, not_or, List.nodup_cons, List.all_cons,
      Bool.and_eq_true, List.pairwise_cons] at ih ⊢
    have hfirst : ¬none = F.identity x ↔ F.hasIdentity x = true := by
      unfold hasIdentity
      cases F.identity x <;> simp
    have hrest : F.hasIdentity x = true →
        (F.identity x ∉ es.map F.identity ↔ ∀ b ∈ es, F.sameEntry x b = false) := by
      intro hx
      simp only [List.mem_map, not_exists, not_and]
      refine forall₂_congr fun b _ => ?_
      rw [← Bool.not_eq_true, sameEntry_iff]
      exact ⟨fun hne hsame => hne hsame.2.symm, fun hne heq => hne ⟨hx, heq.symm⟩⟩
    rw [hfirst]
    constructor
    · rintro ⟨⟨hx, hnone⟩, hnew, hnodup⟩
      obtain ⟨hall, hpairwise⟩ := ih.mp ⟨hnone, hnodup⟩
      exact ⟨⟨hx, hall⟩, (hrest hx).mp hnew, hpairwise⟩
    · rintro ⟨⟨hx, hall⟩, hnew, hpairwise⟩
      obtain ⟨hnone, hnodup⟩ := ih.mpr ⟨hall, hpairwise⟩
      exact ⟨⟨hx, hnone⟩, (hrest hx).mpr hnew, hnodup⟩

def identities (F : FunctionType Data) (value : Data) : List (Option F.Identity) :=
  ((F.entries value).getD []).map F.identity

theorem addressable_iff (hlist : F.isMergeableList = true) (value : Data) :
    F.Addressable value ↔ Distinct (F.identities value) := by
  rw [identities, distinct_identities_iff]
  constructor
  · intro h
    have hall := h.identified
    simp only [entriesIdentified, hlist, if_true] at hall
    exact ⟨hall, h.distinct hlist⟩
  · rintro ⟨hall, hpairwise⟩
    exact ⟨by simpa only [entriesIdentified, hlist, if_true] using hall, fun _ => hpairwise⟩

theorem addressable_of_plain (hplain : F.isMergeableList = false) (value : Data) :
    F.Addressable value :=
  ⟨by simp [entriesIdentified, hplain], fun hlist => by simp [hplain] at hlist⟩

theorem identities_setEntries (hlist : F.isMergeableList = true) (stored : Data)
    (es : List F.Item) : F.identities (F.setEntries stored (some es)) = es.map F.identity := by
  rw [identities, F.entries_setEntries hlist, Option.getD_some]

theorem identities_mergeEntry (hkeeps : F.KeepsIdentity) (acc : List F.Item) {item : F.Item}
    (hitem : F.hasIdentity item = true) :
    (F.mergeEntry acc item).map F.identity = acc.map F.identity ∨
      F.identity item ∉ acc.map F.identity ∧
        (F.mergeEntry acc item).map F.identity = acc.map F.identity ++ [F.identity item] := by
  induction acc with
  | nil => exact .inr ⟨List.not_mem_nil, rfl⟩
  | cons existing rest ih =>
    cases hsame : F.sameEntry existing item with
    | true =>
      left
      simp [mergeEntry, hsame, hkeeps.mergeItem existing item hsame]
    | false =>
      have hne : F.identity item ≠ F.identity existing := by
        intro heq
        have hboth : F.sameEntry existing item = true := by
          refine sameEntry_iff.mpr ⟨?_, heq.symm⟩
          rwa [hasIdentity, ← heq]
        simp [hsame] at hboth
      rcases ih with hkept | ⟨hnew, hadded⟩
      · left
        simp [mergeEntry, hsame, hkept]
      · right
        simp only [mergeEntry, hsame, Bool.false_eq_true, if_false, List.map_cons, List.mem_cons,
          not_or, hadded]
        exact ⟨⟨hne, hnew⟩, rfl⟩

theorem distinct_mergeEntry (hkeeps : F.KeepsIdentity) {acc : List F.Item} {item : F.Item}
    (hacc : Distinct (acc.map F.identity)) (hitem : F.hasIdentity item = true) :
    Distinct ((F.mergeEntry acc item).map F.identity) := by
  rcases identities_mergeEntry hkeeps acc hitem with hkept | ⟨hnew, hadded⟩
  · rwa [hkept]
  · have hsome : none ≠ F.identity item := by
      intro hnone
      simp [hasIdentity, ← hnone] at hitem
    rw [hadded]
    refine ⟨?_, ?_⟩
    · rw [List.mem_append, List.mem_singleton]
      exact fun hmem => hmem.elim hacc.1 hsome
    · rw [← List.concat_eq_append, List.nodup_concat]
      exact ⟨hnew, hacc.2⟩

theorem Addressable.applyPartial (hkeeps : F.KeepsIdentity) {stored update : Data}
    (hlist : F.isMergeableList = true) (h : F.Addressable stored)
    (hupdate : F.entriesIdentified update = true) : F.Addressable (F.applyPartial stored update) := by
  cases hincoming : F.entries update with
  | none => simpa only [FunctionType.applyPartial, hincoming] using h
  | some incoming =>
    rw [addressable_iff hlist] at h ⊢
    simp only [FunctionType.applyPartial, hincoming, identities_setEntries hlist]
    simp only [entriesIdentified, hlist, if_true, hincoming, Option.getD_some, List.all_eq_true]
      at hupdate
    exact List.foldlRecOn (motive := fun acc => Distinct (acc.map F.identity)) incoming F.mergeEntry
      h fun acc hacc item hitem => distinct_mergeEntry hkeeps hacc (hupdate item hitem)

theorem Addressable.deleteAddressed {stored : Data} (h : F.Addressable stored)
    (hlist : F.isMergeableList = true) (addressed : F.Item → Bool) :
    F.Addressable (F.deleteAddressed stored addressed) := by
  cases hentries : F.entries stored with
  | none => simpa only [FunctionType.deleteAddressed, hentries] using h
  | some es =>
    rw [addressable_iff hlist] at h ⊢
    simp only [FunctionType.deleteAddressed, hentries, identities_setEntries hlist]
    simp only [identities, hentries, Option.getD_some] at h
    exact h.sublist ((List.filter_sublist (l := es)).map F.identity)

theorem Addressable.clearAddressed (hkeeps : F.KeepsIdentity) {stored : Data}
    (h : F.Addressable stored) (hlist : F.isMergeableList = true) (addressed : F.Item → Bool)
    (elements : F.Elements) : F.Addressable (F.clearAddressed stored addressed elements) := by
  cases hentries : F.entries stored with
  | none => simpa only [FunctionType.clearAddressed, hentries] using h
  | some es =>
    have hsame : ∀ entry, F.identity
        (if addressed entry then F.clearEntry elements entry else entry) = F.identity entry := by
      intro entry
      split
      · exact hkeeps.restoreIdentity _ entry
      · rfl
    rw [addressable_iff hlist] at h ⊢
    simp only [FunctionType.clearAddressed, hentries, identities_setEntries hlist, List.map_map]
    simpa only [identities, hentries, Option.getD_some, Function.comp_def, hsame] using h

theorem Addressable.delete {stored : Data} (h : F.Addressable stored) (update : Data) :
    F.Addressable (F.delete stored update) := by
  cases hlist : F.isMergeableList with
  | false => exact addressable_of_plain hlist _
  | true =>
    simp only [FunctionType.delete, hlist, if_true, deleteEntries]
    split
    case h_2 => exact h
    case h_1 targets es _ hentries =>
      rw [addressable_iff hlist] at h ⊢
      rw [identities_setEntries hlist]
      simp only [identities, hentries, Option.getD_some] at h
      exact h.sublist ((List.filter_sublist (l := es)).map F.identity)

theorem KeepsIdentity.loadControlLimitListType : loadControlLimitListType.KeepsIdentity where
  mergeItem existing item hsame := by
    obtain ⟨-, heq⟩ := sameEntry_iff.mp hsame
    have heq : existing.limitId = item.limitId := heq
    simp only [Eebus.Model.loadControlLimitListType, LoadControlLimitData.merge, ← heq, mergeLeaf]
    cases existing.limitId <;> rfl
  restoreIdentity _ _ := rfl
  listRow _ := by decide

theorem KeepsIdentity.setpointListType : setpointListType.KeepsIdentity where
  mergeItem existing item hsame := by
    obtain ⟨-, heq⟩ := sameEntry_iff.mp hsame
    have heq : existing.setpointId = item.setpointId := heq
    simp only [Eebus.Model.setpointListType, SetpointData.merge, ← heq, mergeLeaf]
    cases existing.setpointId <;> rfl
  restoreIdentity _ _ := rfl
  listRow _ := by decide

theorem KeepsIdentity.hvacSystemFunctionListType : hvacSystemFunctionListType.KeepsIdentity where
  mergeItem existing item hsame := by
    obtain ⟨-, heq⟩ := sameEntry_iff.mp hsame
    have heq : existing.systemFunctionId = item.systemFunctionId := heq
    simp only [Eebus.Model.hvacSystemFunctionListType, HvacSystemFunctionData.merge, ← heq, mergeLeaf]
    cases existing.systemFunctionId <;> rfl
  restoreIdentity _ _ := rfl
  listRow _ := by decide

end FunctionType

/-- Every function of the schema keeps identifiers. -/
def Schema.KeepsIdentity (S : Schema) : Prop := ∀ key, (S.type key).KeepsIdentity

theorem Schema.keepsIdentity_limitsOnly : Schema.limitsOnly.KeepsIdentity := by
  intro key
  cases key with
  | loadControlLimitListData => exact FunctionType.KeepsIdentity.loadControlLimitListType
  | setpointListData => exact FunctionType.KeepsIdentity.setpointListType
  | hvacSystemFunctionListData => exact FunctionType.KeepsIdentity.hvacSystemFunctionListType
  | other o => exact o.elim
  | _ => exact ⟨fun x => x.elim, fun x => x.elim, nofun⟩

variable {S : Schema}

namespace CmdData

/-- Every entry of a list carries its identifiers, and no two entries carry the same. -/
def Addressable (data : CmdData S) : Prop := (S.type data.key).Addressable data.value

theorem Addressable.deleteRestricted (hkeeps : S.KeepsIdentity) {stored update deleted : CmdData S}
    (h : stored.Addressable) {selectors : Option (FilterSelectors S)}
    {elements : Option (FilterElements S)}
    (hdeleted : stored.deleteRestricted update selectors elements = .ok deleted) :
    deleted.Addressable := by
  simp only [CmdData.deleteRestricted] at hdeleted
  split at hdeleted
  case isFalse => simp at hdeleted
  case isTrue hkey =>
    split at hdeleted
    · cases hdeleted
      exact FunctionType.Addressable.delete h _
    · simp only [bind, Except.bind] at hdeleted
      split at hdeleted
      · simp at hdeleted
      case h_2 value hvalue =>
        cases hdeleted
        cases hlist : (S.type stored.key).isMergeableList with
        | false => exact FunctionType.addressable_of_plain hlist value
        | true =>
          rcases deleteRow_cases hvalue with
            rfl | ⟨addressed, rfl⟩ | ⟨addressed, e, rfl⟩ | ⟨hrow, -⟩
          · exact h
          · exact FunctionType.Addressable.deleteAddressed h hlist addressed
          · exact FunctionType.Addressable.clearAddressed (hkeeps stored.key) h hlist addressed e
          · exact absurd hrow ((hkeeps stored.key).listRow hlist)

theorem addressable_apply_iff (hkeeps : S.KeepsIdentity) {stored update merged : CmdData S}
    (h : stored.Addressable) (hupdate : update.entriesIdentified = true) {isPartial : Bool}
    (hmerged : stored.apply update isPartial = .ok merged) :
    merged.Addressable ↔ (isPartial = false → update.identifiersDistinct) := by
  obtain ⟨key, stored⟩ := stored
  obtain ⟨key', update⟩ := update
  simp only [CmdData.apply] at hmerged
  split at hmerged
  case isFalse => simp at hmerged
  case isTrue hkey =>
    subst hkey
    cases hmerged
    cases isPartial with
    | false =>
      rw [Addressable, FunctionType.apply_full]
      exact ⟨fun haddressable _ => haddressable.distinct, fun hdistinct => ⟨hupdate, hdistinct rfl⟩⟩
    | true =>
      refine iff_of_true ?_ (by simp)
      cases hlist : (S.type key').isMergeableList with
      | false => exact FunctionType.addressable_of_plain hlist _
      | true =>
        have hmerge := FunctionType.Addressable.applyPartial (hkeeps key') hlist h hupdate
        simpa only [Addressable, FunctionType.apply, hlist, if_true] using hmerge

end CmdData

end Eebus.Model
