import Eebus.Library.Upsert
import Eebus.Spine.Discovery

/-!
A peer's copy of the device tree. It is read as one document and then kept up by runtime updates:
an update that brings an entity mirrors the tree it comes from as long as that tree has not lost a
feature of the entity, and one that names what went mirrors every removal.
-/

namespace Eebus.Spine

open Eebus.Library Eebus.Model

variable {S : Schema}

def announcedFeatures (entity : LocalEntity S) : List (FeatureInformation S.Other) :=
  entity.features.map (featureDescription entity)

def listing (entities : List (LocalEntity S)) : List (FeatureInformation S.Other) :=
  entities.flatMap announcedFeatures

def plain (entry : EntityInformation) : EntityInformation :=
  ⟨entry.description.map fun d => { d with lastStateChange := none }⟩

/-- Entities have paths of their own, and features have addresses of their own in their entity. -/
structure Tidy (entities : List (LocalEntity S)) : Prop where
  paths : (entities.map LocalEntity.address).Nodup
  features : ∀ e ∈ entities, (e.features.map LocalFeature.address).Nodup

structure Mirrors (entities : List (LocalEntity S))
    (doc : NodeManagementDetailedDiscoveryData S.Other) : Prop where
  tree : (doc.entityInformation.getD []).map plain = entities.map (entityDescription · none)
  distinct : ((doc.featureInformation.getD []).map featurePathOf).Nodup
  features : ∀ y, y ∈ doc.featureInformation.getD [] ↔ y ∈ listing entities

variable {entities : List (LocalEntity S)} {doc : NodeManagementDetailedDiscoveryData S.Other}

@[simp]
theorem featurePathOf_description (e : LocalEntity S) (f : LocalFeature S) :
    featurePathOf (featureDescription e f) = some (e.address, f.address) := rfl

@[simp]
theorem entityPathOf_description (e : LocalEntity S) (change : Option NetworkManagementStateChange) :
    entityPathOf (entityDescription e change) = some e.address := rfl

@[simp]
theorem plain_description (e : LocalEntity S) (change : Option NetworkManagementStateChange) :
    plain (entityDescription e change) = entityDescription e none := rfl

@[simp]
theorem entityPathOf_plain (entry : EntityInformation) :
    entityPathOf (plain entry) = entityPathOf entry := by
  obtain ⟨_ | description⟩ := entry <;> rfl

theorem mem_listing {y : FeatureInformation S.Other} :
    y ∈ listing entities ↔ ∃ e ∈ entities, ∃ f ∈ e.features, featureDescription e f = y := by
  simp [listing, announcedFeatures]

theorem mem_announced_keys {e : LocalEntity S} {key : Option (List Nat × Nat)} :
    key ∈ (announcedFeatures e).map featurePathOf ↔
      ∃ f ∈ e.features, some (e.address, f.address) = key := by
  simp [announcedFeatures]

theorem nodup_announced {e : LocalEntity S} (h : (e.features.map LocalFeature.address).Nodup) :
    ((announcedFeatures e).map featurePathOf).Nodup := by
  have hkeys : (announcedFeatures e).map featurePathOf =
      (e.features.map LocalFeature.address).map fun address => some (e.address, address) := by
    simp [announcedFeatures]
  rw [hkeys]
  exact h.map fun a b hab => by simpa using hab

theorem nodup_listing (h : Tidy entities) : ((listing entities).map featurePathOf).Nodup := by
  rw [listing, List.map_flatMap, List.nodup_flatMap]
  refine ⟨fun e he => nodup_announced (h.features e he), ?_⟩
  refine (List.pairwise_map.mp h.paths).imp fun {a b} hne => ?_
  intro key ha hb
  obtain ⟨f, -, hf⟩ := mem_announced_keys.mp ha
  obtain ⟨g, -, hg⟩ := mem_announced_keys.mp hb
  have hboth := hf.trans hg.symm
  simp only [Option.some.injEq, Prod.mk.injEq] at hboth
  exact hne hboth.1

theorem Mirrors.perm (h : Mirrors entities doc) (htidy : Tidy entities) :
    (doc.featureInformation.getD []).Perm (listing entities) :=
  (List.perm_ext_iff_of_nodup h.distinct.of_map (nodup_listing htidy).of_map).mpr h.features

theorem mirrors_detailedDiscovery (device : LocalDevice S) (h : Tidy device.entities) :
    Mirrors device.entities (detailedDiscovery device) := by
  refine ⟨?_, nodup_listing h, fun _ => Iff.rfl⟩
  simp [detailedDiscovery]

section Put

variable {x : LocalEntity S}

def putEntity (x : LocalEntity S) (entities : List (LocalEntity S)) : List (LocalEntity S) :=
  upsert LocalEntity.address x entities

def KeepsFeatures (entities : List (LocalEntity S)) (x : LocalEntity S) : Prop :=
  ∀ e ∈ entities, e.address = x.address →
    ∀ f ∈ e.features, f.address ∈ x.features.map LocalFeature.address

theorem Tidy.put (h : Tidy entities) (hx : (x.features.map LocalFeature.address).Nodup) :
    Tidy (putEntity x entities) := by
  refine ⟨nodup_upsert h.paths, fun e he => ?_⟩
  rcases (mem_upsert h.paths e).mp he with rfl | ⟨hold, -⟩
  · exact hx
  · exact h.features e hold

theorem mem_listing_put (h : Tidy entities) (hkeeps : KeepsFeatures entities x)
    (y : FeatureInformation S.Other) :
    y ∈ listing (putEntity x entities) ↔ y ∈ announcedFeatures x ∨
      y ∈ listing entities ∧ featurePathOf y ∉ (announcedFeatures x).map featurePathOf := by
  simp only [mem_listing, mem_announced_keys, putEntity, mem_upsert h.paths]
  constructor
  · rintro ⟨e, rfl | ⟨he, hne⟩, f, hf, rfl⟩
    · exact .inl (List.mem_map.mpr ⟨f, hf, rfl⟩)
    · refine .inr ⟨⟨e, he, f, hf, rfl⟩, ?_⟩
      rintro ⟨g, -, hg⟩
      rw [featurePathOf_description, Option.some.injEq, Prod.mk.injEq] at hg
      exact hne hg.1.symm
  · rintro (hx | ⟨⟨e, he, f, hf, rfl⟩, hfresh⟩)
    · obtain ⟨f, hf, rfl⟩ := List.mem_map.mp hx
      exact ⟨x, .inl rfl, f, hf, rfl⟩
    · by_cases hpath : e.address = x.address
      · obtain ⟨g, hg, haddress⟩ := List.mem_map.mp (hkeeps e he hpath f hf)
        exact absurd ⟨g, hg, by rw [featurePathOf_description, hpath, haddress]⟩ hfresh
      · exact ⟨e, .inr ⟨he, hpath⟩, f, hf, rfl⟩

theorem replaceOrPush_eq_upsert {α κ : Type} [DecidableEq κ] (key : α → κ) (entry : α) (held : List α)
    (h : (upsert key entry held).length ≤ maxListEntries) :
    replaceOrPush (hasKey key (key entry)) entry held = upsert key entry held := by
  unfold replaceOrPush upsert at *
  split
  · rfl
  case isFalse hany =>
    rw [if_neg hany, List.length_append, List.length_singleton] at h
    rw [if_pos (Nat.lt_of_succ_le h)]

theorem mergeFeature_description (held : List (FeatureInformation S.Other)) (f : LocalFeature S) :
    mergeFeature held (featureDescription x f) =
      replaceOrPush (hasKey featurePathOf (featurePathOf (featureDescription x f)))
        (featureDescription x f) held := by
  have hdescription : (featureDescription x f).description = some _ := rfl
  unfold mergeFeature
  rw [hdescription, featurePathOf_description]
  have hkey : (fun g : FeatureInformation S.Other => featurePathOf g == some (x.address, f.address)) =
      hasKey featurePathOf (some (x.address, f.address)) := funext fun _ => beq_eq_decide _ _
  dsimp only
  rw [if_neg nofun, hkey]

theorem mergeEntity_description (held : List EntityInformation × List (FeatureInformation S.Other))
    {change : NetworkManagementStateChange} (h : change ≠ .removed) :
    mergeEntity held (entityDescription x (some change)) =
      (replaceOrPush (hasKey entityPathOf (entityPathOf (entityDescription x (some change))))
        (entityDescription x (some change)) held.1, held.2) := by
  have hdescription : (entityDescription x (some change)).description = some _ := rfl
  unfold mergeEntity
  rw [hdescription, entityPathOf_description]
  have hkey : (fun e : EntityInformation => entityPathOf e == some x.address) =
      hasKey entityPathOf (some x.address) := funext fun _ => beq_eq_decide _ _
  dsimp only
  rw [if_neg fun heq => h (Option.some.inj heq), hkey]

theorem foldl_mergeFeature (features : List (LocalFeature S))
    (held : List (FeatureInformation S.Other))
    (h : (upsertAll featurePathOf held (features.map (featureDescription x))).length ≤ maxListEntries) :
    (features.map (featureDescription x)).foldl mergeFeature held =
      upsertAll featurePathOf held (features.map (featureDescription x)) := by
  induction features generalizing held with
  | nil => rfl
  | cons f rest ih =>
    have hfirst : (upsert featurePathOf (featureDescription x f) held).length ≤ maxListEntries :=
      Nat.le_trans length_le_upsertAll h
    rw [List.map_cons, List.foldl_cons, mergeFeature_description,
      replaceOrPush_eq_upsert _ _ held hfirst, upsertAll, List.foldl_cons]
    exact ih _ h

theorem map_plain_put {held : List EntityInformation}
    (h : held.map plain = entities.map (entityDescription · none))
    (change : Option NetworkManagementStateChange) :
    (upsert entityPathOf (entityDescription x change) held).map plain =
      (putEntity x entities).map (entityDescription · none) := by
  have hany : ∀ (held : List EntityInformation) (entities : List (LocalEntity S)),
      held.map plain = entities.map (entityDescription · none) →
      held.any (hasKey entityPathOf (some x.address)) =
          entities.any (hasKey LocalEntity.address x.address) ∧
        (modifyFirst (hasKey entityPathOf (some x.address)) (fun _ _ => entityDescription x change)
          held).map plain =
        (modifyFirst (hasKey LocalEntity.address x.address) (fun _ _ => x) entities).map
          (entityDescription · none) := by
    intro held
    induction held with
    | nil =>
      intro entities h
      cases entities with
      | nil => exact ⟨rfl, rfl⟩
      | cons e rest => simp at h
    | cons entry rest ih =>
      intro entities h
      cases entities with
      | nil => simp at h
      | cons e rest' =>
        simp only [List.map_cons, List.cons.injEq] at h
        obtain ⟨hfirst, hrest⟩ := h
        have hpath : entityPathOf entry = some e.address := by
          rw [← entityPathOf_plain, hfirst, entityPathOf_description]
        have hkey : hasKey entityPathOf (some x.address) entry =
            hasKey LocalEntity.address x.address e := by
          simp [hasKey, hpath]
        obtain ⟨hany, hmap⟩ := ih rest' hrest
        refine ⟨by rw [List.any_cons, List.any_cons, hkey, hany], ?_⟩
        cases hhas : hasKey LocalEntity.address x.address e with
        | true =>
          rw [modifyFirst_cons_pos rest (hkey.trans hhas), modifyFirst_cons_pos rest' hhas,
            List.map_cons, List.map_cons, hrest, plain_description]
        | false =>
          rw [modifyFirst_cons_neg rest (hkey.trans hhas), modifyFirst_cons_neg rest' hhas,
            List.map_cons, List.map_cons, hmap, hfirst]
  obtain ⟨hsame, hmodified⟩ := hany held entities h
  unfold putEntity upsert
  rw [entityPathOf_description, hsame]
  split
  · exact hmodified
  · simp [h]

/-- Room for the tree in a peer's copy. -/
def FitsCopy (entities : List (LocalEntity S)) : Prop :=
  entities.length ≤ maxListEntries ∧ (listing entities).length ≤ maxListEntries

/-- An update that brings an entity, all its features with it, makes a copy of the tree before a
copy of the tree after. -/
theorem Mirrors.put (h : Mirrors entities doc) (htidy : Tidy entities)
    (hx : (x.features.map LocalFeature.address).Nodup) (hkeeps : KeepsFeatures entities x)
    (hfits : FitsCopy (putEntity x entities)) {change : NetworkManagementStateChange}
    (hchange : change ≠ .removed) :
    Mirrors (putEntity x entities) (mergeDetailedDiscovery doc (changed [x] change true)) := by
  have htree := map_plain_put (x := x) h.tree (some change)
  have hfeatures : ∀ y, y ∈ upsertAll featurePathOf (doc.featureInformation.getD [])
      (announcedFeatures x) ↔ y ∈ listing (putEntity x entities) := by
    intro y
    rw [mem_upsertAll h.distinct (nodup_announced hx), mem_listing_put htidy hkeeps, h.features]
  have hdistinct : ((upsertAll featurePathOf (doc.featureInformation.getD [])
      (announcedFeatures x)).map featurePathOf).Nodup := nodup_upsertAll h.distinct
  have hroom : (upsertAll featurePathOf (doc.featureInformation.getD [])
      (announcedFeatures x)).length ≤ maxListEntries := by
    have hperm := (List.perm_ext_iff_of_nodup hdistinct.of_map
      (nodup_listing (htidy.put hx)).of_map).mpr hfeatures
    rw [hperm.length_eq]
    exact hfits.2
  have hplace : (upsert entityPathOf (entityDescription x (some change))
      (doc.entityInformation.getD [])).length ≤ maxListEntries := by
    rw [← List.length_map plain, htree, List.length_map]
    exact hfits.1
  have hmerged : (changed [x] change true).featureInformation.getD [] = announcedFeatures x := by
    simp only [changed, if_true, List.flatMap_cons, List.flatMap_nil, List.append_nil]
    split
    · rename_i hempty
      exact (List.isEmpty_iff.mp hempty).symm
    · rfl
  have hentity : (changed [x] change true).entityInformation.getD [] =
      [entityDescription x (some change)] := rfl
  unfold mergeDetailedDiscovery
  rw [hmerged, hentity, List.foldl_cons, List.foldl_nil, mergeEntity_description _ hchange,
    replaceOrPush_eq_upsert _ _ _ hplace]
  dsimp only
  rw [announcedFeatures] at hroom hfeatures hdistinct
  rw [announcedFeatures, foldl_mergeFeature _ _ hroom]
  exact ⟨htree, hdistinct, hfeatures⟩

theorem putEntity_of_mem (h : Tidy entities) (hx : x ∈ entities) : putEntity x entities = entities :=
  upsert_of_mem h.paths hx

theorem mem_putEntity_self (h : Tidy entities) (x : LocalEntity S) : x ∈ putEntity x entities :=
  (mem_upsert h.paths x).mpr (.inl rfl)

theorem keepsFeatures_of_mem (h : Tidy entities) (hx : x ∈ entities) : KeepsFeatures entities x := by
  intro e he hpath f hf
  rw [List.inj_on_of_nodup_map h.paths he hx hpath] at hf
  exact List.mem_map.mpr ⟨f, hf, rfl⟩

end Put

section Removal

variable {path : List Nat} {removed : List (LocalEntity S)}

def dropEntity (path : List Nat) (entities : List (LocalEntity S)) : List (LocalEntity S) :=
  entities.filter fun e => !path.isPrefixOf e.address

theorem Tidy.drop (h : Tidy entities) (path : List Nat) : Tidy (dropEntity path entities) :=
  ⟨(List.filter_sublist.map _).nodup h.paths, fun e he => h.features e (List.mem_filter.mp he).1⟩

theorem mergeEntity_removed (held : List EntityInformation × List (FeatureInformation S.Other))
    (e : LocalEntity S) :
    mergeEntity held (entityDescription e (some .removed)) =
      (held.1.filter fun i => (entityPathOf i).all fun p => !e.address.isPrefixOf p,
        held.2.filter fun f => (featurePathOf f).all fun p => !e.address.isPrefixOf p.1) := by
  have hdescription : (entityDescription e (some .removed)).description = some _ := rfl
  unfold mergeEntity
  rw [hdescription, entityPathOf_description]
  dsimp only
  rw [if_pos rfl]

theorem foldl_mergeEntity_removed (hpath : ∃ e ∈ removed, e.address = path)
    (hbeneath : ∀ e ∈ removed, path.isPrefixOf e.address = true)
    (held : List EntityInformation × List (FeatureInformation S.Other)) :
    (removed.map (entityDescription · (some .removed))).foldl mergeEntity held =
      (held.1.filter fun i => (entityPathOf i).all fun p => !path.isPrefixOf p,
        held.2.filter fun f => (featurePathOf f).all fun p => !path.isPrefixOf p.1) := by
  have hfold : ∀ (removed : List (LocalEntity S))
      (held : List EntityInformation × List (FeatureInformation S.Other)),
      (removed.map (entityDescription · (some .removed))).foldl mergeEntity held =
        (held.1.filter fun i => removed.all fun e => (entityPathOf i).all fun p => !e.address.isPrefixOf p,
          held.2.filter fun f => removed.all fun e =>
            (featurePathOf f).all fun p => !e.address.isPrefixOf p.1) := by
    intro removed
    induction removed with
    | nil => intro held; simp
    | cons e rest ih =>
      intro held
      rw [List.map_cons, List.foldl_cons, mergeEntity_removed, ih]
      simp only [List.filter_filter, List.all_cons, Bool.and_comm]
  have hgone : ∀ p : List Nat, (removed.all fun e => !e.address.isPrefixOf p) = !path.isPrefixOf p := by
    intro p
    obtain ⟨e, he, haddress⟩ := hpath
    cases hp : path.isPrefixOf p with
    | true =>
      rw [Bool.not_true, List.all_eq_false]
      exact ⟨e, he, by simp [haddress, hp]⟩
    | false =>
      rw [Bool.not_false, List.all_eq_true]
      intro e' he'
      by_contra hcontra
      rw [Bool.not_eq_true, Bool.not_eq_false', List.isPrefixOf_iff_prefix] at hcontra
      have hprefix := (List.isPrefixOf_iff_prefix.mp (hbeneath e' he')).trans hcontra
      rw [List.isPrefixOf_iff_prefix.mpr hprefix] at hp
      cases hp
  rw [hfold]
  congr 1
  · refine List.filter_congr fun i _ => ?_
    cases entityPathOf i with
    | none => simp
    | some p => simpa using hgone p
  · refine List.filter_congr fun f _ => ?_
    cases featurePathOf f with
    | none => simp
    | some p => simpa using hgone p.1

theorem Mirrors.drop (h : Mirrors entities doc) (hpath : ∃ e ∈ removed, e.address = path)
    (hbeneath : ∀ e ∈ removed, path.isPrefixOf e.address = true) :
    Mirrors (dropEntity path entities) (mergeDetailedDiscovery doc (entitiesRemoved removed)) := by
  unfold mergeDetailedDiscovery
  have hupdate : (entitiesRemoved removed).entityInformation.getD [] =
      removed.map (entityDescription · (some .removed)) := rfl
  have hnone : (entitiesRemoved removed).featureInformation.getD [] = [] := rfl
  rw [hupdate, hnone, foldl_mergeEntity_removed hpath hbeneath]
  dsimp only [List.foldl_nil]
  refine ⟨?_, (List.filter_sublist.map _).nodup h.distinct, fun y => ?_⟩
  · calc
      _ = ((doc.entityInformation.getD []).map plain).filter
          (fun i => (entityPathOf i).all fun p => !path.isPrefixOf p) := by
        simp [List.filter_map, Function.comp_def]
      _ = (dropEntity path entities).map (entityDescription · none) := by
        rw [h.tree]
        simp [List.filter_map, Function.comp_def, dropEntity]
  · rw [Option.getD_some, List.mem_filter, h.features]
    simp only [mem_listing, dropEntity, List.mem_filter]
    constructor
    · rintro ⟨⟨e, he, f, hf, rfl⟩, hkept⟩
      exact ⟨e, ⟨he, by simpa using hkept⟩, f, hf, rfl⟩
    · rintro ⟨e, ⟨he, hkept⟩, f, hf, rfl⟩
      exact ⟨⟨e, he, f, hf, rfl⟩, by simpa using hkept⟩

theorem dropEntity_dropEntity (path : List Nat) (entities : List (LocalEntity S)) :
    dropEntity path (dropEntity path entities) = dropEntity path entities := by
  simp [dropEntity, List.filter_filter]

end Removal

section Remote

variable {device : AddressDevice}

def remoteFeature (device : AddressDevice) (entity : LocalEntity S) (f : LocalFeature S) :
    RemoteFeature S.Other where
  address := featureAddress device entity.address f.address
  featureType := f.featureType
  role := f.role
  functions := functionProperties f
  maxResponseDelay := (f.maxResponseDelay.map formatIso8601Duration).bind parseIso8601Duration

def filedUnder (device : AddressDevice) (path : List Nat)
    (features : List (FeatureInformation S.Other)) : List (RemoteFeature S.Other) :=
  features.flatMap fun y => ((y.description.filter fun d =>
    (d.featureAddress.bind LocalFeatureAddress.entity).getD [] == path).bind fun d => do
      some
        { address := ⟨some device, some path, (← d.featureAddress).feature⟩
          featureType := ← d.featureType
          role := ← d.role
          functions := d.supportedFunction.getD []
          maxResponseDelay := d.maxResponseDelay.bind parseIso8601Duration }).toList

@[simp]
theorem filedUnder_nil (path : List Nat) :
    filedUnder device path ([] : List (FeatureInformation S.Other)) = [] := rfl

theorem filedUnder_cons (path : List Nat) (e : LocalEntity S) (f : LocalFeature S)
    (rest : List (FeatureInformation S.Other)) :
    filedUnder device path (featureDescription e f :: rest) =
      (if e.address = path then [remoteFeature device e f] else []) ++ filedUnder device path rest := by
  unfold filedUnder
  rw [List.flatMap_cons]
  congr 1
  split
  case isTrue heq =>
    subst heq
    simp [featureDescription, remoteFeature, featureAddress, Option.filter]
  case isFalse hne => simp [featureDescription, Option.filter, hne]

theorem filedUnder_append (path : List Nat) (features features' : List (FeatureInformation S.Other)) :
    filedUnder device path (features ++ features') =
      filedUnder device path features ++ filedUnder device path features' :=
  List.flatMap_append

theorem filedUnder_listing (h : Tidy entities) {e : LocalEntity S} (he : e ∈ entities) :
    filedUnder device e.address (listing entities) = e.features.map (remoteFeature device e) := by
  have hother : ∀ (x : LocalEntity S) (features : List (LocalFeature S)), x.address ≠ e.address →
      filedUnder device e.address (features.map (featureDescription x)) = [] := by
    intro x features hne
    induction features with
    | nil => rfl
    | cons f rest ih => rw [List.map_cons, filedUnder_cons, if_neg hne, List.nil_append, ih]
  have hown : ∀ features : List (LocalFeature S),
      filedUnder device e.address (features.map (featureDescription e)) =
        features.map (remoteFeature device e) := by
    intro features
    induction features with
    | nil => rfl
    | cons f rest ih => rw [List.map_cons, filedUnder_cons, if_pos rfl, ih]; rfl
  have hpaths := h.paths
  clear h
  induction entities with
  | nil => cases he
  | cons x rest ih =>
    rw [List.map_cons, List.nodup_cons] at hpaths
    rw [listing, List.flatMap_cons, filedUnder_append, announcedFeatures]
    cases List.mem_cons.mp he with
    | inl heq =>
      subst heq
      have hrest : filedUnder device e.address (rest.flatMap announcedFeatures) = [] := by
        have hnone : ∀ x ∈ rest, x.address ≠ e.address := fun x hx heq =>
          hpaths.1 (List.mem_map.mpr ⟨x, hx, heq⟩)
        clear ih hpaths he
        induction rest with
        | nil => rfl
        | cons x rest ih =>
          rw [List.flatMap_cons, filedUnder_append, announcedFeatures,
            hother x x.features (hnone x List.mem_cons_self), List.nil_append]
          exact ih fun y hy => hnone y (List.mem_cons_of_mem x hy)
      rw [hown, hrest, List.append_nil]
    | inr hrest =>
      have hne : x.address ≠ e.address := fun heq =>
        hpaths.1 (List.mem_map.mpr ⟨e, hrest, heq.symm⟩)
      rw [hother x x.features hne, List.nil_append]
      exact ih hrest hpaths.2

theorem foldl_fileFeature {features : List (FeatureInformation S.Other)}
    {held : List (RemoteEntity S.Other)} (hpaths : (held.map RemoteEntity.address).Nodup)
    (hfeatures : ∀ y ∈ features, ∃ (e : LocalEntity S) (f : LocalFeature S),
      y = featureDescription e f ∧ e.address ∈ held.map RemoteEntity.address) :
    (features.filterMap FeatureInformation.description).foldl
        (RemoteDevice.fileFeature (some device)) held =
      held.map fun r => { r with features := r.features ++ filedUnder device r.address features } := by
  induction features generalizing held with
  | nil => simp
  | cons y rest ih =>
    obtain ⟨e, f, rfl, hmem⟩ := hfeatures y List.mem_cons_self
    have hdescription : (featureDescription e f).description = some _ := rfl
    have hany : held.any (fun r => r.address == e.address) = true := by
      obtain ⟨r, hr, haddress⟩ := List.mem_map.mp hmem
      exact List.any_eq_true.mpr ⟨r, hr, by simp [haddress]⟩
    have hfile : ∀ d, (featureDescription e f).description = some d →
        RemoteDevice.fileFeature (some device) held d =
          held.map fun r => if r.address = e.address then
            { r with features := r.features ++ [remoteFeature device e f] } else r := by
      intro d hd
      cases hd
      have hkey : ∀ r : RemoteEntity S.Other, (r.address == e.address) = true ↔
          r.address = e.address := fun _ => beq_iff_eq
      rw [← modifyFirst_eq_map hkey hpaths fun r =>
        { r with features := r.features ++ [remoteFeature device e f] }]
      simp only [RemoteDevice.fileFeature, Option.getD_some, hany, if_true]
      rfl
    have hmap : (held.map fun r => if r.address = e.address then
        { r with features := r.features ++ [remoteFeature device e f] } else r).map
          RemoteEntity.address = held.map RemoteEntity.address := by
      rw [List.map_map]
      refine List.map_congr_left fun r _ => ?_
      simp only [Function.comp_apply]
      split <;> rfl
    rw [List.filterMap_cons_some hdescription, List.foldl_cons, hfile _ hdescription]
    rw [ih (hmap ▸ hpaths) fun y hy => by
      rw [hmap]
      exact hfeatures y (List.mem_cons_of_mem _ hy)]
    rw [List.map_map]
    refine List.map_congr_left fun r _ => ?_
    simp only [Function.comp_apply, filedUnder_cons]
    by_cases hr : r.address = e.address
    · simp [hr]
    · simp [hr, Ne.symm hr]

/-- What a feature is known by: its address, its type, its role, and what may be done with its
functions. -/
def RemoteFeature.face {Other : Type} (f : RemoteFeature Other) :
    FeatureAddress × FeatureType × Role × List (FunctionProperty Other) :=
  (f.address, f.featureType, f.role, f.functions)

def LocalFeature.face (device : AddressDevice) (entity : LocalEntity S) (f : LocalFeature S) :
    FeatureAddress × FeatureType × Role × List (FunctionProperty S.Other) :=
  (featureAddress device entity.address f.address, f.featureType, f.role, functionProperties f)

/-- A remote entity that is the local one, seen from afar. -/
def Shows (device : AddressDevice) (r : RemoteEntity S.Other) (e : LocalEntity S) : Prop :=
  r.address = e.address ∧ r.entityType = some e.entityType ∧
    (r.features.map RemoteFeature.face).Perm (e.features.map (LocalFeature.face device e))

def listed (Other : Type) (entry : EntityInformation) : Option (RemoteEntity Other) :=
  entry.description.map fun d => ⟨(d.entityAddress.bind EntityAddress.entity).getD [], d.entityType, []⟩

theorem listed_plain {Other : Type} (entry : EntityInformation) :
    listed Other (plain entry) = listed Other entry := by
  obtain ⟨_ | description⟩ := entry <;> rfl

theorem Mirrors.shows (h : Mirrors entities doc) (htidy : Tidy entities)
    {remote : RemoteDevice S.Other} (haddress : remote.address = some device) :
    List.Forall₂ (Shows device) (remote.applyDetailedDiscovery doc).entities entities := by
  have hlisted : ((doc.entityInformation.getD []).filterMap EntityInformation.description).map
      (fun d => (⟨(d.entityAddress.bind EntityAddress.entity).getD [], d.entityType, []⟩ :
        RemoteEntity S.Other)) = entities.map fun e => ⟨e.address, some e.entityType, []⟩ := by
    have hplain : (fun entry => listed S.Other (plain entry)) = listed S.Other :=
      funext fun entry => listed_plain entry
    calc
      _ = (doc.entityInformation.getD []).filterMap (listed S.Other) := List.map_filterMap
      _ = ((doc.entityInformation.getD []).map plain).filterMap (listed S.Other) := by
        rw [List.filterMap_map, Function.comp_def, hplain]
      _ = entities.map fun e => ⟨e.address, some e.entityType, []⟩ := by
        rw [h.tree, List.filterMap_map]
        simp [Function.comp_def, listed, entityDescription]
  have hpaths : ((entities.map fun e => (⟨e.address, some e.entityType, []⟩ :
      RemoteEntity S.Other)).map RemoteEntity.address).Nodup := by
    simpa [Function.comp_def] using htidy.paths
  have hfiled : (remote.applyDetailedDiscovery doc).entities = entities.map fun e =>
      ⟨e.address, some e.entityType, filedUnder device e.address (doc.featureInformation.getD [])⟩ := by
    have hknown : ∀ y ∈ doc.featureInformation.getD [], ∃ (e : LocalEntity S) (f : LocalFeature S),
        y = featureDescription e f ∧ e.address ∈ (entities.map fun e =>
          (⟨e.address, some e.entityType, []⟩ : RemoteEntity S.Other)).map RemoteEntity.address := by
      intro y hy
      obtain ⟨e, he, f, -, rfl⟩ := mem_listing.mp ((h.features y).mp hy)
      exact ⟨e, f, rfl, by simpa using ⟨e, he, rfl⟩⟩
    unfold RemoteDevice.applyDetailedDiscovery
    dsimp only
    rw [haddress, Option.some_or, hlisted, foldl_fileFeature hpaths hknown, List.map_map]
    simp [Function.comp_def]
  rw [hfiled, List.forall₂_map_left_iff, List.forall₂_same]
  intro e he
  refine ⟨rfl, rfl, ?_⟩
  have hperm : (filedUnder device e.address (doc.featureInformation.getD [])).Perm
      (e.features.map (remoteFeature device e)) := by
    rw [← filedUnder_listing htidy he]
    exact (h.perm htidy).flatMap_right _
  have hfaces := hperm.map RemoteFeature.face
  rwa [List.map_map] at hfaces

end Remote

end Eebus.Spine
