import Mathlib.Data.List.Find
import Eebus.Library.Machine
import Eebus.Spine.Relations

/-! One binding partner per group of features, over everything that can happen to the table. -/

namespace Eebus.Spine

open Eebus.Library Eebus.Model

def featureKey (address : FeatureAddress) : Option AddressDevice × List Nat × Option Nat :=
  (address.device, entityPath address, address.feature)

theorem sameFeature_iff {a b : FeatureAddress} (ha : a.device.isSome) (hb : b.device.isSome) :
    sameFeature a b = true ↔ featureKey a = featureKey b := by
  obtain ⟨x, hx⟩ := Option.isSome_iff_exists.mp ha
  obtain ⟨y, hy⟩ := Option.isSome_iff_exists.mp hb
  simp [sameFeature, devicesAgree, featureKey, hx, hy, and_assoc]

theorem sameEntity_iff {a b : FeatureAddress} (ha : a.device.isSome) (hb : b.device.isSome) :
    sameEntity a b = true ↔ a.device = b.device ∧ entityPath a = entityPath b := by
  obtain ⟨x, hx⟩ := Option.isSome_iff_exists.mp ha
  obtain ⟨y, hy⟩ := Option.isSome_iff_exists.mp hb
  simp [sameEntity, devicesAgree, hx, hy]

def inGroup (group : List FeatureAddress) (feature : FeatureAddress) : Bool :=
  group.any fun f => sameFeature f feature

inductive RelationsOp
  | addBinding (client server : FeatureAddress)
  | removeBinding (client server : FeatureAddress)
  | recordBinding (client server : FeatureAddress)
  | removeHeld (client server : FeatureAddress)
  | removeLocalEntity (device : AddressDevice) (entity : List Nat)
  | removeDevice (device : AddressDevice)
deriving DecidableEq

/-- The addresses the operation names carry their device part. -/
def RelationsOp.Named : RelationsOp → Prop
  | .addBinding client server | .removeBinding client server | .recordBinding client server
  | .removeHeld client server => client.device.isSome ∧ server.device.isSome
  | .removeLocalEntity .. | .removeDevice .. => True

instance : DecidablePred RelationsOp.Named
  | .addBinding .. | .removeBinding .. | .recordBinding .. | .removeHeld .. =>
    inferInstanceAs (Decidable (_ ∧ _))
  | .removeLocalEntity .. | .removeDevice .. => .isTrue trivial

variable {groups : List (List FeatureAddress)} {r : Relations}

namespace Relations

def perform (r : Relations) : RelationsOp → Relations
  | .addBinding client server => (r.addBinding client server).1
  | .removeBinding client server => r.removeBinding client server
  | .recordBinding client server => r.recordBinding client server
  | .removeHeld client server => r.removeHeld client server
  | .removeLocalEntity device entity => r.removeLocalEntity device entity
  | .removeDevice device => r.removeDevice device

def machine : Machine Relations RelationsOp Unit where
  step r op := (r.perform op, ())

def granted (r : Relations) : List Relation := r.bindings.filter fun b => !b.held

/-- An empty table under the single-partner policy, with its groups declared. -/
def declare (groups : List (List FeatureAddress)) : Relations :=
  groups.foldl bindTogether (new .singlePerFeature)

/-- The identifiers have not run out: the next grant does not wrap the counter. -/
def CounterLeft (r : Relations) : RelationsOp → Prop
  | .addBinding .. => r.nextBinding.toNat + 1 < 2 ^ 32
  | _ => True

instance (r : Relations) : DecidablePred r.CounterLeft
  | .addBinding .. => inferInstanceAs (Decidable (_ < _))
  | .removeBinding .. | .recordBinding .. | .removeHeld .. | .removeLocalEntity ..
  | .removeDevice .. => .isTrue trivial

/-- For each bindable feature of a declared group, the group that decides about it (the first one
declared with it) has every bindable feature of that group. -/
def GroupsAgree (groups : List (List FeatureAddress)) : Prop :=
  ∀ group ∈ groups, ∀ f ∈ group, ∀ g ∈ group,
    isNodeManagement f = false → isNodeManagement g = false →
    inGroup ((declare groups).groupOf f) g = true

instance (groups : List (List FeatureAddress)) : Decidable (GroupsAgree groups) :=
  inferInstanceAs (Decidable (∀ group ∈ groups, ∀ f ∈ group, ∀ g ∈ group,
    isNodeManagement f = false → isNodeManagement g = false →
    inGroup ((declare groups).groupOf f) g = true))

theorem declare_groups (groups : List (List FeatureAddress)) :
    (declare groups).groups = groups.filter fun group => group.length > 1 := by
  have key : ∀ (r : Relations), (groups.foldl bindTogether r).groups =
      r.groups ++ groups.filter fun group => group.length > 1 := by
    induction groups with
    | nil => simp
    | cons group rest ih =>
      intro r
      rw [List.foldl_cons, ih]
      by_cases hlen : group.length > 1
      · simp [bindTogether, hlen]
      · simp [bindTogether, hlen]
  simpa [declare, new] using key (new .singlePerFeature)

theorem declare_fresh (groups : List (List FeatureAddress)) :
    (declare groups).bindings = [] ∧ (declare groups).policy = .singlePerFeature ∧
      (declare groups).nextBinding = 1 := by
  have key : ∀ (r : Relations), (groups.foldl bindTogether r).bindings = r.bindings ∧
      (groups.foldl bindTogether r).policy = r.policy ∧
      (groups.foldl bindTogether r).nextBinding = r.nextBinding := by
    induction groups with
    | nil => simp
    | cons group rest ih =>
      intro r
      rw [List.foldl_cons]
      obtain ⟨hb, hp, hn⟩ := ih (r.bindTogether group)
      rw [hb, hp, hn]
      unfold bindTogether
      split <;> simp
  exact key (new .singlePerFeature)

theorem perform_granted (r : Relations) (op : RelationsOp) :
    (r.perform op).groups = r.groups ∧ (r.perform op).policy = r.policy ∧
    (((r.perform op).nextBinding = r.nextBinding ∧ (r.perform op).granted.Sublist r.granted) ∨
      ∃ client server, op = .addBinding client server ∧ isNodeManagement server = false ∧
        (∀ b ∈ r.granted, b.joins client server = false) ∧ r.taken client server = false ∧
        (r.perform op).nextBinding = r.nextBinding + 1 ∧
        (r.perform op).granted = r.granted ++ [Relation.granted r.nextBinding client server]) := by
  cases op with
  | addBinding client server =>
    rcases r.addBinding_cases client server with hsame | ⟨hnode, hnew, htaken, -, hadd⟩
    · simp [perform, hsame]
    · have hnew : ∀ b ∈ r.granted, b.joins client server = false := fun b hb =>
        hnew b (List.mem_filter.mp hb).1 (by simpa using (List.mem_filter.mp hb).2)
      refine ⟨by simp [perform, hadd], by simp [perform, hadd], .inr ⟨client, server, rfl, hnode,
        hnew, htaken, by simp [perform, hadd], ?_⟩⟩
      simp [perform, hadd, granted, Relation.granted]
  | recordBinding client server =>
    refine ⟨rfl, rfl, .inl ⟨rfl, ?_⟩⟩
    have hrecord : (record r.bindings client server).filter (fun b => !b.held) = r.granted := by
      rcases record_cases r.bindings client server with hsame | hadd
      · rw [hsame]
        rfl
      · simp [hadd, granted, Relation.recorded]
    exact hrecord ▸ List.Sublist.refl _
  | removeBinding | removeHeld | removeLocalEntity | removeDevice =>
    exact ⟨rfl, rfl, .inl ⟨rfl, List.filter_sublist.filter _⟩⟩

/-- Each declared group has one partner at most, and the granted bindings can be told apart. -/
structure Exclusive (groups : List (List FeatureAddress)) (r : Relations) : Prop where
  declared : r.groups = (declare groups).groups
  single : r.policy = .singlePerFeature
  named : ∀ b ∈ r.granted, b.client.device.isSome ∧ b.server.device.isSome
  bindable : ∀ b ∈ r.granted, isNodeManagement b.server = false
  partner : ∀ group ∈ groups, ∀ a ∈ r.granted, ∀ b ∈ r.granted,
    inGroup group a.server = true → inGroup group b.server = true →
    sameEntity a.client b.client = true
  below : ∀ b ∈ r.granted, ∀ id, b.id = some id → id.toNat < r.nextBinding.toNat
  distinct : (r.granted.map Relation.id).Nodup
  apart : r.granted.Pairwise fun a b => a.joins b.client b.server = false

theorem exclusive_declare (groups : List (List FeatureAddress)) :
    Exclusive groups (declare groups) := by
  obtain ⟨hb, hp, -⟩ := declare_fresh groups
  have hnone : (declare groups).granted = [] := by simp [granted, hb]
  constructor
  · rfl
  · exact hp
  all_goals simp [hnone]

theorem Exclusive.keep {r' : Relations}
    (h : Exclusive groups r) (hgroups : r'.groups = r.groups) (hpolicy : r'.policy = r.policy)
    (hnext : r'.nextBinding = r.nextBinding) (hsub : r'.granted.Sublist r.granted) :
    Exclusive groups r' where
  declared := hgroups.trans h.declared
  single := hpolicy.trans h.single
  named b hb := h.named b (hsub.mem hb)
  bindable b hb := h.bindable b (hsub.mem hb)
  partner group hg a ha b hb := h.partner group hg a (hsub.mem ha) b (hsub.mem hb)
  below b hb id hid := hnext ▸ h.below b (hsub.mem hb) id hid
  distinct := h.distinct.sublist (hsub.map _)
  apart := h.apart.sublist hsub

theorem inGroup_iff {group : List FeatureAddress} {feature : FeatureAddress}
    (hgroup : ∀ f ∈ group, f.device.isSome) (hfeature : feature.device.isSome) :
    inGroup group feature = true ↔ ∃ f ∈ group, featureKey f = featureKey feature := by
  simp only [inGroup, List.any_eq_true]
  exact exists_congr fun f => and_congr_right fun hf => sameFeature_iff (hgroup f hf) hfeature

theorem isNodeManagement_congr {a b : FeatureAddress} (h : featureKey a = featureKey b) :
    isNodeManagement a = isNodeManagement b := by
  simp only [featureKey, Prod.mk.injEq] at h
  simp [isNodeManagement, h.2.1, h.2.2]

theorem groupOf_inGroup_congr {a b feature : FeatureAddress}
    (hgroups : ∀ group ∈ r.groups, ∀ f ∈ group, f.device.isSome) (ha : a.device.isSome)
    (hb : b.device.isSome) (h : featureKey a = featureKey b) (hfeature : feature.device.isSome)
    (hin : inGroup (r.groupOf a) feature = true) : inGroup (r.groupOf b) feature = true := by
  have hsame : r.groups.find? (fun group => group.any fun f => sameFeature f a) =
      r.groups.find? (fun group => group.any fun f => sameFeature f b) := by
    apply List.find?_congr
    intro group hgroup
    rw [Bool.eq_iff_iff]
    rw [← inGroup, ← inGroup, inGroup_iff (hgroups group hgroup) ha,
      inGroup_iff (hgroups group hgroup) hb, h]
  unfold groupOf at hin ⊢
  rw [hsame] at hin
  cases hfind : r.groups.find? (fun group => group.any fun f => sameFeature f b) with
  | some group => simpa [hfind] using hin
  | none =>
    simp only [hfind, Option.getD_none, inGroup, List.any_cons, List.any_nil, Bool.or_false] at hin ⊢
    rw [sameFeature_iff ha hfeature] at hin
    rw [sameFeature_iff hb hfeature, ← h, hin]

theorem groupOf_named {server : FeatureAddress}
    (hgroups : ∀ group ∈ r.groups, ∀ f ∈ group, f.device.isSome) (hserver : server.device.isSome) :
    ∀ f ∈ r.groupOf server, f.device.isSome := by
  unfold groupOf
  cases hfind : r.groups.find? (fun group => group.any fun f => sameFeature f server) with
  | some group => exact hgroups group (List.mem_of_find?_eq_some hfind)
  | none => simpa using hserver

theorem Exclusive.partner_of_not_taken
    (h : Exclusive groups r) (hnamed : ∀ group ∈ groups, ∀ f ∈ group, f.device.isSome)
    (hagree : GroupsAgree groups) {client server : FeatureAddress} (hserver : server.device.isSome)
    (hnode : isNodeManagement server = false) (htaken : r.taken client server = false)
    {group : List FeatureAddress} (hgroup : group ∈ groups) {b : Relation} (hb : b ∈ r.granted)
    (hbin : inGroup group b.server = true) (hin : inGroup group server = true) :
    sameEntity b.client client = true := by
  have hbserver := (h.named b hb).2
  obtain ⟨f, hf, hfkey⟩ := (inGroup_iff (hnamed group hgroup) hserver).mp hin
  obtain ⟨g, hg, hgkey⟩ := (inGroup_iff (hnamed group hgroup) hbserver).mp hbin
  have hgroups : ∀ group ∈ r.groups, ∀ f ∈ group, f.device.isSome := by
    rw [h.declared, declare_groups]
    exact fun group hgroup => hnamed group (List.mem_filter.mp hgroup).1
  -- the group that decides about the server has the feature the other binding is on
  have hdecides : inGroup (r.groupOf server) g = true := by
    have hfirst := hagree group hgroup f hf g hg
      ((isNodeManagement_congr hfkey).trans hnode)
      ((isNodeManagement_congr hgkey).trans (h.bindable b hb))
    have hsame : r.groupOf f = (declare groups).groupOf f := by simp [groupOf, h.declared]
    exact groupOf_inGroup_congr hgroups (hnamed group hgroup f hf) hserver hfkey
      (hnamed group hgroup g hg) (hsame ▸ hfirst)
  obtain ⟨f', hf', hkey⟩ := (inGroup_iff (groupOf_named hgroups hserver)
    (hnamed group hgroup g hg)).mp hdecides
  have hshared : ((r.groupOf server).any fun f => sameFeature b.server f) = true := by
    refine List.any_eq_true.mpr ⟨f', hf', ?_⟩
    exact (sameFeature_iff hbserver (groupOf_named hgroups hserver f' hf')).mpr
      (hkey.trans hgkey).symm
  have hnot : ((r.groupOf server).any fun f => sameFeature b.server f) = true →
      sameEntity b.client client = true := by
    simp only [taken, h.single, beq_self_eq_true, Bool.true_and, List.any_eq_false] at htaken
    simpa using htaken b (List.mem_filter.mp hb).1
  exact hnot hshared

theorem Exclusive.grant {r' : Relations}
    (h : Exclusive groups r) (hnamed : ∀ group ∈ groups, ∀ f ∈ group, f.device.isSome)
    (hagree : GroupsAgree groups) {client server : FeatureAddress} (hclient : client.device.isSome)
    (hserver : server.device.isSome) (hleft : r.nextBinding.toNat + 1 < 2 ^ 32)
    (hnode : isNodeManagement server = false)
    (hnew : ∀ b ∈ r.granted, b.joins client server = false)
    (htaken : r.taken client server = false) (hgroups : r'.groups = r.groups)
    (hpolicy : r'.policy = r.policy) (hnext : r'.nextBinding = r.nextBinding + 1)
    (hgranted : r'.granted = r.granted ++ [Relation.granted r.nextBinding client server]) :
    Exclusive groups r' := by
  have hsucc : r'.nextBinding.toNat = r.nextBinding.toNat + 1 := by
    rw [hnext, UInt32.toNat_add]
    simp
    omega
  have hmem : ∀ {b}, b ∈ r'.granted → b ∈ r.granted ∨
      b = Relation.granted r.nextBinding client server := by
    intro b hb
    simpa [hgranted] using hb
  have hpartner : ∀ group ∈ groups, ∀ b ∈ r.granted, inGroup group b.server = true →
      inGroup group server = true → sameEntity b.client client = true :=
    fun _ hgroup _ hb => h.partner_of_not_taken hnamed hagree hserver hnode htaken hgroup hb
  refine ⟨hgroups.trans h.declared, hpolicy.trans h.single, fun b hb => ?_, fun b hb => ?_,
    fun group hgroup a ha b hb hain hbin => ?_, fun b hb id hid => ?_, ?_, ?_⟩
  · rcases hmem hb with hb | rfl
    · exact h.named b hb
    · exact ⟨hclient, hserver⟩
  · rcases hmem hb with hb | rfl
    · exact h.bindable b hb
    · exact hnode
  · rcases hmem ha with ha | rfl
    · rcases hmem hb with hb | rfl
      · exact h.partner group hgroup a ha b hb hain hbin
      · exact hpartner group hgroup a ha hain hbin
    · rcases hmem hb with hb | rfl
      · have hrev := hpartner group hgroup b hb hbin hain
        rw [sameEntity_iff (h.named b hb).1 hclient] at hrev
        exact (sameEntity_iff hclient (h.named b hb).1).mpr ⟨hrev.1.symm, hrev.2.symm⟩
      · exact (sameEntity_iff hclient hclient).mpr ⟨rfl, rfl⟩
  · rcases hmem hb with hb | rfl
    · have := h.below b hb id hid
      omega
    · cases hid
      omega
  · rw [hgranted, List.map_append, List.nodup_append]
    refine ⟨h.distinct, by simp, fun id hid id' hid' heq => ?_⟩
    obtain ⟨b, hb, rfl⟩ := List.mem_map.mp hid
    have hidnew : id' = some r.nextBinding := by simpa [Relation.granted] using hid'
    have := h.below b hb r.nextBinding (heq.trans hidnew)
    omega
  · rw [hgranted, List.pairwise_append]
    refine ⟨h.apart, by simp, fun a ha b hb => ?_⟩
    obtain rfl : b = Relation.granted r.nextBinding client server := by simpa using hb
    exact hnew a ha

theorem Exclusive.perform
    (hnamed : ∀ group ∈ groups, ∀ f ∈ group, f.device.isSome) (hagree : GroupsAgree groups)
    (h : Exclusive groups r) (op : RelationsOp) (hop : op.Named ∧ r.CounterLeft op) :
    Exclusive groups (r.perform op) := by
  obtain ⟨hgroups, hpolicy, ⟨hnext, hsub⟩ |
    ⟨client, server, rfl, hnode, hnew, htaken, hnext, hgranted⟩⟩ := r.perform_granted op
  · exact h.keep hgroups hpolicy hnext hsub
  · exact h.grant hnamed hagree hop.1.1 hop.1.2 hop.2 hnode hnew htaken hgroups hpolicy hnext
      hgranted

/-- Over every run from an empty table: the granted bindings on the features of a declared group
belong to one entity of one device, their identifiers are distinct, and no client holds a feature
twice. -/
theorem group_has_one_partner (groups : List (List FeatureAddress))
    (hnamed : ∀ group ∈ groups, ∀ f ∈ group, f.device.isSome) (hagree : GroupsAgree groups)
    (ops : List RelationsOp)
    (hrun : machine.Admits (fun r op => op.Named ∧ r.CounterLeft op) (declare groups) ops) :
    let r := machine.run (declare groups) ops
    (∀ group ∈ groups, ∀ a ∈ r.granted, ∀ b ∈ r.granted,
      inGroup group a.server = true → inGroup group b.server = true →
      a.client.device = b.client.device ∧ entityPath a.client = entityPath b.client) ∧
    (r.granted.map Relation.id).Nodup ∧
    r.granted.Pairwise fun a b => a.joins b.client b.server = false := by
  have h := machine.run_invariant _ (Exclusive groups)
    (fun r op hr hop => hr.perform hnamed hagree op hop) ops _ (exclusive_declare groups) hrun
  refine ⟨fun group hgroup a ha b hb hain hbin => ?_, h.distinct, h.apart⟩
  exact (sameEntity_iff (h.named a ha).1 (h.named b hb).1).mp
    (h.partner group hgroup a ha b hb hain hbin)

def heatPumpFeature (feature : Nat) : FeatureAddress :=
  featureAddress "d:_i:1_HeatPump" [1] feature

def firstManager : FeatureAddress := featureAddress "d:_i:2_Cem" [1] 1

def secondManager : FeatureAddress := featureAddress "d:_i:3_Cem" [1] 1

theorem group_has_one_partner_race :
    let groups := [[heatPumpFeature 1, heatPumpFeature 2], [heatPumpFeature 3, heatPumpFeature 4]]
    let ops : List RelationsOp := [.addBinding firstManager (heatPumpFeature 1),
      .addBinding secondManager (heatPumpFeature 2), .addBinding firstManager (heatPumpFeature 2),
      .addBinding secondManager (heatPumpFeature 3)]
    let r := machine.run (declare groups) ops
    (r.granted.map Relation.client) = [firstManager, firstManager, secondManager] ∧
    (r.granted.map Relation.id).Nodup ∧
    ∀ group ∈ groups, ∀ a ∈ r.granted, ∀ b ∈ r.granted,
      inGroup group a.server = true → inGroup group b.server = true →
      a.client.device = b.client.device ∧ entityPath a.client = entityPath b.client := by
  intro groups ops r
  have h := group_has_one_partner groups (by decide) (by decide) ops (by decide)
  exact ⟨by decide, h.2.1, h.1⟩

/-- A feature of two groups is decided about by the first one alone, so that the second group ends
with two partners. -/
theorem shared_feature_splits_group :
    let groups := [[heatPumpFeature 1, heatPumpFeature 2], [heatPumpFeature 2, heatPumpFeature 3]]
    let ops : List RelationsOp := [.addBinding firstManager (heatPumpFeature 3),
      .addBinding secondManager (heatPumpFeature 2)]
    let r := machine.run (declare groups) ops
    ∃ group ∈ groups, ∃ a ∈ r.granted, ∃ b ∈ r.granted,
      inGroup group a.server = true ∧ inGroup group b.server = true ∧
      a.client.device ≠ b.client.device :=
  ⟨[heatPumpFeature 2, heatPumpFeature 3], by decide,
    Relation.granted 1 firstManager (heatPumpFeature 3), List.mem_of_getElem? (i := 0) rfl,
    Relation.granted 2 secondManager (heatPumpFeature 2), List.mem_of_getElem? (i := 1) rfl,
    by decide, by decide, by decide⟩

end Relations

end Eebus.Spine
