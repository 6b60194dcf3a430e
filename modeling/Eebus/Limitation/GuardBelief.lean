import Eebus.Limitation.Actor
import Eebus.Spine.Claims

/-!
The Energy Guard is the entity that holds both bindings. The actor makes it out from the grants and
releases it is told of, while the engine keeps the table: where every change of the table is told,
and told under the addresses the actor compares with, the two agree.
-/

namespace Eebus.Limitation

open Eebus.Library Eebus.Model Eebus.Spine

variable {S : Schema}

namespace CsFeatures

variable (features : CsFeatures)

def isLoadControl (server : FeatureAddress) : Bool := sameFeature server features.loadControl

def isConfiguration (server : FeatureAddress) : Bool :=
  sameFeature server features.deviceConfiguration

def guarded (server : FeatureAddress) : Bool :=
  features.isLoadControl server || features.isConfiguration server

end CsFeatures

namespace Belief

def hear (features : CsFeatures) (b : Belief) : SpineEvent S → Belief
  | .bindingGranted client server => (b.onBinding features client server).1
  | .bindingReleased _ server => b.onRelease features server
  | _ => b

def Alike (b b' : Belief) : Prop :=
  b'.boundLoadControl = b.boundLoadControl ∧ b'.boundConfiguration = b.boundConfiguration ∧
    b'.guard = b.guard

theorem Alike.refl (b : Belief) : Alike b b := ⟨rfl, rfl, rfl⟩

theorem Alike.trans {b b' b'' : Belief} (h : Alike b b') (h' : Alike b' b'') : Alike b b'' :=
  ⟨h'.1.trans h.1, h'.2.1.trans h.2.1, h'.2.2.trans h.2.2⟩

theorem Alike.onBinding {b b' : Belief} (h : Alike b b') (features : CsFeatures)
    (client server : FeatureAddress) :
    Alike (b.onBinding features client server).1 (b'.onBinding features client server).1 := by
  obtain ⟨load, configuration, guard, diagnosis, subscribed, asked⟩ := b
  obtain ⟨load', configuration', guard', diagnosis', subscribed', asked'⟩ := b'
  obtain ⟨rfl, rfl, rfl⟩ := h
  unfold Belief.onBinding
  split
  · exact ⟨rfl, rfl, rfl⟩
  · by_cases hload : server = features.loadControl
    · simp only [hload, if_true]
      cases configuration' with
      | none => exact ⟨rfl, rfl, rfl⟩
      | some second =>
        dsimp only
        split <;> exact ⟨rfl, rfl, rfl⟩
    · simp only [hload, if_false]
      cases load' with
      | none => exact ⟨rfl, rfl, rfl⟩
      | some first =>
        dsimp only
        split <;> exact ⟨rfl, rfl, rfl⟩

theorem Alike.hear {b b' : Belief} (h : Alike b b') (features : CsFeatures) (event : SpineEvent S) :
    Alike (b.hear features event) (b'.hear features event) := by
  cases event with
  | bindingGranted client server => exact h.onBinding features client server
  | bindingReleased client server =>
    obtain ⟨hload, hconfiguration, -⟩ := h
    exact ⟨by simp [Belief.hear, onRelease, hload],
      by simp [Belief.hear, onRelease, hconfiguration], rfl⟩
  | _ => exact h

theorem Alike.foldl {b b' : Belief} (h : Alike b b') (features : CsFeatures)
    (events : List (SpineEvent S)) :
    Alike (events.foldl (Belief.hear features) b) (events.foldl (Belief.hear features) b') := by
  induction events generalizing b b' with
  | nil => exact h
  | cons event rest ih => exact ih (h.hear features event)

theorem hear_of_not_isBinding (features : CsFeatures) (b : Belief) {event : SpineEvent S}
    (h : event.isBinding = false) : b.hear features event = b := by
  cases event <;> first | rfl | simp [SpineEvent.isBinding] at h

theorem foldl_hear_of_not_isBinding (features : CsFeatures) (events : List (SpineEvent S))
    (b : Belief) (h : ∀ event ∈ events, event.isBinding = false) :
    events.foldl (hear features) b = b := by
  induction events with
  | nil => rfl
  | cons event rest ih =>
    rw [List.foldl_cons, hear_of_not_isBinding features b (h event List.mem_cons_self)]
    exact ih fun e he => h e (List.mem_cons_of_mem event he)

theorem alike_follow (b : Belief) (e : Engine S) (features : CsFeatures) (now : Nat) :
    Alike b (b.follow e features now).1 := by
  unfold follow
  repeat' split
  all_goals exact ⟨rfl, rfl, rfl⟩

end Belief

/-- The two addresses belong to one entity of one device. -/
def SameHolder (a b : FeatureAddress) : Prop :=
  a.device = b.device ∧ entityPath a = entityPath b

instance (a b : FeatureAddress) : Decidable (SameHolder a b) := inferInstanceAs (Decidable (_ ∧ _))

theorem SameHolder.symm {a b : FeatureAddress} (h : SameHolder a b) : SameHolder b a :=
  ⟨h.1.symm, h.2.symm⟩

theorem SameHolder.trans {a b c : FeatureAddress} (h : SameHolder a b) (h' : SameHolder b c) :
    SameHolder a c :=
  ⟨h.1.trans h'.1, h.2.trans h'.2⟩

theorem SameHolder.sameEntity {a b : FeatureAddress} (h : SameHolder a b) :
    sameEntity a b = true := by
  unfold Spine.sameEntity devicesAgree
  rw [h.1, h.2]
  cases b.device <;> simp

theorem sameHolder_of_sameEntity {a b : FeatureAddress} (h : sameEntity a b = true)
    (ha : a.device.isSome) (hb : b.device.isSome) : SameHolder a b := by
  obtain ⟨x, hx⟩ := Option.isSome_iff_exists.mp ha
  obtain ⟨y, hy⟩ := Option.isSome_iff_exists.mp hb
  simp only [sameEntity, devicesAgree, hx, hy, Bool.and_eq_true, beq_iff_eq] at h
  exact ⟨by rw [hx, hy, h.1], h.2⟩

/-- A binding granted on a feature that `on` picks. -/
def BoundOn (on : FeatureAddress → Bool) (r : Relations) (b : Relation) : Prop :=
  b ∈ r.bindings ∧ b.held = false ∧ on b.server = true

/-- The bindings on the two features belong to one entity, and whoever else asks for one is
refused. -/
structure Partnered (features : CsFeatures) (r : Relations) : Prop where
  single : r.policy = .singlePerFeature
  grouped : ∀ f ∈ [features.loadControl, features.deviceConfiguration],
    ∀ g ∈ [features.loadControl, features.deviceConfiguration],
      (r.groupOf f).any (fun x => sameFeature g x) = true
  named : ∀ b, BoundOn features.guarded r b → b.client.device.isSome = true ∧
    b.server ∈ [features.loadControl, features.deviceConfiguration]
  partner : ∀ a b, BoundOn features.guarded r a → BoundOn features.guarded r b →
    SameHolder a.client b.client

/-- The belief about one feature: somebody is bound there, who is the holder, or nobody is. -/
def Knows (on : FeatureAddress → Bool) (r : Relations) : Option FeatureAddress → Prop
  | some client => ∃ b, BoundOn on r b ∧ SameHolder b.client client
  | none => ∀ b, ¬ BoundOn on r b

structure Accurate (features : CsFeatures) (r : Relations) (b : Belief) : Prop where
  load : Knows features.isLoadControl r b.boundLoadControl
  configuration : Knows features.isConfiguration r b.boundConfiguration
  identified : ∀ guard, b.guard = some guard → b.boundConfiguration.isSome = true ∧
    ∃ client, b.boundLoadControl = some client ∧ SameHolder client guard
  unidentified : b.guard = none → b.boundLoadControl = none ∨ b.boundConfiguration = none

theorem BoundOn.guarded_of_load {features : CsFeatures} {r : Relations} {b : Relation}
    (h : BoundOn features.isLoadControl r b) : BoundOn features.guarded r b :=
  ⟨h.1, h.2.1, by simp [CsFeatures.guarded, h.2.2]⟩

theorem BoundOn.guarded_of_configuration {features : CsFeatures} {r : Relations} {b : Relation}
    (h : BoundOn features.isConfiguration r b) : BoundOn features.guarded r b :=
  ⟨h.1, h.2.1, by simp [CsFeatures.guarded, h.2.2]⟩

variable {on : FeatureAddress → Bool} {bound : Option FeatureAddress}

theorem Knows.congr {r r' : Relations}
    (h : Knows on r bound) (hsame : ∀ b, BoundOn on r' b ↔ BoundOn on r b) : Knows on r' bound := by
  cases bound with
  | none => exact fun b hb => h b ((hsame b).mp hb)
  | some client =>
    obtain ⟨b, hb, hholder⟩ := h
    exact ⟨b, (hsame b).mpr hb, hholder⟩

section Claims

variable {features : CsFeatures} {r r' : Relations} {b : Belief}

theorem boundOn_sameClaims (on : FeatureAddress → Bool)
    (hon : ∀ server, on server = true → features.guarded server = true)
    (h : SameClaims features.guarded r r') (c : Relation) : BoundOn on r' c ↔ BoundOn on r c := by
  constructor
  · rintro ⟨hmem, hheld, hserver⟩
    exact ⟨(h.claims c (by simp [Relation.claims, hheld, hon _ hserver])).mp hmem, hheld, hserver⟩
  · rintro ⟨hmem, hheld, hserver⟩
    exact ⟨(h.claims c (by simp [Relation.claims, hheld, hon _ hserver])).mpr hmem, hheld, hserver⟩

theorem Partnered.sameClaims (hp : Partnered features r) (h : SameClaims features.guarded r r') :
    Partnered features r' := by
  have hbound := boundOn_sameClaims features.guarded (fun _ hs => hs) h
  refine ⟨h.policy.trans hp.single, ?_, fun c hc => hp.named c ((hbound c).mp hc),
    fun c d hc hd => hp.partner c d ((hbound c).mp hc) ((hbound d).mp hd)⟩
  have hgroup : ∀ f, r'.groupOf f = r.groupOf f := fun f => by simp [Relations.groupOf, h.groups]
  simpa only [hgroup] using hp.grouped

theorem Accurate.sameClaims (ha : Accurate features r b) (h : SameClaims features.guarded r r') :
    Accurate features r' b :=
  ⟨ha.load.congr (boundOn_sameClaims _ (by simp +contextual [CsFeatures.guarded]) h),
    ha.configuration.congr (boundOn_sameClaims _ (by simp +contextual [CsFeatures.guarded]) h),
    ha.identified, ha.unidentified⟩

/-- What a granted request leaves: the table with a binding between the two features in it, which
was there or which no other entity stood in the way of. -/
structure Adds (r r' : Relations) (client server : FeatureAddress) : Prop where
  groups : r'.groups = r.groups
  policy : r'.policy = r.policy
  old : ∀ c ∈ r.bindings, c ∈ r'.bindings
  new : ∀ c ∈ r'.bindings, c ∈ r.bindings ∨
    c.client = client ∧ c.server = server ∧ r.taken client server = false
  joined : ∃ c ∈ r'.bindings, c.held = false ∧ c.joins client server = true

theorem sameFeature_refl (a : FeatureAddress) : sameFeature a a = true := by
  unfold sameFeature devicesAgree
  cases a.device <;> simp

theorem adds_of_ok {client server : FeatureAddress} {id : UInt32}
    (h : (r.addBinding client server).2 = .ok id) :
    Adds r (r.addBinding client server).1 client server := by
  revert h
  unfold Relations.addBinding
  split
  · simp
  · split
    case h_1 existing hfound =>
      intro _
      have hmem : existing.1 ∈ r.bindings ∧ existing.1.joins client server = true := by
        unfold findGranted at hfound
        split at hfound
        case h_1 c hc =>
          cases hfound
          have hjoins := List.find?_some hc
          simp only [Bool.and_eq_true] at hjoins
          exact ⟨List.mem_of_find?_eq_some hc, hjoins.2⟩
        case h_2 => cases hfound
      exact ⟨rfl, rfl, fun _ hc => hc, fun _ hc => .inl hc, existing.1, hmem.1, existing.2, hmem.2⟩
    case h_2 =>
      split
      · simp
      · rename_i htaken
        split
        · simp
        · intro _
          have hjoins : (Relation.granted r.nextBinding client server).joins client server = true := by
            simp [Relation.joins, Relation.granted, sameFeature_refl]
          refine ⟨rfl, rfl, fun c hc => List.mem_append_left _ hc, fun c hc => ?_,
            _, List.mem_append_right _ (List.mem_singleton_self _), rfl, hjoins⟩
          cases List.mem_append.mp hc with
          | inl hc => exact .inl hc
          | inr hc =>
            rw [List.mem_singleton.mp hc]
            exact .inr ⟨rfl, rfl, by simpa using htaken⟩

/-- The request names the two features as the actor does, and on them says which device it is for. -/
def NamesGuarded (features : CsFeatures) (client server : FeatureAddress) : Prop :=
  features.guarded server = true →
    server ∈ [features.loadControl, features.deviceConfiguration] ∧ client.device.isSome = true

/-- The two features are two features. -/
def CsFeatures.Apart (features : CsFeatures) : Prop :=
  sameFeature features.loadControl features.deviceConfiguration = false ∧
    sameFeature features.deviceConfiguration features.loadControl = false

variable {client server : FeatureAddress}

theorem Adds.partnered (h : Adds r r' client server) (hp : Partnered features r)
    (hnames : NamesGuarded features client server) : Partnered features r' := by
  have hnew : ∀ c, BoundOn features.guarded r' c → BoundOn features.guarded r c ∨
      c.client = client ∧ c.server = server ∧ r.taken client server = false ∧
        features.guarded server = true := by
    rintro c ⟨hmem, hheld, hserver⟩
    cases h.new c hmem with
    | inl hold => exact .inl ⟨hold, hheld, hserver⟩
    | inr hadded =>
      obtain ⟨hclient, hs, htaken⟩ := hadded
      exact .inr ⟨hclient, hs, htaken, hs ▸ hserver⟩
  -- whoever is bound already is of the entity the new binding is for
  have hshared : ∀ c, BoundOn features.guarded r c → r.taken client server = false →
      features.guarded server = true → SameHolder c.client client := by
    intro c hc htaken hserver
    obtain ⟨hfeature, hclient⟩ := hnames hserver
    obtain ⟨hcclient, hcserver⟩ := hp.named c hc
    have hgroup := hp.grouped server hfeature c.server hcserver
    simp only [Relations.taken, hp.single, beq_self_eq_true, Bool.true_and, List.any_eq_false] at htaken
    have hentity : sameEntity c.client client = true := by
      have := htaken c hc.1
      simpa [hgroup] using this
    exact sameHolder_of_sameEntity hentity hcclient hclient
  refine ⟨h.policy.trans hp.single, ?_, fun c hc => ?_, fun c d hc hd => ?_⟩
  · have hgroup : ∀ f, r'.groupOf f = r.groupOf f := fun f => by simp [Relations.groupOf, h.groups]
    simpa only [hgroup] using hp.grouped
  · rcases hnew c hc with hold | ⟨hclient, hs, -, hserver⟩
    · exact hp.named c hold
    · obtain ⟨hfeature, hdevice⟩ := hnames hserver
      exact ⟨hclient ▸ hdevice, hs ▸ hfeature⟩
  · rcases hnew c hc with hc | ⟨hcclient, -, htaken, hserver⟩
    · rcases hnew d hd with hd | ⟨hdclient, -, htaken, hserver⟩
      · exact hp.partner c d hc hd
      · rw [hdclient]
        exact hshared c hc htaken hserver
    · rcases hnew d hd with hd | ⟨hdclient, -, -, -⟩
      · rw [hcclient]
        exact (hshared d hd htaken hserver).symm
      · rw [hcclient, hdclient]
        exact ⟨rfl, rfl⟩

theorem Adds.knows_other (h : Adds r r' client server)
    (hother : on server = false) (hknows : Knows on r bound) : Knows on r' bound := by
  refine hknows.congr fun c => ⟨?_, fun ⟨hmem, hheld, hc⟩ => ⟨h.old c hmem, hheld, hc⟩⟩
  rintro ⟨hmem, hheld, hc⟩
  cases h.new c hmem with
  | inl hold => exact ⟨hold, hheld, hc⟩
  | inr hadded =>
    rw [hadded.2.1, hother] at hc
    cases hc

theorem Adds.knows (h : Adds r r' client server) (hp' : Partnered features r')
    (hon : ∀ s, on s = true → features.guarded s = true)
    (hfeature : ∀ c, sameFeature c server = true → on c = true) (hclient : client.device.isSome) :
    Knows on r' (some client) := by
  obtain ⟨c, hc, hheld, hjoins⟩ := h.joined
  simp only [Relation.joins, Bool.and_eq_true] at hjoins
  have hbound : BoundOn on r' c := ⟨hc, hheld, hfeature c.server hjoins.2⟩
  have hdevice := (hp'.named c ⟨hc, hheld, hon _ hbound.2.2⟩).1
  have hentity : sameEntity c.client client = true := by
    have := hjoins.1
    simp only [sameFeature, sameEntity, Bool.and_eq_true] at this ⊢
    exact this.1
  exact ⟨c, hbound, sameHolder_of_sameEntity hentity hdevice hclient⟩

theorem Adds.knows_mono (h : Adds r r' client server)
    {bound : FeatureAddress} (hknows : Knows on r (some bound)) : Knows on r' (some bound) := by
  obtain ⟨c, ⟨hmem, hheld, hc⟩, hholder⟩ := hknows
  exact ⟨c, ⟨h.old c hmem, hheld, hc⟩, hholder⟩

theorem Partnered.holder (hp : Partnered features r) {on' : FeatureAddress → Bool}
    (hon : ∀ s, on s = true → features.guarded s = true)
    (hon' : ∀ s, on' s = true → features.guarded s = true) {x y : FeatureAddress}
    (hx : Knows on r (some x)) (hy : Knows on' r (some y)) : SameHolder x y := by
  obtain ⟨c, ⟨hcmem, hcheld, hc⟩, hcx⟩ := hx
  obtain ⟨d, ⟨hdmem, hdheld, hd⟩, hdy⟩ := hy
  have hcd := hp.partner c d ⟨hcmem, hcheld, hon _ hc⟩ ⟨hdmem, hdheld, hon' _ hd⟩
  exact (hcx.symm.trans hcd).trans hdy

theorem guarded_of_isLoadControl (s : FeatureAddress) (h : features.isLoadControl s = true) :
    features.guarded s = true := by
  simp [CsFeatures.guarded, h]

theorem guarded_of_isConfiguration (s : FeatureAddress) (h : features.isConfiguration s = true) :
    features.guarded s = true := by
  simp [CsFeatures.guarded, h]

theorem onBinding_load (b : Belief) (client : FeatureAddress) :
    (b.onBinding features client features.loadControl).1 =
      { b with
        boundLoadControl := some client
        guard := b.guard.or (if b.boundConfiguration.any (sameEntity client) then some client
          else none) } := by
  unfold Belief.onBinding
  cases hconfiguration : b.boundConfiguration with
  | none => cases b.guard <;> simp
  | some d => cases b.guard <;> cases hentity : sameEntity client d <;> simp [hentity]

theorem onBinding_configuration (hapart : features.Apart) (b : Belief) (client : FeatureAddress) :
    (b.onBinding features client features.deviceConfiguration).1 =
      { b with
        boundConfiguration := some client
        guard := b.guard.or (b.boundLoadControl.filter fun first => sameEntity first client) } := by
  have hne : features.deviceConfiguration ≠ features.loadControl := by
    intro heq
    have := hapart.1
    rw [heq, sameFeature_refl] at this
    cases this
  unfold Belief.onBinding
  cases hload : b.boundLoadControl with
  | none => cases b.guard <;> simp [hne]
  | some a =>
    cases b.guard <;> cases hentity : sameEntity a client <;> simp [hne, hentity, Option.filter]

theorem Adds.accurate_load (h : Adds r r' client features.loadControl)
    (hp' : Partnered features r') (hapart : features.Apart) (hclient : client.device.isSome)
    (ha : Accurate features r b) :
    Accurate features r' (b.onBinding features client features.loadControl).1 := by
  have hload : Knows features.isLoadControl r' (some client) :=
    h.knows hp' guarded_of_isLoadControl (fun _ hc => hc) hclient
  have hconfiguration : Knows features.isConfiguration r' b.boundConfiguration :=
    h.knows_other hapart.1 ha.configuration
  rw [onBinding_load]
  refine ⟨hload, hconfiguration, fun guard hguard => ?_, fun hguard => ?_⟩
  · dsimp only at hguard ⊢
    cases hold : b.guard with
    | some g =>
      rw [hold] at hguard
      cases hguard
      obtain ⟨hbound, first, hfirst, hholder⟩ := ha.identified guard hold
      have hknown := ha.load
      rw [hfirst] at hknown
      have hsame := hp'.holder guarded_of_isLoadControl guarded_of_isLoadControl hload
        (h.knows_mono hknown)
      exact ⟨hbound, client, rfl, hsame.trans hholder⟩
    | none =>
      rw [hold] at hguard
      cases hsecond : b.boundConfiguration with
      | none => simp [hsecond] at hguard
      | some d =>
        have heq : client = guard := by
          simp only [hsecond, Option.none_or, Option.any_some] at hguard
          split at hguard
          · exact Option.some.inj hguard
          · cases hguard
        exact ⟨rfl, client, rfl, heq ▸ ⟨rfl, rfl⟩⟩
  · right
    dsimp only at hguard ⊢
    cases hsecond : b.boundConfiguration with
    | none => rfl
    | some d =>
      rw [hsecond] at hconfiguration
      have hentity := (hp'.holder guarded_of_isLoadControl guarded_of_isConfiguration hload
        hconfiguration).sameEntity
      simp [hsecond, hentity] at hguard

theorem Adds.accurate_configuration (h : Adds r r' client features.deviceConfiguration)
    (hp' : Partnered features r') (hapart : features.Apart) (hclient : client.device.isSome)
    (ha : Accurate features r b) :
    Accurate features r' (b.onBinding features client features.deviceConfiguration).1 := by
  have hconfiguration : Knows features.isConfiguration r' (some client) :=
    h.knows hp' guarded_of_isConfiguration (fun _ hc => hc) hclient
  have hload : Knows features.isLoadControl r' b.boundLoadControl :=
    h.knows_other hapart.2 ha.load
  rw [onBinding_configuration hapart]
  refine ⟨hload, hconfiguration, fun guard hguard => ?_, fun hguard => ?_⟩
  · dsimp only at hguard ⊢
    refine ⟨rfl, ?_⟩
    cases hold : b.guard with
    | some g =>
      rw [hold] at hguard
      cases hguard
      exact (ha.identified guard hold).2
    | none =>
      rw [hold, Option.none_or, Option.filter_eq_some_iff] at hguard
      exact ⟨guard, hguard.1, rfl, rfl⟩
  · left
    dsimp only at hguard ⊢
    cases hfirst : b.boundLoadControl with
    | none => rfl
    | some a =>
      rw [hfirst] at hload
      have hentity := (hp'.holder guarded_of_isLoadControl guarded_of_isConfiguration hload
        hconfiguration).sameEntity
      simp [hfirst, hentity, Option.filter] at hguard

theorem Adds.accurate (h : Adds r r' client server) (hp' : Partnered features r')
    (hapart : features.Apart) (hnames : NamesGuarded features client server)
    (ha : Accurate features r b) : Accurate features r' (b.onBinding features client server).1 := by
  cases hserver : features.guarded server with
  | false =>
    simp only [CsFeatures.guarded, Bool.or_eq_false_iff] at hserver
    have hload : server ≠ features.loadControl := by
      rintro rfl
      rw [CsFeatures.isLoadControl, sameFeature_refl] at hserver
      cases hserver.1
    have hconfiguration : server ≠ features.deviceConfiguration := by
      rintro rfl
      rw [CsFeatures.isConfiguration, sameFeature_refl] at hserver
      cases hserver.2
    have hsame : (b.onBinding features client server).1 = b := by
      simp [Belief.onBinding, hload, hconfiguration]
    rw [hsame]
    exact ⟨h.knows_other hserver.1 ha.load, h.knows_other hserver.2 ha.configuration,
      ha.identified, ha.unidentified⟩
  | true =>
    obtain ⟨hfeature, hclient⟩ := hnames hserver
    simp only [List.mem_cons, List.not_mem_nil, or_false] at hfeature
    rcases hfeature with rfl | rfl
    · exact h.accurate_load hp' hapart hclient ha
    · exact h.accurate_configuration hp' hapart hclient ha

def boundAt (on : FeatureAddress → Bool) (r : Relations) : Bool :=
  r.bindings.any fun c => !c.held && on c.server

def staysBound (on : FeatureAddress → Bool) (r : Relations) (client server : FeatureAddress) : Bool :=
  r.bindings.any fun c => !c.held && on c.server && !c.joins client server

/-- A release says what it does. One that names the entity of the load control feature ends the
binding there and no other; one that names the entity of the configuration feature, where that is
another, ends that one; and any other comes while there is no guard. -/
def ReleaseTold (features : CsFeatures) (r : Relations) (client server : FeatureAddress) : Prop :=
  let load := features.isLoadControl
  let configuration := features.isConfiguration
  if sameEntity server features.loadControl then
    staysBound load r client server = false ∧
      (boundAt configuration r = true → staysBound configuration r client server = true)
  else if sameEntity server features.deviceConfiguration then
    staysBound configuration r client server = false ∧
      (boundAt load r = true → staysBound load r client server = true)
  else
    (boundAt load r = true → staysBound load r client server = true) ∧
      (boundAt configuration r = true → staysBound configuration r client server = true) ∧
      (boundAt load r = false ∨ boundAt configuration r = false)

instance (features : CsFeatures) (r : Relations) (client server : FeatureAddress) :
    Decidable (ReleaseTold features r client server) :=
  inferInstanceAs (Decidable (if sameEntity server features.loadControl then _ ∧ _
    else if sameEntity server features.deviceConfiguration then _ ∧ _ else _ ∧ _ ∧ (_ ∨ _)))

theorem boundAt_iff : boundAt on r = true ↔ ∃ c, BoundOn on r c := by
  simp [boundAt, BoundOn]

theorem boundOn_removeBinding (c : Relation) : BoundOn on (r.removeBinding client server) c ↔
      BoundOn on r c ∧ c.joins client server = false := by
  simp only [BoundOn, Relations.removeBinding, List.mem_filter, Bool.or_eq_true,
    Bool.not_eq_true']
  constructor
  · rintro ⟨⟨hmem, hkept⟩, hheld, hc⟩
    simp only [hheld, Bool.false_eq_true, false_or] at hkept
    exact ⟨⟨hmem, hheld, hc⟩, hkept⟩
  · rintro ⟨⟨hmem, hheld, hc⟩, hkept⟩
    exact ⟨⟨hmem, .inr hkept⟩, hheld, hc⟩

theorem staysBound_iff :
    staysBound on r client server = true ↔ ∃ c, BoundOn on (r.removeBinding client server) c := by
  simp only [boundOn_removeBinding]
  simp only [staysBound, BoundOn, List.any_eq_true, Bool.and_eq_true, Bool.not_eq_true']
  constructor
  · rintro ⟨c, hmem, ⟨hheld, hc⟩, hkept⟩
    exact ⟨c, ⟨hmem, hheld, hc⟩, hkept⟩
  · rintro ⟨c, ⟨hmem, hheld, hc⟩, hkept⟩
    exact ⟨c, hmem, ⟨hheld, hc⟩, hkept⟩

theorem Knows.kept (hp : Partnered features r)
    (hon : ∀ s, on s = true → features.guarded s = true) (hknows : Knows on r bound)
    (hkept : boundAt on r = true → staysBound on r client server = true) :
    Knows on (r.removeBinding client server) bound := by
  cases bound with
  | none => exact fun c hc => hknows c ((boundOn_removeBinding c).mp hc).1
  | some x =>
    obtain ⟨c, hc, hcx⟩ := hknows
    obtain ⟨d, hd⟩ := staysBound_iff.mp (hkept (boundAt_iff.mpr ⟨c, hc⟩))
    obtain ⟨hmem, hheld, hserver⟩ := ((boundOn_removeBinding d).mp hd).1
    have hdc := hp.partner d c ⟨hmem, hheld, hon _ hserver⟩ ⟨hc.1, hc.2.1, hon _ hc.2.2⟩
    exact ⟨d, hd, hdc.trans hcx⟩

theorem Knows.ended (h : staysBound on r client server = false) :
    Knows on (r.removeBinding client server) none := by
  intro c hc
  rw [staysBound_iff.mpr ⟨c, hc⟩] at h
  cases h

theorem Partnered.release (hp : Partnered features r) (client server : FeatureAddress) :
    Partnered features (r.removeBinding client server) :=
  ⟨hp.single, hp.grouped, fun c hc => hp.named c ((boundOn_removeBinding c).mp hc).1,
    fun c d hc hd => hp.partner c d ((boundOn_removeBinding c).mp hc).1
      ((boundOn_removeBinding d).mp hd).1⟩

theorem Knows.unbound
    (hknows : Knows on r bound) (h : boundAt on r = false) : bound = none := by
  cases bound with
  | none => rfl
  | some x =>
    obtain ⟨c, hc, -⟩ := hknows
    rw [boundAt_iff.mpr ⟨c, hc⟩] at h
    cases h

theorem Accurate.release (ha : Accurate features r b) (hp : Partnered features r)
    (htold : ReleaseTold features r client server) :
    Accurate features (r.removeBinding client server) (b.onRelease features server) := by
  unfold ReleaseTold at htold
  dsimp only at htold
  unfold Belief.onRelease
  cases hload : sameEntity server features.loadControl with
  | true =>
    simp only [hload, if_true] at htold
    simp only [if_true, Bool.not_true, Bool.false_and, Bool.false_eq_true, if_false]
    exact ⟨.ended htold.1, ha.configuration.kept hp guarded_of_isConfiguration htold.2, by simp,
      by simp⟩
  | false =>
    simp only [hload, Bool.false_eq_true, if_false] at htold
    simp only [Bool.false_eq_true, if_false, Bool.not_false, Bool.true_and]
    cases hconfiguration : sameEntity server features.deviceConfiguration with
    | true =>
      simp only [hconfiguration, if_true] at htold
      exact ⟨ha.load.kept hp guarded_of_isLoadControl htold.2, .ended htold.1, by simp, by simp⟩
    | false =>
      simp only [hconfiguration, Bool.false_eq_true, if_false] at htold
      refine ⟨ha.load.kept hp guarded_of_isLoadControl htold.1,
        ha.configuration.kept hp guarded_of_isConfiguration htold.2.1, by simp, fun _ => ?_⟩
      cases htold.2.2 with
      | inl h => exact .inl (ha.load.unbound h)
      | inr h => exact .inr (ha.configuration.unbound h)

theorem ReleaseTold.sameClaims (h : SameClaims features.guarded r r')
    (htold : ReleaseTold features r client server) : ReleaseTold features r' client server := by
  have hbound : ∀ on : FeatureAddress → Bool,
      (∀ s, on s = true → features.guarded s = true) →
      boundAt on r' = boundAt on r ∧ staysBound on r' client server = staysBound on r client server := by
    intro on hon
    have hsame := boundOn_sameClaims on hon h
    constructor
    · rw [Bool.eq_iff_iff, boundAt_iff, boundAt_iff]
      exact exists_congr hsame
    · rw [Bool.eq_iff_iff, staysBound_iff, staysBound_iff]
      refine exists_congr fun c => ?_
      rw [boundOn_removeBinding, boundOn_removeBinding, hsame c]
  obtain ⟨hload, hload'⟩ := hbound _ guarded_of_isLoadControl
  obtain ⟨hconfiguration, hconfiguration'⟩ := hbound _ guarded_of_isConfiguration
  unfold ReleaseTold at htold ⊢
  dsimp only at htold ⊢
  rw [hload, hload', hconfiguration, hconfiguration']
  exact htold

end Claims

end Eebus.Limitation
