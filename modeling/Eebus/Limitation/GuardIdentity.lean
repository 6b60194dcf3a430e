import Eebus.Limitation.GuardBelief

/-!
Runs of an actor that is handed every event of its engine. Where no release tells the actor
something else than it does, and no binding on the two features goes without one, the guard the
actor names once the events are handed over is the entity that holds both bindings.
-/

namespace Eebus.Limitation

open Eebus.Library Eebus.Model Eebus.Spine

variable {S : Schema}

def Steady (e e' : Engine S) : Prop :=
  e'.relations = e.relations ∧ Reports (fun event => event.isBinding = false) e e'

namespace Steady

variable {e e' e'' : Engine S}

theorem of_eq (hrelations : e'.relations = e.relations) (hevents : e'.events = e.events) :
    Steady e e' :=
  ⟨hrelations, .of_eq hevents⟩

theorem refl (e : Engine S) : Steady e e := of_eq rfl rfl

theorem trans (h : Steady e e') (h' : Steady e' e'') : Steady e e'' :=
  ⟨h'.1.trans h.1, h.2.trans h'.2⟩

theorem of_sends {P : Datagram S → Prop} (h : Sends P e e') : Steady e e' :=
  of_eq h.relations h.events

theorem emit (e : Engine S) {event : SpineEvent S} (h : event.isBinding = false) :
    Steady e (e.emit event) :=
  ⟨rfl, .emit e h⟩

theorem finishWrite (e : Engine S) (token : Nat) (replacement : Option (CmdData S)) :
    Steady e (e.finishWrite token replacement).1 := by
  obtain ⟨said, hsaid, hbooks⟩ := e.finishWrite_books token replacement
  refine ⟨e.finishWrite_relations token replacement, said, hbooks.events, fun event hevent => ?_⟩
  have hwritten := hsaid event hevent
  cases event <;> first | rfl | cases hwritten

theorem rejectWrite (e : Engine S) (token : Nat) (error : ErrorNumber) :
    Steady e (e.rejectWrite token error).1 := by
  refine of_eq (e.rejectWrite_relations token error) ?_
  exact (e.rejectWrite_books token error).events.trans (List.append_nil _)

theorem request (e : Engine S) (source destination : FeatureAddress) (classifier : CmdClassifier)
    (ackRequest : Bool) (cmd : Cmd S) (now : Nat) :
    Steady e (e.request source destination classifier ackRequest cmd now).1 := by
  refine ⟨rfl, _, rfl, fun event hevent => ?_⟩
  obtain ⟨pending, -, rfl⟩ := List.mem_map.mp hevent
  rfl

theorem expire (now : Nat) (acc : Engine S × List (Pending S) × List (Pending S))
    (request : Pending S) : Steady acc.1 (Engine.expire now acc request).1 := by
  obtain ⟨e, kept, abandoned⟩ := acc
  simp only [Engine.expire]
  split
  · exact refl e
  · split
    · split <;> exact refl e
    · refine .trans ?_ (.emit _ rfl)
      exact of_eq rfl rfl

theorem engineTimeout (e : Engine S) (now : Nat) : Steady e (e.handleTimeout now) := by
  have hexpired : ∀ (requests : List (Pending S)) (acc : Engine S × List (Pending S) × List (Pending S)),
      Steady acc.1 (requests.foldl (Engine.expire now) acc).1 := by
    intro requests
    induction requests with
    | nil => exact fun acc => refl acc.1
    | cons request rest ih => exact fun acc => (expire now acc request).trans (ih _)
  have hkept := hexpired e.pending ({ e with pending := [] }, [], [])
  have hcleared : Steady e { e with pending := [] } := of_eq rfl rfl
  refine hcleared.trans (hkept.trans ⟨rfl, ?_⟩)
  simp only [Engine.handleTimeout]
  refine ⟨_, List.append_assoc _ _ _, fun event hevent => ?_⟩
  simp only [List.mem_append, List.mem_map] at hevent
  rcases hevent with ⟨request, -, rfl⟩ | ⟨write, -, rfl⟩ <;> rfl

end Steady

section Actor

variable (actor : ControllableSystemActor) (e : Engine S)

theorem steady_offerOne (address : FeatureAddress) (data : CmdData S) :
    Steady e (offerOne e address data) := by
  unfold offerOne
  split
  · exact .refl e
  · exact .of_eq rfl rfl

theorem steady_offerBoth (address : FeatureAddress) (description values : CmdData S) :
    Steady e (offerBoth e address description values).1 := by
  unfold offerBoth
  split
  · exact .refl e
  · exact .of_eq rfl rfl

theorem steady_notify (feature : FeatureAddress) (function : Function S.Other) :
    Steady e (e.notify feature function) :=
  .of_sends (e.sends_notify feature function)

theorem steady_publish : Steady e (actor.publish e) := by
  simp only [ControllableSystemActor.publish]
  refine .trans ?_ (.of_sends (Engine.sends_notifyIf _ _ _ _))
  refine .trans ?_ (.of_sends (Engine.sends_notifyIf _ _ _ _))
  have hoffered := (steady_offerBoth e actor.features.loadControl
    (limitDescription actor.direction) (limitData actor.system)).trans
      (steady_offerBoth _ actor.features.deviceConfiguration
        (failsafeDescriptions actor.direction) (failsafeValues actor.system))
  split
  · exact hoffered
  · exact hoffered.trans (steady_offerOne _ _ _)

theorem steady_tick (p : HeartbeatProducer) (feature : FeatureAddress) (now : Nat) :
    Steady e (p.tick e feature now).2 := by
  unfold HeartbeatProducer.tick
  split
  · exact .refl e
  · exact (steady_offerOne e _ _).trans (steady_notify _ _ _)

theorem steady_follow (b : Belief) (features : CsFeatures) (now : Nat) :
    Steady e (b.follow e features now).2 := by
  unfold Belief.follow
  repeat' split
  all_goals first | exact .refl e | exact .request e _ _ _ _ _ now

/-- The actor has taken in an event: it believes what the event says, and has said nothing about
bindings itself. -/
structure Attends (event : SpineEvent S)
    (result : ControllableSystemActor × Engine S × Option CsEvent) : Prop where
  features : result.1.features = actor.features
  belief : (actor.belief.hear actor.features event).Alike result.1.belief
  engine : Steady e result.2.1

theorem attends_decision {result : ControllableSystemActor × Engine S × CsEvent}
    (h : actor.Decision e token result) : result.1.features = actor.features ∧
      result.1.belief = actor.belief ∧ Steady e result.2.1 := by
  refine ⟨h.features, h.belief, ?_⟩
  rcases h.engine with ⟨error, hrejected⟩ | ⟨speaker, haccepted⟩
  · rw [hrejected]
    exact .rejectWrite e _ _
  · rw [haccepted]
    exact (Steady.finishWrite e token none).trans (steady_publish _ _)

theorem attends_onData (feature : FeatureAddress) (resolved : CmdData S) (now : Nat) :
    (actor.onData e feature resolved now).1.features = actor.features ∧
      (actor.onData e feature resolved now).1.belief = actor.belief ∧
      Steady e (actor.onData e feature resolved now).2.1 := by
  simp only [ControllableSystemActor.onData]
  split <;> exact ⟨rfl, rfl, .refl e⟩

theorem handleEvent_attends (event : SpineEvent S) (now : Nat) :
    Attends actor e event (actor.handleEvent e event now) := by
  have halike := Belief.Alike.refl actor.belief
  cases event with
  | dataNotified feature function resolved =>
    obtain ⟨hfeatures, hbelief, hengine⟩ := attends_onData actor e feature resolved now
    exact ⟨hfeatures, hbelief ▸ halike, hengine⟩
  | replyReceived feature function resolved =>
    obtain ⟨hfeatures, hbelief, hengine⟩ := attends_onData actor e feature resolved now
    exact ⟨hfeatures, hbelief ▸ halike, hengine⟩
  | bindingGranted client server =>
    exact ⟨rfl, Belief.alike_follow _ e actor.features now, steady_follow e _ _ now⟩
  | discoveryUpdated device =>
    exact ⟨rfl, Belief.alike_follow _ e actor.features now, steady_follow e _ _ now⟩
  | bindingReleased client server => exact ⟨rfl, .refl _, .refl e⟩
  | writeRequested write =>
    obtain ⟨hfeatures, hbelief, hengine⟩ :=
      attends_decision actor e (actor.decideLimit_decision e write now)
    obtain ⟨hfeatures', hbelief', hengine'⟩ :=
      attends_decision actor e (actor.decideFailsafe_decision e write now)
    simp only [ControllableSystemActor.handleEvent]
    split
    · exact ⟨hfeatures, hbelief ▸ halike, hengine⟩
    · split
      · exact ⟨hfeatures', hbelief' ▸ halike, hengine'⟩
      · exact ⟨rfl, halike, .refl e⟩
  | _ => exact ⟨rfl, halike, .refl e⟩

end Actor

variable {caller : AddressDevice} {source : FeatureAddress} {s : Running S}

namespace Running

def outlook (s : Running S) : Belief :=
  s.engine.events.foldl (Belief.hear s.actor.features) s.actor.belief

theorem outlook_of_drained (h : s.engine.events = []) : s.outlook = s.actor.belief := by
  simp [outlook, h]

/-- The entity of this address holds a binding on either feature. -/
def HoldsBoth (s : Running S) (holder : FeatureAddress) : Prop :=
  (∃ b, BoundOn s.actor.features.isLoadControl s.engine.relations b ∧ SameHolder b.client holder) ∧
    ∃ b, BoundOn s.actor.features.isConfiguration s.engine.relations b ∧ SameHolder b.client holder

/-- The guard is the entity that holds both bindings. -/
def Identified (s : Running S) : Prop :=
  ∀ holder, (∃ guard, s.actor.guard = some guard ∧ SameHolder guard holder) ↔ s.HoldsBoth holder

/-- What a call has to be for the actor to keep up. It is handed the engine's own events; a peer
that is forgotten holds neither binding; a request on the two features names them as the actor
does, for a device it names; and a release says what it does. -/
def Told (s : Running S) : ActorCall S → Prop
  | .handleEvent _ _ => False
  | .removePeer device => s.engine.Spares s.actor.features.guarded device
  | .datagram datagram _ =>
    Engine.SparedBy s.actor.features.guarded s.engine datagram ∧
      ∀ call ∈ Engine.calledBy datagram,
        (∀ ends ∈ Engine.askedBinding call.1 call.2,
          NamesGuarded s.actor.features ends.1 ends.2) ∧
        ∀ ends ∈ Engine.droppedBinding call.1 call.2,
          ReleaseTold s.actor.features s.engine.relations ends.1 ends.2
  | _ => True

instance (features : CsFeatures) (client server : FeatureAddress) :
    Decidable (NamesGuarded features client server) :=
  inferInstanceAs (Decidable (_ = true → _ ∧ _ = true))

instance (s : Running S) : ∀ call, Decidable (s.Told call)
  | .handleEvent _ _ => inferInstanceAs (Decidable False)
  | .removePeer device => inferInstanceAs (Decidable (s.engine.Spares _ device))
  | .datagram datagram _ => inferInstanceAs (Decidable (Engine.SparedBy _ s.engine datagram ∧
      ∀ call ∈ Engine.calledBy datagram, (∀ ends ∈ Engine.askedBinding call.1 call.2, _) ∧
        ∀ ends ∈ Engine.droppedBinding call.1 call.2, _))
  | .handleTimeout _ | .relay _ | .engineTimeout _ => .isTrue trivial

structure Aware (s : Running S) : Prop where
  apart : s.actor.features.Apart
  partnered : Partnered s.actor.features s.engine.relations
  accurate : Accurate s.actor.features s.engine.relations s.outlook

theorem accurate_alike {features : CsFeatures} {r : Relations} {b b' : Belief}
    (ha : Accurate features r b) (h : b.Alike b') : Accurate features r b' := by
  obtain ⟨hload, hconfiguration, hguard⟩ := h
  refine ⟨hload ▸ ha.load, hconfiguration ▸ ha.configuration, ?_, ?_⟩
  · rw [hload, hconfiguration, hguard]
    exact ha.identified
  · rw [hload, hconfiguration, hguard]
    exact ha.unidentified

theorem outlook_reports {e : Engine S}
    (h : Reports (fun event => event.isBinding = false) s.engine e) :
    ({ s with engine := e } : Running S).outlook = s.outlook := by
  obtain ⟨new, hevents, hnew⟩ := h
  simp only [outlook, hevents, List.foldl_append]
  exact Belief.foldl_hear_of_not_isBinding _ new _ hnew

theorem outlook_news {filed e : Engine S} {event : SpineEvent S}
    (h : Reports (fun event => event.isBinding = false) s.engine filed)
    (hnew : e.events = filed.events ++ [event]) :
    ({ s with engine := e } : Running S).outlook = s.outlook.hear s.actor.features event := by
  rw [← outlook_reports h]
  simp only [outlook, hnew, List.foldl_append, List.foldl_cons, List.foldl_nil]

theorem Aware.steady {s' : Running S} (h : s.Aware) (hfeatures : s'.actor.features = s.actor.features)
    (hrelations : s'.engine.relations = s.engine.relations) (houtlook : s.outlook.Alike s'.outlook) :
    s'.Aware := by
  obtain ⟨hapart, hpartnered, haccurate⟩ := h
  refine ⟨hfeatures ▸ hapart, ?_, ?_⟩
  · rw [hfeatures, hrelations]
    exact hpartnered
  · rw [hfeatures, hrelations]
    exact accurate_alike haccurate houtlook

theorem relay_outlook (s : Running S) (now : Nat) :
    (s.perform (.relay now)).1.actor.features = s.actor.features ∧
      (s.perform (.relay now)).1.engine.relations = s.engine.relations ∧
      s.outlook.Alike (s.perform (.relay now)).1.outlook := by
  simp only [perform]
  split
  · exact ⟨rfl, rfl, .refl _⟩
  case h_2 event rest hevents =>
    have hattends := handleEvent_attends s.actor { s.engine with events := rest } event now
    obtain ⟨hrelations, new, hnew, hquiet⟩ := hattends.engine
    refine ⟨hattends.features, hrelations, ?_⟩
    simp only [of, outlook, hevents, hattends.features, hnew, List.foldl_append, List.foldl_cons]
    rw [Belief.foldl_hear_of_not_isBinding _ new _ hquiet]
    exact hattends.belief.foldl _ rest

theorem Aware.sameClaims (h : s.Aware) {e : Engine S}
    (hclaims : SameClaims s.actor.features.guarded s.engine.relations e.relations)
    (hevents : Reports (fun event => event.isBinding = false) s.engine e) :
    ({ s with engine := e } : Running S).Aware := by
  refine ⟨h.apart, h.partnered.sameClaims hclaims, ?_⟩
  rw [outlook_reports hevents]
  exact h.accurate.sameClaims hclaims

theorem Aware.datagram (h : s.Aware) (datagram : Datagram S) (now : Nat)
    (htold : s.Told (.datagram datagram now)) : (s.perform (.datagram datagram now)).1.Aware := by
  obtain ⟨hspared, hcalls⟩ := htold
  simp only [perform]
  cases Engine.handleDatagram_news now hspared with
  | silent hclaims hevents => exact h.sameClaims hclaims hevents
  | granted filed hclaims hevents cmd source client server id hcalled hasked hok hrelations hnew =>
    have hfiled := h.sameClaims hclaims hevents
    have hnames := (hcalls (cmd, source) hcalled).1 (client, server) hasked
    have hadds := adds_of_ok hok
    have hpartnered := hadds.partnered hfiled.partnered hnames
    refine ⟨h.apart, hrelations ▸ hpartnered, ?_⟩
    have haccurate := hfiled.accurate
    rw [outlook_reports hevents] at haccurate
    rw [outlook_news hevents hnew, hrelations]
    exact hadds.accurate hpartnered h.apart hnames haccurate
  | released filed hclaims hevents cmd source client server hcalled hdropped hrelations hnew =>
    have hfiled := h.sameClaims hclaims hevents
    have hreleased := ((hcalls (cmd, source) hcalled).2 (client, server) hdropped).sameClaims hclaims
    refine ⟨h.apart, hrelations ▸ hfiled.partnered.release client server, ?_⟩
    have haccurate := hfiled.accurate
    rw [outlook_reports hevents] at haccurate
    rw [outlook_news hevents hnew, hrelations]
    exact haccurate.release hfiled.partnered hreleased

theorem Aware.perform (h : s.Aware) (call : ActorCall S) (htold : s.Told call) :
    (s.perform call).1.Aware := by
  cases call with
  | handleEvent event now => exact htold.elim
  | handleTimeout now =>
    have hsteady : Steady s.engine (s.actor.handleTimeout s.engine now).2.1 := by
      simp only [ControllableSystemActor.handleTimeout]
      split
      · exact steady_tick _ _ _ _
      · exact (steady_tick _ _ _ _).trans (steady_publish _ _)
    have hactor : (s.actor.handleTimeout s.engine now).1.features = s.actor.features ∧
        (s.actor.handleTimeout s.engine now).1.belief = s.actor.belief := by
      simp only [ControllableSystemActor.handleTimeout]
      split <;> exact ⟨rfl, rfl⟩
    refine h.steady hactor.1 hsteady.1 ?_
    have houtlook := outlook_reports (s := s) hsteady.2
    simp only [outlook, Running.perform, of] at houtlook ⊢
    rw [hactor.1, hactor.2, houtlook]
    exact .refl _
  | relay now =>
    obtain ⟨hfeatures, hrelations, houtlook⟩ := s.relay_outlook now
    exact h.steady hfeatures hrelations houtlook
  | datagram datagram now => exact h.datagram datagram now htold
  | engineTimeout now =>
    have hsteady := Steady.engineTimeout s.engine now
    exact h.sameClaims (.of_eq hsteady.1) hsteady.2
  | removePeer device =>
    exact h.sameClaims (Engine.sameClaims_removeDevice htold)
      ((s.engine.routine_removePeer device).mono fun _ => And.right)

theorem Aware.identified (h : s.Aware) (hdrained : s.engine.events = []) : s.Identified := by
  obtain ⟨-, hp, ha⟩ := h
  rw [outlook_of_drained hdrained] at ha
  have hpartner : ∀ {on on' : FeatureAddress → Bool}
      (_ : ∀ f, on f = true → s.actor.features.guarded f = true)
      (_ : ∀ f, on' f = true → s.actor.features.guarded f = true) {b c : Relation},
      BoundOn on s.engine.relations b → BoundOn on' s.engine.relations c →
        SameHolder b.client c.client := fun hon hon' b c hb hc =>
    hp.partner b c ⟨hb.1, hb.2.1, hon _ hb.2.2⟩ ⟨hc.1, hc.2.1, hon' _ hc.2.2⟩
  intro holder
  constructor
  · rintro ⟨guard, hguard, hholder⟩
    obtain ⟨hsecond, client, hfirst, hclient⟩ := ha.identified guard hguard
    obtain ⟨d, hsecond⟩ := Option.isSome_iff_exists.mp hsecond
    have hload := ha.load
    rw [hfirst] at hload
    obtain ⟨b, hb, hbclient⟩ := hload
    have hconfiguration := ha.configuration
    rw [hsecond] at hconfiguration
    obtain ⟨c, hc, -⟩ := hconfiguration
    have hbholder := (hbclient.trans hclient).trans hholder
    exact ⟨⟨b, hb, hbholder⟩, c, hc, (hpartner guarded_of_isConfiguration
      guarded_of_isLoadControl hc hb).trans hbholder⟩
  · rintro ⟨⟨b, hb, hbholder⟩, c, hc, -⟩
    have hload := ha.load
    have hconfiguration := ha.configuration
    cases hfirst : s.actor.belief.boundLoadControl with
    | none =>
      rw [hfirst] at hload
      exact absurd hb (hload b)
    | some client =>
      cases hsecond : s.actor.belief.boundConfiguration with
      | none =>
        rw [hsecond] at hconfiguration
        exact absurd hc (hconfiguration c)
      | some d =>
        cases hguard : s.actor.belief.guard with
        | none =>
          cases ha.unidentified hguard with
          | inl hnone => simp [hfirst] at hnone
          | inr hnone => simp [hsecond] at hnone
        | some guard =>
          obtain ⟨-, client', hclient', hholder⟩ := ha.identified guard hguard
          obtain rfl : client = client' := by simpa [hfirst] using hclient'
          rw [hfirst] at hload
          obtain ⟨b', hb', hbclient⟩ := hload
          have hsame := hpartner guarded_of_isLoadControl guarded_of_isLoadControl hb' hb
          exact ⟨guard, hguard, (hholder.symm.trans hbclient.symm).trans (hsame.trans hbholder)⟩

/-- The guard stays, or it was of the caller's device, or nobody, and is again. -/
def MovedBy (caller : AddressDevice) (guard guard' : Option FeatureAddress) : Prop :=
  guard' = guard ∨ (∀ a ∈ guard, a.device = some caller) ∧ ∀ a ∈ guard', a.device = some caller

theorem calledBy_source {datagram : Datagram S} {cmd : Cmd S}
    (h : Engine.calledBy datagram = some (cmd, source)) :
    datagram.header.bind Header.addressSource = some source := by
  unfold Engine.calledBy at h
  split at h
  · rename_i hsource
    cases h
    exact hsource
  · cases h

theorem clientOfCaller_device {named client : FeatureAddress}
    (hsource : source.device = some caller)
    (h : (Engine.clientOfCaller named source).toOption = some client) :
    client.device = some caller := by
  unfold Engine.clientOfCaller at h
  rw [hsource] at h
  cases hnamed : named.device with
  | none =>
    rw [hnamed] at h
    cases h
    rfl
  | some device =>
    rw [hnamed] at h
    dsimp only at h
    split at h
    · cases h
    · rename_i heq
      cases h
      simpa [hnamed] using heq

theorem askedBinding_device {cmd : Cmd S} {client server : FeatureAddress}
    (hsource : source.device = some caller)
    (h : Engine.askedBinding cmd source = some (client, server)) : client.device = some caller := by
  unfold Engine.askedBinding at h
  split at h
  · simp only [Option.bind_eq_bind, Option.bind_eq_some_iff] at h
    obtain ⟨⟨named, target⟩, -, found, hfound, heq⟩ := h
    cases heq
    exact clientOfCaller_device hsource hfound
  · cases h

theorem droppedBinding_device {cmd : Cmd S} {client server : FeatureAddress}
    (hsource : source.device = some caller)
    (h : Engine.droppedBinding cmd source = some (client, server)) : client.device = some caller := by
  unfold Engine.droppedBinding at h
  split at h
  · simp only [Option.bind_eq_bind, Option.bind_eq_some_iff] at h
    obtain ⟨⟨named, target⟩, -, found, hfound, heq⟩ := h
    cases heq
    exact clientOfCaller_device hsource hfound
  · cases h

section Moves

variable {features : CsFeatures} {r r' : Relations} {b : Belief} {client server : FeatureAddress}
  {caller : AddressDevice}

theorem onBinding_guard_of_some (features : CsFeatures) (client server : FeatureAddress)
    {guard : FeatureAddress} (h : b.guard = some guard) :
    (b.onBinding features client server).1.guard = some guard := by
  unfold Belief.onBinding
  split
  · exact h
  · by_cases hload : server = features.loadControl
    · simp only [hload, if_true]
      cases b.boundConfiguration <;> simp [h]
    · simp only [hload, if_false]
      cases b.boundLoadControl <;> simp [h]

theorem MovedBy.grant (hadds : Adds r r' client server) (hp' : Partnered features r')
    (hnames : NamesGuarded features client server)
    (ha' : Accurate features r' (b.onBinding features client server).1)
    (hcaller : client.device = some caller) :
    MovedBy caller b.guard (b.onBinding features client server).1.guard := by
  cases hguard : b.guard with
  | some guard => exact .inl (onBinding_guard_of_some features client server hguard)
  | none =>
    by_cases hserver : server ∈ [features.loadControl, features.deviceConfiguration]
    · refine .inr ⟨by simp, fun a hguard' => ?_⟩
      obtain ⟨-, first, hfirst, hholder⟩ := ha'.identified a hguard'
      have hload := ha'.load
      rw [hfirst] at hload
      have hclient : client.device.isSome := by simp [hcaller]
      have hknown : Knows features.guarded r' (some client) := by
        refine hadds.knows hp' (fun _ h => h) (fun c hc => ?_) hclient
        simp only [List.mem_cons, List.not_mem_nil, or_false] at hserver
        rcases hserver with rfl | rfl
        · exact guarded_of_isLoadControl c hc
        · exact guarded_of_isConfiguration c hc
      have hsame := hp'.holder (fun _ h => h) guarded_of_isLoadControl hknown hload
      rw [← hholder.1, ← hsame.1, hcaller]
    · left
      simp only [List.mem_cons, List.not_mem_nil, or_false, not_or] at hserver
      simp [Belief.onBinding, hserver.1, hserver.2, hguard]

theorem MovedBy.release (hp : Partnered features r) (ha : Accurate features r b)
    (htold : ReleaseTold features r client server) (hcaller : client.device = some caller) :
    MovedBy caller b.guard (b.onRelease features server).guard := by
  cases hguard : b.guard with
  | none => exact .inl rfl
  | some guard =>
    refine .inr ⟨fun a hmem => ?_, by simp [Belief.onRelease]⟩
    obtain rfl : a = guard := by simpa using hmem.symm
    obtain ⟨hsecond, first, hfirst, hholder⟩ := ha.identified a hguard
    obtain ⟨second, hsecond⟩ := Option.isSome_iff_exists.mp hsecond
    have hload := ha.load
    rw [hfirst] at hload
    have hconfiguration := ha.configuration
    rw [hsecond] at hconfiguration
    -- whoever the release ends on either feature is the guard's entity, and the caller's client
    have hended : ∀ {on : FeatureAddress → Bool} {x : FeatureAddress},
        (∀ f, on f = true → features.guarded f = true) → Knows on r (some x) →
        staysBound on r client server = false → SameHolder x a → a.device = some caller := by
      intro on x hon hknows hstays hxa
      obtain ⟨c, hc, hcx⟩ := hknows
      have hjoins : c.joins client server = true := by
        by_contra hjoins
        rw [staysBound_iff.mpr ⟨c, (boundOn_removeBinding c).mpr ⟨hc, by simpa using hjoins⟩⟩] at hstays
        cases hstays
      simp only [Relation.joins, Bool.and_eq_true] at hjoins
      have hnamed := (hp.named c ⟨hc.1, hc.2.1, hon _ hc.2.2⟩).1
      rw [← hxa.1, ← hcx.1, device_eq_of_sameFeature hjoins.1 hnamed (by simp [hcaller]), hcaller]
    have hboth := hp.holder guarded_of_isConfiguration guarded_of_isLoadControl hconfiguration hload
    unfold ReleaseTold at htold
    dsimp only at htold
    split at htold
    · exact hended guarded_of_isLoadControl hload htold.1 hholder
    · split at htold
      · exact hended guarded_of_isConfiguration hconfiguration htold.1 (hboth.trans hholder)
      · cases htold.2.2 with
        | inl hnone => cases hload.unbound hnone
        | inr hnone => cases hconfiguration.unbound hnone

end Moves

theorem Aware.moved (h : s.Aware) {datagram : Datagram S} {now : Nat}
    (htold : s.Told (.datagram datagram now))
    (horigin : datagram.header.bind Header.addressSource = some source)
    (hcaller : source.device = some caller) :
    MovedBy caller s.outlook.guard (s.perform (.datagram datagram now)).1.outlook.guard := by
  have haware := h.datagram datagram now htold
  obtain ⟨hspared, hcalls⟩ := htold
  simp only [Running.perform] at haware ⊢
  cases Engine.handleDatagram_news now hspared with
  | silent hclaims hevents =>
    rw [outlook_reports hevents]
    exact .inl rfl
  | granted filed hclaims hevents cmd origin client server id hcalled hasked hok hrelations hnew =>
    obtain rfl : source = origin := by simpa [horigin] using calledBy_source hcalled
    have hnames := (hcalls (cmd, source) hcalled).1 (client, server) hasked
    obtain ⟨-, hpartnered, haccurate⟩ := haware
    dsimp only at hpartnered haccurate
    rw [outlook_news hevents hnew, hrelations] at haccurate
    rw [hrelations] at hpartnered
    rw [outlook_news hevents hnew]
    exact .grant (adds_of_ok hok) hpartnered hnames haccurate (askedBinding_device hcaller hasked)
  | released filed hclaims hevents cmd origin client server hcalled hdropped hrelations hnew =>
    obtain rfl : source = origin := by simpa [horigin] using calledBy_source hcalled
    have hreleased := (hcalls (cmd, source) hcalled).2 (client, server) hdropped
    rw [outlook_news hevents hnew]
    exact .release h.partnered h.accurate hreleased (droppedBinding_device hcaller hdropped)

end Running

def ActorCall.isRelay : ActorCall S → Bool
  | .relay _ => true
  | _ => false

namespace Running

theorem outlook_relays (relays : List (ActorCall S)) (h : ∀ call ∈ relays, call.isRelay = true)
    (s : Running S) : s.outlook.Alike (machine.run s relays).outlook := by
  induction relays generalizing s with
  | nil => exact .refl _
  | cons call rest ih =>
    have hcall := h call List.mem_cons_self
    cases call with
    | relay now =>
      exact (s.relay_outlook now).2.2.trans
        (ih (fun c hc => h c (List.mem_cons_of_mem _ hc)) (s.perform (.relay now)).1)
    | _ => cases hcall

/-- Nothing is bound on the two features, which share their partner with no other feature. -/
structure Unclaimed (features : CsFeatures) (e : Engine S) : Prop where
  single : e.relations.policy = .singlePerFeature
  unbound : ∀ b ∈ e.relations.bindings, b.held = false → features.guarded b.server = false
  ungrouped : ∀ group ∈ e.relations.groups, ∀ f ∈ group, features.guarded f = false
  unsaid : ∀ event ∈ e.events, event.isBinding = false

theorem install_partnered {features : CsFeatures} {e : Engine S} (h : Unclaimed features e) :
    Partnered features
      (e.relations.bindTogether [features.loadControl, features.deviceConfiguration]) := by
  have hunbound : ∀ b, ¬ BoundOn features.guarded
      (e.relations.bindTogether [features.loadControl, features.deviceConfiguration]) b := by
    rintro b ⟨hmem, hheld, hb⟩
    rw [h.unbound b hmem hheld] at hb
    cases hb
  refine ⟨h.single, fun f hf g hg => ?_, fun b hb => absurd hb (hunbound b),
    fun b c hb => absurd hb (hunbound b)⟩
  have hgroup : (e.relations.bindTogether
      [features.loadControl, features.deviceConfiguration]).groupOf f =
        [features.loadControl, features.deviceConfiguration] := by
    have hnone : (e.relations.groups.find? fun group => group.any fun x => sameFeature x f) = none := by
      refine List.find?_eq_none.mpr fun group hgroup => ?_
      simp only [List.any_eq_true, not_exists, not_and, Bool.not_eq_true]
      intro x hx
      have hguarded := h.ungrouped group hgroup x hx
      simp only [CsFeatures.guarded, CsFeatures.isLoadControl, CsFeatures.isConfiguration,
        Bool.or_eq_false_iff] at hguarded
      simp only [List.mem_cons, List.not_mem_nil, or_false] at hf
      rcases hf with rfl | rfl
      · exact hguarded.1
      · exact hguarded.2
    have hown : [features.loadControl, features.deviceConfiguration].any
        (fun x => sameFeature x f) = true :=
      List.any_eq_true.mpr ⟨f, hf, sameFeature_refl f⟩
    have hfind : (e.relations.groups ++ [[features.loadControl, features.deviceConfiguration]]).find?
        (fun group => group.any fun x => sameFeature x f) =
          some [features.loadControl, features.deviceConfiguration] := by
      rw [List.find?_append, hnone, Option.none_or]
      exact List.find?_cons_of_pos hown
    simp only [Relations.groupOf, Relations.bindTogether, List.length_cons, List.length_nil]
    simp [hfind]
  rw [hgroup]
  exact List.any_eq_true.mpr ⟨g, hg, sameFeature_refl g⟩

theorem install_aware {actor : ControllableSystemActor} {e : Engine S} (hbelief : actor.belief = .new)
    (hapart : actor.features.Apart) (h : Unclaimed actor.features e) (now : Nat) :
    (install actor e now).Aware := by
  have hsteady := steady_publish { actor with heartbeat := .new now }
    { e with
      relations := e.relations.bindTogether
        [actor.features.loadControl, actor.features.deviceConfiguration] }
  have hpartnered := install_partnered h
  obtain ⟨hrelations, new, hevents, hnew⟩ := hsteady
  have hsilent : ∀ event ∈ e.events ++ new, event.isBinding = false := by
    intro event hmem
    cases List.mem_append.mp hmem with
    | inl hmem => exact h.unsaid event hmem
    | inr hmem => exact hnew event hmem
  have houtlook : (install actor e now).outlook = .new := by
    simp only [outlook, install, ControllableSystemActor.install, hevents]
    rw [Belief.foldl_hear_of_not_isBinding _ _ _ hsilent, hbelief]
  refine ⟨hapart, ?_, ?_⟩
  · simp only [install, ControllableSystemActor.install, hrelations]
    exact hpartnered
  · rw [houtlook]
    have hnobody : ∀ b, ¬ BoundOn actor.features.guarded (install actor e now).engine.relations b := by
      rintro b ⟨hmem, hheld, hb⟩
      simp only [install, ControllableSystemActor.install, hrelations] at hmem
      rw [h.unbound b hmem hheld] at hb
      cases hb
    exact ⟨fun b hb => hnobody b hb.guarded_of_load, fun b hb => hnobody b hb.guarded_of_configuration,
      by simp [Belief.new], fun _ => .inl rfl⟩

/-- In every run whose calls tell the actor what they do: once it has every event, the guard is
the entity that holds both bindings; and a datagram moves the guard only from or to its sender's
own device. -/
theorem guard_follows_bindings (actor : ControllableSystemActor) (e : Engine S) (installed : Nat)
    (hbelief : actor.belief = .new) (hapart : actor.features.Apart)
    (hunclaimed : Unclaimed actor.features e) (calls : List (ActorCall S))
    (hrun : machine.Admits Told (install actor e installed) calls) :
    (∀ before, before <+: calls →
      (machine.run (install actor e installed) before).engine.events = [] →
      (machine.run (install actor e installed) before).Identified) ∧
    ∀ before datagram now relays source caller,
      before ++ .datagram datagram now :: relays <+: calls →
      (∀ call ∈ relays, call.isRelay = true) →
      (machine.run (install actor e installed) before).engine.events = [] →
      (machine.run (install actor e installed)
        (before ++ .datagram datagram now :: relays)).engine.events = [] →
      datagram.header.bind Header.addressSource = some source → source.device = some caller →
      MovedBy caller (machine.run (install actor e installed) before).actor.guard
        (machine.run (install actor e installed)
          (before ++ .datagram datagram now :: relays)).actor.guard := by
  have hinstalled := install_aware hbelief hapart hunclaimed installed
  have haware : ∀ before, before <+: calls →
      (machine.run (install actor e installed) before).Aware := fun before hp =>
    machine.run_invariant Told Aware (fun s call h ht => h.perform call ht) before _ hinstalled
      (machine.admits_prefix hrun hp)
  refine ⟨fun before hp hdrained => (haware before hp).identified hdrained, ?_⟩
  intro before datagram now relays source caller hp hrelays hdrained hdrained' horigin hcaller
  have hbefore : before <+: calls := (List.prefix_append _ _).trans hp
  have htold := ((machine.admits_append _ before _).mp (machine.admits_prefix hrun hp)).2.1
  have hmoved := (haware before hbefore).moved htold horigin hcaller
  rw [outlook_of_drained hdrained] at hmoved
  have halike := outlook_relays relays hrelays
    (machine.next (machine.run (install actor e installed) before) (.datagram datagram now))
  rw [machine.run_append, machine.run_cons] at hdrained' ⊢
  rw [outlook_of_drained hdrained'] at halike
  rw [ControllableSystemActor.guard, ControllableSystemActor.guard, halike.2.2]
  exact hmoved

end Running

namespace Scenario

/-- A device that has nothing to do with the heat pump's limits. -/
def stranger : AddressDevice := "d:_i:3_Display"
def strangerClient : FeatureAddress := featureAddress stranger [1] 1

theorem exists_boundOn {on : FeatureAddress → Bool} {r : Relations} {holder : FeatureAddress}
    (h : r.bindings.any (fun b => !b.held && on b.server && decide (SameHolder b.client holder))) :
    ∃ b, BoundOn on r b ∧ SameHolder b.client holder := by
  simpa [BoundOn, and_assoc] using h

theorem unclaimed : Running.Unclaimed features (Engine.new device) :=
  ⟨rfl, by simp [Engine.new, Relations.new], by simp [Engine.new, Relations.new],
    by simp [Engine.new]⟩

/-- The manager takes control: it is the guard, and its own release is what ends that. -/
theorem guard_follows_bindings_opening : (Running.machine.run started opening).Identified ∧
      (Running.machine.run started opening).actor.guard = some managerClient ∧
      Running.MovedBy manager (Running.machine.run started opening).actor.guard
        (Running.machine.run started (opening ++
          [releases managerClient features.loadControl 6 (fromSecs 3), .relay (fromSecs 3)])).actor.guard := by
  have hfollows := Running.guard_follows_bindings
    (.builder (.new config 0) .consumption features) (Engine.new device) 0 rfl ⟨by decide, by decide⟩
    unclaimed (opening ++ [releases managerClient features.loadControl 6 (fromSecs 3),
      .relay (fromSecs 3)]) (by decide +kernel)
  refine ⟨hfollows.1 opening (List.prefix_append _ _) (by decide +kernel), by decide +kernel, ?_⟩
  exact hfollows.2 opening _ (fromSecs 3) [.relay (fromSecs 3)] (nodeManagement manager) manager
    (List.prefix_refl _) (by simp [ActorCall.isRelay]) (by decide +kernel) (by decide +kernel) rfl rfl

/-- A device that holds no binding releases one: the actor no longer names the guard, which still
holds both bindings. -/
theorem strangers_release_unseats_guard :
    let s := Running.machine.run started opening
    let s' := Running.machine.run started (opening ++
      [releases strangerClient features.loadControl 1 (fromSecs 3), .relay (fromSecs 3)])
    s.engine.events = [] ∧ s'.engine.events = [] ∧ s.actor.guard = some managerClient ∧
      s'.actor.guard = none ∧ s'.HoldsBoth managerClient ∧ ¬ s'.Identified ∧
      ¬ Running.MovedBy stranger s.actor.guard s'.actor.guard := by
  intro s s'
  have hguard : s.actor.guard = some managerClient := by decide +kernel
  have hnone : s'.actor.guard = none := by decide +kernel
  have hholds : s'.HoldsBoth managerClient :=
    ⟨exists_boundOn (by decide +kernel), exists_boundOn (by decide +kernel)⟩
  refine ⟨by decide +kernel, by decide +kernel, hguard, hnone, hholds, fun hidentified => ?_, ?_⟩
  · obtain ⟨guard, hsome, -⟩ := (hidentified managerClient).mpr hholds
    rw [hnone] at hsome
    cases hsome
  · rintro (heq | ⟨hdevice, -⟩)
    · rw [hguard, hnone] at heq
      cases heq
    · exact absurd (hdevice managerClient hguard) (by decide)

end Scenario

end Eebus.Limitation
