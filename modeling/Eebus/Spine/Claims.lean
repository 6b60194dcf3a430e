import Eebus.Spine.WriteBinding

/-! Who holds bindings on certain features, and the events that tell of it: a datagram grants one,
releases some, or leaves them as they are without an event about bindings. A peer that is forgotten
loses its bindings without one. -/

namespace Eebus.Spine

open Eebus.Library Eebus.Model

variable {S : Schema} {p : FeatureAddress → Bool}

def Relation.claims (p : FeatureAddress → Bool) (b : Relation) : Bool := !b.held && p b.server

/-- The table has the same claims, and decides about new ones in the same way. -/
structure SameClaims (p : FeatureAddress → Bool) (r r' : Relations) : Prop where
  groups : r'.groups = r.groups
  policy : r'.policy = r.policy
  claims : ∀ b : Relation, b.claims p = true → (b ∈ r'.bindings ↔ b ∈ r.bindings)

namespace SameClaims

variable {r r' r'' : Relations}

theorem refl (p : FeatureAddress → Bool) (r : Relations) : SameClaims p r r :=
  ⟨rfl, rfl, fun _ _ => Iff.rfl⟩

theorem of_eq (h : r' = r) : SameClaims p r r' := h ▸ refl p r

theorem trans (h : SameClaims p r r') (h' : SameClaims p r' r'') : SameClaims p r r'' :=
  ⟨h'.groups.trans h.groups, h'.policy.trans h.policy,
    fun b hb => (h'.claims b hb).trans (h.claims b hb)⟩

theorem keep {keep keep' : Relation → Bool}
    (h : ∀ b ∈ r.bindings, b.claims p = true → keep b = true) :
    SameClaims p r { r with
      bindings := r.bindings.filter keep
      subscriptions := r.subscriptions.filter keep' } :=
  ⟨rfl, rfl, fun b hb => ⟨fun hmem => (List.mem_filter.mp hmem).1,
    fun hmem => List.mem_filter.mpr ⟨hmem, h b hmem hb⟩⟩⟩

theorem recordBinding (r : Relations) (client server : FeatureAddress) :
    SameClaims p r (r.recordBinding client server) := by
  refine ⟨rfl, rfl, fun b hb => ?_⟩
  have hheld : b ≠ Relation.recorded client server := by
    rintro rfl
    simp [Relation.claims, Relation.recorded] at hb
  simp only [Relations.recordBinding]
  rcases Relations.record_cases r.bindings client server with hsame | hadd
  · rw [hsame]
  · simp [hadd, hheld]

theorem recordRelation (r : Relations) (request : Datagram S) :
    SameClaims p r (Engine.recordRelation r request) := by
  have hheld : ∀ client server : FeatureAddress, SameClaims p r (r.removeHeld client server) := by
    intro client server
    refine keep fun b _ hb => ?_
    simp only [Relation.claims, Bool.and_eq_true, Bool.not_eq_true'] at hb
    simp [hb.1]
  simp only [Engine.recordRelation]
  split
  · split
    · exact recordBinding r _ _
    · exact refl p r
  · split
    · exact ⟨rfl, rfl, fun _ _ => Iff.rfl⟩
    · exact refl p r
  · split
    · exact hheld _ _
    · exact refl p r
  · split
    · exact hheld _ _
    · exact refl p r
  · exact refl p r

end SameClaims

variable {e : Engine S} {source : FeatureAddress}

namespace Engine

/-- Forgetting `device` costs no claim. -/
def Spares (p : FeatureAddress → Bool) (e : Engine S) (device : AddressDevice) : Prop :=
  ∀ b ∈ e.relations.bindings, b.claims p = true → b.concerns device = false

instance (e : Engine S) (device : AddressDevice) : Decidable (e.Spares p device) :=
  inferInstanceAs (Decidable (∀ b ∈ e.relations.bindings, _))

theorem sameClaims_removeDevice {device : AddressDevice} (h : e.Spares p device) :
    SameClaims p e.relations (e.relations.removeDevice device) :=
  .keep fun b hb hclaims => by simp [h b hb hclaims]

theorem peerEntry_relations (e : Engine S) (device : AddressDevice) :
    (e.peerEntry device).relations = (e.without (e.evictedFor device)).relations := by
  unfold peerEntry evictedFor tracks
  split
  · rfl
  · split
    · unfold evict
      cases e.peers[e.evictIndex]?.bind fun peer => peer.remote.address <;> rfl
    · rfl

theorem sameClaims_peerEntry {device : AddressDevice}
    (h : ∀ evicted ∈ e.evictedFor device, e.Spares p evicted) :
    SameClaims p e.relations (e.peerEntry device).relations := by
  rw [peerEntry_relations]
  cases hevicted : e.evictedFor device with
  | none => exact .refl p _
  | some evicted => exact sameClaims_removeDevice (h evicted hevicted)

theorem sameClaims_observeSource (counter : MsgCounter)
    (h : ∀ device ∈ source.device, ∀ evicted ∈ e.evictedFor device, e.Spares p evicted) :
    SameClaims p e.relations (e.observeSource source counter).1.relations := by
  unfold observeSource
  split
  · exact .refl p _
  case h_2 device hdevice => exact sameClaims_peerEntry (h device hdevice)

theorem sameClaims_absorb {data : CmdData S}
    {ops : WriteOps S} (htracked : ∀ device ∈ source.device, e.tracks device = true)
    (h : ∀ update, data = ⟨.nodeManagementDetailedDiscoveryData, update⟩ →
      ∀ device ∈ discoveryDevice (S := S) source update, ∀ evicted ∈ e.evictedFor device,
        e.Spares p evicted) :
    SameClaims p e.relations (e.absorb source data ops).1.relations := by
  have hentry : ∀ device ∈ source.device, SameClaims p e.relations (e.peerEntry device).relations := by
    intro device hdevice
    refine sameClaims_peerEntry fun evicted hevicted => ?_
    rw [evictedFor_of_tracks (htracked device hdevice)] at hevicted
    cases hevicted
  simp only [absorb]
  split
  case h_1 update =>
    simp only [absorbDiscovery]
    split
    · exact .refl p _
    case h_2 device hdevice => exact sameClaims_peerEntry (h update rfl device hdevice)
  · simp only [absorbUseCases]
    split
    · exact .refl p _
    case h_2 device hdevice => exact hentry device hdevice
  · simp only [resolveRemote]
    split
    · exact .refl p _
    case h_2 device hdevice => exact hentry device hdevice

theorem sameClaims_handleResult (e : Engine S) (cmd : Cmd S) (reference : Option MsgCounter)
    (origin : FeatureAddress) :
    SameClaims p e.relations (e.handleResult cmd reference origin).relations := by
  have hpending := e.resolvePending_relations reference origin
  unfold handleResult
  split
  case h_1 e' heq =>
    rw [heq] at hpending
    exact .of_eq hpending
  case h_2 e' request heq =>
    rw [heq] at hpending
    refine (SameClaims.of_eq hpending).trans ?_
    dsimp only [emit]
    split
    · exact .recordRelation e'.relations request.datagram
    · exact .refl p _

def askedBinding (cmd : Cmd S) (source : FeatureAddress) : Option (FeatureAddress × FeatureAddress) :=
  match cmd.data with
  | some ⟨.nodeManagementBindingRequestCall, call⟩ => do
    let (named, server) ← requestEnds call
    let client ← (clientOfCaller named source).toOption
    some (client, server)
  | _ => none

def droppedBinding (cmd : Cmd S) (source : FeatureAddress) :
    Option (FeatureAddress × FeatureAddress) :=
  match cmd.data with
  | some ⟨.nodeManagementBindingDeleteCall, call⟩ => do
    let (named, server) ← deleteEnds call
    let client ← (clientOfCaller named source).toOption
    some (client, server)
  | _ => none

/-- What a call does to the bindings, and the event that tells of it. -/
inductive BindingNews (e : Engine S) (cmd : Cmd S) (source : FeatureAddress) : Engine S → Prop
  | silent (e' : Engine S) (relations : ∀ p, SameClaims p e.relations e'.relations)
      (events : Reports (fun event => event.isBinding = false) e e') : BindingNews e cmd source e'
  | granted (client server : FeatureAddress) (asked : askedBinding cmd source = some (client, server))
      (id : UInt32) (ok : (e.relations.addBinding client server).2 = .ok id) :
      BindingNews e cmd source
        ({ e with relations := (e.relations.addBinding client server).1 }.emit
          (.bindingGranted client server))
  | released (client server : FeatureAddress) (dropped : droppedBinding cmd source = some (client, server)) :
      BindingNews e cmd source
        ({ e with relations := e.relations.removeBinding client server }.emit
          (.bindingReleased client server))

theorem addBinding_error {r : Relations} {client server : FeatureAddress} {error : ErrorNumber}
    (h : (r.addBinding client server).2 = .error error) : (r.addBinding client server).1 = r := by
  revert h
  unfold Relations.addBinding
  repeat' split
  all_goals simp

theorem handleCall_news (e : Engine S) (cmd : Cmd S) (source : FeatureAddress) :
    BindingNews e cmd source (e.handleCall cmd source).1 := by
  have hsame : BindingNews e cmd source e := .silent e (fun p => .refl p _) (.of_eq rfl)
  have hsubscriptions : ∀ (relations : Relations) (event : SpineEvent S),
      relations.bindings = e.relations.bindings → relations.groups = e.relations.groups →
      relations.policy = e.relations.policy → event.isBinding = false →
      BindingNews e cmd source ({ e with relations := relations }.emit event) := by
    intro relations event hbindings hgroups hpolicy hevent
    refine .silent _ (fun p => ⟨hgroups, hpolicy, fun b _ => ?_⟩) ⟨[event], rfl, by simpa using hevent⟩
    simp only [emit, hbindings]
  simp only [handleCall]
  split
  case h_1 call hcmd =>
    simp only [handleBindingRequest]
    split
    case h_1 => exact hsame
    case h_2 named server hends =>
      split
      case h_1 => exact hsame
      case h_2 client hclient =>
        split
        case isTrue => exact hsame
        case isFalse =>
          have hasked : askedBinding cmd source = some (client, server) := by
            simp [askedBinding, hcmd, hends, hclient, Except.toOption]
          split
          case h_1 relations id heq =>
            have hgranted := BindingNews.granted (e := e) client server hasked id (by rw [heq])
            rwa [heq] at hgranted
          case h_2 relations error heq =>
            have herror := addBinding_error (r := e.relations) (by rw [heq])
            rw [heq] at herror
            rw [show relations = e.relations from herror]
            exact hsame
  case h_2 call hcmd =>
    simp only [handleSubscriptionRequest]
    split
    case h_1 => exact hsame
    case h_2 named server hends =>
      split
      case h_1 => exact hsame
      case h_2 client hclient =>
        split
        case isTrue => exact hsame
        case isFalse =>
          have hkept : (e.relations.addSubscription client server).1.bindings = e.relations.bindings ∧
              (e.relations.addSubscription client server).1.groups = e.relations.groups ∧
              (e.relations.addSubscription client server).1.policy = e.relations.policy := by
            rcases e.relations.addSubscription_cases client server with heq | ⟨-, -, heq⟩ <;>
              rw [heq] <;> exact ⟨rfl, rfl, rfl⟩
          split
          case h_1 relations id heq =>
            rw [heq] at hkept
            exact hsubscriptions _ _ hkept.1 hkept.2.1 hkept.2.2 rfl
          case h_2 relations error heq =>
            rw [heq] at hkept
            exact .silent _ (fun p => ⟨hkept.2.1, hkept.2.2, fun b _ => by rw [← hkept.1]⟩)
              (.of_eq rfl)
  case h_3 call hcmd =>
    simp only [handleBindingDelete]
    split
    case h_1 => exact hsame
    case h_2 named server hends =>
      split
      case h_1 => exact hsame
      case h_2 client hclient =>
        exact .released client server
          (by simp [droppedBinding, hcmd, hends, hclient, Except.toOption])
  case h_4 call hcmd =>
    simp only [handleSubscriptionDelete]
    split
    case h_1 => exact hsame
    case h_2 named server hends =>
      split
      case h_1 => exact hsame
      case h_2 client hclient => exact hsubscriptions _ _ rfl rfl rfl rfl
  case h_5 => exact hsame

def calledBy (datagram : Datagram S) : Option (Cmd S × FeatureAddress) :=
  match datagram.commands, datagram.header.bind Header.cmdClassifier,
    datagram.header.bind Header.addressSource with
  | [cmd], some .call, some source => some (cmd, source)
  | _, _, _ => none

/-- The device a datagram gives the engine cause to keep a record of: its source, or, where it
names none, the one a discovery document is about. -/
def heardOf (datagram : Datagram S) : Option AddressDevice :=
  match datagram.header.bind Header.addressSource with
  | none => none
  | some source =>
    match datagram.commands.head?.bind Cmd.data with
    | some ⟨.nodeManagementDetailedDiscoveryData, update⟩ => discoveryDevice (S := S) source update
    | _ => source.device

/-- A record the datagram asks for costs no claim. -/
def SparedBy (p : FeatureAddress → Bool) (e : Engine S) (datagram : Datagram S) : Prop :=
  ∀ device ∈ heardOf datagram, ∀ evicted ∈ e.evictedFor device, e.Spares p evicted

instance (e : Engine S) (datagram : Datagram S) : Decidable (SparedBy p e datagram) :=
  inferInstanceAs (Decidable (∀ device ∈ heardOf datagram, ∀ evicted ∈ e.evictedFor device, _))

theorem heardOf_source {datagram : Datagram S} {device : AddressDevice}
    (horigin : datagram.header.bind Header.addressSource = some source)
    (hdevice : source.device = some device) : heardOf datagram = some device := by
  unfold heardOf
  rw [horigin]
  dsimp only
  split
  · simp [discoveryDevice, hdevice]
  · exact hdevice

theorem resolvePending_evictedFor (e : Engine S) (reference : Option MsgCounter)
    (origin : FeatureAddress) (device : AddressDevice) :
    (e.resolvePending reference origin).1.evictedFor device = e.evictedFor device := by
  cases reference <;> rfl

theorem sameClaims_informed {datagram : Datagram S}
    {cmd : Cmd S} (hspared : SparedBy p e datagram)
    (horigin : datagram.header.bind Header.addressSource = some source) (counter : MsgCounter)
    (reference : Option MsgCounter) (classifier : CmdClassifier)
    (hcommand : datagram.commands = [cmd]) :
    let filed := (e.observeSource source counter).1
    SameClaims p filed.relations ((filed.resolvePending reference source).1.handleIncomingData cmd
      source classifier).1.relations := by
  intro filed
  have hpending := filed.resolvePending_relations reference source
  have htracked : ∀ device ∈ source.device,
      (filed.resolvePending reference source).1.tracks device = true := by
    intro device hdevice
    rw [tracks_resolvePending]
    exact e.tracks_observeSource counter hdevice
  refine (SameClaims.of_eq hpending).trans ?_
  unfold handleIncomingData
  split
  · exact .refl p _
  case h_2 data hdata =>
    refine sameClaims_absorb htracked fun update hupdate device hdevice evicted hevicted => ?_
    cases hsource : source.device with
    | some sender =>
      have heq : sender = device := by simpa [discoveryDevice, hsource] using hdevice
      rw [evictedFor_of_tracks (htracked device (by simp [hsource, heq]))] at hevicted
      cases hevicted
    | none =>
      have hsame : filed = e := by simp [filed, observeSource, hsource]
      rw [resolvePending_evictedFor, hsame] at hevicted
      have hheard : heardOf datagram = some device := by
        simp only [heardOf, horigin, hcommand, List.head?_cons, Option.bind_some, hdata, hupdate]
        exact hdevice
      have hspares := hspared device hheard evicted hevicted
      unfold Spares at hspares ⊢
      rw [hpending, hsame]
      exact hspares

/-- What a datagram does to the claims, and the event that tells of it. -/
inductive DatagramNews (p : FeatureAddress → Bool) (e : Engine S) (datagram : Datagram S)
    (e' : Engine S) : Prop
  | silent (relations : SameClaims p e.relations e'.relations)
      (events : Reports (fun event => event.isBinding = false) e e')
  | granted (filed : Engine S) (relations : SameClaims p e.relations filed.relations)
      (events : Reports (fun event => event.isBinding = false) e filed)
      (cmd : Cmd S) (source client server : FeatureAddress) (id : UInt32)
      (called : calledBy datagram = some (cmd, source))
      (asked : askedBinding cmd source = some (client, server))
      (ok : (filed.relations.addBinding client server).2 = .ok id)
      (relations' : e'.relations = (filed.relations.addBinding client server).1)
      (events' : e'.events = filed.events ++ [.bindingGranted client server])
  | released (filed : Engine S) (relations : SameClaims p e.relations filed.relations)
      (events : Reports (fun event => event.isBinding = false) e filed)
      (cmd : Cmd S) (source client server : FeatureAddress)
      (called : calledBy datagram = some (cmd, source))
      (dropped : droppedBinding cmd source = some (client, server))
      (relations' : e'.relations = filed.relations.removeBinding client server)
      (events' : e'.events = filed.events ++ [.bindingReleased client server])

theorem handleDatagram_news {datagram : Datagram S} (now : Nat)
    (hspared : SparedBy p e datagram) :
    DatagramNews p e datagram (e.handleDatagram datagram now).1 := by
  have hsource : ∀ source counter, datagram.header.bind Header.addressSource = some source →
      SameClaims p e.relations (e.observeSource source counter).1.relations := by
    intro source counter horigin
    exact sameClaims_observeSource counter fun device hdevice =>
      hspared device (heardOf_source horigin hdevice)
  have hroutine : ∀ {e e' : Engine S}, Routine e e' →
      Reports (fun event => event.isBinding = false) e e' := fun h => h.mono fun _ => And.right
  rcases e.handleDatagram_served datagram now with hdiscarded | ⟨v, e', hv, hserved, hsends⟩
  · cases hdiscarded with
    | unread hsends => exact .silent (.of_eq hsends.relations) (.of_eq hsends.events)
    | filed source counter horigin _ hsends =>
      exact .silent ((hsource source counter horigin).trans (.of_eq hsends.relations))
        ((hroutine (hearing_routine.observeSource e source counter)).trans (.of_eq hsends.events))
  · obtain ⟨header, hheader, -, hclassifier, hvsource, -⟩ := hv.header
    have horigin : datagram.header.bind Header.addressSource = some v.source := by
      simp [hheader, hvsource]
    have hfiled : SameClaims p e.relations (v.filed e).1.relations := hsource v.source v.counter horigin
    have hevents : Reports (fun event => event.isBinding = false) e (v.filed e).1 :=
      hroutine (hearing_routine.observeSource e v.source v.counter)
    cases hserved with
    | answered _ _ hanswered =>
      exact .silent (hfiled.trans (.of_eq (hsends.relations.trans hanswered.relations)))
        (hevents.trans (.of_eq (hsends.events.trans hanswered.events)))
    | written w hw =>
      have hwrite : Reports (fun event => event.isBinding = false) (w.filed e).1
          ((w.filed e).1.decideWrite w now).1 := by
        refine (reports_decideWrite _ w now).mono fun event hevent => ?_
        cases event <;> simp_all [SpineEvent.written, SpineEvent.isBinding]
      exact .silent (hfiled.trans
          (.of_eq (hsends.relations.trans (decideWrite_relations _ w now))))
        ((hevents.trans hwrite).trans (.of_eq hsends.events))
    | called _ cmd hcall hcommand =>
      have hcalled : calledBy datagram = some (cmd, v.source) := by
        rw [hcall] at hclassifier
        simp [calledBy, hcommand, hheader, hclassifier, hvsource]
      have hnews := handleCall_news (v.filed e).1 cmd v.source
      generalize ((v.filed e).1.handleCall cmd v.source).1 = called at hnews hsends
      cases hnews with
      | silent _ hrelations hreports =>
        exact .silent ((hfiled.trans (hrelations p)).trans (.of_eq hsends.relations))
          ((hevents.trans hreports).trans (.of_eq hsends.events))
      | granted client server hasked id hok =>
        exact .granted _ hfiled hevents cmd v.source client server id hcalled hasked hok
          hsends.relations hsends.events
      | released client server hdropped =>
        exact .released _ hfiled hevents cmd v.source client server hcalled hdropped
          hsends.relations hsends.events
    | informed _ cmd hreport hcommand =>
      have hincoming := sameClaims_informed hspared horigin v.counter v.reference v.classifier
        hcommand
      exact .silent ((hfiled.trans hincoming).trans (.of_eq hsends.relations))
        ((hevents.trans (hroutine (hearing_routine.informed _ _ _ _ _))).trans (.of_eq hsends.events))
    | settled _ cmd _ _ =>
      exact .silent ((hfiled.trans (sameClaims_handleResult _ _ _ _)).trans (.of_eq hsends.relations))
        ((hevents.trans (hroutine (hearing_routine.handleResult _ _ _ _))).trans (.of_eq hsends.events))

end Engine

end Eebus.Spine
