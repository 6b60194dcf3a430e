import Eebus.Spine.Dispatch

/-! Everything that can happen to an engine: the datagrams it is handed, and what the application
and the runtime do to it in between. -/

namespace Eebus.Spine

open Eebus.Library Eebus.Model

variable {S : Schema}

def Pending.messageUnder (p : Pending S) (counter : MsgCounter) : Datagram S :=
  { p.datagram with header := p.datagram.header.map fun h => { h with msgCounter := some counter } }

inductive EngineOp (S : Schema)
  | handleDatagram (datagram : Datagram S) (now : Nat)
  | handleTimeout (now : Nat)
  /-- `accept_write`, or `accept_write_with` a document of the application's own. -/
  | finishWrite (token : Nat) (replacement : Option (CmdData S))
  | rejectWrite (token : Nat) (error : ErrorNumber)
  | readFiltered (destination source : FeatureAddress) (function : Function S.Other)
      (filters : List (Filter S)) (now : Nat)
  | writeFiltered (destination source : FeatureAddress) (data : CmdData S)
      (filters : List (Filter S)) (now : Nat)
  | requestBinding (client server : FeatureAddress) (now : Nat)
  | requestSubscription (client server : FeatureAddress) (now : Nat)
  | notify (feature : FeatureAddress) (function : Function S.Other)
  | insertBinding (client server : FeatureAddress)
  | insertSubscription (client server : FeatureAddress)
  | bindFeaturesTogether (features : List FeatureAddress)
  | setBindingPolicy (policy : BindingPolicy)
  | addUseCase (announced : AnnouncedUseCase)
  | addEntity (entity : LocalEntity S)
  | modifyEntity (path : List Nat)
  | removeEntity (path : List Nat)
  /-- Whatever is done through `device_mut`. -/
  | configure (g : LocalDevice S → LocalDevice S)
  | removePeer (device : AddressDevice)
  | pollTransmit
  | pollEvent

namespace Engine

def perform (e : Engine S) : EngineOp S → Engine S
  | .handleDatagram datagram now => (e.handleDatagram datagram now).1
  | .handleTimeout now => e.handleTimeout now
  | .finishWrite token replacement => (e.finishWrite token replacement).1
  | .rejectWrite token error => (e.rejectWrite token error).1
  | .readFiltered destination source function filters now =>
    (e.readFiltered destination source function filters now).1
  | .writeFiltered destination source data filters now =>
    (e.writeFiltered destination source data filters now).1
  | .requestBinding client server now => (e.requestBinding client server now).1
  | .requestSubscription client server now => (e.requestSubscription client server now).1
  | .notify feature function => e.notify feature function
  | .insertBinding client server => e.insertBinding client server
  | .insertSubscription client server => e.insertSubscription client server
  | .bindFeaturesTogether features => { e with relations := e.relations.bindTogether features }
  | .setBindingPolicy policy => { e with relations := { e.relations with policy := policy } }
  | .addUseCase announced => { e with useCases := e.useCases ++ [announced] }
  | .addEntity entity => (e.addEntity entity).1
  | .modifyEntity path => (e.modifyEntity path).1
  | .removeEntity path => (e.removeEntity path).1
  | .configure g => { e with device := g e.device }
  | .removePeer device => e.removePeer device
  | .pollTransmit => { e with outbox := e.outbox.drop 1 }
  | .pollEvent => { e with events := e.events.drop 1 }

/-- The engine under everything that can happen to it. -/
def machine : Machine (Engine S) (EngineOp S) Unit where
  step e op := (e.perform op, ())

end Engine

/-- What the application does to the device of this node and to its relations. -/
def EngineOp.isLocal : EngineOp S → Bool
  | .notify .. | .insertBinding .. | .insertSubscription .. | .bindFeaturesTogether _
  | .setBindingPolicy _ | .addUseCase _ | .addEntity _ | .modifyEntity _ | .removeEntity _
  | .configure _ => true
  | _ => false

/-- A relation between an engine and one of another device and other relations, whose subscribers have
been notified. -/
structure Reshaping (R : Engine S → Engine S → Prop) : Prop where
  refl (e : Engine S) : R e e
  trans {e e' e'' : Engine S} : R e e' → R e' e'' → R e e''
  reshape (e : Engine S) (device : LocalDevice S) (relations : Relations)
    (useCases : List AnnouncedUseCase) :
    R e { e with device := device, relations := relations, useCases := useCases }
  notification (e : Engine S) (source subscriber : FeatureAddress) (cmd : Cmd S) :
    R e (e.sendCmd source subscriber .notify none cmd)

namespace Reshaping

variable {R : Engine S → Engine S → Prop} (hR : Reshaping R) (e : Engine S)

include hR

theorem foldl {α : Type} {f : Engine S → α → Engine S} (hf : ∀ e a, R e (f e a)) (as : List α) :
    R e (as.foldl f e) := by
  induction as generalizing e with
  | nil => exact hR.refl e
  | cons a as ih => exact hR.trans (hf e a) (ih (f e a))

theorem notify (feature : FeatureAddress) (function : Function S.Other) :
    R e (e.notify feature function) := by
  unfold Engine.notify
  split
  · exact hR.refl e
  · refine hR.foldl e (fun e subscriber => ?_) _
    unfold Engine.notifySubscriber
    split
    · exact hR.refl e
    · exact hR.notification e _ _ _

theorem notifyDiscoveryChange (data : NodeManagementDetailedDiscoveryData S.Other) :
    R e (e.notifyDiscoveryChange data) :=
  hR.foldl e (fun e subscriber => hR.notification e _ subscriber _) _

theorem addEntity (entity : LocalEntity S) : R e (e.addEntity entity).1 := by
  unfold Engine.addEntity
  split
  · exact hR.refl e
  case h_2 device _ =>
    exact hR.trans (hR.reshape e device e.relations e.useCases) (hR.notifyDiscoveryChange _ _)

theorem modifyEntity (path : List Nat) : R e (e.modifyEntity path).1 := by
  unfold Engine.modifyEntity
  split
  · exact hR.refl e
  · exact hR.notifyDiscoveryChange e _

theorem removeEntity (path : List Nat) : R e (e.removeEntity path).1 := by
  unfold Engine.removeEntity
  split
  · exact hR.refl e
  case h_2 device removed _ =>
    have htold := hR.trans (hR.reshape e device (e.relations.removeLocalEntity device.address path)
      (e.useCases.filter fun announced => !path.isPrefixOf announced.entity))
      (hR.notifyDiscoveryChange _ (entitiesRemoved removed))
    dsimp only
    split
    · exact hR.trans htold (hR.notify _ _ _)
    · exact htold

theorem perform {op : EngineOp S} (h : op.isLocal = true) : R e (e.perform op) := by
  cases op with
  | notify feature function => exact hR.notify e feature function
  | addEntity entity => exact hR.addEntity e entity
  | modifyEntity path => exact hR.modifyEntity e path
  | removeEntity path => exact hR.removeEntity e path
  | insertBinding | insertSubscription | bindFeaturesTogether | setBindingPolicy | addUseCase
  | configure => exact hR.reshape e _ _ _
  | _ => cases h

end Reshaping

/-- From `e` to `e'` nothing but `said` is reported; the records of peers, the requests and the deferred
writes are those of before. -/
structure SameBooks (said : List (SpineEvent S)) (e e' : Engine S) : Prop where
  peers : e'.peers = e.peers
  pending : e'.pending = e.pending
  deferred : e'.deferred = e.deferred
  nextToken : e'.nextToken = e.nextToken
  events : e'.events = e.events ++ said

namespace SameBooks

variable {said said' : List (SpineEvent S)} {e e' e'' : Engine S}

theorem refl (e : Engine S) : SameBooks [] e e := ⟨rfl, rfl, rfl, rfl, (List.append_nil _).symm⟩

theorem trans (h : SameBooks said e e') (h' : SameBooks said' e' e'') :
    SameBooks (said ++ said') e e'' :=
  ⟨h'.peers.trans h.peers, h'.pending.trans h.pending, h'.deferred.trans h.deferred,
    h'.nextToken.trans h.nextToken, by rw [h'.events, h.events, List.append_assoc]⟩

theorem of_sends {P : Datagram S → Prop} (h : Sends P e e') : SameBooks [] e e' :=
  ⟨h.peers, h.pending, h.deferred, h.nextToken, by rw [h.events, List.append_nil]⟩

theorem pending_sublist (h : SameBooks said e e') : e'.pending.Sublist e.pending :=
  h.pending ▸ List.Sublist.refl _

end SameBooks

def SpineEvent.isWritten : SpineEvent S → Bool
  | .dataWritten .. => true
  | _ => false

namespace Engine

theorem sends_notifyDiscoveryChange (e : Engine S)
    (data : NodeManagementDetailedDiscoveryData S.Other) :
    Sends (Datagram.isOf .notify) e (e.notifyDiscoveryChange data) := by
  simp only [notifyDiscoveryChange]
  exact Sends.foldl (fun e subscriber => e.sends_sendCmd _ _ _ _ _ rfl) _ e

theorem sends_reportWritten (e : Engine S) (feature origin : FeatureAddress)
    (function : Function S.Other) :
    Sends (Datagram.isOf .notify) (e.emit (.dataWritten feature origin function))
      (e.reportWritten feature origin function) :=
  sends_notify _ _ _

theorem reshaping_books : Reshaping (SameBooks [] : Engine S → Engine S → Prop) where
  refl := .refl
  trans := .trans
  reshape _ _ _ _ := ⟨rfl, rfl, rfl, rfl, (List.append_nil _).symm⟩
  notification e _ _ _ := .of_sends (e.sends_sendCmd _ _ _ _ _ trivial (P := fun _ => True))

theorem books_local (e : Engine S) {op : EngineOp S} (h : op.isLocal = true) :
    SameBooks [] e (e.perform op) :=
  reshaping_books.perform e h

theorem reportWritten_books (e : Engine S) (feature origin : FeatureAddress)
    (function : Function S.Other) :
    SameBooks [.dataWritten feature origin function] e (e.reportWritten feature origin function) := by
  have hsends := e.sends_reportWritten feature origin function
  exact ⟨hsends.peers, hsends.pending, hsends.deferred, hsends.nextToken, hsends.events⟩

theorem applyWrite_sends (e : Engine S) (feature : LocalFeature S) (data : CmdData S) (ops : WriteOps S)
    (source destination : FeatureAddress) :
    ∃ said, (∀ event ∈ said, event = .dataWritten destination source data.function) ∧
      Sends (Datagram.isOf .notify) { e with
        device := (e.storeFeature destination (ops.applyTo feature data).1).device
        events := e.events ++ said } (e.applyWrite feature data ops source destination).1 := by
  unfold applyWrite
  split
  case h_1 feature' heq =>
    rw [heq]
    exact ⟨_, List.forall_mem_singleton.mpr rfl, sends_reportWritten _ _ _ _⟩
  case h_2 heq =>
    rw [heq]
    refine ⟨[], List.forall_mem_nil _, ?_⟩
    rw [List.append_nil]
    exact .refl _ _

theorem applyWrite_device (e : Engine S) (feature : LocalFeature S) (data : CmdData S) (ops : WriteOps S)
    (source destination : FeatureAddress) :
    (e.applyWrite feature data ops source destination).1.device =
      (e.storeFeature destination (ops.applyTo feature data).1).device := by
  obtain ⟨said, -, hsends⟩ := e.applyWrite_sends feature data ops source destination
  exact hsends.device

theorem applyWrite_books (e : Engine S) (feature : LocalFeature S) (data : CmdData S) (ops : WriteOps S)
    (source destination : FeatureAddress) : ∃ said, (∀ event ∈ said, event.isWritten = true) ∧
      SameBooks said e (e.applyWrite feature data ops source destination).1 := by
  obtain ⟨said, hsaid, hsends⟩ := e.applyWrite_sends feature data ops source destination
  exact ⟨said, fun event hevent => hsaid event hevent ▸ rfl, hsends.peers, hsends.pending,
    hsends.deferred, hsends.nextToken, hsends.events⟩

theorem dropDeferred_absent {e : Engine S} {token : Nat} (h : e.findDeferred token = none) :
    e.dropDeferred token = e := by
  rw [dropDeferred, List.eraseP_of_forall_not (List.find?_eq_none.mp h)]

theorem finishWrite_books (e : Engine S) (token : Nat) (replacement : Option (CmdData S)) :
    ∃ said, (∀ event ∈ said, event.isWritten = true) ∧
      SameBooks said (e.dropDeferred token) (e.finishWrite token replacement).1 := by
  unfold finishWrite
  split
  case h_1 hfound =>
    rw [dropDeferred_absent hfound]
    exact ⟨[], List.forall_mem_nil _, .refl e⟩
  case h_2 write _ =>
    dsimp only
    split
    case h_1 => exact ⟨[], List.forall_mem_nil _, .of_sends (sends_answerDeferred _ _ _)⟩
    case h_2 =>
      have hstored : ∀ feature, SameBooks [] (e.dropDeferred token)
          ((e.dropDeferred token).storeFeature write.feature feature) := fun _ =>
        reshaping_books.reshape _ _ _ _
      split
      case h_1 feature' _ =>
        exact ⟨_, List.forall_mem_singleton.mpr rfl, ((hstored feature').trans
          (reportWritten_books _ _ _ _)).trans (.of_sends (sends_answerDeferred _ _ _))⟩
      case h_2 => exact ⟨[], List.forall_mem_nil _, (hstored _).trans (.of_sends (sends_answerDeferred _ _ _))⟩

theorem rejectWrite_books (e : Engine S) (token : Nat) (error : ErrorNumber) :
    SameBooks [] (e.dropDeferred token) (e.rejectWrite token error).1 := by
  unfold rejectWrite
  split
  case h_1 hfound =>
    rw [dropDeferred_absent hfound]
    exact .refl e
  case h_2 => exact .of_sends (sends_answerDeferred _ _ _)

theorem finishWrite_device (e : Engine S) (token : Nat) (replacement : Option (CmdData S)) :
    (e.finishWrite token replacement).1.device = e.device ∨
      ∃ write feature, e.findDeferred token = some write ∧
        e.device.resolve write.feature = some feature ∧
        (e.finishWrite token replacement).1.device =
          (e.storeFeature write.feature (commit write replacement feature).1).device := by
  unfold finishWrite
  split
  case h_1 => exact .inl rfl
  case h_2 write hfound =>
    dsimp only
    split
    case h_1 => exact .inl (sends_answerDeferred _ _ _).device
    case h_2 feature hfeature =>
      refine .inr ⟨write, feature, hfound, hfeature, ?_⟩
      split
      case h_1 heq =>
        rw [heq]
        exact (sends_answerDeferred _ _ _).device.trans (sends_reportWritten _ _ _ _).device
      case h_2 heq =>
        rw [heq]
        exact (sends_answerDeferred _ _ _).device

theorem rejectWrite_device (e : Engine S) (token : Nat) (error : ErrorNumber) :
    (e.rejectWrite token error).1.device = e.device := by
  unfold rejectWrite
  split
  · rfl
  · exact (sends_answerDeferred _ _ _).device

theorem addEntity_device (e : Engine S) (entity : LocalEntity S) :
    (e.addEntity entity).1.device = e.device ∨ ∃ device, e.device.addEntity entity = .ok device ∧
      (e.addEntity entity).1.device = device := by
  unfold addEntity
  split
  · exact .inl rfl
  case h_2 device hadded => exact .inr ⟨device, hadded, (sends_notifyDiscoveryChange _ _).device⟩

theorem modifyEntity_device (e : Engine S) (path : List Nat) :
    (e.modifyEntity path).1.device = e.device := by
  unfold modifyEntity
  split
  · rfl
  · exact (sends_notifyDiscoveryChange _ _).device

theorem removeEntity_device (e : Engine S) (path : List Nat) :
    (e.removeEntity path).1.device = e.device ∨
      ∃ device removed, e.device.removeEntity path = .ok (device, removed) ∧
        (e.removeEntity path).1.device = device := by
  unfold removeEntity
  split
  · exact .inl rfl
  case h_2 device removed hremoved =>
    refine .inr ⟨device, removed, hremoved, ?_⟩
    dsimp only
    split
    · exact (sends_notify _ _ _).device.trans (sends_notifyDiscoveryChange _ _).device
    · exact (sends_notifyDiscoveryChange _ _).device

theorem expire_frame (now : Nat) (acc : Engine S × List (Pending S) × List (Pending S))
    (request : Pending S) : (expire now acc request).1.relations = acc.1.relations ∧
      (expire now acc request).1.peers = acc.1.peers ∧
      (expire now acc request).1.deferred = acc.1.deferred ∧
      (expire now acc request).1.device = acc.1.device := by
  obtain ⟨e, kept, abandoned⟩ := acc
  simp only [expire]
  split
  · exact ⟨rfl, rfl, rfl, rfl⟩
  · split
    · split <;> exact ⟨rfl, rfl, rfl, rfl⟩
    · exact ⟨rfl, rfl, rfl, rfl⟩

theorem handleTimeout_frame (e : Engine S) (now : Nat) :
    (e.handleTimeout now).relations = e.relations ∧ (e.handleTimeout now).peers = e.peers ∧
      (e.handleTimeout now).deferred ⊆ e.deferred ∧ (e.handleTimeout now).device = e.device := by
  obtain ⟨hrelations, hpeers, hdeferred, hdevice⟩ := List.foldlRecOn (b := ({ e with pending := [] }, [], []))
    (motive := fun acc => acc.1.relations = e.relations ∧ acc.1.peers = e.peers ∧
      acc.1.deferred = e.deferred ∧ acc.1.device = e.device)
    e.pending (expire now) ⟨rfl, rfl, rfl, rfl⟩
    fun acc ⟨hrelations, hpeers, hdeferred, hdevice⟩ request _ => by
      obtain ⟨hrelations', hpeers', hdeferred', hdevice'⟩ := expire_frame now acc request
      exact ⟨hrelations'.trans hrelations, hpeers'.trans hpeers, hdeferred'.trans hdeferred,
        hdevice'.trans hdevice⟩
  exact ⟨hrelations, hpeers, fun w hw => hdeferred ▸ (List.mem_filter.mp hw).1, hdevice⟩

theorem handleTimeout_relations (e : Engine S) (now : Nat) :
    (e.handleTimeout now).relations = e.relations :=
  (e.handleTimeout_frame now).1

/-- `p` is the request `q`, sent once or again. -/
def Repeats (q p : Pending S) : Prop :=
  p.request = q.request ∧ p.destination = q.destination ∧
    (p.datagram = q.datagram ∨ ∃ counter, p.datagram = q.messageUnder counter)

theorem expire_kept (now : Nat) (acc : Engine S × List (Pending S) × List (Pending S))
    (request : Pending S) :
    ∀ p ∈ (expire now acc request).2.1, p ∈ acc.2.1 ∨ Repeats request p := by
  obtain ⟨e, kept, abandoned⟩ := acc
  have hlast : ∀ q : Pending S, Repeats request q →
      ∀ p ∈ kept ++ [q], p ∈ kept ∨ Repeats request p := by
    intro q hq p hp
    cases List.mem_append.mp hp with
    | inl hmem => exact .inl hmem
    | inr hmem => exact .inr (List.mem_singleton.mp hmem ▸ hq)
  simp only [expire]
  split
  · exact hlast request ⟨rfl, rfl, .inl rfl⟩
  · split
    · split
      · exact hlast _ ⟨rfl, rfl, .inl rfl⟩
      · exact fun p hp => .inl hp
    · exact hlast _ ⟨rfl, rfl, .inr ⟨_, rfl⟩⟩

theorem handleTimeout_kept (e : Engine S) (now : Nat) :
    ∀ p ∈ (e.handleTimeout now).pending, ∃ q ∈ e.pending, Repeats q p :=
  List.foldlRecOn (b := ({ e with pending := [] }, [], []))
    (motive := fun acc => ∀ p ∈ acc.2.1, ∃ q ∈ e.pending, Repeats q p) e.pending (expire now)
    (List.forall_mem_nil _) fun acc hkept request hrequest p hp =>
      (expire_kept now acc request p hp).elim (hkept p) fun h => ⟨request, hrequest, h⟩

theorem finishWrite_relations (e : Engine S) (token : Nat) (replacement : Option (CmdData S)) :
    (e.finishWrite token replacement).1.relations = e.relations := by
  simp only [finishWrite]
  split
  · rfl
  · split
    · exact (sends_answerDeferred _ _ _).relations
    · split
      · exact (sends_answerDeferred _ _ _).relations.trans (sends_reportWritten _ _ _ _).relations
      · exact (sends_answerDeferred _ _ _).relations

theorem rejectWrite_relations (e : Engine S) (token : Nat) (error : ErrorNumber) :
    (e.rejectWrite token error).1.relations = e.relations := by
  simp only [rejectWrite]
  split
  · rfl
  · exact (sends_answerDeferred _ _ _).relations

theorem addEntity_relations (e : Engine S) (entity : LocalEntity S) :
    (e.addEntity entity).1.relations = e.relations := by
  simp only [addEntity]
  split
  · rfl
  · exact (sends_notifyDiscoveryChange _ _).relations

theorem modifyEntity_relations (e : Engine S) (path : List Nat) :
    (e.modifyEntity path).1.relations = e.relations := by
  simp only [modifyEntity]
  split
  · rfl
  · exact (sends_notifyDiscoveryChange _ _).relations

theorem removeEntity_relations (e : Engine S) (path : List Nat) :
    (e.removeEntity path).1.relations = e.relations ∨
      ∃ device, (e.removeEntity path).1.relations = e.relations.removeLocalEntity device path := by
  simp only [removeEntity]
  split
  · exact .inl rfl
  case h_2 device removed _ =>
    refine .inr ⟨device.address, ?_⟩
    dsimp only
    split
    · exact (sends_notify _ _ _).relations.trans (sends_notifyDiscoveryChange _ _).relations
    · exact (sends_notifyDiscoveryChange _ _).relations

end Engine

/-- Every binding granted in `r'` was granted in `r`, or its client is one that `P` allows. -/
def GrantsOnly (P : FeatureAddress → Prop) (r r' : Relations) : Prop :=
  ∀ b ∈ r'.bindings, b.held = false → b ∈ r.bindings ∨ P b.client

namespace GrantsOnly

variable {P : FeatureAddress → Prop} {r r' r'' : Relations}

theorem of_subset (h : ∀ b ∈ r'.bindings, b.held = false → b ∈ r.bindings) : GrantsOnly P r r' :=
  fun b hb hheld => .inl (h b hb hheld)

theorem refl (P : FeatureAddress → Prop) (r : Relations) : GrantsOnly P r r :=
  of_subset fun _ hb _ => hb

theorem of_eq (h : r'.bindings = r.bindings) : GrantsOnly P r r' :=
  of_subset fun b hb _ => by rwa [h] at hb

theorem trans (h : GrantsOnly P r r') (h' : GrantsOnly P r' r'') : GrantsOnly P r r'' := by
  intro b hb hheld
  cases h' b hb hheld with
  | inl hb => exact h b hb hheld
  | inr hP => exact .inr hP

theorem addBinding (r : Relations) (client server : FeatureAddress) (h : P client) :
    GrantsOnly P r (r.addBinding client server).1 := by
  rcases r.addBinding_cases client server with hsame | ⟨-, -, -, -, hadd⟩
  · rw [hsame]
    exact refl P r
  · intro b hb _
    rw [hadd] at hb
    cases List.mem_append.mp hb with
    | inl hb => exact .inl hb
    | inr hb =>
      rw [List.mem_singleton.mp hb]
      exact .inr h

theorem addSubscription (r : Relations) (client server : FeatureAddress) :
    GrantsOnly P r (r.addSubscription client server).1 := by
  rcases r.addSubscription_cases client server with hsame | ⟨-, -, hadd⟩
  · rw [hsame]
    exact refl P r
  · rw [hadd]
    exact of_eq rfl

theorem filterBindings (r : Relations) (keep keep' : Relation → Bool) :
    GrantsOnly P r { r with
      bindings := r.bindings.filter keep
      subscriptions := r.subscriptions.filter keep' } :=
  of_subset fun _ hb _ => (List.mem_filter.mp hb).1

theorem removeBinding (r : Relations) (client server : FeatureAddress) :
    GrantsOnly P r (r.removeBinding client server) :=
  of_subset fun _ hb _ => (List.mem_filter.mp hb).1

theorem recordBinding (r : Relations) (client server : FeatureAddress) :
    GrantsOnly P r (r.recordBinding client server) := by
  refine of_subset fun b hb hheld => ?_
  simp only [Relations.recordBinding, record] at hb
  split at hb
  · exact hb
  · split at hb
    · exact hb
    · cases List.mem_append.mp hb with
      | inl hb => exact hb
      | inr hb =>
        rw [List.mem_singleton.mp hb] at hheld
        exact Bool.noConfusion hheld

theorem recordRelation (r : Relations) (request : Datagram S) :
    GrantsOnly P r (Engine.recordRelation r request) := by
  simp only [Engine.recordRelation]
  split
  · split
    · exact recordBinding r _ _
    · exact refl P r
  · split
    · exact of_eq rfl
    · exact refl P r
  · split
    · exact filterBindings r _ _
    · exact refl P r
  · split
    · exact filterBindings r _ _
    · exact refl P r
  · exact refl P r

end GrantsOnly

end Eebus.Spine
