import Eebus.Spine.DeviceTree
import Eebus.Spine.Joined
import Eebus.Spine.Operations

/-!
A client that has read a server's device tree and is subscribed to its node management follows
every change of the tree that the updates can express. The invariant is about what is still on its
way: taken in, it makes the client's copy a copy of the tree as it now is.
-/

namespace Eebus.Spine

open Eebus.Library Eebus.Model

variable {S : Schema}

def treeUpdate (data : NodeManagementDetailedDiscoveryData S.Other) : Cmd S :=
  (Cmd.withData ⟨.nodeManagementDetailedDiscoveryData, data⟩).withFilter Filter.partialUpdate

/-- The notifications of node management that a change of the tree sends. -/
def IsUpdate (cmd : Cmd S) : Prop :=
  (∃ data, cmd = treeUpdate data) ∨ ∃ data, cmd = Cmd.withData ⟨.nodeManagementUseCaseData, data⟩

def takeIn (doc : NodeManagementDetailedDiscoveryData S.Other) (cmd : Cmd S) :
    NodeManagementDetailedDiscoveryData S.Other :=
  match cmd.data with
  | some ⟨.nodeManagementDetailedDiscoveryData, update⟩ => mergeDetailedDiscovery doc update
  | _ => doc

@[simp]
theorem takeIn_treeUpdate (doc data : NodeManagementDetailedDiscoveryData S.Other) :
    takeIn doc (treeUpdate data : Cmd S) = mergeDetailedDiscovery doc data := rfl

/-- A notification of the server's node management to the client. -/
def IsNotice (server client : AddressDevice) (counter : MsgCounter) (cmd : Cmd S)
    (datagram : Datagram S) : Prop :=
  ∃ destination : FeatureAddress, destination.device.all (· == client) = true ∧
    datagram = ⟨some (Engine.header (nodeManagement server) destination counter .notify false none),
      some ⟨some [cmd]⟩⟩

/-- Notifications with consecutive counters, from the first up to the one that comes next. -/
def Notices (server client : AddressDevice) :
    MsgCounter → List (Datagram S) → List (Cmd S) → MsgCounter → Prop
  | counter, [], [], next => next = counter
  | counter, datagram :: rest, cmd :: cmds, next =>
    IsNotice server client counter cmd datagram ∧
      Notices server client (nextMsgCounter counter) rest cmds next
  | _, _, _, _ => False

section Notices

variable {server client : AddressDevice} {counter next next' : MsgCounter}
  {datagrams datagrams' : List (Datagram S)} {cmds cmds' : List (Cmd S)}

theorem Notices.append (h : Notices server client counter datagrams cmds next)
    (h' : Notices server client next datagrams' cmds' next') :
    Notices server client counter (datagrams ++ datagrams') (cmds ++ cmds') next' := by
  induction datagrams generalizing counter cmds with
  | nil =>
    cases cmds with
    | nil =>
      obtain rfl : next = counter := h
      exact h'
    | cons cmd rest => exact h.elim
  | cons datagram rest ih =>
    cases cmds with
    | nil => exact h.elim
    | cons cmd rest' => exact ⟨h.1, ih h.2⟩

theorem notices_nil (h : Notices server client counter ([] : List (Datagram S)) cmds next) :
    cmds = [] ∧ next = counter := by
  cases cmds with
  | nil => exact ⟨rfl, h⟩
  | cons cmd rest => exact h.elim

theorem notices_cons {datagram : Datagram S} {rest : List (Datagram S)}
    (h : Notices server client counter (datagram :: rest) cmds next) :
    ∃ cmd cmds', cmds = cmd :: cmds' ∧ IsNotice server client counter cmd datagram ∧
      Notices server client (nextMsgCounter counter) rest cmds' next := by
  cases cmds with
  | nil => exact h.elim
  | cons cmd cmds' => exact ⟨cmd, cmds', rfl, h⟩

theorem Notices.isFor (h : Notices server client counter datagrams cmds next) :
    ∀ datagram ∈ datagrams, Datagram.isFor client datagram = true := by
  induction datagrams generalizing counter cmds with
  | nil => simp
  | cons datagram rest ih =>
    obtain ⟨cmd, cmds', -, ⟨destination, hdestination, rfl⟩, hrest⟩ := notices_cons h
    intro d hd
    cases List.mem_cons.mp hd with
    | inl heq =>
      subst heq
      exact hdestination
    | inr hmem => exact ih hrest d hmem

end Notices

/-- Whoever is subscribed to the server's node management is the client. -/
def ServesOnly (client : AddressDevice) (e : Engine S) : Prop :=
  ∀ subscriber ∈ e.relations.subscribersOf (nodeManagement e.device.address),
    subscriber.device.all (· == client) = true

/-- The engine has sent the client these commands, and is otherwise as it was. -/
structure Tells (client : AddressDevice) (cmds : List (Cmd S)) (e e' : Engine S) : Prop where
  device : e'.device = e.device
  relations : e'.relations = e.relations
  useCases : e'.useCases = e.useCases
  sent : ∃ datagrams, e'.outbox = e.outbox ++ datagrams ∧
    Notices e.device.address client e.counters datagrams cmds e'.counters

namespace Tells

variable {client : AddressDevice} {cmds cmds' : List (Cmd S)} {e e' e'' : Engine S}

theorem refl (e : Engine S) : Tells client [] e e := ⟨rfl, rfl, rfl, [], by simp, rfl⟩

theorem trans (h : Tells client cmds e e') (h' : Tells client cmds' e' e'') :
    Tells client (cmds ++ cmds') e e'' := by
  obtain ⟨datagrams, houtbox, hnotices⟩ := h.sent
  obtain ⟨datagrams', houtbox', hnotices'⟩ := h'.sent
  rw [h.device] at hnotices'
  exact ⟨h'.device.trans h.device, h'.relations.trans h.relations, h'.useCases.trans h.useCases,
    datagrams ++ datagrams', by rw [houtbox', houtbox, List.append_assoc], hnotices.append hnotices'⟩

theorem sendCmd {destination : FeatureAddress} (h : destination.device.all (· == client) = true)
    (e : Engine S) (cmd : Cmd S) : Tells client [cmd] e
      (e.sendCmd (nodeManagement e.device.address) destination .notify none cmd) :=
  ⟨rfl, rfl, rfl, _, rfl, ⟨destination, h, rfl⟩, rfl⟩

theorem notifyDiscoveryChange (h : ServesOnly client e)
    (data : NodeManagementDetailedDiscoveryData S.Other) : Tells client (List.replicate
        (e.relations.subscribersOf (nodeManagement e.device.address)).length (treeUpdate data))
      e (e.notifyDiscoveryChange data) := by
  have hloop : ∀ (subscribers : List FeatureAddress) (e' : Engine S),
      (∀ subscriber ∈ subscribers, subscriber.device.all (· == client) = true) →
      e'.device = e.device →
      Tells client (List.replicate subscribers.length (treeUpdate data)) e'
        (subscribers.foldl (fun e' subscriber => e'.sendCmd (nodeManagement e.device.address)
          subscriber .notify none (treeUpdate data)) e') := by
    intro subscribers
    induction subscribers with
    | nil => exact fun e' _ _ => refl e'
    | cons subscriber rest ih =>
      intro e' hclient hdevice
      have hfirst := sendCmd (hclient subscriber List.mem_cons_self) e' (treeUpdate data)
      rw [hdevice] at hfirst
      exact hfirst.trans (ih _ (fun a ha => hclient a (List.mem_cons_of_mem _ ha))
        (hfirst.device.trans hdevice))
  exact hloop _ e h rfl

theorem notifyUseCases (h : ServesOnly client e) :
    ∃ cmds, (∀ cmd ∈ cmds, ∃ data, cmd = Cmd.withData ⟨.nodeManagementUseCaseData, data⟩) ∧
      Tells client cmds e
        (e.notify (nodeManagement e.device.address) (.known .nodeManagementUseCaseData)) := by
  have hloop : ∀ (subscribers : List FeatureAddress) (e' : Engine S),
      (∀ subscriber ∈ subscribers, subscriber.device.all (· == client) = true) →
      e'.device = e.device →
      ∃ cmds, (∀ cmd ∈ cmds, ∃ data, cmd = Cmd.withData ⟨.nodeManagementUseCaseData, data⟩) ∧
        Tells client cmds e' (subscribers.foldl (Engine.notifySubscriber
          (nodeManagement e.device.address) (.known .nodeManagementUseCaseData)) e') := by
    intro subscribers
    induction subscribers with
    | nil => exact fun e' _ _ => ⟨[], by simp, refl e'⟩
    | cons subscriber rest ih =>
      intro e' hclient hdevice
      have hfirst := sendCmd (hclient subscriber List.mem_cons_self) e'
        (Cmd.withData ⟨.nodeManagementUseCaseData, useCaseData e'.device.address e'.useCases⟩)
      rw [hdevice] at hfirst
      have hsent : Engine.notifySubscriber (nodeManagement e.device.address)
          (.known .nodeManagementUseCaseData) e' subscriber =
          e'.sendCmd (nodeManagement e.device.address) subscriber .notify none
            (Cmd.withData ⟨.nodeManagementUseCaseData, useCaseData e.device.address e'.useCases⟩) := by
        rw [← hdevice]
        rfl
      obtain ⟨cmds, hcmds, hrest⟩ := ih _ (fun a ha => hclient a (List.mem_cons_of_mem _ ha))
        (hfirst.device.trans hdevice)
      refine ⟨Cmd.withData ⟨.nodeManagementUseCaseData, useCaseData e.device.address e'.useCases⟩ ::
        cmds, ?_, ?_⟩
      · intro cmd hcmd
        cases List.mem_cons.mp hcmd with
        | inl heq => exact ⟨_, heq⟩
        | inr hmem => exact hcmds cmd hmem
      · rw [List.foldl_cons, hsent]
        exact hfirst.trans hrest
  have hnode : isNodeManagement (nodeManagement e.device.address) = true := rfl
  simp only [Engine.notify, hnode, Bool.not_true, Bool.false_and, Bool.false_eq_true, if_false]
  exact hloop _ e h rfl

end Tells

/-- What is done to the server's tree, and what the channels do. -/
inductive TreeStep (S : Schema)
  | addEntity (entity : LocalEntity S)
  /-- The features of an entity are changed through `device_mut`, and the change is announced. -/
  | modifyEntity (path : List Nat) (features : List (LocalFeature S))
  | removeEntity (path : List Nat)
  | transmitDown
  | deliverDown (now : Nat)
  | transmitUp
  | deliverUp (now : Nat)

def LocalDevice.withFeatures (device : LocalDevice S) (path : List Nat)
    (features : List (LocalFeature S)) : LocalDevice S :=
  { device with
    entities := modifyFirst (atPath path) (fun e _ => { e with features := features }) device.entities }

namespace Engine

def remodel (e : Engine S) (path : List Nat) (features : List (LocalFeature S)) : Engine S :=
  (modifyEntity { e with device := e.device.withFeatures path features } path).1

end Engine

variable {s : Joined S} {path : List Nat}

namespace Joined

def perform (s : Joined S) : TreeStep S → Joined S
  | .addEntity entity => { s with server := (s.server.addEntity entity).1 }
  | .modifyEntity path features => { s with server := s.server.remodel path features }
  | .removeEntity path => { s with server := (s.server.removeEntity path).1 }
  | .transmitDown => s.transmitDown
  | .deliverDown now => s.deliverDown now
  | .transmitUp => s.transmitUp
  | .deliverUp now => s.deliverUp now

def machine : Machine (Joined S) (TreeStep S) Unit where
  step s step := (s.perform step, ())

/-- The updates can express the change: features have addresses of their own, no feature of an
entity goes while the entity stays, and what is removed has a path. -/
def Expressible (s : Joined S) : TreeStep S → Prop
  | .addEntity entity => (entity.features.map LocalFeature.address).Nodup
  | .modifyEntity path features => (features.map LocalFeature.address).Nodup ∧
      ∀ e ∈ s.server.device.entities, e.address = path →
        ∀ f ∈ e.features, f.address ∈ features.map LocalFeature.address
  | .removeEntity path => path ≠ []
  | _ => True

instance (s : Joined S) : ∀ step, Decidable (s.Expressible step)
  | .addEntity entity => inferInstanceAs (Decidable (entity.features.map LocalFeature.address).Nodup)
  | .modifyEntity path features =>
    inferInstanceAs (Decidable ((features.map LocalFeature.address).Nodup ∧
      ∀ e ∈ s.server.device.entities, e.address = path →
        ∀ f ∈ e.features, f.address ∈ features.map LocalFeature.address))
  | .removeEntity path => inferInstanceAs (Decidable (path ≠ []))
  | .transmitDown | .deliverDown _ | .transmitUp | .deliverUp _ => .isTrue trivial

/-- The tree after the step fits the copy of it. -/
def Sized (s : Joined S) (step : TreeStep S) : Prop :=
  FitsCopy (s.perform step).server.device.entities

instance (s : Joined S) (step : TreeStep S) : Decidable (s.Sized step) :=
  inferInstanceAs (Decidable (_ ≤ _ ∧ _ ≤ _))

/-- The client's record of the server lists the server's tree. -/
def Converged (s : Joined S) : Prop :=
  ∃ peer, s.client.findPeer s.server.device.address = some peer ∧
    List.Forall₂ (Shows s.server.device.address) peer.remote.entities s.server.device.entities

def UpToDate (peer : Peer S) : Prop :=
  peer.remote.entities = (peer.remote.applyDetailedDiscovery peer.discovery).entities

/-- The client has read the server's tree and is subscribed to its node management; whatever has
changed since is on its way. -/
structure Follows (s : Joined S) : Prop where
  usable : isUsableDeviceAddress s.server.device.address = true
  other : s.server.device.address ≠ s.client.device.address
  tidy : Tidy s.server.device.entities
  subscribed : ∃ r ∈ s.server.relations.subscriptions, r.held = false ∧
    sameFeature r.server (nodeManagement s.server.device.address) = true ∧
    r.client.device = some s.client.device.address
  servesOnly : ServesOnly s.client.device.address s.server
  record : ∃ peer last cmds, s.client.findPeer s.server.device.address = some peer ∧
    peer.counters.last = some last ∧ UpToDate peer ∧
    Notices s.server.device.address s.client.device.address (nextMsgCounter last) s.inFlight cmds
      s.server.counters ∧
    (∀ cmd ∈ cmds, IsUpdate cmd) ∧
    Mirrors s.server.device.entities (cmds.foldl takeIn peer.discovery)
  silent : s.client.outbox = [] ∧ s.up = []

theorem Follows.converged (h : s.Follows) (hquiescent : s.Quiescent) : s.Converged := by
  obtain ⟨peer, last, cmds, hfound, -, hcurrent, hnotices, -, hmirrors⟩ := h.record
  have hempty : s.inFlight = [] := by
    simp [inFlight, hquiescent.1, hquiescent.2.2.1]
  rw [hempty] at hnotices
  rw [(notices_nil hnotices).1, List.foldl_nil] at hmirrors
  refine ⟨peer, hfound, ?_⟩
  rw [hcurrent]
  exact hmirrors.shows h.tidy (Engine.findPeer_address hfound)

theorem mirrors_replicate {entities entities' : List (LocalEntity S)}
    {data : NodeManagementDetailedDiscoveryData S.Other}
    (hfirst : ∀ doc, Mirrors entities doc → Mirrors entities' (mergeDetailedDiscovery doc data))
    (hagain : ∀ doc, Mirrors entities' doc → Mirrors entities' (mergeDetailedDiscovery doc data))
    {n : Nat} (hn : n ≠ 0) {doc : NodeManagementDetailedDiscoveryData S.Other}
    (h : Mirrors entities doc) :
    Mirrors entities' ((List.replicate n (treeUpdate data : Cmd S)).foldl takeIn doc) := by
  have hrest : ∀ (n : Nat) (doc : NodeManagementDetailedDiscoveryData S.Other),
      Mirrors entities' doc →
      Mirrors entities' ((List.replicate n (treeUpdate data : Cmd S)).foldl takeIn doc) := by
    intro n
    induction n with
    | zero => exact fun doc h => h
    | succ n ih => exact fun doc h => ih _ (hagain doc h)
  cases n with
  | zero => exact absurd rfl hn
  | succ n => exact hrest n _ (hfirst doc h)

theorem Follows.tell (h : s.Follows) {e' : Engine S} {cmds : List (Cmd S)}
    (haddress : e'.device.address = s.server.device.address) (htidy : Tidy e'.device.entities)
    (hsubscribed : ∃ r ∈ e'.relations.subscriptions, r.held = false ∧
      sameFeature r.server (nodeManagement s.server.device.address) = true ∧
      r.client.device = some s.client.device.address)
    (hserves : ServesOnly s.client.device.address e')
    (hsent : ∃ datagrams, e'.outbox = s.server.outbox ++ datagrams ∧
      Notices s.server.device.address s.client.device.address s.server.counters datagrams cmds
        e'.counters)
    (hupdates : ∀ cmd ∈ cmds, IsUpdate cmd)
    (hmirrors : ∀ doc, Mirrors s.server.device.entities doc →
      Mirrors e'.device.entities (cmds.foldl takeIn doc)) :
    ({ s with server := e' } : Joined S).Follows := by
  obtain ⟨peer, last, cmds', hfound, hlast, hcurrent, hnotices, hupdates', hmirrors'⟩ := h.record
  obtain ⟨datagrams, houtbox, hsent⟩ := hsent
  refine ⟨haddress ▸ h.usable, haddress ▸ h.other, htidy, haddress ▸ hsubscribed, hserves, ?_,
    h.silent⟩
  refine ⟨peer, last, cmds' ++ cmds, haddress ▸ hfound, hlast, hcurrent, ?_, ?_, ?_⟩
  · have hflight : ({ s with server := e' } : Joined S).inFlight = s.inFlight ++ datagrams := by
      simp only [inFlight, houtbox, List.append_assoc]
    rw [hflight]
    dsimp only
    rw [haddress]
    exact hnotices.append hsent
  · intro cmd hcmd
    cases List.mem_append.mp hcmd with
    | inl hmem => exact hupdates' cmd hmem
    | inr hmem => exact hupdates cmd hmem
  · rw [List.foldl_append]
    exact hmirrors _ hmirrors'

theorem Follows.subscribers (h : s.Follows) :
    (s.server.relations.subscribersOf (nodeManagement s.server.device.address)).length ≠ 0 := by
  obtain ⟨r, hr, hheld, hserver, -⟩ := h.subscribed
  have hmem : r.client ∈
      s.server.relations.subscribersOf (nodeManagement s.server.device.address) :=
    List.mem_map.mpr ⟨r, List.mem_filter.mpr ⟨hr, by simp [hheld, hserver]⟩, rfl⟩
  exact Nat.ne_of_gt (List.length_pos_of_mem hmem)

theorem Follows.put (h : s.Follows) {device : LocalDevice S} {x : LocalEntity S}
    {change : NetworkManagementStateChange} (hchange : change ≠ .removed)
    (haddress : device.address = s.server.device.address)
    (hdevice : device.entities = putEntity x s.server.device.entities)
    (hx : (x.features.map LocalFeature.address).Nodup)
    (hkeeps : KeepsFeatures s.server.device.entities x) (hfits : FitsCopy device.entities)
    {e' : Engine S} (he : e' = Engine.notifyDiscoveryChange { s.server with device := device }
      (changed [x] change true)) :
    ({ s with server := e' } : Joined S).Follows := by
  subst he
  have htidy : Tidy device.entities := hdevice ▸ h.tidy.put hx
  have hserves : ServesOnly s.client.device.address
      ({ s.server with device := device } : Engine S) := by
    intro subscriber hsubscriber
    dsimp only at hsubscriber
    rw [haddress] at hsubscriber
    exact h.servesOnly subscriber hsubscriber
  have htells := Tells.notifyDiscoveryChange hserves (changed [x] change true)
  have hmem : x ∈ device.entities := hdevice ▸ mem_putEntity_self h.tidy x
  obtain ⟨datagrams, houtbox, hnotices⟩ := htells.sent
  dsimp only at houtbox hnotices
  rw [haddress] at hnotices
  refine h.tell ?_ ?_ ?_ ?_ ⟨datagrams, houtbox, hnotices⟩ ?_ ?_
  · rw [htells.device]
    exact haddress
  · rw [htells.device]
    exact htidy
  · rw [htells.relations]
    exact h.subscribed
  · intro subscriber hsubscriber
    rw [htells.relations, htells.device] at hsubscriber
    exact hserves subscriber hsubscriber
  · intro cmd hcmd
    exact .inl ⟨_, List.eq_of_mem_replicate hcmd⟩
  · intro doc hdoc
    rw [htells.device]
    refine mirrors_replicate (fun doc hdoc => ?_) (fun doc hdoc => ?_) h.subscribers hdoc
    · rw [hdevice] at hfits ⊢
      exact hdoc.put h.tidy hx hkeeps hfits hchange
    · have hput := putEntity_of_mem htidy hmem
      have hagain := hdoc.put htidy hx (keepsFeatures_of_mem htidy hmem) (hput.symm ▸ hfits) hchange
      rwa [hput] at hagain

theorem atPath_eq_hasKey (path : List Nat) :
    (LocalDevice.atPath path : LocalEntity S → Bool) = hasKey LocalEntity.address path :=
  funext fun _ => beq_eq_decide _ _

theorem Follows.addEntity (h : s.Follows) {entity : LocalEntity S}
    (hnodup : (entity.features.map LocalFeature.address).Nodup) (hsized : s.Sized (.addEntity entity)) :
    (s.perform (.addEntity entity)).Follows := by
  unfold Sized at hsized
  simp only [perform, Engine.addEntity, LocalDevice.addEntity] at hsized ⊢
  cases hany : s.server.device.entities.any (LocalDevice.atPath entity.address) with
  | true =>
    simp only [if_true]
    exact h
  | false =>
    simp only [hany, Bool.false_eq_true, if_false] at hsized ⊢
    rw [atPath_eq_hasKey] at hany
    have hnew := not_any_hasKey (Bool.eq_false_iff.mp hany)
    have hadded : (.added : NetworkManagementStateChange) ≠ .removed := by decide
    rw [(Engine.sends_notifyDiscoveryChange _ _).device] at hsized
    refine h.put hadded ?_ ?_ hnodup (fun e he hpath => absurd hpath (hnew e he)) hsized rfl
    · rfl
    · simp [putEntity, upsert, hany]

theorem withFeatures_entities {device : LocalDevice S} (h : Tidy device.entities)
    {x : LocalEntity S} (hx : device.entity path = some x) (features : List (LocalFeature S)) :
    (device.withFeatures path features).entities =
      putEntity { x with features := features } device.entities := by
  have hmem : x ∈ device.entities := List.mem_of_find?_eq_some hx
  have hpath : x.address = path := by
    have hat : LocalDevice.atPath path x = true := List.find?_some hx
    simpa [LocalDevice.atPath] using hat
  have hany : device.entities.any (hasKey LocalEntity.address x.address) = true :=
    List.any_eq_true.mpr ⟨x, hmem, hasKey_iff.mpr rfl⟩
  have hat : ∀ e : LocalEntity S, LocalDevice.atPath path e = true ↔ e.address = path :=
    fun _ => beq_iff_eq
  simp only [LocalDevice.withFeatures, putEntity, upsert, hany, if_true]
  rw [modifyFirst_eq_map hat h.paths fun e => { e with features := features },
    modifyFirst_eq_map (fun _ => hasKey_iff) h.paths fun _ => { x with features := features }]
  refine List.map_congr_left fun e he => ?_
  rw [hpath]
  split
  case isTrue heq => rw [List.inj_on_of_nodup_map h.paths he hmem (heq.trans hpath.symm), hpath]
  case isFalse => rfl

theorem Follows.modifyEntity (h : s.Follows)
    {features : List (LocalFeature S)} (hexpressible : s.Expressible (.modifyEntity path features))
    (hsized : s.Sized (.modifyEntity path features)) :
    (s.perform (.modifyEntity path features)).Follows := by
  obtain ⟨hnodup, hkept⟩ := hexpressible
  unfold Sized at hsized
  simp only [perform, Engine.remodel] at hsized ⊢
  cases hx : s.server.device.entity path with
  | none =>
    have hsame : s.server.device.withFeatures path features = s.server.device := by
      simp only [LocalDevice.withFeatures]
      rw [modifyFirst_of_find?_none hx]
    simp only [hsame, Engine.modifyEntity, hx]
    exact h
  | some x =>
    have hmem : x ∈ s.server.device.entities := List.mem_of_find?_eq_some hx
    have hpath : x.address = path := by
      have hat : LocalDevice.atPath path x = true := List.find?_some hx
      simpa [LocalDevice.atPath] using hat
    have hentities := withFeatures_entities h.tidy hx features
    have hfound : (s.server.device.withFeatures path features).entity path =
        some { x with features := features } := by
      have hfind := find?_modifyFirst_self (f := fun e : LocalEntity S => { e with features := features })
        (fun e (he : LocalDevice.atPath path e = true) => he) s.server.device.entities
      rw [show s.server.device.entities.find? (LocalDevice.atPath path) = some x from hx] at hfind
      exact hfind
    simp only [Engine.modifyEntity, hfound] at hsized ⊢
    rw [(Engine.sends_notifyDiscoveryChange _ _).device] at hsized
    have hmodified : (.modified : NetworkManagementStateChange) ≠ .removed := by decide
    refine h.put hmodified ?_ hentities hnodup ?_ hsized rfl
    · rfl
    · intro e he haddress f hf
      exact hkept e he (haddress.trans hpath) f hf

theorem removeEntity_ok {device device' : LocalDevice S}
    {removed : List (LocalEntity S)} (h : device.removeEntity path = .ok (device', removed)) :
    path ≠ [nodeManagementEntity] ∧ device'.address = device.address ∧
      device'.entities = dropEntity path device.entities ∧ (∃ e ∈ removed, e.address = path) ∧
      ∀ e ∈ removed, path.isPrefixOf e.address = true := by
  unfold LocalDevice.removeEntity at h
  split at h
  · cases h
  case isFalse hmandatory =>
    split at h
    · cases h
    case isFalse hknown =>
      cases h
      refine ⟨by simpa using hmandatory, rfl, rfl, ?_, fun e he => ?_⟩
      · have hany : device.entities.any (LocalDevice.atPath path) = true := by simpa using hknown
        obtain ⟨e, he, hat⟩ := List.any_eq_true.mp hany
        refine ⟨e, List.mem_append_left _ (List.mem_reverse.mpr (List.mem_filter.mpr ⟨he, hat⟩)), ?_⟩
        simpa [LocalDevice.atPath] using hat
      · cases List.mem_append.mp he with
        | inl hat =>
          have hmem := (List.mem_filter.mp (List.mem_reverse.mp hat)).2
          have haddress : e.address = path := by simpa [LocalDevice.atPath] using hmem
          rw [haddress]
          exact List.isPrefixOf_iff_prefix.mpr (List.prefix_refl path)
        | inr hbeneath =>
          have hmem := (List.mem_filter.mp hbeneath).2
          rw [Bool.and_eq_true] at hmem
          exact hmem.2

theorem Follows.subscribed_remove (h : s.Follows) (hpath : path ≠ [])
    (hmandatory : path ≠ [nodeManagementEntity]) :
    ∃ r ∈ (s.server.relations.removeLocalEntity s.server.device.address path).subscriptions,
      r.held = false ∧ sameFeature r.server (nodeManagement s.server.device.address) = true ∧
        r.client.device = some s.client.device.address := by
  obtain ⟨r, hr, hheld, hserver, hclient⟩ := h.subscribed
  refine ⟨r, List.mem_filter.mpr ⟨hr, ?_⟩, hheld, hserver, hclient⟩
  have hzero : entityPath r.server = [nodeManagementEntity] := by
    simp only [sameFeature, Bool.and_eq_true, beq_iff_eq] at hserver
    exact hserver.1.2
  have hother : path.isPrefixOf (entityPath r.server) = false := by
    rw [hzero, Bool.eq_false_iff]
    intro hprefix
    obtain ⟨rest, hrest⟩ := List.isPrefixOf_iff_prefix.mp hprefix
    cases path with
    | nil => exact hpath rfl
    | cons a tail =>
      simp only [List.cons_append, List.cons.injEq, List.append_eq_nil_iff] at hrest
      exact hmandatory (by rw [hrest.1, hrest.2.1])
  have hforeign : (s.client.device.address == s.server.device.address) = false := by
    simpa using h.other.symm
  simp [hother, hclient, hforeign]

theorem Follows.servesOnly_remove (h : s.Follows) (path : List Nat) :
    ∀ subscriber ∈ (s.server.relations.removeLocalEntity s.server.device.address path).subscribersOf
        (nodeManagement s.server.device.address),
      subscriber.device.all (· == s.client.device.address) = true := by
  intro subscriber hsubscriber
  obtain ⟨r, hr, rfl⟩ := List.mem_map.mp hsubscriber
  obtain ⟨hr, hgranted⟩ := List.mem_filter.mp hr
  exact h.servesOnly r.client
    (List.mem_map.mpr ⟨r, List.mem_filter.mpr ⟨(List.mem_filter.mp hr).1, hgranted⟩, rfl⟩)

theorem foldl_takeIn_useCases (cmds : List (Cmd S)) (doc : NodeManagementDetailedDiscoveryData S.Other)
    (h : ∀ cmd ∈ cmds, ∃ data, cmd = Cmd.withData ⟨.nodeManagementUseCaseData, data⟩) :
    cmds.foldl takeIn doc = doc := by
  induction cmds generalizing doc with
  | nil => rfl
  | cons cmd rest ih =>
    obtain ⟨data, rfl⟩ := h cmd List.mem_cons_self
    exact ih doc fun c hc => h c (List.mem_cons_of_mem _ hc)

theorem Follows.drop (h : s.Follows) (hpath : path ≠ [])
    {device : LocalDevice S} {removed : List (LocalEntity S)}
    (hremoved : s.server.device.removeEntity path = .ok (device, removed)) {e₁ e₂ : Engine S}
    (hdevice : e₁.device = device)
    (hrelations : e₁.relations = s.server.relations.removeLocalEntity s.server.device.address path)
    (houtbox : e₁.outbox = s.server.outbox) (hcounters : e₁.counters = s.server.counters)
    {cmds : List (Cmd S)}
    (hcmds : ∀ cmd ∈ cmds, ∃ data, cmd = Cmd.withData ⟨.nodeManagementUseCaseData, data⟩)
    (hmore : Tells s.client.device.address cmds
      (e₁.notifyDiscoveryChange (entitiesRemoved removed)) e₂) :
    ({ s with server := e₂ } : Joined S).Follows := by
  obtain ⟨hmandatory, haddress, hentities, hnamed, hbeneath⟩ := removeEntity_ok hremoved
  rw [← hdevice] at haddress hentities
  have hsubscribed := h.subscribed_remove hpath hmandatory
  have hserves : ServesOnly s.client.device.address e₁ := by
    intro subscriber hsubscriber
    rw [haddress, hrelations] at hsubscriber
    exact h.servesOnly_remove path subscriber hsubscriber
  have htells := Tells.notifyDiscoveryChange hserves (entitiesRemoved removed)
  rw [haddress] at htells
  have hsome : (e₁.relations.subscribersOf (nodeManagement s.server.device.address)).length ≠ 0 := by
    rw [hrelations]
    obtain ⟨r, hr, hheld, hserver, -⟩ := hsubscribed
    exact Nat.ne_of_gt (List.length_pos_of_mem (List.mem_map.mpr
      ⟨r, List.mem_filter.mpr ⟨hr, by simp [hheld, hserver]⟩, rfl⟩))
  have hall := htells.trans hmore
  obtain ⟨datagrams, hsent, hnotices⟩ := hall.sent
  rw [haddress, hcounters] at hnotices
  rw [houtbox] at hsent
  refine h.tell ?_ ?_ ?_ ?_ ⟨datagrams, hsent, hnotices⟩ ?_ ?_
  · rw [hall.device]
    exact haddress
  · rw [hall.device, hentities]
    exact h.tidy.drop path
  · rw [hall.relations, hrelations]
    exact hsubscribed
  · intro subscriber hsubscriber
    rw [hall.relations, hall.device] at hsubscriber
    exact hserves subscriber hsubscriber
  · intro cmd hcmd
    cases List.mem_append.mp hcmd with
    | inl hmem => exact .inl ⟨_, List.eq_of_mem_replicate hmem⟩
    | inr hmem => exact .inr (hcmds cmd hmem)
  · intro doc hdoc
    rw [hall.device, List.foldl_append, foldl_takeIn_useCases cmds _ hcmds, hentities]
    refine mirrors_replicate (fun doc hdoc => hdoc.drop hnamed hbeneath) (fun doc hdoc => ?_) hsome hdoc
    have hagain := hdoc.drop hnamed hbeneath
    rwa [dropEntity_dropEntity] at hagain

theorem Follows.removeEntity (h : s.Follows) (hpath : path ≠ []) :
    (s.perform (.removeEntity path)).Follows := by
  simp only [perform, Engine.removeEntity]
  split
  · exact h
  case h_2 device removed hremoved =>
    obtain ⟨-, haddress, -⟩ := removeEntity_ok hremoved
    dsimp only
    rw [haddress]
    split
    · have hserves : ServesOnly s.client.device.address (Engine.notifyDiscoveryChange
          { s.server with
            device := device
            relations := s.server.relations.removeLocalEntity s.server.device.address path
            useCases := s.server.useCases.filter fun announced => !path.isPrefixOf announced.entity }
          (entitiesRemoved removed)) := by
        intro subscriber hsubscriber
        rw [(Engine.sends_notifyDiscoveryChange _ _).relations,
          (Engine.sends_notifyDiscoveryChange _ _).device] at hsubscriber
        dsimp only at hsubscriber
        rw [haddress] at hsubscriber
        exact h.servesOnly_remove path subscriber hsubscriber
      obtain ⟨cmds, hcmds, hmore⟩ := Tells.notifyUseCases hserves
      rw [(Engine.sends_notifyDiscoveryChange _ _).device] at hmore
      dsimp only at hmore
      rw [haddress] at hmore
      refine h.drop hpath hremoved ?_ ?_ ?_ ?_ hcmds hmore <;> rfl
    · refine h.drop hpath hremoved ?_ ?_ ?_ ?_ ?_ (.refl _) <;> first | rfl | simp

theorem Follows.transmitDown (h : s.Follows) : s.transmitDown.Follows := by
  simp only [Joined.transmitDown]
  split
  · exact h
  case h_2 datagram rest houtbox =>
    obtain ⟨peer, last, cmds, hfound, hlast, hcurrent, hnotices, hupdates, hmirrors⟩ := h.record
    have hclient : Datagram.isFor s.client.device.address datagram = true :=
      hnotices.isFor datagram (by simp [inFlight, houtbox])
    rw [if_pos hclient]
    refine ⟨h.usable, h.other, h.tidy, h.subscribed, h.servesOnly, ?_, h.silent⟩
    refine ⟨peer, last, cmds, hfound, hlast, hcurrent, ?_, hupdates, hmirrors⟩
    have hflight : s.inFlight = s.down ++ [datagram] ++ rest := by simp [inFlight, houtbox]
    rw [hflight] at hnotices
    exact hnotices

theorem UpToDate.informed {peer : Peer S} (h : UpToDate peer) {device : AddressDevice}
    (haddress : peer.remote.address = some device) (source : FeatureAddress) {cmd : Cmd S}
    (hcmd : IsUpdate cmd) : UpToDate (peer.informed source cmd) ∧
      (peer.informed source cmd).discovery = takeIn peer.discovery cmd ∧
      (peer.informed source cmd).counters = peer.counters := by
  rcases hcmd with ⟨data, rfl⟩ | ⟨data, rfl⟩
  · refine ⟨?_, rfl, rfl⟩
    simp only [UpToDate, Peer.informed, treeUpdate, Cmd.withFilter, Cmd.withData]
    simp [RemoteDevice.applyDetailedDiscovery, haddress]
  · exact ⟨h, rfl, rfl⟩

theorem Follows.deliverDown (h : s.Follows) (now : Nat) : (s.deliverDown now).Follows := by
  simp only [Joined.deliverDown]
  split
  · exact h
  case h_2 datagram rest hdown =>
    obtain ⟨peer, last, cmds, hfound, hlast, hcurrent, hnotices, hupdates, hmirrors⟩ := h.record
    have hflight : s.inFlight = datagram :: (rest ++ s.server.outbox) := by simp [inFlight, hdown]
    rw [hflight] at hnotices
    obtain ⟨cmd, cmds', rfl, ⟨destination, hdestination, rfl⟩, hrest⟩ := notices_cons hnotices
    have hupdate := hupdates cmd List.mem_cons_self
    obtain ⟨data, hdata⟩ : ∃ data, cmd.data = some data := by
      rcases hupdate with ⟨data, rfl⟩ | ⟨data, rfl⟩ <;> exact ⟨_, rfl⟩
    have hahead := MsgCounterTracker.ahead_next last
    have hsource : (nodeManagement s.server.device.address).device =
        some s.server.device.address := rfl
    obtain ⟨hfound', houtbox', hdevice'⟩ := Engine.handleDatagram_report hfound h.usable h.other
      hsource hdestination hlast hahead (.inr rfl) none hdata now
    have hfiled : UpToDate { peer with counters := (peer.counters.observe (nextMsgCounter last)).1 } :=
      hcurrent
    have haddress := Engine.findPeer_address hfound
    obtain ⟨hcurrent', hdiscovery', hcounters'⟩ :=
      hfiled.informed haddress (nodeManagement s.server.device.address) hupdate
    refine ⟨h.usable, ?_, h.tidy, ?_, ?_, ?_, ?_⟩
    · rw [hdevice']
      exact h.other
    · rw [hdevice']
      exact h.subscribed
    · rw [hdevice']
      exact h.servesOnly
    · refine ⟨_, nextMsgCounter last, cmds', hfound', ?_, hcurrent', ?_, ?_, ?_⟩
      · rw [hcounters']
        exact (MsgCounterTracker.observe_ahead hlast hahead).2
      · rw [hdevice']
        exact hrest
      · exact fun c hc => hupdates c (List.mem_cons_of_mem _ hc)
      · rw [hdiscovery']
        exact hmirrors
    · exact ⟨houtbox'.trans h.silent.1, h.silent.2⟩

theorem Follows.perform (h : s.Follows) {step : TreeStep S}
    (hexpressible : s.Expressible step) (hsized : s.Sized step) : (s.perform step).Follows := by
  cases step with
  | addEntity entity => exact h.addEntity hexpressible hsized
  | modifyEntity path features => exact h.modifyEntity hexpressible hsized
  | removeEntity path => exact h.removeEntity hexpressible
  | transmitDown => exact h.transmitDown
  | deliverDown now => exact h.deliverDown now
  | transmitUp =>
    simp only [Joined.perform, Joined.transmitUp, h.silent.1]
    exact h
  | deliverUp now =>
    simp only [Joined.perform, Joined.deliverUp, h.silent.2]
    exact h

/-- The client has read the server's tree and holds a subscription to its node management; what
either has sent has arrived. -/
structure Begins (s : Joined S) : Prop where
  usable : isUsableDeviceAddress s.server.device.address = true
  other : s.server.device.address ≠ s.client.device.address
  tidy : Tidy s.server.device.entities
  subscribed : ∃ r ∈ s.server.relations.subscriptions, r.held = false ∧
    sameFeature r.server (nodeManagement s.server.device.address) = true ∧
    r.client.device = some s.client.device.address
  servesOnly : ServesOnly s.client.device.address s.server
  read : ∃ peer last, s.client.findPeer s.server.device.address = some peer ∧
    peer.counters.last = some last ∧ s.server.counters = nextMsgCounter last ∧
    peer.discovery = detailedDiscovery s.server.device ∧ UpToDate peer
  quiescent : s.Quiescent

theorem Begins.follows (h : s.Begins) : s.Follows := by
  obtain ⟨peer, last, hfound, hlast, hcounters, hread, hcurrent⟩ := h.read
  obtain ⟨houtbox, hclient, hdown, hup⟩ := h.quiescent
  refine ⟨h.usable, h.other, h.tidy, h.subscribed, h.servesOnly, ?_, hclient, hup⟩
  refine ⟨peer, last, [], hfound, hlast, hcurrent, ?_, by simp, ?_⟩
  · simp only [inFlight, houtbox, hdown, List.append_nil]
    exact hcounters
  · rw [List.foldl_nil, hread]
    exact mirrors_detailedDiscovery s.server.device h.tidy

/-- In every run whose changes the updates can express, on a tree that fits its copy: once
everything has arrived, the client's record of the server lists the server's tree. -/
theorem tree_converges (s : Joined S) (hbegins : s.Begins) (steps : List (TreeStep S))
    (hrun : machine.Admits (fun s step => s.Expressible step ∧ s.Sized step) s steps) :
    ∀ before, before <+: steps → (machine.run s before).Quiescent →
      (machine.run s before).Converged := by
  intro before hp hquiescent
  have hfollows := machine.run_invariant (fun s step => s.Expressible step ∧ s.Sized step) Follows
    (fun s step h hstep => h.perform hstep.1 hstep.2) before s hbegins.follows
    (machine.admits_prefix hrun hp)
  exact hfollows.converged hquiescent

end Joined

namespace TreeScenario

def heatPump : AddressDevice := "d:_i:1_HeatPump"
def manager : AddressDevice := "d:_i:2_Cem"

def loadControl : LocalFeature Schema.limitsOnly :=
  (LocalFeature.new 1 .loadControl .server).withFunction (.known .loadControlLimitListData) .readWrite

def diagnosis : LocalFeature Schema.limitsOnly :=
  (LocalFeature.new 2 .deviceDiagnosis .server).withFunction (.known .deviceDiagnosisHeartbeatData)
    .readOnly

def appliance (path : List Nat) (features : List (LocalFeature Schema.limitsOnly)) :
    LocalEntity Schema.limitsOnly :=
  ⟨path, .other "HeatPumpAppliance", features⟩

def device : LocalDevice Schema.limitsOnly :=
  let device := LocalDevice.fromAddress heatPump "HeatGenerationSystem"
  { device with entities := device.entities ++ [appliance [1] [loadControl, diagnosis]] }

def exchanged (s : Joined Schema.limitsOnly) : Joined Schema.limitsOnly :=
  Joined.machine.run s [.transmitUp, .transmitUp, .deliverUp 0, .deliverUp 0,
    .transmitDown, .transmitDown, .deliverDown 0, .deliverDown 0]

def strangers : Joined Schema.limitsOnly :=
  ⟨.new device, .new (.fromAddress manager "EnergyManagementSystem"), [], []⟩

/-- The manager reads the heat pump's tree, and subscribes to its node management. -/
def introduced : Joined Schema.limitsOnly :=
  let s := exchanged { strangers with client := (strangers.client.discover heatPump 0).1 }
  exchanged { s with client := (s.client.subscribeToDiscovery heatPump 0).1 }

theorem introduced_begins : introduced.Begins where
  usable := by decide +kernel
  other := by decide +kernel
  tidy := ⟨by decide +kernel, by decide +kernel⟩
  subscribed := by decide +kernel
  servesOnly := by unfold ServesOnly; decide +kernel
  read := by
    have hread : (introduced.client.findPeer introduced.server.device.address).map
        (fun peer => (peer.counters.last, peer.discovery)) =
          some (some 3, detailedDiscovery introduced.server.device) := by decide +kernel
    have hcurrent : ∀ peer ∈ introduced.client.findPeer introduced.server.device.address,
        Joined.UpToDate peer := by unfold Joined.UpToDate; decide +kernel
    obtain ⟨peer, hfound, heq⟩ := Option.map_eq_some_iff.mp hread
    rw [Prod.mk.injEq] at heq
    exact ⟨peer, 3, hfound, heq.1, by decide +kernel, heq.2, hcurrent peer hfound⟩
  quiescent := by unfold Joined.Quiescent; decide +kernel

/-- The heat pump gets a second appliance, which then gets a second feature, and loses the first
appliance. -/
def changes : List (TreeStep Schema.limitsOnly) :=
  [.addEntity (appliance [2] [loadControl]), .transmitDown, .deliverDown 0,
    .modifyEntity [2] [diagnosis, loadControl.withFunction (.known .loadControlLimitDescriptionListData)
      .readOnly], .removeEntity [1], .transmitDown, .transmitDown, .deliverDown 0, .deliverDown 0]

theorem tree_converges_changes : (Joined.machine.run introduced changes).Quiescent ∧
    (Joined.machine.run introduced changes).Converged := by
  have hquiescent : (Joined.machine.run introduced changes).Quiescent := by
    unfold Joined.Quiescent
    decide +kernel
  exact ⟨hquiescent, Joined.tree_converges introduced introduced_begins changes (by decide +kernel)
    changes (List.prefix_refl _) hquiescent⟩

/-- The appliance loses its diagnosis feature, and says so. -/
def loss : List (TreeStep Schema.limitsOnly) :=
  [.modifyEntity [1] [loadControl], .transmitDown, .deliverDown 0]

theorem features_of_shows {address : AddressDevice} {remote : List (RemoteEntity Schema.limitsOnly.Other)}
    {entities : List (LocalEntity Schema.limitsOnly)}
    (h : List.Forall₂ (Shows address) remote entities) :
    remote.map (fun r => r.features.length) = entities.map fun e => e.features.length := by
  induction h with
  | nil => rfl
  | cons hfirst _ ih =>
    have hlength := hfirst.2.2.length_eq
    rw [List.length_map, List.length_map] at hlength
    rw [List.map_cons, List.map_cons, hlength, ih]

/-- A feature that went stays on the client's record: the update names what is left of the entity,
and not what went. -/
theorem lost_feature_stays_on_record :
    introduced.Begins ∧ Joined.machine.Admits Joined.Sized introduced loss ∧
      (Joined.machine.run introduced loss).Quiescent ∧
      ¬ (Joined.machine.run introduced loss).Converged := by
  refine ⟨introduced_begins, by decide +kernel, ?_, ?_⟩
  · unfold Joined.Quiescent
    decide +kernel
  · rintro ⟨peer, hfound, hshows⟩
    have hlisted : (((Joined.machine.run introduced loss).client.findPeer
        (Joined.machine.run introduced loss).server.device.address).map fun peer =>
          peer.remote.entities.map fun r => r.features.length) = some [1, 2] := by decide +kernel
    have hleft : (Joined.machine.run introduced loss).server.device.entities.map
        (fun e => e.features.length) = [1, 1] := by decide +kernel
    rw [hfound, Option.map_some, features_of_shows hshows, hleft] at hlisted
    cases hlisted

end TreeScenario

end Eebus.Spine
