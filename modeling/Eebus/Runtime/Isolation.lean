import Eebus.Runtime.Hub

/-! No peer speaks for another. What arrives on a connection is taken for the device the connection
is bound to, so it leaves alone what the engine holds for every other device. A source that names no
device is taken for whoever the payload says, and two bounds cost a peer something all the same: a
device heard of for the first time takes the place of another once 32 are tracked, and a request made
when 64 are outstanding takes the place of the oldest. -/

namespace Eebus.Runtime

open Eebus.Library Eebus.Model Eebus.Spine
open Eebus.Ship (Ski)

variable {S : Schema}

/-- A datagram, and the connection it arrives on. -/
structure Delivery (S : Schema) where
  index : Nat
  datagram : Datagram S
  now : Nat

def receiver : Machine (Hub S) (Delivery S) (Option Disconnect) where
  step h d := h.receive d.index d.datagram d.now

/-- Asking one peer for something takes a place among the outstanding requests: the oldest give way. -/
def givesWay (e : Engine S) : List (Pending S) := e.pending.take (e.pending.length + 1 - maxPendingRequests)

theorem givesWay_subset {e e' : Engine S} (h : e'.pending.Sublist e.pending) :
    givesWay e' ⊆ givesWay e := by
  intro p hp
  rw [← List.take_append_drop (e.pending.length + 1 - maxPendingRequests) e.pending] at h
  obtain ⟨front, back, hsplit, hfront, hback⟩ := List.sublist_append_iff.mp h
  have hlength := hback.length_le
  rw [List.length_drop] at hlength
  have hshort : e'.pending.length + 1 - maxPendingRequests ≤ front.length := by
    rw [hsplit, List.length_append]
    simp only [maxPendingRequests] at hlength ⊢
    omega
  have htake : givesWay e' = front.take (e'.pending.length + 1 - maxPendingRequests) := by
    conv_lhs => rw [givesWay]
    generalize e'.pending.length + 1 - maxPendingRequests = k at hshort ⊢
    rw [hsplit, List.take_append_of_le_length hshort]
  rw [htake] at hp
  exact hfront.subset (List.mem_of_mem_take hp)

variable {device : AddressDevice} {datagram : Datagram S}

theorem subscribeToDiscovery_sameFor {peer : AddressDevice} (e : Engine S) (now : Nat)
    (h : peer ≠ device) (hgiven : ∀ p ∈ givesWay e, goesTo peer p = false) :
    SameFor peer e (e.subscribeToDiscovery device now).1 := by
  refine ⟨rfl, rfl, rfl, ?_, rfl⟩
  obtain ⟨p, hpending, hdestination, -⟩ := e.request_pending (nodeManagement e.device.address)
    (nodeManagement device) .call true (Cmd.withData ⟨.nodeManagementSubscriptionRequestCall,
      e.relationRequest (nodeManagement e.device.address) (nodeManagement device)⟩) now
  have hnew : goesTo peer p = false := by
    simpa [goesTo, hdestination, nodeManagement, featureAddress] using h.symm
  have hkept : (givesWay e).filter (goesTo peer) = [] :=
    List.filter_eq_nil_iff.mpr fun p hp => by simp [hgiven p hp]
  have hall : e.pending.filter (goesTo peer) =
      (e.pending.drop (e.pending.length + 1 - maxPendingRequests)).filter (goesTo peer) := by
    conv_lhs => rw [← List.take_append_drop (e.pending.length + 1 - maxPendingRequests) e.pending]
    rw [List.filter_append]
    exact congrArg (· ++ _) hkept
  have hsubscribe : (e.subscribeToDiscovery device now).1.pending =
      e.pending.drop (e.pending.length + 1 - maxPendingRequests) ++ [p] := hpending
  rw [hsubscribe, hall]
  simp [hnew]

namespace Hub

@[simp]
theorem settleBootstrap_engine (h : Hub S) (index : Nat) (datagram : Datagram S) :
    (h.settleBootstrap index datagram).engine = h.engine := by
  simp only [settleBootstrap]
  split <;> rfl

theorem announce_engine (h : Hub S) (index now : Nat) :
    (h.announce index now).engine = h.engine ∨
      ∃ device, h.links[index]?.bind Link.device = some device ∧
        (h.links[index]?.any fun link => !link.announced && link.bootstrap.isEmpty) = true ∧
        (h.announce index now).engine = (h.engine.subscribeToDiscovery device now).1 := by
  simp only [announce]
  split
  case h_1 => exact .inl rfl
  case h_2 link hlink =>
    split
    case h_1 => exact .inl rfl
    case h_2 device hdevice =>
      split
      case isTrue hdue => exact .inr ⟨device, by simp [hlink, hdevice], by simpa [hlink] using hdue, rfl⟩
      case isFalse => exact .inl rfl

def deviceAt (h : Hub S) (index : Nat) : Option AddressDevice := h.links[index]?.bind Link.device

theorem deviceAt_updateLink (h : Hub S) (index : Nat) {g : Link → Link}
    (hg : ∀ link, (g link).device = link.device) : (h.updateLink index g).deviceAt index =
      h.deviceAt index := by
  simp only [deviceAt, updateLink, List.getElem?_modify]
  cases h.links[index]? <;> simp [hg]

theorem deviceAt_settleBootstrap (h : Hub S) (index : Nat) (datagram : Datagram S) :
    (h.settleBootstrap index datagram).deviceAt index = h.deviceAt index := by
  simp only [settleBootstrap]
  split
  · rfl
  · exact h.deviceAt_updateLink index fun _ => rfl

theorem deviceAt_announce (h : Hub S) (index now : Nat) :
    (h.announce index now).deviceAt index = h.deviceAt index := by
  simp only [announce]
  repeat' split
  · rfl
  · rfl
  · exact h.deviceAt_updateLink index fun _ => rfl
  · rfl

theorem bindLink_eq_some {h h' : Hub S} {index : Nat}
    (hbind : h.bindLink index datagram = some h') : h'.engine = h.engine ∧
      ∀ device bound, sourceDevice datagram = some device → h'.deviceAt index = some bound →
        device = bound := by
  simp only [bindLink] at hbind
  split at hbind
  case h_1 hsource =>
    cases hbind
    exact ⟨rfl, by simp [hsource]⟩
  case h_2 device hsource =>
    split at hbind
    case h_1 bound hbound =>
      split at hbind
      · simp at hbind
      case isFalse hsame =>
        cases hbind
        refine ⟨rfl, fun device' bound' hdevice' hbound' => ?_⟩
        rw [hsource] at hdevice'
        cases hdevice'
        rw [deviceAt, hbound] at hbound'
        cases hbound'
        have heq : bound = device := by simpa using hsame
        exact heq.symm
    case h_2 hunbound =>
      split at hbind
      · simp at hbind
      · cases hbind
        refine ⟨rfl, fun device' bound' hdevice' hbound' => ?_⟩
        rw [hsource] at hdevice'
        cases hdevice'
        simp only [deviceAt, updateLink, List.getElem?_modify] at hbound'
        cases hlink : h.links[index]? with
        | none => simp [hlink] at hbound'
        | some link => simpa [hlink] using hbound'

theorem bindLink_cases {h h' : Hub S} {index : Nat}
    (hbind : h.bindLink index datagram = some h') :
    h' = h ∨ ∃ device, h' = h.updateLink index fun link => { link with device := some device } := by
  unfold bindLink at hbind
  repeat' split at hbind
  all_goals cases hbind
  · exact .inl rfl
  · exact .inl rfl
  · exact .inr ⟨_, rfl⟩

end Hub

def boundBy (h : Hub S) (d : Delivery S) : Option AddressDevice :=
  (h.deviceAt d.index).or (Hub.sourceDevice d.datagram)

def filedUnder (datagram : Datagram S) : Option AddressDevice :=
  ((datagram.header.bind Header.addressSource).bind FeatureAddress.device).or
    (datagram.commands.head?.bind Engine.describes)

/-- Whether the connection's peer has answered the opening reads with this datagram, and is to be
reported. -/
def announceDue (h : Hub S) (d : Delivery S) : Bool :=
  (h.settleBootstrap d.index d.datagram).links[d.index]?.any fun link =>
    !link.announced && link.bootstrap.isEmpty

theorem announceDue_bindLink {h h' : Hub S} {d : Delivery S}
    (hbind : h.bindLink d.index d.datagram = some h') : announceDue h' d = announceDue h d := by
  rcases Hub.bindLink_cases hbind with rfl | ⟨device, rfl⟩
  · rfl
  · simp only [announceDue, Hub.settleBootstrap]
    split <;> cases hlink : h.links[d.index]? <;> simp [Hub.updateLink, hlink]

theorem boundBy_of_next {h : Hub S} {d : Delivery S}
    (hbound : (receiver.next h d).deviceAt d.index = some device) : boundBy h d = some device := by
  simp only [Machine.next, receiver, Hub.receive] at hbound
  cases hbind : h.bindLink d.index d.datagram with
  | none =>
    simp only [hbind] at hbound
    simp [boundBy, hbound]
  | some h' =>
    simp only [hbind] at hbound
    rw [Hub.deviceAt_announce] at hbound
    have hbound' : h'.deviceAt d.index = some device := by
      rw [← hbound, ← Hub.deviceAt_settleBootstrap h' d.index d.datagram]
      rfl
    cases hat : h.deviceAt d.index with
    | some bound =>
      have hkept : h' = h := by
        unfold Hub.bindLink at hbind
        rw [Hub.deviceAt] at hat
        simp only [hat] at hbind
        repeat' split at hbind
        all_goals first | cases hbind; rfl | cases hbind
      rw [hkept, hat] at hbound'
      simp [boundBy, hat, Option.some.inj hbound']
    | none =>
      cases hsource : Hub.sourceDevice d.datagram with
      | none =>
        have hkept : h' = h := by
          unfold Hub.bindLink at hbind
          rw [hsource] at hbind
          exact (Option.some.inj hbind).symm
        rw [hkept, hat] at hbound'
        cases hbound'
      | some named =>
        simp [boundBy, hat, hsource, (Hub.bindLink_eq_some hbind).2 named device hsource hbound']

/-- The delivery stays within what its connection's device may do: where the source leaves the device
out, it acts for that device alone; nobody has to give way to it; and no other device's request has to
give way to what the hub asks it for. -/
structure StaysWithin (h : Hub S) (d : Delivery S) (device : AddressDevice) : Prop where
  own : ((d.datagram.header.bind Header.addressSource).any fun source => source.device.isNone) = true →
    Engine.actsForAnother device h.engine d.datagram = false
  tracked : filedUnder d.datagram = some device → h.engine.evictedFor device = none
  room : announceDue h d = true →
    ∀ p ∈ givesWay h.engine, p.destination.device.any (· != device) = false

instance (h : Hub S) (d : Delivery S) (device : AddressDevice) : Decidable (StaysWithin h d device) :=
  decidable_of_iff (_ ∧ _ ∧ _) ⟨fun ⟨own, tracked, room⟩ => ⟨own, tracked, room⟩,
    fun ⟨own, tracked, room⟩ => ⟨own, tracked, room⟩⟩

/-- The delivery stays within what the device its connection stands for may do. -/
def KeepsToItself (h : Hub S) (d : Delivery S) : Prop :=
  ∀ device ∈ boundBy h d, StaysWithin h d device

instance (h : Hub S) : DecidablePred (KeepsToItself h) :=
  fun d => inferInstanceAs (Decidable (∀ device ∈ boundBy h d, StaysWithin h d device))

/-- What a delivery does to what is held for another device than its connection's. -/
structure Isolated (peer : AddressDevice) (h : Hub S) (d : Delivery S) (h' : Hub S) : Prop where
  kept : SameFor peer h.engine h'.engine
  /-- No binding of the other device counts for a write of the sender's. -/
  unused : (h.receive d.index d.datagram d.now).2 = none → ∀ w, Admitted h.engine d.datagram w →
    w.feature.binding = .required → ∀ r ∈ h.engine.relations.bindings, grantedFor peer r = true →
      r.joins w.source w.destination = false

theorem sourceDevice_eq {source : FeatureAddress}
    (horigin : datagram.header.bind Header.addressSource = some source)
    (hsource : source.device = some device) (husable : isUsableDeviceAddress device = true) :
    Hub.sourceDevice datagram = some device := by
  simp [Hub.sourceDevice, horigin, hsource, husable]

theorem handleDatagram_unsourced {e : Engine S}
    (h : datagram.header.bind Header.addressSource = none) (now : Nat) :
    (e.handleDatagram datagram now).1 = e := by
  simp only [Engine.handleDatagram]
  split
  · rfl
  case h_2 header hheader =>
    have hsource : header.addressSource = none := by simpa [hheader] using h
    simp [hsource]

theorem handleDatagram_kept {h : Hub S} {d : Delivery S} {peer : AddressDevice}
    (hkeeps : StaysWithin h d device)
    (hsame : ∀ named, Hub.sourceDevice d.datagram = some named → named = device) (hpeer : peer ≠ device) :
    SameFor peer h.engine (h.engine.handleDatagram d.datagram d.now).1 := by
  cases horigin : d.datagram.header.bind Header.addressSource with
  | none =>
    rw [handleDatagram_unsourced horigin]
    exact SameFor.refl peer h.engine
  | some source =>
    cases hsource : source.device with
    | none =>
      refine h.engine.handleDatagram_unnamed d.now horigin hsource hpeer
        (hkeeps.own (by simp [horigin, hsource])) fun hdescribed => hkeeps.tracked ?_
      simp [filedUnder, horigin, hsource, hdescribed]
    | some named =>
      cases husable : isUsableDeviceAddress named with
      | true =>
        obtain rfl := hsame named (sourceDevice_eq horigin hsource husable)
        have hevicts := hkeeps.tracked (by simp [filedUnder, horigin, hsource])
        rcases h.engine.handleDatagram_sameFor d.now horigin hsource hpeer with hkept | hkept
        · exact hkept
        · rwa [hevicts] at hkept
      | false =>
        have huntrusted : h.engine.sourceTrusted source = false := by
          simp [Engine.sourceTrusted, hsource, husable]
        rw [Engine.handleDatagram_untrusted horigin huntrusted]
        exact SameFor.refl peer h.engine

theorem unused_of_staysWithin {h : Hub S} {d : Delivery S} {peer : AddressDevice}
    (hkeeps : StaysWithin h d device)
    (hsame : ∀ named, Hub.sourceDevice d.datagram = some named → named = device) (hpeer : peer ≠ device)
    {w : DatagramWrite S} (hw : Admitted h.engine d.datagram w) (hrequired : w.feature.binding = .required)
    {r : Relation} (hr : r ∈ h.engine.relations.bindings) (hgranted : grantedFor peer r = true) :
    r.joins w.source w.destination = false := by
  have horigin := hw.takenUp.origin
  cases hsource : w.source.device with
  | none =>
    have hown := hkeeps.own (by simp [horigin, hsource])
    obtain ⟨header, hheader, -, hclassifier, hheadSource, hheadDestination, -⟩ := hw.takenUp.header
    have hbeside := Engine.grantedBeside_of_grantedFor hpeer hgranted
    simp only [Engine.actsForAnother, hheader, hw.command, hclassifier, hw.isWrite, hheadSource,
      hheadDestination, Engine.writesForAnother, hw.resolved, Option.any_some, hrequired, decide_true,
      Bool.true_and, List.any_eq_false, Bool.and_eq_true] at hown
    simpa [hbeside] using hown r hr
  | some named =>
    have husable : isUsableDeviceAddress named = true := by
      have htrusted := hw.takenUp.trusted
      rw [Engine.sourceTrusted, hsource] at htrusted
      simp only [Option.all_some, Bool.and_eq_true] at htrusted
      exact htrusted.1
    obtain rfl := hsame named (sourceDevice_eq horigin hsource husable)
    exact Engine.not_joins hgranted hsource hpeer

theorem receive_isolated (h : Hub S) (d : Delivery S) {peer : AddressDevice}
    (hkeeps : StaysWithin h d device)
    (hbound : (receiver.next h d).deviceAt d.index = some device) (hpeer : peer ≠ device) :
    Isolated peer h d (receiver.next h d) := by
  simp only [Machine.next, receiver, Hub.receive] at hbound ⊢
  cases hbind : h.bindLink d.index d.datagram with
  | none =>
    refine ⟨SameFor.refl peer h.engine, fun hnone => ?_⟩
    simp [Hub.receive, hbind] at hnone
  | some h₁ =>
    obtain ⟨hengine, hsame⟩ := Hub.bindLink_eq_some hbind
    simp only [hbind] at hbound
    have hbound₁ : h₁.deviceAt d.index = some device := by
      rw [Hub.deviceAt_announce] at hbound
      rw [← hbound, ← Hub.deviceAt_settleBootstrap h₁ d.index d.datagram]
      rfl
    have hnamed : ∀ named, Hub.sourceDevice d.datagram = some named → named = device :=
      fun named hnamed => hsame named device hnamed hbound₁
    refine ⟨?_, fun _ w hw hrequired r hr => unused_of_staysWithin hkeeps hnamed hpeer hw hrequired hr⟩
    simp only [Hub.settleBootstrap_engine, hengine]
    refine (handleDatagram_kept hkeeps hnamed hpeer).trans ?_
    rcases Hub.announce_engine ({ h₁.settleBootstrap d.index d.datagram with
        engine := (h.engine.handleDatagram d.datagram d.now).1 } : Hub S) d.index d.now with
      hquiet | ⟨device', hdevice', hdue, hsubscribed⟩
    · rw [hquiet]
      exact SameFor.refl peer _
    · have heq : device' = device := by
        have hat := Hub.deviceAt_settleBootstrap h₁ d.index d.datagram
        rw [hbound₁] at hat
        exact Option.some.inj (hdevice'.symm.trans hat)
      rw [hsubscribed, heq]
      have hgiven := hkeeps.room ((announceDue_bindLink hbind).symm.trans hdue)
      refine subscribeToDiscovery_sameFor _ d.now hpeer fun p hp => ?_
      have hother := hgiven p (givesWay_subset (h.engine.handleDatagram_pending d.datagram d.now) hp)
      cases hgoes : p.destination.device with
      | none => simp [goesTo, hgoes]
      | some asked =>
        have heq : asked = device := by simpa [hgoes] using hother
        simpa [goesTo, hgoes, heq] using hpeer.symm

/-- No peer speaks for another: in a run whose deliveries keep to themselves, what the engine holds for
a device is left alone by what arrives on another's connection, and counts for no write of another's. -/
theorem no_peer_speaks_for_another (h : Hub S) (deliveries : List (Delivery S))
    (hrun : receiver.Admits KeepsToItself h deliveries) :
    ∀ before d, before ++ [d] <+: deliveries →
      ∀ device peer, (receiver.next (receiver.run h before) d).deviceAt d.index = some device →
        peer ≠ device →
        Isolated peer (receiver.run h before) d (receiver.next (receiver.run h before) d) := by
  intro before d hprefix device peer hbound hpeer
  obtain ⟨-, hkeeps, -⟩ := (receiver.admits_append _ before _).mp (receiver.admits_prefix hrun hprefix)
  exact receive_isolated _ d (hkeeps device (boundBy_of_next hbound)) hbound hpeer

/-- The address of the n-th of many appliances. -/
def appliance (n : Nat) : AddressDevice := String.ofList (List.replicate (n + 1) 'a')

/-- A gateway with a load control feature to write to, and `n` connections. -/
def gateway (n : Nat) : Hub Schema.limitsOnly :=
  (List.range n).foldl (fun h k => (h.adopt (.ofNat (k + 1)) .accepted 0).1)
    { Hub.new 0 (Engine.new (LocalDevice.withFeature "d:_i:1_Gateway"
        ((LocalFeature.new 1 .loadControl .server).withFunction (.known .loadControlLimitListData)
          .readWrite))) with
      maxConnections := 40 }

/-- A first sign of life from the n-th appliance, on the n-th connection. -/
def signOfLife (n : Nat) : Delivery Schema.limitsOnly where
  index := n
  datagram := ⟨some (Engine.header (nodeManagement (appliance n)) (nodeManagement "d:_i:1_Gateway") 1
    .notify false none), none⟩
  now := 0

/-- A call to the gateway on the n-th connection, from the node management of the given device. -/
def callFrom (n : Nat) (source : Option AddressDevice) (data : CmdData Schema.limitsOnly) :
    Delivery Schema.limitsOnly where
  index := n
  datagram := Datagram.carrying ⟨source, some [0], some 0⟩ (nodeManagement "d:_i:1_Gateway") .call 2
    (Cmd.withData data)
  now := 1

/-- The first appliance's client asks for a binding on the load control feature. -/
def binds : Delivery Schema.limitsOnly :=
  callFrom 0 (some (appliance 0)) ⟨.nodeManagementBindingRequestCall,
    ⟨some ⟨some (featureAddress (appliance 0) [1] 1), some (featureAddress "d:_i:1_Gateway" [1] 1),
      some .loadControl⟩⟩⟩

/-- The second appliance, leaving its device out, gives up a client's binding on that feature. -/
def releases (client : FeatureAddress) : Delivery Schema.limitsOnly :=
  callFrom 1 none ⟨.nodeManagementBindingDeleteCall,
    ⟨some ⟨some client, some (featureAddress "d:_i:1_Gateway" [1] 1)⟩⟩⟩

/-- The second appliance gives up a binding of its own, and the first one keeps what it was granted. -/
theorem no_peer_speaks_for_another_pair :
    let h := receiver.run (gateway 2) [binds, signOfLife 1]
    let own := releases ⟨none, some [2], some 1⟩
    receiver.Admits KeepsToItself (gateway 2) [binds, signOfLife 1, own] ∧
      (h.engine.relations.bindings.filter (grantedFor (appliance 0))).length = 1 ∧
      Isolated (appliance 0) h own (receiver.next h own) := by
  intro h own
  have hadmits : receiver.Admits KeepsToItself (gateway 2) [binds, signOfLife 1, own] := by decide +kernel
  exact ⟨hadmits, by decide +kernel, no_peer_speaks_for_another (gateway 2) _ hadmits [binds, signOfLife 1]
    own (List.prefix_refl _) (appliance 1) (appliance 0) (by decide +kernel) (by decide +kernel)⟩

/-- A delete call that leaves its source's device out, and names the other appliance's client, releases
the other appliance's binding. -/
theorem unnamed_source_releases_anothers_binding :
    let h := receiver.run (gateway 2) [binds, signOfLife 1]
    let h' := receiver.next h (releases (featureAddress (appliance 0) [1] 1))
    h'.deviceAt 1 = some (appliance 1) ∧ appliance 0 ≠ appliance 1 ∧
      (h.engine.relations.bindings.filter (grantedFor (appliance 0))).length = 1 ∧
      h'.engine.relations.bindings.filter (grantedFor (appliance 0)) = [] := by
  intro h h'
  refine ⟨by decide +kernel, by decide +kernel, by decide +kernel, ?_⟩
  rw [← List.length_eq_zero_iff]
  decide +kernel

/-- The first datagram of a 33rd appliance costs the first one its record, although it is still
connected. -/
example :
    let h := receiver.run (gateway 33) ((List.range 32).map signOfLife)
    let h' := receiver.next h (signOfLife 32)
    h'.deviceAt 32 = some (appliance 32) ∧ h'.deviceAt 0 = some (appliance 0) ∧
      h.engine.tracks (appliance 0) = true ∧ h'.engine.tracks (appliance 0) = false := by
  decide +kernel

end Eebus.Runtime
