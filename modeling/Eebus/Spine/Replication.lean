import Eebus.Spine.Growth
import Eebus.Spine.ServerSteps

/-!
A client that is subscribed to a feature of a server comes to hold what the feature holds: what is
still on its way to the client, taken in, makes its copy of a function what the server now stores.
-/

namespace Eebus.Spine

open Eebus.Library Eebus.Model

variable {S : Schema}

namespace Engine

/-- The merged state of one of a peer's functions, as far as this engine has seen it. -/
def remoteData (e : Engine S) (feature : FeatureAddress) (function : Function S.Other) :
    Option (CmdData S) := do
  let peer ← e.findPeer (← feature.device)
  if function = .known .nodeManagementDetailedDiscoveryData then
    some ⟨.nodeManagementDetailedDiscoveryData, peer.discovery⟩
  else if function = .known .nodeManagementUseCaseData then
    some ⟨.nodeManagementUseCaseData, peer.useCases⟩
  else
    (peer.data.find? fun held => sameFeature held.1 feature && decide (held.2.function = function)).map
      Prod.snd

/-- The operation leaves alone what is on record of the server, and does what the channel does not
do for it. -/
def SparesRecord (server : AddressDevice) (e : Engine S) : EngineOp S → Prop
  | .handleDatagram d _ => (originDevice d).any (fun device =>
      decide (device ≠ server) && decide (e.evictedFor device ≠ some server)) = true
  | .removePeer device => device ≠ server
  | .configure g => (g e.device).address = e.device.address
  | .pollTransmit => False
  | _ => True

variable {e : Engine S} {server : AddressDevice}

theorem findPeer_eq_head? (e : Engine S) (device : AddressDevice) :
    e.findPeer device = (e.peers.filter (Peer.isAt device)).head? := List.head?_filter.symm

theorem record_without {other : Option AddressDevice} (h : other ≠ some server) :
    (e.without other).peers.filter (Peer.isAt server) = e.peers.filter (Peer.isAt server) := by
  cases other with
  | none => rfl
  | some device =>
    simp only [without, removePeer, List.filter_filter]
    refine List.filter_congr fun peer _ => ?_
    cases hat : Peer.isAt server peer with
    | false => rfl
    | true =>
      have hother : Peer.isAt device peer = false := by
        simp only [Peer.isAt, beq_iff_eq] at hat
        simp only [Peer.isAt, hat, beq_eq_false_iff_ne, ne_eq, Option.some.injEq]
        exact fun heq => h (by rw [heq])
      simp [hother]

theorem perform_spares {op : EngineOp S} (h : SparesRecord server e op) :
    (e.perform op).findPeer server = e.findPeer server ∧
      (e.perform op).device.address = e.device.address := by
  refine ⟨?_, perform_address fun g hg => by subst hg; exact h⟩
  have hpeers : (e.perform op).peers = e.peers →
      (e.perform op).findPeer server = e.findPeer server := fun h => findPeer_congr h server
  cases op with
  | handleDatagram d now =>
    have hspared : (originDevice d).any (fun device =>
      decide (device ≠ server) && decide (e.evictedFor device ≠ some server)) = true := h
    cases horigin : originDevice d with
    | none =>
      rw [horigin] at hspared
      cases hspared
    | some device =>
      simp only [horigin, Option.any_some, Bool.and_eq_true, decide_eq_true_eq] at hspared
      obtain ⟨hdevice, hevicted⟩ := hspared
      obtain ⟨source, hsource, hdeviceSource⟩ := Option.bind_eq_some_iff.mp horigin
      rw [findPeer_eq_head?, findPeer_eq_head?]
      refine congrArg List.head? ?_
      rcases e.handleDatagram_sameFor now hsource hdeviceSource (Ne.symm hdevice) with hsame | hsame
      · exact hsame.record
      · exact hsame.record.trans (record_without hevicted)
  | handleTimeout now =>
    exact hpeers (e.handleTimeout_frame now).2.1
  | finishWrite token replacement =>
    obtain ⟨said, -, hbooks⟩ := e.finishWrite_books token replacement
    exact hpeers hbooks.peers
  | rejectWrite token error => exact hpeers (e.rejectWrite_books token error).peers
  | removePeer device =>
    rw [findPeer_eq_head?, findPeer_eq_head?]
    have hother : some device ≠ some server := fun heq => h (Option.some.inj heq)
    exact congrArg List.head? (record_without hother)
  | pollTransmit => exact h.elim
  | readFiltered | writeFiltered | requestBinding | requestSubscription | pollEvent => exact hpeers rfl
  | _ => exact hpeers (SameBooks.peers (e.books_local rfl))

end Engine

/-- What either engine does, and what the channels do. -/
inductive JoinedStep (S : Schema)
  | server (op : EngineOp S)
  | client (op : EngineOp S)
  | transmitDown
  | deliverDown (now : Nat)
  | transmitUp
  | deliverUp (now : Nat)

variable {key : Key S.Other}

namespace Joined

def act (s : Joined S) : JoinedStep S → Joined S
  | .server op => { s with server := s.server.perform op }
  | .client op => { s with client := s.client.perform op }
  | .transmitDown => s.transmitDown
  | .deliverDown now => s.deliverDown now
  | .transmitUp => s.transmitUp
  | .deliverUp now => s.deliverUp now

def network : Machine (Joined S) (JoinedStep S) Unit where
  step s step := (s.act step, ())

def bound (s : Joined S) : List (Datagram S) :=
  s.down ++ s.server.outbox.filter (Datagram.isFor s.client.device.address)

/-- The step meets the condition: the server's operation is proper, the client's spares what is on
record of the server, and the server's counter does not wrap. -/
def Fair (feature : FeatureAddress) (s : Joined S) (step : JoinedStep S) : Prop :=
  (match step with
    | .server op => Engine.Proper s.client.device.address feature s.server op
    | .client op => Engine.SparesRecord s.server.device.address s.client op
    | .deliverUp now => ∀ d ∈ s.up.head?,
        Engine.Proper s.client.device.address feature s.server (.handleDatagram d now)
    | _ => True) ∧
  s.server.counters.toNat + ((s.act step).server.outbox.length - s.server.outbox.length) < 2 ^ 64

def short (feature : FeatureAddress) (device : LocalDevice S) : Bool :=
  (device.resolve feature).all fun f => f.functions.all fun entry =>
    entry.data.all fun value => decide (value.entryCount ≤ maxListEntries)

/-- What is sent to the client is about these functions only, and no list is too long. -/
def Within (rows : List (List Nat × Option Nat × Key S.Other)) (feature : FeatureAddress)
    (s : Joined S) : Prop :=
  (∀ d ∈ s.bound, ∀ row ∈ Datagram.row d, row ∈ rows) ∧ short feature s.server.device = true

theorem short_data {feature : FeatureAddress} {device : LocalDevice S}
    (h : short feature device = true) {function : Function S.Other} {value : CmdData S}
    (hvalue : device.data feature function = some value) : value.entryCount ≤ maxListEntries := by
  obtain ⟨f, hf, hdata⟩ := Option.bind_eq_some_iff.mp hvalue
  obtain ⟨entry, hentry, hstored⟩ := Option.bind_eq_some_iff.mp hdata
  rw [short, hf, Option.all_some, List.all_eq_true] at h
  have hshort := h entry (List.mem_of_find?_eq_some hentry)
  rw [hstored, Option.all_some] at hshort
  exact of_decide_eq_true hshort

/-- The server speaks to the client in order, of few functions, under its own address. -/
structure Linked (rows : List (List Nat × Option Nat × Key S.Other)) (feature : FeatureAddress)
    (s : Joined S) : Prop where
  usable : isUsableDeviceAddress s.server.device.address = true
  other : s.server.device.address ≠ s.client.device.address
  ours : feature.device = some s.server.device.address
  ordered : Ascending (s.client.peerAt s.server.device.address).counters.last s.bound
    s.server.counters
  own : ∀ d ∈ s.bound, Datagram.IsFrom s.server.device.address d
  addressed : ∀ d ∈ s.bound, Datagram.isFor s.client.device.address d = true
  listed : ∀ d ∈ s.bound, ∀ row ∈ Datagram.row d, row ∈ rows
  kept : WellKept s.server.device.address rows (s.client.peerAt s.server.device.address).data
  asks : s.server.AsksItself

/-- What the client remembers of a function, with what is on its way taken in, is what the server
stores. -/
def Knows (feature : FeatureAddress) (key : Key S.Other) (s : Joined S) : Prop :=
  ∃ value, s.server.device.data feature (.known key) = some value ∧
    s.bound.foldl (hear (featureRow feature key))
      (recalled (featureRow feature key) (s.client.peerAt s.server.device.address).data) = some value

theorem recall_key {row : List Nat × Option Nat × Key S.Other}
    {table : List (FeatureAddress × CmdData S)} :
    ∀ v, recalled row table = some v → v.key = row.2.2 := by
  intro v hv
  obtain ⟨held, hheld, rfl⟩ := Option.map_eq_some_iff.mp hv
  have hrow : rowOf held = row := hasKey_iff.mp (List.find?_some hheld)
  rw [← hrow]
  rfl

section Server

variable {rows : List (List Nat × Option Nat × Key S.Other)} {feature : FeatureAddress}
  {s : Joined S} {e' : Engine S}

theorem Linked.speak (h : s.Linked rows feature)
    (hspeaks : Speaks (Honest s.client.device.address feature e'.device) s.server e')
    (haddress : e'.device.address = s.server.device.address) (hasks : e'.AsksItself)
    (hroom : s.server.counters.toNat + (e'.outbox.length - s.server.outbox.length) < 2 ^ 64)
    (hwithin : ({ s with server := e' } : Joined S).Within rows feature) :
    ({ s with server := e' } : Joined S).Linked rows feature := by
  obtain ⟨sent, houtbox, hnumbered, hhonest⟩ := hspeaks
  have hbound : ({ s with server := e' } : Joined S).bound =
      s.bound ++ sent.filter (Datagram.isFor s.client.device.address) := by
    simp only [bound, houtbox, List.filter_append, List.append_assoc]
  rw [houtbox, List.length_append, Nat.add_sub_cancel_left] at hroom
  refine ⟨haddress.symm ▸ h.usable, haddress.symm ▸ h.other, haddress.symm ▸ h.ours, ?_, ?_, ?_,
    hwithin.1, haddress.symm ▸ h.kept, hasks⟩
  · rw [hbound]
    dsimp only
    rw [haddress]
    exact h.ordered.append fun last hlast => hnumbered.ascending hroom _ hlast
  · intro d hd
    rw [hbound] at hd
    cases List.mem_append.mp hd with
    | inl hmem => exact haddress.symm ▸ h.own d hmem
    | inr hmem => exact (hhonest d (List.mem_of_mem_filter hmem)).1
  · intro d hd
    rw [hbound] at hd
    cases List.mem_append.mp hd with
    | inl hmem => exact h.addressed d hmem
    | inr hmem => exact (List.mem_filter.mp hmem).2

theorem Knows.speak {value' : CmdData S}
    (hspeaks : Speaks (Honest s.client.device.address feature e'.device) s.server e')
    (haddress : e'.device.address = s.server.device.address)
    (hshort : short feature e'.device = true)
    (hvalue' : e'.device.data feature (.known key) = some value')
    (h : s.bound.foldl (hear (featureRow feature key)) (recalled (featureRow feature key)
        (s.client.peerAt s.server.device.address).data) = some value' ∨
      (value'.entryCount ≤ maxListEntries →
        Announces s.client.device.address feature key value' s.server e')) :
    ({ s with server := e' } : Joined S).Knows feature key := by
  obtain ⟨sent, houtbox, -, hhonest⟩ := hspeaks
  have hbound : ({ s with server := e' } : Joined S).bound =
      s.bound ++ sent.filter (Datagram.isFor s.client.device.address) := by
    simp only [bound, houtbox, List.filter_append, List.append_assoc]
  have hlength := short_data hshort hvalue'
  refine ⟨value', hvalue', ?_⟩
  rw [hbound, List.foldl_append]
  dsimp only
  rw [haddress]
  let ofKey := fun held : Option (CmdData S) => ∀ v, held = some v → v.key = key
  have hstep : ∀ held d, ofKey held → ofKey (hear (featureRow feature key) held d) :=
    fun held d hheld => hear_key d hheld
  refine foldl_settles hstep _ (fun d hd => ?_) (foldl_preserves hstep s.bound recall_key) ?_
  · obtain ⟨hmem, hfor⟩ := List.mem_filter.mp hd
    exact (hhonest d hmem).2 hfor key value' hvalue' hlength
  · refine h.imp_right fun hannounces => ?_
    obtain ⟨sent', houtbox', d, hd, hfor, hheard⟩ := hannounces hlength
    obtain rfl : sent' = sent := List.append_cancel_left (houtbox'.symm.trans houtbox)
    exact ⟨d, List.mem_filter.mpr ⟨hd, hfor⟩, hheard⟩

end Server

section Step

variable {rows : List (List Nat × Option Nat × Key S.Other)} {feature : FeatureAddress}
  {s s' : Joined S}

/-- What the client has on record of the server, what is on its way, and the server's own part are
the same. -/
structure Alike (s s' : Joined S) : Prop where
  bound : s'.bound = s.bound
  address : s'.client.device.address = s.client.device.address
  record : s'.client.peerAt s.server.device.address = s.client.peerAt s.server.device.address
  device : s'.server.device = s.server.device
  counters : s'.server.counters = s.server.counters
  pending : s'.server.pending = s.server.pending
  relations : s'.server.relations = s.server.relations

theorem Linked.alike (h : s.Linked rows feature) (hsame : Alike s s') : s'.Linked rows feature := by
  obtain ⟨hbound, haddress, hrecord, hdevice, hcounters, hpending, -⟩ := hsame
  refine ⟨?_, ?_, ?_, ?_, ?_, ?_, ?_, ?_, ?_⟩
  · rw [hdevice]
    exact h.usable
  · rw [hdevice, haddress]
    exact h.other
  · rw [hdevice]
    exact h.ours
  · rw [hdevice, hrecord, hbound, hcounters]
    exact h.ordered
  · rw [hbound, hdevice]
    exact h.own
  · rw [hbound, haddress]
    exact h.addressed
  · rw [hbound]
    exact h.listed
  · rw [hdevice, hrecord]
    exact h.kept
  · intro p hp
    rw [hdevice]
    exact h.asks p (hpending ▸ hp)

theorem Knows.alike (h : s.Knows feature key) (hsame : Alike s s') : s'.Knows feature key := by
  obtain ⟨value, hvalue, hheard⟩ := h
  refine ⟨value, by rw [hsame.device]; exact hvalue, ?_⟩
  rw [hsame.device, hsame.record, hsame.bound]
  exact hheard

theorem alike_client {op : EngineOp S}
    (h : Engine.SparesRecord s.server.device.address s.client op) : Alike s (s.act (.client op)) := by
  obtain ⟨hfound, haddress⟩ := Engine.perform_spares h
  refine ⟨?_, haddress, ?_, rfl, rfl, rfl, rfl⟩
  · simp only [bound, act, haddress]
  · simp only [act, Engine.peerAt, hfound]

theorem alike_transmitDown (s : Joined S) : Alike s s.transmitDown := by
  unfold Joined.transmitDown
  split
  · exact ⟨rfl, rfl, rfl, rfl, rfl, rfl, rfl⟩
  case h_2 d rest houtbox =>
    refine ⟨?_, rfl, rfl, rfl, rfl, rfl, rfl⟩
    simp only [bound, houtbox]
    split
    case isTrue hfor => rw [List.filter_cons_of_pos hfor, List.append_assoc, List.singleton_append]
    case isFalse hfor => rw [List.filter_cons_of_neg hfor]

theorem alike_transmitUp (s : Joined S) : Alike s s.transmitUp := by
  unfold Joined.transmitUp
  split <;> exact ⟨rfl, rfl, rfl, rfl, rfl, rfl, rfl⟩

theorem deliverDown_hears (h : s.Linked rows feature) {d : Datagram S} {rest : List (Datagram S)}
    (hdown : s.down = d :: rest) (now : Nat) :
    ∃ peer : Peer S, ∃ counter, Datagram.counter d = some counter ∧
      peer.data = (s.client.peerAt s.server.device.address).data ∧
      peer.counters.last = some counter ∧
      (s.client.handleDatagram d now).1.peerAt s.server.device.address = peer.heard d ∧
      s.bound = d :: (rest ++ s.server.outbox.filter (Datagram.isFor s.client.device.address)) ∧
      Ascending (some counter) (rest ++ s.server.outbox.filter
        (Datagram.isFor s.client.device.address)) s.server.counters := by
  have hbound : s.bound =
      d :: (rest ++ s.server.outbox.filter (Datagram.isFor s.client.device.address)) := by
    simp only [bound, hdown, List.cons_append]
  have hordered := h.ordered
  have hown := h.own d (by rw [hbound]; exact List.mem_cons_self)
  have hfor := h.addressed d (by rw [hbound]; exact List.mem_cons_self)
  rw [hbound] at hordered
  obtain ⟨counter, hcounter, hfresh, hrest⟩ := hordered
  obtain ⟨peer, hdata, hlast, hfound⟩ := Engine.handleDatagram_heard h.usable h.other hown hfor hcounter
    hfresh now
  exact ⟨peer, counter, hcounter, hdata, hlast, Engine.peerAt_of_found hfound, hbound, hrest⟩

theorem Linked.deliverDown (h : s.Linked rows feature) (hrows : rows.length ≤ maxRemoteFunctions)
    (now : Nat) : (s.deliverDown now).Linked rows feature := by
  unfold Joined.deliverDown
  split
  · exact h
  case h_2 d rest hdown =>
    obtain ⟨peer, counter, hcounter, hdata, hlast, hpeer, hbound, hrest⟩ := deliverDown_hears h hdown now
    have haddress := Engine.handleDatagram_address s.client d now
    have hmem : ∀ d' ∈ rest ++ s.server.outbox.filter (Datagram.isFor s.client.device.address),
        d' ∈ s.bound := fun d' hd' => by rw [hbound]; exact List.mem_cons_of_mem d hd'
    have hhead : d ∈ s.bound := by rw [hbound]; exact List.mem_cons_self
    have hkept : WellKept s.server.device.address rows peer.data := hdata.symm ▸ h.kept
    refine ⟨h.usable, ?_, h.ours, ?_, ?_, ?_, ?_, ?_, h.asks⟩
    · rw [haddress]
      exact h.other
    · simp only [bound, haddress]
      rw [hpeer, peer.heard_counters, hlast]
      exact hrest
    · simp only [bound, haddress]
      exact fun d' hd' => h.own d' (hmem d' hd')
    · simp only [bound, haddress]
      exact fun d' hd' => h.addressed d' (hmem d' hd')
    · simp only [bound, haddress]
      exact fun d' hd' => h.listed d' (hmem d' hd')
    · dsimp only
      rw [hpeer]
      exact (hkept.heard hrows (h.own d hhead) (h.listed d hhead)).1

theorem Knows.deliverDown (hknows : s.Knows feature key)
    (h : s.Linked rows feature) (hrows : rows.length ≤ maxRemoteFunctions)
    (hkey : isDocument key = false) (now : Nat) : (s.deliverDown now).Knows feature key := by
  unfold Joined.deliverDown
  split
  · exact hknows
  case h_2 d rest hdown =>
    obtain ⟨peer, counter, hcounter, hdata, hlast, hpeer, hbound, hrest⟩ := deliverDown_hears h hdown now
    have hhead : d ∈ s.bound := by rw [hbound]; exact List.mem_cons_self
    have hkept : WellKept s.server.device.address rows peer.data := hdata.symm ▸ h.kept
    obtain ⟨value, hvalue, hheard⟩ := hknows
    refine ⟨value, hvalue, ?_⟩
    have hrecall := (hkept.heard hrows (h.own d hhead) (h.listed d hhead)).2 (featureRow feature key) hkey
    rw [hbound, List.foldl_cons, ← hdata, ← hrecall] at hheard
    simp only [bound, Engine.handleDatagram_address]
    rw [hpeer]
    exact hheard

theorem Linked.perform (h : s.Linked rows feature) (hnode : isNodeManagement feature = false)
    {op : EngineOp S} (hproper : Engine.Proper s.client.device.address feature s.server op)
    (hroom : s.server.counters.toNat +
      ((s.server.perform op).outbox.length - s.server.outbox.length) < 2 ^ 64)
    (hwithin : ({ s with server := s.server.perform op } : Joined S).Within rows feature) :
    ({ s with server := s.server.perform op } : Joined S).Linked rows feature :=
  h.speak (Engine.honest_perform h.ours hnode h.asks hproper)
    (Engine.perform_address fun g hg => by subst hg; exact hproper) (Engine.asks_perform h.asks hproper)
    hroom hwithin

theorem Knows.perform (hknows : s.Knows feature key) (h : s.Linked rows feature)
    (hnode : isNodeManagement feature = false) {op : EngineOp S}
    (hproper : Engine.Proper s.client.device.address feature s.server op)
    (hundisturbed : Engine.Undisturbed feature key s.server op)
    (hsubscribed : Subscribed s.client.device.address feature (s.server.perform op).relations)
    (hwithin : ({ s with server := s.server.perform op } : Joined S).Within rows feature) :
    ({ s with server := s.server.perform op } : Joined S).Knows feature key := by
  obtain ⟨value, hvalue, hheard⟩ := hknows
  obtain ⟨value', hvalue', htold⟩ :=
    Engine.tells_perform h.ours hnode hproper hundisturbed hsubscribed hvalue
  refine Knows.speak (Engine.honest_perform h.ours hnode h.asks hproper)
    (Engine.perform_address fun g hg => by subst hg; exact hproper) hwithin.2 hvalue' ?_
  exact htold.imp_left fun heq => by rw [heq]; exact hheard

theorem act_deliverUp {now : Nat} {d : Datagram S} {rest : List (Datagram S)} (hup : s.up = d :: rest) :
    s.act (.deliverUp now) =
      { s with server := s.server.perform (.handleDatagram d now), up := rest } := by
  simp only [act, Joined.deliverUp, hup]
  rfl

theorem Linked.act (h : s.Linked rows feature) (hnode : isNodeManagement feature = false)
    (hrows : rows.length ≤ maxRemoteFunctions) {step : JoinedStep S} (hfair : s.Fair feature step)
    (hwithin : (s.act step).Within rows feature) : (s.act step).Linked rows feature := by
  obtain ⟨hfair, hroom⟩ := hfair
  cases step with
  | server op => exact h.perform hnode hfair hroom hwithin
  | client op => exact h.alike (alike_client hfair)
  | transmitDown => exact h.alike s.alike_transmitDown
  | deliverDown now => exact h.deliverDown hrows now
  | transmitUp => exact h.alike s.alike_transmitUp
  | deliverUp now =>
    cases hup : s.up with
    | nil =>
      have hidle : s.act (.deliverUp now) = s := by simp only [Joined.act, Joined.deliverUp, hup]
      rw [hidle]
      exact h
    | cons d rest =>
      rw [act_deliverUp hup] at hroom hwithin ⊢
      have hserved := h.perform hnode (hfair d (by simp [hup])) hroom hwithin
      exact hserved.alike ⟨rfl, rfl, rfl, rfl, rfl, rfl, rfl⟩

/-- The application leaves the function alone. -/
def Still (feature : FeatureAddress) (key : Key S.Other) (s : Joined S) : JoinedStep S → Prop
  | .server op => Engine.Undisturbed feature key s.server op
  | _ => True

theorem Knows.act (hknows : s.Knows feature key) (h : s.Linked rows feature)
    (hnode : isNodeManagement feature = false) (hrows : rows.length ≤ maxRemoteFunctions)
    (hkey : isDocument key = false) {step : JoinedStep S} (hfair : s.Fair feature step)
    (hwithin : (s.act step).Within rows feature) (hstill : s.Still feature key step)
    (hsubscribed : Subscribed s.client.device.address feature (s.act step).server.relations) :
    (s.act step).Knows feature key := by
  obtain ⟨hfair, -⟩ := hfair
  cases step with
  | server op => exact hknows.perform h hnode hfair hstill hsubscribed hwithin
  | client op => exact hknows.alike (alike_client hfair)
  | transmitDown => exact hknows.alike s.alike_transmitDown
  | deliverDown now => exact hknows.deliverDown h hrows hkey now
  | transmitUp => exact hknows.alike s.alike_transmitUp
  | deliverUp now =>
    cases hup : s.up with
    | nil =>
      have hidle : s.act (.deliverUp now) = s := by simp only [Joined.act, Joined.deliverUp, hup]
      rw [hidle]
      exact hknows
    | cons d rest =>
      rw [act_deliverUp hup] at hwithin hsubscribed ⊢
      have hserved := hknows.perform h hnode (hfair d (by simp [hup])) trivial hsubscribed hwithin
      exact hserved.alike ⟨rfl, rfl, rfl, rfl, rfl, rfl, rfl⟩

end Step

/-- Nothing is on its way, what the client has on record of the server it has had from it under
lower counters, and the server waits for no answer but to its own requests. -/
structure Started (rows : List (List Nat × Option Nat × Key S.Other)) (feature : FeatureAddress)
    (s : Joined S) : Prop where
  usable : isUsableDeviceAddress s.server.device.address = true
  other : s.server.device.address ≠ s.client.device.address
  ours : feature.device = some s.server.device.address
  quiescent : s.Quiescent
  numbered : ∀ last, (s.client.peerAt s.server.device.address).counters.last = some last →
    last < s.server.counters
  kept : WellKept s.server.device.address rows (s.client.peerAt s.server.device.address).data
  asks : s.server.AsksItself

section Runs

variable {rows : List (List Nat × Option Nat × Key S.Other)} {feature : FeatureAddress}
  {s : Joined S}

theorem bound_quiescent (h : s.Quiescent) : s.bound = [] := by
  simp [bound, h.1, h.2.2.1]

theorem Started.linked (h : s.Started rows feature) : s.Linked rows feature := by
  have hbound := bound_quiescent h.quiescent
  refine ⟨h.usable, h.other, h.ours, ?_, ?_, ?_, ?_, h.kept, h.asks⟩
  · rw [hbound]
    exact h.numbered
  all_goals
    rw [hbound]
    simp

theorem Knows.remoteData (hknows : s.Knows feature key)
    (h : s.Linked rows feature) (hkey : isDocument key = false) (hquiescent : s.Quiescent) :
    s.client.remoteData feature (.known key) = s.server.device.data feature (.known key) := by
  obtain ⟨value, hvalue, hheard⟩ := hknows
  rw [bound_quiescent hquiescent, List.foldl_nil] at hheard
  simp only [isDocument, Bool.or_eq_false_iff, decide_eq_false_iff_not] at hkey
  cases hfound : s.client.findPeer s.server.device.address with
  | none =>
    have hnone : s.client.peerAt s.server.device.address = Peer.new s.server.device.address := by
      simp [Engine.peerAt, hfound]
    rw [hnone] at hheard
    cases hheard
  | some peer =>
    have hkept := h.kept
    rw [Engine.peerAt_of_found hfound] at hheard hkept
    have hcongr : ∀ held ∈ peer.data,
        (sameFeature held.1 feature && decide (held.2.function = Function.known key)) =
          hasKey rowOf (featureRow feature key) held := by
      intro held hmem
      have hown := hkept.own held hmem
      rw [Bool.eq_iff_iff, hasKey_iff, Bool.and_eq_true, decide_eq_true_eq, sameFeature, devicesAgree,
        hown, h.ours]
      simp [rowOf, slot, featureRow, CmdData.function, and_assoc]
    have hrecall : (peer.data.find? fun held =>
        sameFeature held.1 feature && decide (held.2.function = Function.known key)).map Prod.snd =
          some value := by
      rw [← hheard, recalled, ← List.head?_filter, List.filter_congr hcongr, List.head?_filter]
    rw [hvalue, ← hrecall]
    simp [Engine.remoteData, h.ours, hfound, hkey.1, hkey.2]

theorem Linked.notified (h : s.Linked rows feature) (hnode : isNodeManagement feature = false)
    {a : FeatureAddress} (ha : sameFeature a feature = true)
    (hfair : s.Fair feature (.server (.notify a (.known key))))
    (hwithin : (s.act (.server (.notify a (.known key)))).Within rows feature)
    (hstored : (s.server.device.data feature (.known key)).isSome = true)
    (hsubscribed : Subscribed s.client.device.address feature
      (s.act (.server (.notify a (.known key)))).server.relations) :
    (s.act (.server (.notify a (.known key)))).Knows feature key := by
  obtain ⟨value, hvalue⟩ := Option.isSome_iff_exists.mp hstored
  have hsends := Engine.sends_notify s.server a (.known key)
  have hrelations : (s.act (.server (.notify a (.known key)))).server.relations = s.server.relations :=
    hsends.relations
  have hdevice : (s.server.perform (.notify a (.known key))).device = s.server.device := hsends.device
  rw [hrelations] at hsubscribed
  simp only [sameFeature, Bool.and_eq_true, beq_iff_eq] at ha
  refine Knows.speak (Engine.honest_perform h.ours hnode h.asks hfair.1) (by rw [hdevice]) hwithin.2
    (by rw [hdevice]; exact hvalue) (.inr fun hshort => ?_)
  exact Engine.notify_announces h.ours hnode hfair.1 ha.1.2 ha.2 hsubscribed hvalue hshort

/-- In every run whose steps meet the condition: once everything has arrived, the client's copy of a
function that was notified while the client was subscribed, and that the application has left alone
since, is what the server stores. -/
theorem replica_agrees (hrows : rows.length ≤ maxRemoteFunctions)
    (hnode : isNodeManagement feature = false) {key : Key S.Other} (hkey : isDocument key = false)
    (s : Joined S) (hstarted : s.Started rows feature) {a : FeatureAddress}
    (ha : sameFeature a feature = true) (before after : List (JoinedStep S))
    (hrun : network.Admits
      (fun s step => s.Fair feature step ∧ (s.act step).Within rows feature) s
      (before ++ .server (.notify a (.known key)) :: after))
    (hstored : ((network.run s before).server.device.data feature (.known key)).isSome = true)
    (hsince : network.Admits (fun s step => s.Still feature key step ∧
        Subscribed s.client.device.address feature (s.act step).server.relations)
      (network.run s before) (.server (.notify a (.known key)) :: after))
    (hquiescent : (network.run s
      (before ++ .server (.notify a (.known key)) :: after)).Quiescent) :
    (network.run s (before ++ .server (.notify a (.known key)) :: after)).client.remoteData feature
        (.known key) =
      (network.run s (before ++ .server (.notify a (.known key)) :: after)).server.device.data feature
        (.known key) := by
  obtain ⟨hbefore, hnotify, hafter⟩ := (network.admits_append s before _).mp hrun
  obtain ⟨hnotified, hlater⟩ := hsince
  rw [network.run_append, network.run_cons] at hquiescent ⊢
  have hlinked := network.run_invariant _ (Linked rows feature)
    (fun s step h hstep => h.act hnode hrows hstep.1 hstep.2) before s hstarted.linked hbefore
  have hlinked' := hlinked.act hnode hrows hnotify.1 hnotify.2
  have hknows' := hlinked.notified hnode ha hnotify.1 hnotify.2 hstored hnotified.2
  have hend := network.run_invariant
    (fun s step => (s.Fair feature step ∧ (s.act step).Within rows feature) ∧
      s.Still feature key step ∧
        Subscribed s.client.device.address feature (s.act step).server.relations)
    (fun s => s.Linked rows feature ∧ s.Knows feature key)
    (fun s step h hstep => ⟨h.1.act hnode hrows hstep.1.1 hstep.1.2,
      h.2.act h.1 hnode hrows hkey hstep.1.1 hstep.1.2 hstep.2.1 hstep.2.2⟩)
    after _ ⟨hlinked', hknows'⟩ (network.admits_and hafter hlater)
  exact hend.2.remoteData hend.1 hkey hquiescent

end Runs

def plainDatagram (client : AddressDevice) (feature : FeatureAddress) (e : Engine S) (d : Datagram S) :
    Bool :=
  readsBack client feature e d && (d.commands.all fun cmd => (WriteOps.of cmd).deletes.isEmpty) &&
    (d.header.bind Header.addressDestination).all fun destination => destination.device.isSome

theorem proper_of_plain {client : AddressDevice} {feature : FeatureAddress} {e : Engine S}
    {d : Datagram S} (h : plainDatagram client feature e d = true) (now : Nat) :
    Engine.Proper client feature e (.handleDatagram d now) := by
  simp only [plainDatagram, Bool.and_eq_true] at h
  obtain ⟨⟨hback, hplain⟩, hnamed⟩ := h
  refine ⟨hback, fun w hw => ⟨?_, ?_⟩⟩
  · obtain ⟨header, hheader, -, -, -, hdestination, -⟩ := hw.admitted.takenUp.header
    simpa [hheader, hdestination] using hnamed
  · rintro ⟨entry, stored, hcut⟩
    have hdeletes : w.ops.deletes = [] := by
      rw [hw.admitted.command, List.all_cons, List.all_nil, Bool.and_true] at hplain
      exact List.isEmpty_iff.mp hplain
    obtain ⟨step, hstep, -⟩ := hcut.deleted
    simp [WriteOps.deleteSteps, hdeletes] at hstep

def plain (feature : FeatureAddress) (s : Joined S) (step : JoinedStep S) : Bool :=
  (match step with
    | .server (.handleDatagram d _) => plainDatagram s.client.device.address feature s.server d
    | .server (.notify a _) => decide (a.device = some s.server.device.address)
    | .server (.configure g) => decide ((g s.server.device).address = s.server.device.address)
    | .client (.readFiltered _ _ _ _ _) => true
    | .client (.requestSubscription _ _ _) => true
    | .deliverUp _ => s.up.head?.all fun d =>
        plainDatagram s.client.device.address feature s.server d
    | .transmitDown | .deliverDown _ | .transmitUp => true
    | _ => false) &&
  decide (s.server.counters.toNat +
    ((s.act step).server.outbox.length - s.server.outbox.length) < 2 ^ 64)

theorem fair_of_plain {feature : FeatureAddress} {s : Joined S} {step : JoinedStep S}
    (h : s.plain feature step = true) : s.Fair feature step := by
  unfold plain at h
  obtain ⟨h, hroom⟩ := Bool.and_eq_true_iff.mp h
  refine ⟨?_, of_decide_eq_true hroom⟩
  cases step with
  | server op =>
    cases op with
    | handleDatagram d now => exact proper_of_plain h now
    | notify a function =>
      have hdevice : a.device = some s.server.device.address := by simpa using h
      exact hdevice
    | configure g =>
      have haddress : (g s.server.device).address = s.server.device.address := by simpa using h
      exact haddress
    | _ => cases h
  | client op =>
    cases op with
    | readFiltered destination source function filters now => exact trivial
    | requestSubscription c d now => exact trivial
    | _ => cases h
  | transmitDown => exact trivial
  | deliverDown now => exact trivial
  | transmitUp => exact trivial
  | deliverUp now =>
    intro d hd
    rw [Option.mem_def] at hd
    have hplain : plainDatagram s.client.device.address feature s.server d = true := by
      simpa [hd] using h
    exact proper_of_plain hplain now

instance (rows : List (List Nat × Option Nat × Key S.Other)) (feature : FeatureAddress)
    (s : Joined S) : Decidable (s.Within rows feature) :=
  inferInstanceAs (Decidable (_ ∧ _))

instance (client : AddressDevice) (feature : FeatureAddress) (r : Relations) :
    Decidable (Subscribed client feature r) :=
  inferInstanceAs (Decidable (∃ s ∈ r.subscriptions, _))

instance (feature : FeatureAddress) (key : Key S.Other) (s : Joined S) :
    ∀ step, Decidable (s.Still feature key step)
  | .server (.configure _) => inferInstanceAs (Decidable (_ = _))
  | .server (.removeEntity _) => inferInstanceAs (Decidable (_ = _))
  | .server (.handleDatagram _ _) | .server (.handleTimeout _) | .server (.finishWrite _ _)
  | .server (.rejectWrite _ _) | .server (.readFiltered _ _ _ _ _)
  | .server (.writeFiltered _ _ _ _ _) | .server (.requestBinding _ _ _)
  | .server (.requestSubscription _ _ _) | .server (.notify _ _) | .server (.insertBinding _ _)
  | .server (.insertSubscription _ _) | .server (.bindFeaturesTogether _)
  | .server (.setBindingPolicy _) | .server (.addUseCase _) | .server (.addEntity _)
  | .server (.modifyEntity _) | .server (.removePeer _) | .server .pollTransmit
  | .server .pollEvent | .client _ | .transmitDown | .deliverDown _ | .transmitUp
  | .deliverUp _ => .isTrue trivial

end Joined

namespace ReplicaScenario

def heatPump : AddressDevice := "d:_i:1_HeatPump"
def manager : AddressDevice := "d:_i:2_Cem"
def guard : AddressDevice := "d:_i:3_Guard"

def limits : FeatureAddress := featureAddress heatPump [1] 1

def loadControl : LocalFeature Schema.limitsOnly :=
  ((LocalFeature.new 1 .loadControl .server).withUnboundWrites).withFunction
    (.known .loadControlLimitListData) .readWrite

def limit (watts : Int) : CmdData Schema.limitsOnly :=
  ⟨.loadControlLimitListData, ⟨some [⟨some 1, some true, some true, none, some ⟨some watts, some 0⟩⟩]⟩⟩

def strangers : Joined Schema.limitsOnly :=
  ⟨.new (.withFeature heatPump loadControl), .new (.fromAddress manager "EnergyManagementSystem"),
    [], []⟩

/-- One function, of one feature, besides the answers of node management. -/
def rows : List (List Nat × Option Nat × Key Schema.limitsOnly.Other) :=
  [featureRow limits .loadControlLimitListData]

def setLimit (watts : Int) : JoinedStep Schema.limitsOnly :=
  .server (.configure fun device => device.update limits fun f =>
    match f.setData (limit watts) with
    | .ok (f', _) => f'
    | .error _ => f)

def guardWrites (destination : FeatureAddress) : JoinedStep Schema.limitsOnly :=
  .server (.handleDatagram (Datagram.carrying (featureAddress guard [1] 1) destination .write 1
    (Cmd.withData (limit 2500))) 0)

/-- The manager subscribes to the limits, and the heat pump sets one. -/
def opening : List (JoinedStep Schema.limitsOnly) :=
  [.client (.requestSubscription (featureAddress manager [1] 1) limits 0), .transmitUp, .deliverUp 0,
    .transmitDown, .deliverDown 0, setLimit 4200]

def notice : JoinedStep Schema.limitsOnly :=
  .server (.notify limits (.known .loadControlLimitListData))

/-- The manager reads the limits while the guard's write is on its way. -/
def meanwhile : List (JoinedStep Schema.limitsOnly) :=
  [.client (.readFiltered limits (featureAddress manager [1] 1) (.known .loadControlLimitListData) [] 0),
    .transmitUp, .transmitDown, guardWrites limits, .deliverUp 0, .transmitDown, .transmitDown,
    .transmitDown, .deliverDown 0, .deliverDown 0, .deliverDown 0]

theorem strangers_started : strangers.Started rows limits := by
  have hlast : (strangers.client.peerAt strangers.server.device.address).counters.last = none := by
    decide +kernel
  have hdata : (strangers.client.peerAt strangers.server.device.address).data = [] := by
    decide +kernel
  have hpending : strangers.server.pending = [] := by decide +kernel
  have hquiescent : strangers.Quiescent := by
    unfold Joined.Quiescent
    decide +kernel
  refine ⟨by decide +kernel, by decide +kernel, by decide +kernel, hquiescent, ?_, ?_, ?_⟩
  · intro last h
    rw [hlast] at h
    cases h
  · rw [hdata]
    exact wellKept_nil _ _
  · intro p hp
    rw [hpending] at hp
    exact absurd hp List.not_mem_nil

theorem replica_agrees_meanwhile :
    (Joined.network.run strangers (opening ++ notice :: meanwhile)).Quiescent ∧
      (Joined.network.run strangers (opening ++ notice :: meanwhile)).client.remoteData limits
          (.known .loadControlLimitListData) =
        (Joined.network.run strangers (opening ++ notice :: meanwhile)).server.device.data limits
          (.known .loadControlLimitListData) := by
  have hquiescent : (Joined.network.run strangers (opening ++ notice :: meanwhile)).Quiescent := by
    unfold Joined.Quiescent
    decide +kernel
  have hrun : Joined.network.Admits
      (fun s step => s.plain limits step = true ∧ (s.act step).Within rows limits) strangers
      (opening ++ notice :: meanwhile) := by decide +kernel
  have hfair : Joined.network.Admits
      (fun s step => s.Fair limits step ∧ (s.act step).Within rows limits) strangers
      (opening ++ notice :: meanwhile) :=
    Joined.network.admits_mono (fun s step h => ⟨Joined.fair_of_plain h.1, h.2⟩) hrun
  have hsame : sameFeature limits limits = true := by decide
  exact ⟨hquiescent, Joined.replica_agrees (by decide) (by decide) (by decide) strangers
    strangers_started hsame opening meanwhile hfair (by decide +kernel) (by decide +kernel)
    hquiescent⟩

/-- The guard's write does not name the device: it is applied, and the subscribers are told under
the address the guard wrote to. -/
def unnamed : List (JoinedStep Schema.limitsOnly) :=
  [guardWrites { limits with device := none }, .transmitDown, .transmitDown, .transmitDown,
    .deliverDown 0, .deliverDown 0]

theorem unnamed_write_not_replicated :
    Joined.network.Admits
        (fun s step => (s.act step).Within rows limits ∧
          s.Still limits .loadControlLimitListData step ∧
          Subscribed s.client.device.address limits (s.act step).server.relations)
        (Joined.network.run strangers opening) (notice :: unnamed) ∧
      (Joined.network.run strangers (opening ++ notice :: unnamed)).Quiescent ∧
      (Joined.network.run strangers (opening ++ notice :: unnamed)).client.remoteData limits
          (.known .loadControlLimitListData) = some (limit 4200) ∧
      (Joined.network.run strangers (opening ++ notice :: unnamed)).server.device.data limits
          (.known .loadControlLimitListData) = some (limit 2500) := by
  have hquiescent :
      (Joined.network.run strangers (opening ++ notice :: unnamed)).Quiescent := by
    unfold Joined.Quiescent
    decide +kernel
  exact ⟨by decide +kernel, hquiescent, by decide +kernel, by decide +kernel⟩

end ReplicaScenario

end Eebus.Spine
