import Eebus.Spine.Deferral

/-!
The life of a request: it goes out under one counter and again under others, and it ends once, by an
answer, by its last deadline, or with the peer it was made to.
-/

namespace Eebus.Spine

open Eebus.Library Eebus.Model

variable {S : Schema}

def SpineEvent.timedOutRequest : SpineEvent S → Option MsgCounter
  | .requestTimedOut request _ => some request
  | _ => none

def SpineEvent.retriedRequest : SpineEvent S → Option MsgCounter
  | .requestRetried request _ _ => some request
  | _ => none

def SpineEvent.timeless (event : SpineEvent S) : Prop :=
  event.timedOutRequest = none ∧ event.retriedRequest = none

theorem SpineEvent.timeless_of_relation (event : SpineEvent S) (h : event.ofRelation = true) :
    event.timeless := by
  cases event
  case requestRetried => cases h
  case requestTimedOut => cases h
  all_goals exact ⟨rfl, rfl⟩

theorem SpineEvent.timeless_of_written (event : SpineEvent S) (h : event.isWritten = true) :
    event.timeless := by
  cases event <;> first | exact ⟨rfl, rfl⟩ | cases h

def timedOutIn (events : List (SpineEvent S)) : List MsgCounter :=
  events.filterMap SpineEvent.timedOutRequest

def retriedIn (events : List (SpineEvent S)) : List MsgCounter :=
  events.filterMap SpineEvent.retriedRequest

/-- Whatever has been said on the way from `e` to `e'`, it is about no request's deadline. -/
def Timeless (e e' : Engine S) : Prop :=
  ∃ new, e'.events = e.events ++ new ∧ ∀ event ∈ new, event.timeless

namespace Timeless

variable {e e' e'' : Engine S}

theorem of_same (h : e'.events = e.events) : Timeless e e' := ⟨[], by rw [h, List.append_nil], by simp⟩

theorem refl (e : Engine S) : Timeless e e := of_same rfl

theorem trans (h : Timeless e e') (h' : Timeless e' e'') : Timeless e e'' := by
  obtain ⟨new, hnew, htimeless⟩ := h
  obtain ⟨new', hnew', htimeless'⟩ := h'
  refine ⟨new ++ new', by rw [hnew', hnew, List.append_assoc], fun event hevent => ?_⟩
  cases List.mem_append.mp hevent with
  | inl hmem => exact htimeless event hmem
  | inr hmem => exact htimeless' event hmem

theorem of_sends {P : Datagram S → Prop} (h : Sends P e e') : Timeless e e' := of_same h.events

theorem emit (e : Engine S) {event : SpineEvent S} (h : event.timeless) : Timeless e (e.emit event) :=
  ⟨[event], rfl, by simpa using h⟩

end Timeless

namespace Engine

def outstanding (e : Engine S) : List MsgCounter := e.pending.map Pending.request

theorem timeless_removePeer (e : Engine S) (device : AddressDevice) :
    Timeless e (e.removePeer device) := by
  refine ⟨_, rfl, fun event hevent => ?_⟩
  obtain ⟨write, -, rfl⟩ := List.mem_map.mp hevent
  exact ⟨rfl, rfl⟩

def madeTo (gone : Option AddressDevice) (p : Pending S) : Bool := gone.any fun device => goesTo device p

end Engine

/-- At most the record of `gone` has been given up, for a device not heard of before, and with it the
requests made to that peer. -/
structure GivesUp (gone : Option AddressDevice) (e e' : Engine S) : Prop where
  pending : e'.pending = e.pending.filter fun p => !Engine.madeTo gone p
  forgotten : ∀ device, gone = some device → e.tracks device = true ∧ e'.tracks device = false
  kept : ∀ device, e.tracks device = true → e'.tracks device = true ∨ gone = some device
  timeless : Timeless e e'

variable {classifier : CmdClassifier} {datagram : Datagram S} {e : Engine S} {op : EngineOp S}
    {destination source : FeatureAddress} {past : List (MsgCounter × Datagram S)} {now : Nat}
    {p : Pending S}

theorem Engine.tracks_iff {device : AddressDevice} :
    e.tracks device = true ↔ ∃ p ∈ e.peers, Peer.isAt device p = true := List.any_eq_true

namespace GivesUp

variable {gone : Option AddressDevice} {e e' : Engine S}

theorem of_added (hpending : e'.pending = e.pending)
    (hpeers : ∀ device, e.tracks device = true → e'.tracks device = true) (h : Timeless e e') :
    GivesUp none e e' where
  pending := by
    rw [hpending]
    exact (List.filter_eq_self.mpr fun _ _ => rfl).symm
  forgotten _ h := nomatch h
  kept device hdevice := .inl (hpeers device hdevice)
  timeless := h

end GivesUp

/-- The records stay, and at most the request that has been answered is settled. -/
structure SettlesOne (answered : Option (Pending S)) (e e' : Engine S) : Prop where
  balanced : Balances [] answered.toList e.pending e'.pending
  tracks : ∀ device, e'.tracks device = e.tracks device
  timeless : Timeless e e'

namespace SettlesOne

variable {answered : Option (Pending S)} {e e' e'' : Engine S}

theorem of_same (hpending : e'.pending = e.pending) (hpeers : e'.peers = e.peers)
    (htimeless : Timeless e e') : SettlesOne none e e' :=
  ⟨hpending ▸ Balances.refl _, fun _ => by rw [Engine.tracks, Engine.tracks, hpeers], htimeless⟩

theorem refl (e : Engine S) : SettlesOne none e e := of_same rfl rfl (.refl e)

theorem of_sends {P : Datagram S → Prop} (h : Sends P e e') : SettlesOne none e e' :=
  of_same h.pending h.peers (.of_sends h)

theorem of_books {said : List (SpineEvent S)} (h : SameBooks said e e')
    (hsaid : ∀ event ∈ said, event.isWritten = true) : SettlesOne none e e' :=
  of_same h.pending h.peers
    ⟨said, h.events, fun event hevent => event.timeless_of_written (hsaid event hevent)⟩

theorem trans (h : SettlesOne answered e e') (h' : SettlesOne none e' e'') :
    SettlesOne answered e e'' :=
  ⟨h.balanced.trans_idle h'.balanced, fun device => (h'.tracks device).trans (h.tracks device),
    h.timeless.trans h'.timeless⟩

theorem after (h : SettlesOne none e e') (h' : SettlesOne answered e' e'') :
    SettlesOne answered e e'' :=
  ⟨h.balanced.trans h'.balanced, fun device => (h'.tracks device).trans (h.tracks device),
    h.timeless.trans h'.timeless⟩

end SettlesOne

namespace Engine

theorem givesUp_peerEntry (e : Engine S) (device : AddressDevice) :
    GivesUp (e.evictedFor device) e (e.peerEntry device) := by
  cases htracks : e.peers.any (Peer.isAt device) with
  | true =>
    have hnone : e.evictedFor device = none := evictedFor_of_tracks htracks
    have hentry : e.peerEntry device = e := by simp [peerEntry, htracks]
    rw [hnone, hentry]
    exact .of_added rfl (fun _ h => h) (.refl e)
  | false =>
    by_cases hfull : maxPeers ≤ e.peers.length
    case neg =>
      have hnone : e.evictedFor device = none := by simp [evictedFor, tracks, htracks, hfull]
      have hentry : e.peerEntry device = { e with peers := e.peers ++ [Peer.new device] } := by
        simp [peerEntry, htracks, hfull]
      rw [hnone, hentry]
      refine .of_added rfl (fun other hother => ?_) (.of_same rfl)
      obtain ⟨p, hp, hat⟩ := tracks_iff.mp hother
      exact tracks_iff.mpr ⟨p, List.mem_append_left _ hp, hat⟩
    cases hevicted : e.peers[e.evictIndex]?.bind fun peer => peer.remote.address with
    | none =>
      have hnone : e.evictedFor device = none := by
        simp [evictedFor, tracks, htracks, hfull, hevicted]
      have hentry : e.peerEntry device =
          { e with peers := e.peers.eraseIdx e.evictIndex ++ [Peer.new device] } := by
        simp only [peerEntry, htracks, Bool.false_eq_true, if_false, if_pos hfull, evict, hevicted]
      rw [hnone, hentry]
      refine .of_added rfl (fun other hother => ?_) (.of_same rfl)
      obtain ⟨p, hp, hat⟩ := tracks_iff.mp hother
      have hsame : (e.peers.eraseIdx e.evictIndex).filter (Peer.isAt other) =
          e.peers.filter (Peer.isAt other) :=
        filter_eraseIdx e.peers _ fun q hq => by
          have haddress : q.remote.address = none := by simpa [hq] using hevicted
          simp [Peer.isAt, haddress]
      have hleft : p ∈ (e.peers.eraseIdx e.evictIndex).filter (Peer.isAt other) := by
        rw [hsame]
        exact List.mem_filter.mpr ⟨hp, hat⟩
      exact tracks_iff.mpr ⟨p, List.mem_append_left _ (List.mem_filter.mp hleft).1, hat⟩
    | some evicted =>
      have hsome : e.evictedFor device = some evicted := by
        simp [evictedFor, tracks, htracks, hfull, hevicted]
      have hentry : e.peerEntry device = { e.removePeer evicted with
          peers := (e.removePeer evicted).peers ++ [Peer.new device] } := by
        simp only [peerEntry, htracks, Bool.false_eq_true, if_false, if_pos hfull, evict, hevicted]
      obtain ⟨peer, hpeer, haddress⟩ := Option.bind_eq_some_iff.mp hevicted
      have htracked : e.tracks evicted = true :=
        tracks_iff.mpr ⟨peer, List.mem_of_getElem? hpeer, by simp [Peer.isAt, haddress]⟩
      have hother : device ≠ evicted := fun heq => by
        have huntracked : e.tracks device = false := htracks
        rw [heq, htracked] at huntracked
        cases huntracked
      rw [hsome, hentry]
      refine ⟨rfl, fun other heq => ?_, fun other hother => ?_, e.timeless_removePeer evicted⟩
      · cases heq
        refine ⟨htracked, List.any_eq_false.mpr fun p hp => ?_⟩
        cases List.mem_append.mp hp with
        | inl hmem => simpa using (List.mem_filter.mp hmem).2
        | inr hmem =>
          rw [List.mem_singleton.mp hmem, isAt_new hother.symm]
          exact Bool.false_ne_true
      · by_cases heq : other = evicted
        · exact .inr (congrArg some heq.symm)
        · obtain ⟨p, hp, hat⟩ := tracks_iff.mp hother
          refine .inl (tracks_iff.mpr ⟨p, List.mem_append_left _ (List.mem_filter.mpr ⟨hp, ?_⟩), hat⟩)
          rw [not_isAt (fun h => heq h.symm) hat]
          rfl

theorem settles_updatePeer (e : Engine S) {device : AddressDevice} {g : Peer S → Peer S}
    (hg : ∀ p, Peer.isAt device p = true → Peer.isAt device (g p) = true) :
    SettlesOne none e (e.updatePeer device g) := by
  refine ⟨Balances.refl _, fun other => ?_, .of_same rfl⟩
  by_cases heq : other = device
  · rw [heq]
    exact tracks_updatePeer e hg
  · have hsame : (e.updatePeer device g).peers.filter (Peer.isAt other) =
        e.peers.filter (Peer.isAt other) :=
      (sameFor_updatePeer e heq hg).record
    rw [Bool.eq_iff_iff, tracks_iff, tracks_iff]
    have hmem : ∀ peers : List (Peer S), (∃ p ∈ peers, Peer.isAt other p = true) ↔
        ∃ p, p ∈ peers.filter (Peer.isAt other) := fun peers => by simp
    rw [hmem, hmem, hsame]

theorem settles_resolvePending (e : Engine S) (reference : Option MsgCounter)
    (origin : FeatureAddress) :
    SettlesOne (e.resolvePending reference origin).2 e (e.resolvePending reference origin).1 := by
  cases reference with
  | none => exact .refl e
  | some reference =>
    refine ⟨?_, fun _ => rfl, .of_same rfl⟩
    dsimp only [resolvePending]
    cases hfound : e.pending.find? (answers reference origin) with
    | some p => exact Balances.closes_first hfound
    | none =>
      rw [List.eraseP_of_forall_not fun p hp => List.find?_eq_none.mp hfound p hp]
      exact Balances.refl _

theorem settles_handleResult (e : Engine S) (cmd : Cmd S) (reference : Option MsgCounter)
    (origin : FeatureAddress) :
    SettlesOne (e.resolvePending reference origin).2 e (e.handleResult cmd reference origin) := by
  have hpending := e.settles_resolvePending reference origin
  simp only [handleResult]
  split
  case h_1 e' heq =>
    rw [heq] at hpending ⊢
    exact hpending
  case h_2 e' request heq =>
    rw [heq] at hpending ⊢
    refine hpending.trans (.of_same ?_ ?_ ?_)
    · split <;> rfl
    · split <;> rfl
    · have hrecorded : Timeless e' (if (resultError cmd).isSuccess then
          { e' with relations := recordRelation e'.relations request.datagram } else e') := by
        split <;> exact .of_same rfl
      exact hrecorded.trans (.emit _ ⟨rfl, rfl⟩)

theorem settles_handleCall (e : Engine S) (cmd : Cmd S) (source : FeatureAddress) :
    SettlesOne none e (e.handleCall cmd source).1 := by
  obtain ⟨relations, said, hsame, hsaid⟩ := e.handleCall_says cmd source
  rw [hsame]
  exact .of_same rfl rfl
    ⟨said, rfl, fun event hevent => event.timeless_of_relation (hsaid event hevent)⟩

theorem settles_decideWrite (e : Engine S) (w : DatagramWrite S) (now : Nat) :
    SettlesOne none e (e.decideWrite w now).1 := by
  unfold decideWrite
  split
  · split
    · exact .refl e
    · exact .of_same rfl rfl (.emit _ ⟨rfl, rfl⟩)
  · obtain ⟨said, hsaid, hbooks⟩ := e.applyWrite_books w.feature w.data w.ops w.source w.destination
    exact .of_books hbooks hsaid

theorem settles_emit (e : Engine S) {event : SpineEvent S} (h : event.timeless) :
    SettlesOne none e (e.emit event) :=
  .of_same rfl rfl (.emit e h)

theorem absorb_hears (e : Engine S) (source : FeatureAddress) (data : CmdData S) (ops : WriteOps S) :
    SettlesOne none e (e.absorb source data ops).1 ∨
      ∃ device, (∀ sender, source.device = some sender → device = sender) ∧
        SettlesOne none (e.peerEntry device) (e.absorb source data ops).1 := by
  simp only [absorb]
  split
  · simp only [absorbDiscovery]
    split
    case h_1 => exact .inl (.refl e)
    case h_2 device hdevice =>
      refine .inr ⟨device, fun sender hsender => ?_, ?_⟩
      · simpa [discoveryDevice, hsender] using hdevice.symm
      · refine (settles_updatePeer _ fun p hp => ?_).trans (settles_emit _ ⟨rfl, rfl⟩)
        have haddress : p.remote.address = some device := by simpa [Peer.isAt] using hp
        simp [Peer.isAt, RemoteDevice.applyDetailedDiscovery_address _ _ _ haddress]
  · simp only [absorbUseCases]
    split
    case h_1 => exact .inl (.refl e)
    case h_2 device hdevice =>
      refine .inr ⟨device, fun sender hsender => Option.some.inj (hdevice.symm.trans hsender), ?_⟩
      refine (settles_updatePeer _ ?_).trans (settles_emit _ ⟨rfl, rfl⟩)
      exact fun _ hp => hp
  · simp only [resolveRemote]
    split
    case h_1 => exact .inl (.refl e)
    case h_2 device hdevice =>
      refine .inr ⟨device, fun sender hsender => Option.some.inj (hdevice.symm.trans hsender), ?_⟩
      exact settles_updatePeer _ fun _ hp => hp

end Engine

/-- The request that has been answered is settled, and the requests made to `gone` are given up with
its record. -/
structure Turnover (answered : Option (Pending S)) (gone : Option AddressDevice) (e e' : Engine S) :
    Prop where
  balanced : Balances [] (answered.toList ++ e.pending.filter (Engine.madeTo gone)) e.pending e'.pending
  forgotten : ∀ device, gone = some device → e.tracks device = true ∧ e'.tracks device = false
  kept : ∀ device, e.tracks device = true → e'.tracks device = true ∨ gone = some device
  timeless : Timeless e e'

namespace Turnover

variable {answered : Option (Pending S)} {gone : Option AddressDevice} {e e' e'' : Engine S}

theorem of_settles (h : SettlesOne answered e e') : Turnover answered none e e' where
  balanced := by
    have hnone : e.pending.filter (Engine.madeTo none) = [] :=
      List.filter_eq_nil_iff.mpr fun _ _ => Bool.false_ne_true
    rw [hnone, List.append_nil]
    exact h.balanced
  forgotten _ h := nomatch h
  kept device hdevice := .inl ((h.tracks device).trans hdevice)
  timeless := h.timeless

theorem of_givesUp (h : GivesUp gone e e') (h' : SettlesOne answered e' e'') :
    Turnover answered gone e e'' where
  balanced := by
    have hgone : Balances [] (e.pending.filter (Engine.madeTo gone)) e.pending e'.pending :=
      h.pending ▸ Balances.closes_filter e.pending (Engine.madeTo gone)
    exact (hgone.trans h'.balanced).perm_closed List.perm_append_comm
  forgotten device hdevice := by
    rw [h'.tracks]
    exact h.forgotten device hdevice
  kept device hdevice := by
    rw [h'.tracks]
    exact h.kept device hdevice
  timeless := h.timeless.trans h'.timeless

theorem of_answered (h : SettlesOne answered e e') (h' : GivesUp gone e' e'')
    (hother : ∀ p, answered = some p → Engine.madeTo gone p = false) :
    Turnover answered gone e e'' where
  balanced := by
    have hgone : Balances [] (e'.pending.filter (Engine.madeTo gone)) e'.pending e''.pending :=
      h'.pending ▸ Balances.closes_filter e'.pending (Engine.madeTo gone)
    refine (h.balanced.trans hgone).perm_closed (List.Perm.append_left _ ?_)
    have hfilter := List.Perm.filter (Engine.madeTo gone) h.balanced
    rw [List.filter_append, List.append_nil] at hfilter
    have hnone : answered.toList.filter (Engine.madeTo gone) = [] :=
      List.filter_eq_nil_iff.mpr fun p hp => by
        rw [hother p (by simpa using hp)]
        exact Bool.false_ne_true
    rw [hnone, List.nil_append] at hfilter
    exact hfilter.symm
  forgotten device hdevice := by
    rw [← h.tracks]
    exact h'.forgotten device hdevice
  kept device hdevice := by
    rw [← h.tracks] at hdevice
    exact h'.kept device hdevice
  timeless := h.timeless.trans h'.timeless

theorem trans (h : Turnover answered gone e e') (h' : SettlesOne none e' e'') :
    Turnover answered gone e e'' where
  balanced := h.balanced.trans_idle h'.balanced
  forgotten device hdevice := by
    rw [h'.tracks]
    exact h.forgotten device hdevice
  kept device hdevice := by
    rw [h'.tracks]
    exact h.kept device hdevice
  timeless := h.timeless.trans h'.timeless

end Turnover

namespace Engine

def settlesRequests : CmdClassifier → Bool
  | .reply | .notify | .result => true
  | .read | .write | .call => false

/-- The request a datagram answers: it is served, has one command, and refers to a transmission of the
request that was made to its sender. -/
def answeredRequest (e : Engine S) (datagram : Datagram S) (now : Nat) : Option (Pending S) := do
  let header ← datagram.header
  let source ← header.addressSource
  let reference ← header.msgCounterReference
  if (e.handleDatagram datagram now).2 && header.cmdClassifier.any settlesRequests &&
      datagram.commands.length == 1 then
    e.pending.find? (answers reference source)
  else none

theorem answeredRequest_of_takenUp {v : Envelope}
    (h : TakenUp e datagram v) (now : Nat) :
    e.answeredRequest datagram now =
      if settlesRequests v.classifier && datagram.commands.length == 1 then
        v.reference.bind fun reference => e.pending.find? (answers reference v.source)
      else none := by
  have hserved := handleDatagram_isServed h now
  obtain ⟨header, hheader, -, hclassifier, hsource, -, hreference, -⟩ := h.header
  cases hreference' : v.reference with
  | none => simp [answeredRequest, hheader, hsource, hreference, hreference']
  | some reference =>
    simp [answeredRequest, hheader, hsource, hreference, hreference', hserved, hclassifier]

theorem answeredRequest_of_discarded
    (h : (e.handleDatagram datagram now).2 = false) : e.answeredRequest datagram now = none := by
  unfold answeredRequest
  rw [h]
  cases datagram.header with
  | none => rfl
  | some header =>
    cases hsource : header.addressSource with
    | none => simp
    | some source => cases header.msgCounterReference <;> simp

theorem madeTo_of_answers {gone : Option AddressDevice} {reference : MsgCounter}
    (h : answers reference source p = true)
    (hother : ∀ device, source.device = some device → gone ≠ some device) : madeTo gone p = false := by
  simp only [answers, Bool.and_eq_true] at h
  cases hgone : gone with
  | none => rfl
  | some evicted =>
    cases hdestination : p.destination.device with
    | none => simp [madeTo, goesTo, hdestination]
    | some destination =>
      have hsource : source.device = some destination := by simpa [hdestination] using h.2
      have hne : destination ≠ evicted := fun heq => hother destination hsource (heq ▸ hgone)
      simpa [madeTo, goesTo, hdestination] using hne

theorem filed_hears (e : Engine S) (v : Envelope) :
    (v.source.device = none ∧ (v.filed e).1 = e) ∨
      ∃ device, v.source.device = some device ∧
        SettlesOne none (e.peerEntry device) (v.filed e).1 := by
  cases hdevice : v.source.device with
  | none => exact .inl ⟨rfl, by simp [Envelope.filed, observeSource, hdevice]⟩
  | some device =>
    refine .inr ⟨device, rfl, ?_⟩
    simp only [Envelope.filed, observeSource, hdevice, observeCounter]
    exact settles_updatePeer _ fun _ hp => hp

theorem evictedFor_ne {device : AddressDevice} : e.evictedFor device ≠ some device := by
  intro h
  have hgives := (e.givesUp_peerEntry device).forgotten device h
  rw [tracks_peerEntry] at hgives
  exact Bool.noConfusion hgives.2

theorem find?_filed (e : Engine S) (v : Envelope) (reference : MsgCounter) :
    (v.filed e).1.pending.find? (answers reference v.source) =
      e.pending.find? (answers reference v.source) := by
  cases e.filed_hears v with
  | inl hnone => rw [hnone.2]
  | inr hsome =>
    obtain ⟨device, hdevice, hsettles⟩ := hsome
    have hpending : (v.filed e).1.pending =
        e.pending.filter fun p => !madeTo (e.evictedFor device) p := by
      rw [← (e.givesUp_peerEntry device).pending]
      simp only [Envelope.filed, observeSource, hdevice, observeCounter]
      rfl
    rw [hpending, List.find?_filter]
    refine congrArg (fun test => e.pending.find? test) (funext fun p => ?_)
    cases hanswers : answers reference v.source p with
    | false => simp
    | true =>
      have hother : madeTo (e.evictedFor device) p = false :=
        madeTo_of_answers hanswers fun other hother heq => by
          rw [hdevice] at hother
          exact evictedFor_ne (heq.trans hother.symm)
      simp [hother]

theorem resolved_filed (e : Engine S) (v : Envelope) :
    ((v.filed e).1.resolvePending v.reference v.source).2 =
      v.reference.bind fun reference => e.pending.find? (answers reference v.source) := by
  cases v.reference with
  | none => rfl
  | some reference => exact e.find?_filed v reference

theorem turnover_filed {e' : Engine S} {v : Envelope} {answered : Option (Pending S)}
    (h : SettlesOne answered (v.filed e).1 e') : ∃ gone, Turnover answered gone e e' := by
  cases e.filed_hears v with
  | inl hnone => exact ⟨none, .of_settles (hnone.2 ▸ h)⟩
  | inr hsome =>
    obtain ⟨device, -, hsettles⟩ := hsome
    exact ⟨e.evictedFor device, .of_givesUp (e.givesUp_peerEntry device) (hsettles.after h)⟩

theorem turnover_informed {e' : Engine S} {v : Envelope} {answered : Option (Pending S)}
    (h : SettlesOne answered (v.filed e).1 e')
    (hanswered : ∀ p, answered = some p → ∃ reference, answers reference v.source p = true)
    (data : CmdData S) (ops : WriteOps S) :
    ∃ gone, Turnover answered gone e (e'.absorb v.source data ops).1 := by
  cases e'.absorb_hears v.source data ops with
  | inl hsettles => exact turnover_filed (h.trans hsettles)
  | inr hhears =>
    obtain ⟨device, hsender, hsettles⟩ := hhears
    cases e.filed_hears v with
    | inr hsome =>
      obtain ⟨sender, hdevice, hfiled⟩ := hsome
      obtain rfl : device = sender := hsender sender hdevice
      have htracks : e'.tracks device = true := by
        rw [h.tracks, hfiled.tracks]
        exact e.tracks_peerEntry device
      have hentry : e'.peerEntry device = e' := by
        have hany : e'.peers.any (Peer.isAt device) = true := htracks
        simp [peerEntry, hany]
      rw [hentry] at hsettles
      exact turnover_filed (h.trans hsettles)
    | inl hnone =>
      rw [hnone.2] at h
      refine ⟨e'.evictedFor device, (Turnover.of_answered h (e'.givesUp_peerEntry device) ?_).trans
        hsettles⟩
      intro p hp
      obtain ⟨reference, hreference⟩ := hanswered p hp
      refine madeTo_of_answers hreference fun other hother => ?_
      rw [hnone.1] at hother
      cases hother

theorem turnover_incoming (e : Engine S) (v : Envelope) (cmd : Cmd S) :
    ∃ gone, Turnover (v.reference.bind fun reference => e.pending.find? (answers reference v.source))
      gone e (((v.filed e).1.resolvePending v.reference v.source).1.handleIncomingData cmd v.source
        v.classifier).1 := by
  have hresolved := e.resolved_filed v
  have hsettles := (v.filed e).1.settles_resolvePending v.reference v.source
  rw [hresolved] at hsettles
  simp only [handleIncomingData]
  split
  case h_1 => exact turnover_filed hsettles
  case h_2 data _ =>
    obtain ⟨gone, hturnover⟩ := turnover_informed hsettles (fun p hp => by
      obtain ⟨reference, -, hfound⟩ := Option.bind_eq_some_iff.mp hp
      exact ⟨reference, List.find?_some hfound⟩) data (WriteOps.of cmd)
    refine ⟨gone, hturnover.trans (settles_emit _ ?_)⟩
    split <;> exact ⟨rfl, rfl⟩

theorem turnover_commands {v : Envelope} (h : TakenUp e datagram v) (now : Nat) :
    ∃ gone, Turnover (e.answeredRequest datagram now) gone e
      ((v.filed e).1.handleCommands datagram.commands v.source v.destination v.classifier v.counter
        v.reference v.ackRequest now).1 := by
  have hanswered := answeredRequest_of_takenUp h now
  match hcommands : datagram.commands with
  | [] =>
    have hnone : (datagram.commands.length == 1) = false := by simp [hcommands]
    rw [hnone, Bool.and_false] at hanswered
    rw [hanswered]
    exact turnover_filed (by cases v.classifier <;> exact .refl _)
  | _ :: _ :: _ =>
    have hmany : (datagram.commands.length == 1) = false := by simp [hcommands]
    rw [hmany, Bool.and_false] at hanswered
    rw [hanswered]
    exact turnover_filed (.refl _)
  | [cmd] =>
    have hone : (datagram.commands.length == 1) = true := by rw [hcommands]; rfl
    rw [hone, Bool.and_true] at hanswered
    rw [hanswered]
    cases hclassifier : v.classifier with
    | read => exact turnover_filed (.of_sends (sends_handleRead _ _ _ _ _))
    | write =>
      have hsettles : SettlesOne none (v.filed e).1 ((v.filed e).1.handleWrite cmd v.source
          v.destination v.counter v.ackRequest now).1 := by
        rcases handleWrite_cases h hclassifier hcommands now with ⟨w, rfl, rfl, hw⟩ | hsame
        · rw [hw.handleWrite_eq now]
          exact settles_decideWrite _ w now
        · rw [hsame]
          exact .refl _
      exact turnover_filed hsettles
    | call => exact turnover_filed (settles_handleCall _ _ _)
    | reply =>
      have hincoming := e.turnover_incoming v cmd
      rw [hclassifier] at hincoming
      exact hincoming
    | notify =>
      have hincoming := e.turnover_incoming v cmd
      rw [hclassifier] at hincoming
      exact hincoming
    | result =>
      have hsettles := (v.filed e).1.settles_handleResult cmd v.reference v.source
      rw [e.resolved_filed v] at hsettles
      exact turnover_filed hsettles

theorem turnover_handleDatagram (e : Engine S) (datagram : Datagram S) (now : Nat) :
    ∃ gone, Turnover (e.answeredRequest datagram now) gone e (e.handleDatagram datagram now).1 := by
  rcases e.handleDatagram_cases datagram now with ⟨v, hv⟩ | ⟨hdiscarded, hunserved⟩
  · obtain ⟨gone, hturnover⟩ := turnover_commands hv now
    rw [handleDatagram_of_takenUp hv now]
    exact ⟨gone, hturnover.trans (.of_sends (sends_acknowledge _ _ _ _ _ _ _))⟩
  · rw [answeredRequest_of_discarded hunserved]
    cases hdiscarded with
    | unread hsends => exact ⟨none, .of_settles (.of_sends hsends)⟩
    | filed source counter _ _ hsends =>
      have hfiled : Envelope.filed ⟨source, source, .read, counter, none, false⟩ e =
          e.observeSource source counter := rfl
      rw [← hfiled] at hsends
      exact turnover_filed (.of_sends hsends)

def requestsOf (requests : List (Pending S)) : List MsgCounter := requests.map Pending.request

theorem timedOutIn_timedOut (requests : List (Pending S)) :
    timedOutIn (requests.map timedOutEvent) = requestsOf requests := by
  rw [timedOutIn, List.filterMap_map, requestsOf, ← List.filterMap_eq_map]
  rfl

theorem timedOutIn_timeless {events : List (SpineEvent S)} (h : ∀ event ∈ events, event.timeless) :
    timedOutIn events = [] :=
  List.filterMap_eq_nil_iff.mpr fun event hevent => (h event hevent).1

theorem retriedIn_timeless {events : List (SpineEvent S)} (h : ∀ event ∈ events, event.timeless) :
    retriedIn events = [] :=
  List.filterMap_eq_nil_iff.mpr fun event hevent => (h event hevent).2

theorem expire_books (now : Nat) (acc : Engine S × List (Pending S) × List (Pending S))
    (request : Pending S) : Balances [] [] (requestsOf (acc.2.2 ++ acc.2.1 ++ [request]))
        (requestsOf ((expire now acc request).2.2 ++ (expire now acc request).2.1)) ∧
      ∃ new, (expire now acc request).1.events = acc.1.events ++ new ∧ timedOutIn new = [] := by
  obtain ⟨e, kept, abandoned⟩ := acc
  have hkept : ∀ p : Pending S, p.request = request.request →
      Balances [] [] (requestsOf (abandoned ++ kept ++ [request]))
        (requestsOf (abandoned ++ (kept ++ [p]))) := by
    intro p hp
    have hsame : requestsOf (abandoned ++ kept ++ [request]) =
        requestsOf (abandoned ++ (kept ++ [p])) := by
      simp [requestsOf, hp]
    rw [hsame]
    exact Balances.refl _
  have hsilent : ∃ new, e.events = e.events ++ new ∧ timedOutIn new = [] :=
    ⟨[], (List.append_nil _).symm, rfl⟩
  simp only [expire]
  split
  · exact ⟨hkept request rfl, hsilent⟩
  split
  · split
    · exact ⟨hkept _ rfl, hsilent⟩
    · refine ⟨?_, hsilent⟩
      rw [Balances, List.append_nil, List.nil_append, requestsOf, requestsOf]
      refine List.Perm.map Pending.request ?_
      rw [List.append_assoc, List.append_assoc]
      exact List.Perm.append_left abandoned List.perm_append_comm
  · exact ⟨hkept _ rfl, _, rfl, rfl⟩

theorem foldl_expire_books (now : Nat) (requests : List (Pending S))
    (acc : Engine S × List (Pending S) × List (Pending S)) :
    Balances [] [] (requestsOf (acc.2.2 ++ acc.2.1 ++ requests))
        (requestsOf ((requests.foldl (expire now) acc).2.2 ++ (requests.foldl (expire now) acc).2.1)) ∧
      ∃ new, (requests.foldl (expire now) acc).1.events = acc.1.events ++ new ∧
        timedOutIn new = [] := by
  induction requests generalizing acc with
  | nil =>
    rw [List.append_nil]
    exact ⟨Balances.refl _, [], (List.append_nil _).symm, rfl⟩
  | cons request rest ih =>
    obtain ⟨hbooks, new, hnew, hnone⟩ := expire_books now acc request
    obtain ⟨hbooks', new', hnew', hnone'⟩ := ih (expire now acc request)
    refine ⟨?_, new ++ new', by rw [List.foldl_cons, hnew', hnew, List.append_assoc], ?_⟩
    · have hrest : Balances [] [] (requestsOf (acc.2.2 ++ acc.2.1 ++ request :: rest))
          (requestsOf ((expire now acc request).2.2 ++ (expire now acc request).2.1 ++ rest)) := by
        rw [Balances, List.append_nil, List.nil_append] at hbooks ⊢
        have hmore := hbooks.append_right (requestsOf rest)
        simpa [requestsOf] using hmore
      exact hrest.trans hbooks'
    · rw [timedOutIn, List.filterMap_append]
      exact congrArg₂ (· ++ ·) hnone hnone'

theorem handleTimeout_books (e : Engine S) (now : Nat) :
    ∃ new, (e.handleTimeout now).events = e.events ++ new ∧
      Balances [] (timedOutIn new) e.outstanding (e.handleTimeout now).outstanding := by
  obtain ⟨hbooks, new, hnew, hnone⟩ :=
    foldl_expire_books now e.pending ({ e with pending := [] }, [], [])
  generalize hfold : e.pending.foldl (expire now) ({ e with pending := [] }, [], []) = acc
    at hbooks hnew
  have hevents : (e.handleTimeout now).events = e.events ++ (new ++ acc.2.2.map timedOutEvent ++
      (acc.1.deferred.filter fun write => write.deadline ≤ now).map abandonedEvent) := by
    simp only [handleTimeout, hfold, hnew, List.append_assoc]
  have hquiet : timedOutIn ((acc.1.deferred.filter fun write => write.deadline ≤ now).map
      abandonedEvent) = [] := by
    refine timedOutIn_timeless fun event hevent => ?_
    obtain ⟨write, -, rfl⟩ := List.mem_map.mp hevent
    exact ⟨rfl, rfl⟩
  refine ⟨_, hevents, ?_⟩
  have htimedOut : timedOutIn (new ++ acc.2.2.map timedOutEvent ++
      (acc.1.deferred.filter fun write => write.deadline ≤ now).map abandonedEvent) =
      requestsOf acc.2.2 := by
    have happend : ∀ events events' : List (SpineEvent S),
        timedOutIn (events ++ events') = timedOutIn events ++ timedOutIn events' :=
      fun events events' => List.filterMap_append ..
    rw [happend, happend, hnone, hquiet, timedOutIn_timedOut, List.nil_append, List.append_nil]
  have hkept : (e.handleTimeout now).outstanding = requestsOf acc.2.1 := by
    simp only [outstanding, handleTimeout, hfold, requestsOf]
  rw [htimedOut, hkept]
  have hall : requestsOf ([] ++ [] ++ e.pending) = e.outstanding := rfl
  rw [hall, Balances, List.nil_append, requestsOf, List.map_append] at hbooks
  exact hbooks

theorem settles_finishWrite (e : Engine S) (token : Nat) (replacement : Option (CmdData S)) :
    SettlesOne none e (e.finishWrite token replacement).1 := by
  obtain ⟨said, hsaid, hbooks⟩ := e.finishWrite_books token replacement
  have hdropped : SettlesOne none e (e.dropDeferred token) := .of_same rfl rfl (.of_same rfl)
  exact hdropped.trans (.of_books hbooks hsaid)

theorem settles_rejectWrite (e : Engine S) (token : Nat) (error : ErrorNumber) :
    SettlesOne none e (e.rejectWrite token error).1 := by
  have hdropped : SettlesOne none e (e.dropDeferred token) := .of_same rfl rfl (.of_same rfl)
  exact hdropped.trans (.of_books (e.rejectWrite_books token error) (List.forall_mem_nil _))

theorem settles_local (e : Engine S) (h : op.isLocal = true) :
    SettlesOne none e (e.perform op) :=
  .of_books (e.books_local h) (List.forall_mem_nil _)

end Engine

inductive Ending
  | answered
  | timedOut
  | removed
deriving DecidableEq

namespace Engine

def returned (e : Engine S) : EngineOp S → List MsgCounter
  | .readFiltered destination source function filters now =>
    [(e.readFiltered destination source function filters now).2]
  | .writeFiltered destination source data filters now =>
    [(e.writeFiltered destination source data filters now).2]
  | .requestBinding client server now => [(e.requestBinding client server now).2]
  | .requestSubscription client server now => [(e.requestSubscription client server now).2]
  | _ => []

def forgets (e : Engine S) (op : EngineOp S) (device : AddressDevice) : Bool :=
  match op with
  | .removePeer gone => device == gone
  | op => e.tracks device && !(e.perform op).tracks device

/-- The request was made to a peer that is given up in this step. -/
def forsakes (e : Engine S) (op : EngineOp S) (p : Pending S) : Bool :=
  p.destination.device.any (e.forgets op)

def answeredBy (e : Engine S) : EngineOp S → Option (Pending S)
  | .handleDatagram datagram now => e.answeredRequest datagram now
  | _ => none

def endings (e : Engine S) (op : EngineOp S) : List (MsgCounter × Ending) :=
  (requestsOf (e.answeredBy op).toList).map (·, .answered) ++
    (timedOutIn (e.said op)).map (·, .timedOut) ++
    (requestsOf (e.pending.filter (e.forsakes op))).map (·, .removed)

theorem endings_requests (e : Engine S) (op : EngineOp S) :
    (e.endings op).map Prod.fst = requestsOf (e.answeredBy op).toList ++ timedOutIn (e.said op) ++
      requestsOf (e.pending.filter (e.forsakes op)) := by
  have hfst : ∀ (requests : List MsgCounter) (ending : Ending),
      (requests.map (·, ending)).map Prod.fst = requests := fun requests ending => by
    rw [List.map_map]
    exact List.map_id _
  rw [endings, List.map_append, List.map_append, hfst, hfst, hfst]

theorem forsakes_none (hop : ∀ device, op ≠ .removePeer device)
    (h : ∀ device, (e.perform op).tracks device = e.tracks device) :
    e.pending.filter (e.forsakes op) = [] := by
  refine List.filter_eq_nil_iff.mpr fun p _ => ?_
  have hnone : ∀ device, e.forgets op device = false := by
    intro device
    cases op with
    | removePeer gone => exact absurd rfl (hop gone)
    | _ => simp only [forgets, h device, Bool.and_not_self]
  cases hdevice : p.destination.device with
  | none => simp [forsakes, hdevice]
  | some device => simp [forsakes, hdevice, hnone device]

theorem said_of_events {new : List (SpineEvent S)}
    (h : (e.perform op).events = e.events ++ new) : e.said op = new := by
  rw [said, h, List.drop_left]

theorem said_timeless (h : Timeless e (e.perform op)) :
    timedOutIn (e.said op) = [] ∧ retriedIn (e.said op) = [] := by
  obtain ⟨new, hnew, htimeless⟩ := h
  rw [said_of_events hnew]
  exact ⟨timedOutIn_timeless htimeless, retriedIn_timeless htimeless⟩

theorem books_of_settles (hop : ∀ device, op ≠ .removePeer device)
    (hreturned : e.returned op = []) (hanswered : e.answeredBy op = none)
    (h : SettlesOne none e (e.perform op)) :
    Balances (e.returned op) ((e.endings op).map Prod.fst) e.outstanding (e.perform op).outstanding := by
  rw [endings_requests, hreturned, hanswered, (said_timeless h.timeless).1,
    forsakes_none hop h.tracks]
  exact h.balanced.map Pending.request

theorem books_of_request {ackRequest : Bool} {cmd : Cmd S}
    (hop : ∀ device, op ≠ .removePeer device) (hanswered : e.answeredBy op = none)
    (hperform : e.perform op = (e.request source destination classifier ackRequest cmd now).1)
    (hreturned : e.returned op = [e.counters]) :
    Balances (e.returned op) ((e.endings op).map Prod.fst) e.outstanding (e.perform op).outstanding := by
  have hsaid : e.said op = (e.pending.take (e.pending.length + 1 - maxPendingRequests)).map
      timedOutEvent :=
    said_of_events (by rw [hperform]; rfl)
  have hforsakes : e.pending.filter (e.forsakes op) = [] :=
    forsakes_none hop fun device => by rw [hperform]; rfl
  rw [endings_requests, hreturned, hanswered, hsaid, timedOutIn_timedOut, hforsakes, hperform]
  have hpushed : Balances [] (requestsOf (e.pending.take (e.pending.length + 1 - maxPendingRequests)))
      e.outstanding (requestsOf (e.pending.drop (e.pending.length + 1 - maxPendingRequests))) := by
    rw [Balances, requestsOf, requestsOf, ← List.map_append, List.take_append_drop, List.append_nil]
    exact List.Perm.refl _
  have hopened := hpushed.trans (Balances.opens _ e.counters)
  have hpending : (e.request source destination classifier ackRequest cmd now).1.outstanding =
      requestsOf (e.pending.drop (e.pending.length + 1 - maxPendingRequests)) ++ [e.counters] :=
    List.map_append
  rw [hpending]
  exact hopened

theorem books_of_handleTimeout (e : Engine S) (now : Nat) :
    Balances (e.returned (.handleTimeout now)) ((e.endings (.handleTimeout now)).map Prod.fst)
      e.outstanding (e.perform (.handleTimeout now)).outstanding := by
  obtain ⟨new, hnew, hbooks⟩ := e.handleTimeout_books now
  have hpeers : (e.handleTimeout now).peers = e.peers :=
    (e.handleTimeout_frame now).2.1
  have hforsakes : e.pending.filter (e.forsakes (.handleTimeout now)) = [] :=
    forsakes_none (fun _ => nofun) fun device => by rw [perform, tracks, tracks, hpeers]
  have hsaid : e.said (.handleTimeout now) = new := said_of_events hnew
  rw [endings_requests, hsaid, hforsakes]
  have hclosed : requestsOf (e.answeredBy (.handleTimeout now)).toList ++ timedOutIn new ++
      requestsOf ([] : List (Pending S)) = timedOutIn new := by
    simp [answeredBy, requestsOf]
  rw [hclosed]
  exact hbooks

theorem books_of_removePeer (e : Engine S) (device : AddressDevice) :
    Balances (e.returned (.removePeer device)) ((e.endings (.removePeer device)).map Prod.fst)
      e.outstanding (e.perform (.removePeer device)).outstanding := by
  have htimeless : Timeless e (e.perform (.removePeer device)) := e.timeless_removePeer device
  have hforsakes : e.forsakes (.removePeer device) = goesTo device := by
    funext p
    cases hdestination : p.destination.device with
    | none => simp [forsakes, goesTo, hdestination]
    | some destination => simp [forsakes, forgets, goesTo, hdestination]
  rw [endings_requests, (said_timeless htimeless).1, hforsakes]
  exact (Balances.closes_filter e.pending (goesTo device)).map Pending.request

theorem books_of_handleDatagram (e : Engine S) (datagram : Datagram S) (now : Nat) :
    Balances (e.returned (.handleDatagram datagram now))
      ((e.endings (.handleDatagram datagram now)).map Prod.fst) e.outstanding
      (e.perform (.handleDatagram datagram now)).outstanding := by
  obtain ⟨gone, hturnover⟩ := e.turnover_handleDatagram datagram now
  have hforgets : ∀ device, e.forgets (.handleDatagram datagram now) device = true ↔
      gone = some device := by
    intro device
    simp only [forgets, perform, Bool.and_eq_true, Bool.not_eq_true']
    constructor
    · intro hlost
      cases hturnover.kept device hlost.1 with
      | inl hkept => rw [hkept] at hlost; cases hlost.2
      | inr hgone => exact hgone
    · exact hturnover.forgotten device
  have hforsakes : e.forsakes (.handleDatagram datagram now) = madeTo gone := by
    funext p
    rw [Bool.eq_iff_iff]
    cases hdestination : p.destination.device with
    | none => cases gone <;> simp [forsakes, madeTo, goesTo, hdestination]
    | some destination =>
      have hiff : e.forsakes (.handleDatagram datagram now) p = true ↔ gone = some destination := by
        rw [forsakes, hdestination]
        exact hforgets destination
      rw [hiff]
      cases gone with
      | none => simp [madeTo]
      | some evicted =>
        simp only [madeTo, goesTo, hdestination, Option.any_some, beq_iff_eq, Option.some.injEq]
        exact eq_comm
  rw [endings_requests, (said_timeless hturnover.timeless).1, hforsakes, List.append_nil]
  have hbooks := hturnover.balanced.map Pending.request
  rw [List.map_append] at hbooks
  exact hbooks

theorem books_of_perform (e : Engine S) (op : EngineOp S) :
    Balances (e.returned op) ((e.endings op).map Prod.fst) e.outstanding (e.perform op).outstanding := by
  cases op with
  | handleDatagram datagram now => exact e.books_of_handleDatagram datagram now
  | handleTimeout now => exact e.books_of_handleTimeout now
  | finishWrite token replacement =>
    exact books_of_settles (fun _ h => by cases h) rfl rfl (e.settles_finishWrite token replacement)
  | rejectWrite token error =>
    exact books_of_settles (fun _ h => by cases h) rfl rfl (e.settles_rejectWrite token error)
  | readFiltered | writeFiltered | requestBinding | requestSubscription =>
    exact books_of_request (fun _ h => by cases h) rfl rfl rfl
  | removePeer device => exact e.books_of_removePeer device
  | pollEvent =>
    have hsaid : e.said .pollEvent = [] := by simp [said, perform]
    have hforsakes : e.pending.filter (e.forsakes .pollEvent) = [] :=
      forsakes_none (fun _ h => by cases h) fun _ => rfl
    rw [endings_requests, hsaid, hforsakes]
    exact Balances.refl _
  | pollTransmit =>
    exact books_of_settles (fun _ h => by cases h) rfl rfl (.of_same rfl rfl (.of_same rfl))
  | _ => exact books_of_settles (fun _ h => by cases h) rfl rfl (e.settles_local rfl)

end Engine

/-- What has been sent for requests so far, each message under its request: under counters of their
own, all of them below the next, and at most four for a request. -/
structure Dispatched (past : List (MsgCounter × Datagram S)) (next : MsgCounter) : Prop where
  earlier : ∀ t ∈ past, t.1 < next ∧ ∃ c, Datagram.counter t.2 = some c ∧ c < next
  distinct : (past.map fun t => Datagram.counter t.2).Nodup
  few : ∀ request, (entriesOf request past).length ≤ 4

/-- The request's entry says under which counters it has been sent, and to whom. -/
structure OnRecord (past : List (MsgCounter × Datagram S)) (p : Pending S) : Prop where
  transmissions : (entriesOf p.request past).map
      (fun t => (Datagram.counter t.2, t.2.header.bind Header.addressDestination)) =
    p.transmissions.map fun c => (some c, some p.destination)
  header : ∃ header, p.datagram.header = some header ∧ header.addressDestination = some p.destination
  count : p.transmissions.length = p.retries + 1
  tries : p.retries < 3 ∨ p.retries = 3 ∧ p.awaiting = .answer

structure Underway (past : List (MsgCounter × Datagram S)) (next : MsgCounter)
    (pending : List (Pending S)) : Prop where
  dispatched : Dispatched past next
  requests : (Engine.requestsOf pending).Nodup
  entries : ∀ p ∈ pending, OnRecord past p

section Transmissions

variable {past : List (MsgCounter × Datagram S)} {next next' request : MsgCounter} {d : Datagram S}
  {p : Pending S} {pending pending' : List (Pending S)}

theorem Dispatched.mono (h : Dispatched past next) (hle : next ≤ next') : Dispatched past next' where
  earlier t ht := by
    obtain ⟨hrequest, c, hc, hlt⟩ := h.earlier t ht
    exact ⟨UInt64.lt_of_lt_of_le hrequest hle, c, hc, UInt64.lt_of_lt_of_le hlt hle⟩
  distinct := h.distinct
  few := h.few

theorem entriesOf_append (other : MsgCounter) : entriesOf other (past ++ [(request, d)]) =
      entriesOf other past ++ if request = other then [(request, d)] else [] := by
  by_cases heq : request = other
  · simp [entriesOf, heq]
  · simp [entriesOf, heq]

theorem Dispatched.append (h : Dispatched past next) (hcounter : Datagram.counter d = some next)
    (hlt : next < next') (hrequest : request ≤ next) (hfew : (entriesOf request past).length ≤ 3) :
    Dispatched (past ++ [(request, d)]) next' where
  earlier t ht := by
    cases List.mem_append.mp ht with
    | inl hmem => exact (h.mono (UInt64.le_of_lt hlt)).earlier t hmem
    | inr hmem =>
      rw [List.mem_singleton.mp hmem]
      exact ⟨UInt64.lt_of_le_of_lt hrequest hlt, next, hcounter, hlt⟩
  distinct := by
    rw [List.map_append, List.nodup_append']
    refine ⟨h.distinct, List.nodup_singleton _, fun counter hmem hlast => ?_⟩
    obtain ⟨t, ht, htcounter⟩ := List.mem_map.mp hmem
    obtain ⟨-, c, hc, hbelow⟩ := h.earlier t ht
    have hnext : counter = some next := (List.mem_singleton.mp hlast).trans hcounter
    have hsame : some c = some next := hc.symm.trans (htcounter.trans hnext)
    rw [Option.some.inj hsame] at hbelow
    exact UInt64.lt_irrefl next hbelow
  few other := by
    rw [entriesOf_append, List.length_append]
    split
    case isTrue heq =>
      subst heq
      exact Nat.add_le_add_right hfew 1
    case isFalse => exact h.few other

theorem OnRecord.append (h : OnRecord past p) (hother : request ≠ p.request) :
    OnRecord (past ++ [(request, d)]) p where
  transmissions := by
    rw [entriesOf_append, if_neg hother, List.append_nil]
    exact h.transmissions
  header := h.header
  count := h.count
  tries := h.tries

theorem OnRecord.messages_length (h : OnRecord past p) :
    (entriesOf p.request past).length = p.retries + 1 := by
  have hlength := congrArg List.length h.transmissions
  rw [List.length_map, List.length_map, h.count] at hlength
  exact hlength

theorem Underway.request_lt (h : Underway past next pending) (hp : p ∈ pending) : p.request < next := by
  have hsome : 0 < (entriesOf p.request past).length := by
    rw [(h.entries p hp).messages_length]
    exact Nat.succ_pos _
  obtain ⟨t, ht⟩ := List.exists_mem_of_length_pos hsome
  obtain ⟨hmem, heq⟩ := List.mem_filter.mp ht
  exact beq_iff_eq.mp heq ▸ (h.dispatched.earlier t hmem).1

theorem Underway.sublist (h : Underway past next pending) (hpending : pending'.Sublist pending)
    (hle : next ≤ next') : Underway past next' pending' where
  dispatched := h.dispatched.mono hle
  requests := h.requests.sublist (hpending.map Pending.request)
  entries p hp := h.entries p (hpending.subset hp)

theorem Underway.begin (h : Underway past next pending) (hlt : next < next')
    (hcounter : Datagram.counter d = some next) (hrequest : p.request = next)
    (htransmissions : p.transmissions = [next]) (hretries : p.retries = 0) (hdatagram : p.datagram = d)
    (hdestination : d.header.bind Header.addressDestination = some p.destination) :
    Underway (past ++ [(next, d)]) next' (pending ++ [p]) := by
  have hnew : entriesOf next past = [] := List.filter_eq_nil_iff.mpr fun t ht heq => by
    have hbelow := (h.dispatched.earlier t ht).1
    rw [beq_iff_eq.mp heq] at hbelow
    exact UInt64.lt_irrefl next hbelow
  refine ⟨h.dispatched.append hcounter hlt (UInt64.le_refl next) (by simp [hnew]), ?_, fun q hq => ?_⟩
  · rw [Engine.requestsOf, List.map_append, List.nodup_append']
    refine ⟨h.requests, List.nodup_singleton _, fun request hmem hlast => ?_⟩
    obtain ⟨q, hq, rfl⟩ := List.mem_map.mp hmem
    have hsame : q.request = next := (List.mem_singleton.mp hlast).trans hrequest
    exact UInt64.lt_irrefl next (hsame ▸ h.request_lt hq)
  · cases List.mem_append.mp hq with
    | inl hmem =>
      refine (h.entries q hmem).append fun heq => ?_
      exact UInt64.lt_irrefl next (heq ▸ h.request_lt hmem)
    | inr hmem =>
      rw [List.mem_singleton.mp hmem]
      obtain ⟨header, hheader, haddress⟩ := Option.bind_eq_some_iff.mp hdestination
      refine ⟨?_, ⟨header, hdatagram ▸ hheader, haddress⟩, by simp [htransmissions, hretries], .inl ?_⟩
      · rw [hrequest, entriesOf_append, hnew, if_pos rfl, htransmissions]
        simp [hcounter, hdestination]
      · rw [hretries]
        exact Nat.zero_lt_succ 2

section Replacing

variable {before after : List (Pending S)} {p' : Pending S}

theorem Underway.replace (h : Underway past next (before ++ p :: after))
    {past' : List (MsgCounter × Datagram S)} (hdispatched : Dispatched past' next')
    (hrequest : p'.request = p.request) (hentry : OnRecord past' p')
    (hothers : ∀ q, q.request ≠ p.request → OnRecord past q → OnRecord past' q) :
    Underway past' next' (before ++ [p'] ++ after) := by
  have hids : Engine.requestsOf (before ++ [p'] ++ after) =
      Engine.requestsOf (before ++ p :: after) := by
    simp [Engine.requestsOf, hrequest]
  refine ⟨hdispatched, hids ▸ h.requests, fun q hq => ?_⟩
  have hnodup := h.requests
  rw [Engine.requestsOf, List.map_append, List.map_cons, List.nodup_append'] at hnodup
  obtain ⟨-, hafter, happart⟩ := hnodup
  rw [List.append_assoc] at hq
  cases List.mem_append.mp hq with
  | inl hmem =>
    refine hothers q (fun heq => ?_) (h.entries q (List.mem_append_left _ hmem))
    exact happart (List.mem_map_of_mem hmem) (heq ▸ List.mem_cons_self)
  | inr hmem =>
    cases List.mem_cons.mp hmem with
    | inl heq => exact heq ▸ hentry
    | inr hmem =>
      refine hothers q (fun heq => ?_)
        (h.entries q (List.mem_append_right _ (List.mem_cons_of_mem p hmem)))
      exact (List.nodup_cons.mp hafter).1 (heq ▸ List.mem_map_of_mem hmem)

theorem Underway.retry (h : Underway past next (before ++ p :: after)) (hlt : next < next')
    (hawaiting : p.awaiting = .retry) (deadline : Nat) :
    let datagram := { p.datagram with
      header := p.datagram.header.map fun h => { h with msgCounter := some next } }
    Underway (past ++ [(p.request, datagram)]) next'
      (before ++ [{ p with
        retries := p.retries + 1
        transmissions := p.transmissions ++ [next]
        datagram := datagram
        awaiting := .answer
        deadline := deadline }] ++ after) := by
  intro datagram
  have hp : p ∈ before ++ p :: after := List.mem_append_right _ List.mem_cons_self
  have hentry := h.entries p hp
  obtain ⟨header, hheader, haddress⟩ := hentry.header
  have htries : p.retries < 3 := by
    cases hentry.tries with
    | inl hlt => exact hlt
    | inr hlast => rw [hawaiting] at hlast; cases hlast.2
  have hcounter : Datagram.counter datagram = some next := by
    simp [datagram, Datagram.counter, hheader]
  have hdestination : datagram.header.bind Header.addressDestination = some p.destination := by
    simp [datagram, hheader, haddress]
  refine h.replace (h.dispatched.append hcounter hlt (UInt64.le_of_lt (h.request_lt hp)) ?_) rfl
    ⟨?_, ⟨{ header with msgCounter := some next }, ?_, haddress⟩, ?_, ?_⟩
    (fun q hq hentry => hentry.append hq.symm)
  · rw [hentry.messages_length]
    omega
  · rw [entriesOf_append, if_pos rfl, List.map_append, List.map_append, hentry.transmissions]
    simp [hcounter, hdestination]
  · simp [datagram, hheader]
  · simp [hentry.count]
  · dsimp only
    by_cases hlast : p.retries + 1 < 3
    · exact .inl hlast
    · exact .inr ⟨by omega, rfl⟩

theorem Underway.wait (h : Underway past next (before ++ p :: after)) (htries : p.retries < 3)
    (deadline : Nat) :
    Underway past next (before ++ [{ p with awaiting := .retry, deadline := deadline }] ++ after) := by
  have hentry := h.entries p (List.mem_append_right _ List.mem_cons_self)
  exact h.replace h.dispatched rfl
    ⟨hentry.transmissions, hentry.header, hentry.count, .inl htries⟩ fun _ _ hq => hq

end Replacing

end Transmissions

namespace Engine

/-- The messages a step sends for requests, each under its request: the ones it makes, and the ones
that go out again. -/
def transmitted (e : Engine S) (op : EngineOp S) : List (MsgCounter × Datagram S) :=
  (e.returned op ++ retriedIn (e.said op)).zip (e.queued op)

theorem retrySchedule_tries {tries delay : Nat} (h : retrySchedule[tries]? = some delay) : tries < 3 :=
  (List.getElem?_eq_some_iff.mp h).1

def Retries (past : List (MsgCounter × Datagram S)) (e e' : Engine S)
    (pending : List (Pending S)) : Prop :=
  ∃ new, e'.outbox = e.outbox ++ new.map Prod.snd ∧
    (∃ said, e'.events = e.events ++ said ∧ retriedIn said = new.map Prod.fst) ∧
    e'.counters.toNat = e.counters.toNat + new.length ∧
    Underway (past ++ new) e'.counters pending

theorem outbox_expire (now : Nat) (acc : Engine S × List (Pending S) × List (Pending S))
    (request : Pending S) : ∃ new, (expire now acc request).1.outbox = acc.1.outbox ++ new := by
  obtain ⟨e, kept, abandoned⟩ := acc
  have hnone : ∃ new, e.outbox = e.outbox ++ new := ⟨[], (List.append_nil _).symm⟩
  simp only [expire]
  split
  · exact hnone
  split
  · split <;> exact hnone
  · exact ⟨_, rfl⟩

theorem outbox_foldl_expire (now : Nat) (requests : List (Pending S))
    (acc : Engine S × List (Pending S) × List (Pending S)) :
    ∃ new, (requests.foldl (expire now) acc).1.outbox = acc.1.outbox ++ new :=
  List.foldlRecOn (motive := fun acc' => ∃ new, acc'.1.outbox = acc.1.outbox ++ new) requests
    (expire now) ⟨[], (List.append_nil _).symm⟩ fun acc' ⟨new, hnew⟩ request _ => by
      obtain ⟨new', hnew'⟩ := outbox_expire now acc' request
      exact ⟨new ++ new', by rw [hnew', hnew, List.append_assoc]⟩

theorem underway_expire (now : Nat)
    {acc : Engine S × List (Pending S) × List (Pending S)} {request : Pending S}
    {rest : List (Pending S)} (h : Underway past acc.1.counters (acc.2.1 ++ request :: rest))
    (hroom : acc.1.counters.toNat +
      ((expire now acc request).1.outbox.length - acc.1.outbox.length) < 2 ^ 64) :
    Retries past acc.1 (expire now acc request).1 ((expire now acc request).2.1 ++ rest) := by
  obtain ⟨e, kept, abandoned⟩ := acc
  have hidle : ∀ {pending : List (Pending S)}, Underway past e.counters pending →
      Retries past e e pending :=
    fun hunderway => ⟨[], (List.append_nil _).symm, ⟨[], (List.append_nil _).symm, rfl⟩, rfl,
      (List.append_nil past).symm ▸ hunderway⟩
  unfold expire at hroom ⊢
  dsimp only at hroom ⊢
  split at hroom
  case isTrue hlate =>
    rw [if_pos hlate]
    refine hidle ?_
    rw [List.append_assoc]
    exact h
  case isFalse hlate =>
    rw [if_neg hlate]
    cases hawaiting : request.awaiting with
    | answer =>
      dsimp only
      cases hdelay : retrySchedule[request.retries]? with
      | some delay => exact hidle (h.wait (retrySchedule_tries hdelay) (now + delay))
      | none =>
        refine hidle (h.sublist ?_ (UInt64.le_refl _))
        exact List.Sublist.append_left (List.sublist_cons_self request rest) kept
    | retry =>
      rw [hawaiting] at hroom
      have hfits : e.counters.toNat + 1 < 2 ^ 64 := by
        simpa [send, emit, advanceCounter] using hroom
      obtain ⟨hlt, hvalue⟩ := lt_nextMsgCounter hfits
      exact ⟨[(request.request, _)], rfl, ⟨[_], rfl, rfl⟩, hvalue, h.retry hlt hawaiting _⟩

theorem underway_foldl_expire (now : Nat) (requests : List (Pending S))
    (acc : Engine S × List (Pending S) × List (Pending S))
    (h : Underway past acc.1.counters (acc.2.1 ++ requests)) (hroom : acc.1.counters.toNat +
      ((requests.foldl (expire now) acc).1.outbox.length - acc.1.outbox.length) < 2 ^ 64) :
    Retries past acc.1 (requests.foldl (expire now) acc).1 (requests.foldl (expire now) acc).2.1 := by
  induction requests generalizing past acc with
  | nil =>
    rw [List.append_nil] at h
    exact ⟨[], (List.append_nil _).symm, ⟨[], (List.append_nil _).symm, rfl⟩, rfl,
      (List.append_nil past).symm ▸ h⟩
  | cons request rest ih =>
    rw [List.foldl_cons] at hroom ⊢
    obtain ⟨sent, hsent⟩ := outbox_expire now acc request
    obtain ⟨later, hlater⟩ := outbox_foldl_expire now rest (expire now acc request)
    rw [hlater, hsent] at hroom
    simp only [List.length_append] at hroom
    obtain ⟨new, houtbox, ⟨said, hevents, hretried⟩, hvalue, hunderway⟩ :=
      underway_expire now h (by rw [hsent, List.length_append]; omega)
    have hlength : new.length = sent.length := by
      have hsame := List.append_cancel_left (houtbox.symm.trans hsent)
      rw [← hsame, List.length_map]
    obtain ⟨new', houtbox', ⟨said', hevents', hretried'⟩, hvalue', hunderway'⟩ := ih _ hunderway (by
      rw [hvalue, hlater, List.length_append, hlength]
      omega)
    refine ⟨new ++ new', ?_, ⟨said ++ said', ?_, ?_⟩, ?_, ?_⟩
    · rw [houtbox', houtbox, List.map_append, List.append_assoc]
    · rw [hevents', hevents, List.append_assoc]
    · rw [retriedIn, List.filterMap_append, List.map_append]
      exact congrArg₂ (· ++ ·) hretried hretried'
    · rw [hvalue', hvalue, List.length_append, Nat.add_assoc]
    · rw [← List.append_assoc]
      exact hunderway'

def Unwrapped (e : Engine S) (op : EngineOp S) : Prop :=
  e.counters.toNat + (e.queued op).length < 2 ^ 64

theorem numbered_queued (h : e.RequestsOnly) (op : EngineOp S) :
    Numbered e.counters (e.queued op) (e.perform op).counters := by
  by_cases hpoll : op = .pollTransmit
  · subst hpoll
    rw [queued_pollTransmit]
    rfl
  · obtain ⟨sent, hsent, hnumbered, -⟩ := attributed_perform h hpoll
    rw [queued, hsent, List.drop_left]
    exact hnumbered

theorem Numbered.next {datagrams : List (Datagram S)} {counter next : MsgCounter}
    (h : Numbered counter datagrams next) (hroom : counter.toNat + datagrams.length < 2 ^ 64) :
    next.toNat = counter.toNat + datagrams.length := by
  induction datagrams generalizing counter with
  | nil =>
    obtain rfl : next = counter := h
    rfl
  | cons datagram rest ih =>
    rw [List.length_cons] at hroom ⊢
    have hfits : counter.toNat + 1 < 2 ^ 64 := by omega
    obtain ⟨-, hvalue⟩ := lt_nextMsgCounter hfits
    have hnext := ih h.2 (by omega)
    omega

theorem counters_perform (h : e.RequestsOnly)
    (hroom : e.Unwrapped op) : (e.perform op).counters.toNat = e.counters.toNat + (e.queued op).length :=
  Numbered.next (numbered_queued h op) hroom

theorem counters_le (h : e.RequestsOnly) (hroom : e.Unwrapped op) :
    e.counters ≤ (e.perform op).counters := by
  rw [UInt64.le_iff_toNat_le, counters_perform h hroom]
  exact Nat.le_add_right _ _

theorem underway_of_silent
    (h : Underway past e.counters e.pending) (hrequests : e.RequestsOnly) (hroom : e.Unwrapped op)
    (hreturned : e.returned op = []) (hretried : retriedIn (e.said op) = [])
    (hpending : (e.perform op).pending.Sublist e.pending) :
    Underway (past ++ e.transmitted op) (e.perform op).counters (e.perform op).pending := by
  rw [transmitted, hreturned, hretried, List.append_nil, List.zip_nil_left, List.append_nil]
  exact h.sublist hpending (counters_le hrequests hroom)

theorem queued_of_request {ackRequest : Bool} {cmd : Cmd S}
    (hperform : e.perform op = (e.request source destination classifier ackRequest cmd now).1) :
    e.queued op = [⟨some (header source destination e.counters classifier ackRequest none),
      some ⟨some [cmd]⟩⟩] := by
  rw [queued, hperform]
  exact List.drop_left

theorem underway_request {ackRequest : Bool} {cmd : Cmd S}
    (h : Underway past e.counters e.pending) (hroom : e.Unwrapped op)
    (hperform : e.perform op = (e.request source destination classifier ackRequest cmd now).1)
    (hreturned : e.returned op = [e.counters]) :
    Underway (past ++ e.transmitted op) (e.perform op).counters (e.perform op).pending := by
  have hqueued := queued_of_request hperform
  have hsaid : e.said op = (e.pending.take (e.pending.length + 1 - maxPendingRequests)).map
      timedOutEvent :=
    said_of_events (by rw [hperform]; rfl)
  have hretried : retriedIn (e.said op) = [] := by
    rw [hsaid, retriedIn, List.filterMap_map]
    exact List.filterMap_eq_nil_iff.mpr fun _ _ => rfl
  have hfits : e.counters.toNat + 1 < 2 ^ 64 := by
    rw [Unwrapped, hqueued] at hroom
    exact hroom
  rw [transmitted, hreturned, hretried, hqueued, hperform]
  have hkept := h.sublist (List.drop_sublist (e.pending.length + 1 - maxPendingRequests) e.pending)
    (UInt64.le_refl _)
  exact hkept.begin (lt_nextMsgCounter hfits).1 rfl rfl rfl rfl rfl rfl

theorem transmitted_of_expired {new : List (MsgCounter × Datagram S)}
    (houtbox : (e.pending.foldl (expire now) ({ e with pending := [] }, [], [])).1.outbox =
      e.outbox ++ new.map Prod.snd)
    (hevents : ∃ said, (e.pending.foldl (expire now) ({ e with pending := [] }, [], [])).1.events =
      e.events ++ said ∧ retriedIn said = new.map Prod.fst) :
    e.queued (.handleTimeout now) = new.map Prod.snd ∧ e.transmitted (.handleTimeout now) = new := by
  generalize hfold : e.pending.foldl (expire now) ({ e with pending := [] }, [], []) = acc
    at houtbox hevents
  obtain ⟨said, hevents, hretried⟩ := hevents
  have hqueued : e.queued (.handleTimeout now) = new.map Prod.snd := by
    have hsent : (e.handleTimeout now).outbox = e.outbox ++ new.map Prod.snd := by
      simp only [handleTimeout, hfold, houtbox]
    rw [queued, perform, hsent, List.drop_left]
  have hsaid : e.said (.handleTimeout now) = said ++ acc.2.2.map timedOutEvent ++
      (acc.1.deferred.filter fun write => write.deadline ≤ now).map abandonedEvent :=
    said_of_events (by simp only [perform, handleTimeout, hfold, hevents, List.append_assoc])
  have hagain : retriedIn (e.said (.handleTimeout now)) = new.map Prod.fst := by
    have htimedOut : retriedIn (acc.2.2.map timedOutEvent) = [] := by
      rw [retriedIn, List.filterMap_map]
      exact List.filterMap_eq_nil_iff.mpr fun _ _ => rfl
    have habandoned : retriedIn ((acc.1.deferred.filter fun write => write.deadline ≤ now).map
        abandonedEvent) = [] := by
      rw [retriedIn, List.filterMap_map]
      exact List.filterMap_eq_nil_iff.mpr fun _ _ => rfl
    rw [hsaid, retriedIn, List.filterMap_append, List.filterMap_append]
    change retriedIn said ++ retriedIn _ ++ retriedIn _ = _
    rw [htimedOut, habandoned, hretried, List.append_nil, List.append_nil]
  have hreturned : e.returned (.handleTimeout now) = [] := rfl
  refine ⟨hqueued, ?_⟩
  rw [transmitted, hreturned, hagain, hqueued, List.nil_append, List.zip_map']
  simp

theorem underway_handleTimeout
    (h : Underway past e.counters e.pending) (hroom : e.Unwrapped (.handleTimeout now)) :
    Underway (past ++ e.transmitted (.handleTimeout now)) (e.handleTimeout now).counters
      (e.handleTimeout now).pending := by
  have hfits : e.counters.toNat + ((e.handleTimeout now).outbox.length - e.outbox.length) < 2 ^ 64 := by
    rw [Unwrapped, queued, List.length_drop] at hroom
    exact hroom
  obtain ⟨new, houtbox, hevents, -, hunderway⟩ :=
    underway_foldl_expire now e.pending ({ e with pending := [] }, [], []) h hfits
  rw [(transmitted_of_expired houtbox hevents).2]
  exact hunderway

theorem underway_perform
    (h : Underway past e.counters e.pending) (hrequests : e.RequestsOnly) (hroom : e.Unwrapped op) :
    Underway (past ++ e.transmitted op) (e.perform op).counters (e.perform op).pending := by
  have hsilent : e.returned op = [] → Timeless e (e.perform op) →
      (e.perform op).pending.Sublist e.pending →
      Underway (past ++ e.transmitted op) (e.perform op).counters (e.perform op).pending :=
    fun hreturned htimeless hpending =>
      underway_of_silent h hrequests hroom hreturned (said_timeless htimeless).2 hpending
  cases op with
  | handleDatagram datagram now =>
    obtain ⟨gone, hturnover⟩ := e.turnover_handleDatagram datagram now
    exact hsilent rfl hturnover.timeless (e.handleDatagram_pending datagram now)
  | handleTimeout now => exact underway_handleTimeout h hroom
  | readFiltered | writeFiltered | requestBinding | requestSubscription =>
    exact underway_request h hroom rfl rfl
  | finishWrite token replacement =>
    exact hsilent rfl (e.settles_finishWrite token replacement).timeless (e.perform_pending rfl)
  | rejectWrite token error =>
    exact hsilent rfl (e.settles_rejectWrite token error).timeless (e.perform_pending rfl)
  | removePeer device =>
    exact hsilent rfl (e.timeless_removePeer device) (e.pending_removePeer device)
  | pollEvent =>
    have hsaid : e.said .pollEvent = [] := by simp [said, perform]
    exact underway_of_silent h hrequests hroom rfl (by rw [hsaid]; rfl) (List.Sublist.refl _)
  | pollTransmit => exact hsilent rfl (.of_same rfl) (List.Sublist.refl _)
  | _ => exact hsilent rfl (SettlesOne.timeless (e.settles_local rfl)) (e.perform_pending rfl)

theorem run_numbered (h : e.RequestsOnly) (ops : List (EngineOp S)) :
    Numbered e.counters (machine.collect queued e ops) (machine.run e ops).counters := by
  induction ops generalizing e with
  | nil => rfl
  | cons op rest ih => exact (numbered_queued h op).append (ih (requestsOnly_perform h op))

theorem admits_unwrapped (h : e.RequestsOnly) (ops : List (EngineOp S))
    (hroom : e.counters.toNat + (machine.collect queued e ops).length < 2 ^ 64) :
    machine.Admits Unwrapped e ops := by
  induction ops generalizing e with
  | nil => trivial
  | cons op rest ih =>
    rw [Machine.collect, List.length_append] at hroom
    have hfirst : e.Unwrapped op := by
      unfold Unwrapped
      omega
    refine ⟨hfirst, ih (requestsOnly_perform h op) ?_⟩
    have hnext : machine.next e op = e.perform op := rfl
    rw [hnext] at hroom ⊢
    rw [counters_perform h hfirst]
    omega

theorem underway_run
    (h : Underway past e.counters e.pending) (hrequests : e.RequestsOnly) (ops : List (EngineOp S))
    (hroom : machine.Admits Unwrapped e ops) :
    Underway (past ++ machine.collect transmitted e ops) (machine.run e ops).counters
      (machine.run e ops).pending := by
  induction ops generalizing e past with
  | nil =>
    rw [Machine.collect, List.append_nil]
    exact h
  | cons op rest ih =>
    rw [Machine.collect, ← List.append_assoc]
    exact ih (underway_perform h hrequests hroom.1) (requestsOnly_perform hrequests op) hroom.2

end Engine

theorem Numbered.nodup {datagrams : List (Datagram S)} {counter next : MsgCounter}
    (h : Numbered counter datagrams next) (hroom : counter.toNat + datagrams.length < 2 ^ 64) :
    (datagrams.map Datagram.counter).Nodup ∧
      ∀ d ∈ datagrams, ∃ c, Datagram.counter d = some c ∧ counter ≤ c := by
  induction datagrams generalizing counter with
  | nil => exact ⟨List.nodup_nil, fun _ hd => absurd hd List.not_mem_nil⟩
  | cons datagram rest ih =>
    rw [List.length_cons] at hroom
    have hfits : counter.toNat + 1 < 2 ^ 64 := by omega
    obtain ⟨hlt, hvalue⟩ := lt_nextMsgCounter hfits
    obtain ⟨hnodup, habove⟩ := ih h.2 (by omega)
    refine ⟨List.nodup_cons.mpr ⟨fun hmem => ?_, hnodup⟩, fun d hd => ?_⟩
    · obtain ⟨d, hd, heq⟩ := List.mem_map.mp hmem
      obtain ⟨c, hc, hle⟩ := habove d hd
      rw [heq, h.1] at hc
      rw [← Option.some.inj hc] at hle
      exact UInt64.lt_irrefl counter (UInt64.lt_of_lt_of_le hlt hle)
    · cases List.mem_cons.mp hd with
      | inl heq => exact ⟨counter, heq ▸ h.1, UInt64.le_refl counter⟩
      | inr hmem =>
        obtain ⟨c, hc, hle⟩ := habove d hmem
        exact ⟨c, hc, UInt64.le_of_lt (UInt64.lt_of_lt_of_le hlt hle)⟩

namespace Engine

theorem map_snd_zip_sublist {α β : Type} (as : List α) (bs : List β) :
    ((as.zip bs).map Prod.snd).Sublist bs := by
  induction as generalizing bs with
  | nil => exact List.nil_sublist bs
  | cons a as ih =>
    cases bs with
    | nil => exact List.Sublist.refl _
    | cons b bs => exact (ih bs).cons_cons b

theorem returned_of_request {ackRequest : Bool} {cmd : Cmd S}
    (hperform : e.perform op = (e.request source destination classifier ackRequest cmd now).1)
    (hreturned : e.returned op = [e.counters]) :
    ((e.returned op).map some).Sublist ((e.queued op).map Datagram.counter) := by
  rw [hreturned, queued_of_request hperform]
  exact List.Sublist.refl _

theorem returned_sublist (e : Engine S) (op : EngineOp S) :
    ((e.returned op).map some).Sublist ((e.queued op).map Datagram.counter) := by
  cases op with
  | readFiltered | writeFiltered | requestBinding | requestSubscription =>
    exact returned_of_request rfl rfl
  | _ => exact List.nil_sublist _

theorem eq_of_transmission {next : MsgCounter}
    {pending : List (Pending S)} (h : Underway past next pending) {q : Pending S}
    (hp : p ∈ pending) (hq : q ∈ pending) {c : MsgCounter} (hpc : c ∈ p.transmissions)
    (hqc : c ∈ q.transmissions) : p = q := by
  have hsent : ∀ {r : Pending S}, r ∈ pending → c ∈ r.transmissions →
      ∃ t ∈ past, t.1 = r.request ∧ Datagram.counter t.2 = some c := by
    intro r hr hrc
    have hmem : (some c, some r.destination) ∈ r.transmissions.map fun c => (some c, some r.destination) :=
      List.mem_map_of_mem hrc
    rw [← (h.entries r hr).transmissions] at hmem
    obtain ⟨t, ht, heq⟩ := List.mem_map.mp hmem
    obtain ⟨hpast, hkey⟩ := List.mem_filter.mp ht
    exact ⟨t, hpast, beq_iff_eq.mp hkey, congrArg Prod.fst heq⟩
  obtain ⟨t, ht, htp, htc⟩ := hsent hp hpc
  obtain ⟨t', ht', htq, htc'⟩ := hsent hq hqc
  have hsame : t = t' := List.inj_on_of_nodup_map h.dispatched.distinct ht ht' (htc.trans htc'.symm)
  refine List.inj_on_of_nodup_map h.requests hp hq ?_
  rw [← htp, ← htq, hsame]

/-- The datagram answers the request: it is served under a classifier that answers, has one command,
refers to a transmission of the request, and comes from the device the request was made to. -/
def AnswersRequest (e : Engine S) (datagram : Datagram S) (p : Pending S) : Prop :=
  ∃ v c, TakenUp e datagram v ∧ settlesRequests v.classifier = true ∧ datagram.commands.length = 1 ∧
    v.reference = some c ∧ c ∈ p.transmissions ∧
    ∀ device, p.destination.device = some device → v.source.device = some device

theorem answers_iff {c : MsgCounter} : answers c source p = true ↔ c ∈ p.transmissions ∧
      ∀ device, p.destination.device = some device → source.device = some device := by
  rw [answers, Bool.and_eq_true, List.contains_iff_mem]
  refine and_congr_right fun _ => ?_
  cases p.destination.device with
  | none => simp
  | some destination => simp

theorem answeredRequest_iff {next : MsgCounter} (h : Underway past next e.pending) :
    e.answeredRequest datagram now = some p ↔ p ∈ e.pending ∧ e.AnswersRequest datagram p := by
  constructor
  · intro hanswered
    rcases e.handleDatagram_cases datagram now with ⟨v, hv⟩ | ⟨-, hunserved⟩
    · rw [answeredRequest_of_takenUp hv now] at hanswered
      split at hanswered
      case isFalse => cases hanswered
      case isTrue hsettles =>
        obtain ⟨hclassifier, hone⟩ := Bool.and_eq_true_iff.mp hsettles
        obtain ⟨c, hreference, hfound⟩ := Option.bind_eq_some_iff.mp hanswered
        obtain ⟨hc, hdevice⟩ := answers_iff.mp (List.find?_some hfound)
        exact ⟨List.mem_of_find?_eq_some hfound, v, c, hv, hclassifier, by simpa using hone, hreference,
          hc, hdevice⟩
    · rw [answeredRequest_of_discarded hunserved] at hanswered
      cases hanswered
  · rintro ⟨hp, v, c, hv, hclassifier, hone, hreference, hc, hdevice⟩
    have hmatches : answers c v.source p = true := answers_iff.mpr ⟨hc, hdevice⟩
    rw [answeredRequest_of_takenUp hv now, hclassifier, hone, hreference]
    change e.pending.find? (answers c v.source) = some p
    cases hfound : e.pending.find? (answers c v.source) with
    | none => exact absurd hmatches (List.find?_eq_none.mp hfound p hp)
    | some q =>
      have hqc := (answers_iff.mp (List.find?_some hfound)).1
      rw [eq_of_transmission h (List.mem_of_find?_eq_some hfound) hp hqc hc]

theorem mem_requestsOf {pending requests : List (Pending S)} (h : (requestsOf pending).Nodup)
    (hsubset : ∀ q ∈ requests, q ∈ pending) (hp : p ∈ pending) :
    p.request ∈ requestsOf requests ↔ p ∈ requests := by
  constructor
  · intro hmem
    obtain ⟨q, hq, heq⟩ := List.mem_map.mp hmem
    exact List.inj_on_of_nodup_map h (hsubset q hq) hp heq ▸ hq
  · exact fun hmem => List.mem_map_of_mem hmem

theorem endings_handleDatagram {next : MsgCounter}
    (h : Underway past next e.pending) (hp : p ∈ e.pending)
    (datagram : Datagram S) (now : Nat) (ending : Ending) :
    (p.request, ending) ∈ e.endings (.handleDatagram datagram now) ↔
      (ending = .answered ∧ e.AnswersRequest datagram p) ∨
        (ending = .removed ∧ e.forsakes (.handleDatagram datagram now) p = true) := by
  obtain ⟨gone, hturnover⟩ := e.turnover_handleDatagram datagram now
  have hanswered : p.request ∈ requestsOf (e.answeredBy (.handleDatagram datagram now)).toList ↔
      e.AnswersRequest datagram p := by
    have hmem : p ∈ (e.answeredBy (.handleDatagram datagram now)).toList ↔
        e.AnswersRequest datagram p := by
      rw [Option.mem_toList]
      exact (answeredRequest_iff h).trans (and_iff_right hp)
    refine (mem_requestsOf h.requests (fun q hq => ?_) hp).trans hmem
    exact ((answeredRequest_iff h).mp (Option.mem_toList.mp hq)).1
  have hremoved : p.request ∈ requestsOf (e.pending.filter
      (e.forsakes (.handleDatagram datagram now))) ↔
      e.forsakes (.handleDatagram datagram now) p = true := by
    rw [mem_requestsOf h.requests (fun q hq => (List.mem_filter.mp hq).1) hp, List.mem_filter,
      and_iff_right hp]
  have htagged : ∀ (requests : List MsgCounter) (kind : Ending),
      (p.request, ending) ∈ requests.map (·, kind) ↔ ending = kind ∧ p.request ∈ requests := by
    intro requests kind
    simp only [List.mem_map, Prod.mk.injEq]
    constructor
    · rintro ⟨request, hmem, rfl, rfl⟩
      exact ⟨rfl, hmem⟩
    · rintro ⟨rfl, hmem⟩
      exact ⟨_, hmem, rfl, rfl⟩
  have hsilent : timedOutIn (e.said (.handleDatagram datagram now)) = [] :=
    (said_timeless hturnover.timeless).1
  rw [endings, hsilent, List.map_nil, List.append_nil, List.mem_append, htagged, htagged, hanswered,
    hremoved]

/-- Every request whose counter has been returned waits, or has ended once: it was answered, timed out,
or was given up with its peer. It is sent at most four times, and no two messages share a counter. A
datagram ends it by answering it, whichever transmission it refers to, or by costing its peer the
record; and in no other way. -/
theorem request_lifecycle (device : LocalDevice S) (ops : List (EngineOp S))
    (hroom : (machine.collect queued (new device) ops).length + 1 < 2 ^ 64) :
    let e := machine.run (new device) ops
    let begun := machine.collect returned (new device) ops
    let ended := machine.collect endings (new device) ops
    let sent := machine.collect queued (new device) ops
    let past := machine.collect transmitted (new device) ops
    begun.Nodup ∧
      (∀ request, request ∈ begun ↔ request ∈ e.outstanding ∨ ∃ ending, (request, ending) ∈ ended) ∧
      (∀ request ∈ e.outstanding, entriesOf request ended = []) ∧
      (∀ request ending, (request, ending) ∈ ended → entriesOf request ended = [(request, ending)]) ∧
      (sent.map Datagram.counter).Nodup ∧ (past.map Prod.snd).Sublist sent ∧
      (∀ request, (entriesOf request past).length ≤ 4) ∧
      ∀ p ∈ e.pending, OnRecord past p ∧ ∀ datagram now ending,
        (p.request, ending) ∈ e.endings (.handleDatagram datagram now) ↔
          (ending = .answered ∧ e.AnswersRequest datagram p) ∨
            (ending = .removed ∧ e.forsakes (.handleDatagram datagram now) p = true) := by
  intro e begun ended sent past
  have hrequests := requestsOnly_new device
  have hfits : (new device).counters.toNat + sent.length < 2 ^ 64 := by
    rw [Nat.add_comm]
    exact hroom
  have hdistinct : (sent.map Datagram.counter).Nodup :=
    (Numbered.nodup (run_numbered hrequests ops) hfits).1
  have hunderway : Underway past e.counters e.pending := by
    have hstart : Underway ([] : List (MsgCounter × Datagram S)) (new device).counters
        (new device).pending :=
      ⟨⟨by simp, by simp, by simp [entriesOf]⟩, List.nodup_nil, fun _ hp => absurd hp List.not_mem_nil⟩
    exact underway_run hstart hrequests ops (admits_unwrapped hrequests ops hfits)
  have hbegun : begun.Nodup := by
    have hsublist : (begun.map some).Sublist (sent.map Datagram.counter) := by
      rw [machine.map_collect, machine.map_collect]
      exact machine.collect_sublist returned_sublist (new device) ops
    exact List.Nodup.of_map some (hdistinct.sublist hsublist)
  have hbooks : Balances begun (ended.map Prod.fst) [] e.outstanding := by
    rw [machine.map_collect]
    exact machine.collect_balanced books_of_perform (new device) ops
  obtain ⟨hmem, hopen, honce⟩ := hbooks.once hbegun
  refine ⟨hbegun, hmem, hopen, fun request ending h => (honce request ending h).1, hdistinct, ?_,
    hunderway.dispatched.few, fun p hp => ⟨hunderway.entries p hp, fun datagram now ending => ?_⟩⟩
  · rw [machine.map_collect]
    exact machine.collect_sublist (fun e op => map_snd_zip_sublist _ _) (new device) ops
  · exact endings_handleDatagram hunderway hp datagram now ending

end Engine

namespace RequestScenario

def gateway : AddressDevice := "d:_i:1_Gateway"
def heatPump : AddressDevice := "d:_i:2_HeatPump"

def gatewayDevice : LocalDevice Schema.limitsOnly := .fromAddress gateway "EnergyManagementSystem"

def asks : EngineOp Schema.limitsOnly :=
  .readFiltered (nodeManagement heatPump) (nodeManagement gateway) (.known .nodeManagementUseCaseData)
    [] 0

/-- A reply to the first request, with these commands. -/
def replies (commands : List (Cmd Schema.limitsOnly)) : Datagram Schema.limitsOnly :=
  ⟨some (Engine.header (nodeManagement heatPump) (nodeManagement gateway) 7 .reply false (some 1)),
    some ⟨some commands⟩⟩

def useCases : Cmd Schema.limitsOnly := Cmd.withData ⟨.nodeManagementUseCaseData, ⟨none⟩⟩

theorem request_lifecycle_answered :
    let ops := [asks, .handleDatagram (replies [useCases]) 1]
    let ended := Engine.machine.collect Engine.endings (Engine.new gatewayDevice) ops
    (1, .answered) ∈ ended ∧ entriesOf 1 ended = [(1, .answered)] := by
  intro ops ended
  have hanswered : (1, .answered) ∈ ended := by decide +kernel
  have hlifecycle := Engine.request_lifecycle gatewayDevice ops (by decide +kernel)
  exact ⟨hanswered, hlifecycle.2.2.2.1 1 .answered hanswered⟩

/-- A device heard of for the first time: it reports a result nobody waits for. -/
def introduces (device : AddressDevice) : EngineOp Schema.limitsOnly :=
  .handleDatagram ⟨some (Engine.header (nodeManagement device) (nodeManagement gateway) 1 .result false
    none), some ⟨some []⟩⟩ 0

def guest (number : Nat) : AddressDevice := "d:_i:3_Guest" ++ toString number

/-- The heat pump and as many guests as there is room for, and a request to the heat pump. -/
def crowded : Engine Schema.limitsOnly :=
  Engine.machine.run (Engine.new gatewayDevice)
    (introduces heatPump :: (List.range 31).map (fun number => introduces (guest number)) ++ [asks])

theorem counters_wrap {n : Nat} (h : n + 2 = 2 ^ 64) : nextMsgCounter^[n + 1] 1 = 1 := by
  have hlast : (nextMsgCounter^[n] 1).toNat = 1 + n := toNat_iterate_nextMsgCounter (by
    have hone : (1 : MsgCounter).toNat = 1 := rfl
    omega)
  rw [Function.iterate_succ_apply', nextMsgCounter, if_neg (by omega)]

theorem counters_asks (n : Nat) (e : Engine Schema.limitsOnly) :
    (Engine.machine.run e (List.replicate n asks)).counters = nextMsgCounter^[n] e.counters := by
  induction n generalizing e with
  | zero => rfl
  | succ n ih =>
    rw [List.replicate_succ, Machine.run_cons, ih, Function.iterate_succ_apply]
    rfl

theorem returned_asks (e : Engine Schema.limitsOnly) : e.returned asks = [e.counters] := rfl

/-- A reply without a command leaves the request it refers to waiting; a datagram from a device not
heard of before ends the request of the peer that gives way; and a request after as many others as there
are counters goes out under the counter of the first. -/
theorem requests_beyond_their_lifecycle :
    (∃ p ∈ (Engine.machine.run (Engine.new gatewayDevice) [asks]).pending,
      p.destination.device = some heatPump ∧ p.transmissions = [1] ∧
      p.request ∈ (Engine.machine.run (Engine.new gatewayDevice)
        [asks, .handleDatagram (replies []) 1]).outstanding) ∧
    (crowded.outstanding = [1] ∧ (crowded.perform (introduces (guest 31))).outstanding = []) ∧
    (Engine.new gatewayDevice).returned asks = [1] ∧
      (Engine.machine.run (Engine.new gatewayDevice) (List.replicate (2 ^ 64 - 1) asks)).returned asks =
        [1] := by
  refine ⟨⟨_, List.mem_singleton_self _, rfl, rfl, by decide +kernel⟩, by decide +kernel, rfl, ?_⟩
  have hcount : 2 ^ 64 - 1 = (2 ^ 64 - 2) + 1 := by norm_num
  have hcounters := counters_asks (2 ^ 64 - 1) (Engine.new gatewayDevice)
  have hwrapped : nextMsgCounter^[(2 ^ 64 - 2) + 1] (Engine.new gatewayDevice).counters = 1 :=
    counters_wrap (by norm_num)
  rw [← hcount, ← hcounters] at hwrapped
  rw [returned_asks, hwrapped]

end RequestScenario

end Eebus.Spine
