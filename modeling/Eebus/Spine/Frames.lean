import Eebus.Spine.Receive

/-! What the engine's operations leave alone. Sending changes the counter and the outbox only;
the local device changes by writes only. -/

namespace Eebus.Spine

open Eebus.Library Eebus.Model

variable {S : Schema}

/-- `e'` is `e` after it has sent some datagrams, all of them of the kind `P`. -/
structure Sends (P : Datagram S → Prop) (e e' : Engine S) : Prop where
  device : e'.device = e.device
  relations : e'.relations = e.relations
  peers : e'.peers = e.peers
  events : e'.events = e.events
  pending : e'.pending = e.pending
  deferred : e'.deferred = e.deferred
  nextToken : e'.nextToken = e.nextToken
  maxResponseDelay : e'.maxResponseDelay = e.maxResponseDelay
  sent : ∃ sent, e'.outbox = e.outbox ++ sent ∧ ∀ d ∈ sent, P d

namespace Sends

variable {P Q : Datagram S → Prop} {e e' e'' : Engine S}

theorem refl (P : Datagram S → Prop) (e : Engine S) : Sends P e e :=
  ⟨rfl, rfl, rfl, rfl, rfl, rfl, rfl, rfl, [], by simp, by simp⟩

theorem trans (h : Sends P e e') (h' : Sends P e' e'') : Sends P e e'' := by
  obtain ⟨sent, hsent, hP⟩ := h.sent
  obtain ⟨sent', hsent', hP'⟩ := h'.sent
  refine ⟨h'.device.trans h.device, h'.relations.trans h.relations, h'.peers.trans h.peers,
    h'.events.trans h.events, h'.pending.trans h.pending, h'.deferred.trans h.deferred,
    h'.nextToken.trans h.nextToken, h'.maxResponseDelay.trans h.maxResponseDelay, sent ++ sent',
    ?_, ?_⟩
  · rw [hsent', hsent, List.append_assoc]
  · intro d hd
    cases List.mem_append.mp hd with
    | inl hd => exact hP d hd
    | inr hd => exact hP' d hd

theorem mono (h : Sends P e e') (hPQ : ∀ d, P d → Q d) : Sends Q e e' := by
  obtain ⟨sent, hsent, hP⟩ := h.sent
  exact ⟨h.device, h.relations, h.peers, h.events, h.pending, h.deferred, h.nextToken,
    h.maxResponseDelay, sent, hsent, fun d hd => hPQ d (hP d hd)⟩

theorem foldl {α : Type} {f : Engine S → α → Engine S} (hf : ∀ e a, Sends P e (f e a)) :
    ∀ (as : List α) (e : Engine S), Sends P e (as.foldl f e)
  | [], e => refl P e
  | a :: as, e => (hf e a).trans (foldl hf as (f e a))

end Sends

def SpineEvent.ofRelation : SpineEvent S → Bool
  | .bindingGranted .. | .bindingReleased .. | .subscriptionGranted .. | .subscriptionReleased .. => true
  | _ => false

def SpineEvent.isNews : SpineEvent S → Bool
  | .discoveryUpdated _ | .useCasesUpdated _ | .dataNotified .. | .replyReceived .. | .resultReceived .. =>
    true
  | _ => false

def Datagram.carrying (source destination : FeatureAddress) (classifier : CmdClassifier)
    (counter : MsgCounter) (cmd : Cmd S) : Datagram S :=
  ⟨some (Engine.header source destination counter classifier true none), some ⟨some [cmd]⟩⟩

def Datagram.isOf (classifier : CmdClassifier) (d : Datagram S) : Prop :=
  d.header.bind Header.cmdClassifier = some classifier

/-- A result, under a reference, that reports an error. -/
def Datagram.reports (reference : MsgCounter) (error : ErrorNumber) (d : Datagram S) : Prop :=
  d.header.bind Header.cmdClassifier = some .result ∧
    d.header.bind Header.msgCounterReference = some reference ∧
    ∃ cmd, d.commands = [cmd] ∧ Engine.resultError cmd = error

namespace Engine

variable {P : Datagram S → Prop}

theorem sends_sendCmd (e : Engine S) (source destination : FeatureAddress)
    (classifier : CmdClassifier) (reference : Option MsgCounter) (cmd : Cmd S)
    (h : P ⟨some (header source destination e.counters classifier false reference),
      some ⟨some [cmd]⟩⟩) : Sends P e (e.sendCmd source destination classifier reference cmd) :=
  ⟨rfl, rfl, rfl, rfl, rfl, rfl, rfl, rfl, _, rfl, by simpa using h⟩

theorem sends_sendResult (e : Engine S) (source destination : FeatureAddress)
    (reference : MsgCounter) (error : ErrorNumber) :
    Sends (Datagram.reports reference error) e (e.sendResult source destination reference error) :=
  e.sends_sendCmd _ _ _ _ _ ⟨rfl, rfl, _, rfl, rfl⟩

theorem sendResult_sent (e : Engine S) (source destination : FeatureAddress)
    (reference : MsgCounter) (error : ErrorNumber) :
    ∃ d, (e.sendResult source destination reference error).outbox = e.outbox ++ [d] ∧
      Datagram.reports reference error d :=
  ⟨_, rfl, rfl, rfl, _, rfl, rfl⟩

theorem sends_notifySubscriber (feature : FeatureAddress) (function : Function S.Other)
    (e : Engine S) (subscriber : FeatureAddress) :
    Sends (Datagram.isOf .notify) e (notifySubscriber feature function e subscriber) := by
  simp only [notifySubscriber]
  split
  · exact Sends.refl _ e
  · exact e.sends_sendCmd _ _ _ _ _ rfl

theorem sends_notify (e : Engine S) (feature : FeatureAddress) (function : Function S.Other) :
    Sends (Datagram.isOf .notify) e (e.notify feature function) := by
  simp only [notify]
  split
  · exact Sends.refl _ e
  · exact Sends.foldl (sends_notifySubscriber feature function) _ e

theorem sends_notifyIf (e : Engine S) (changed : Bool) (feature : FeatureAddress)
    (function : Function S.Other) :
    Sends (Datagram.isOf .notify) e (if changed then e.notify feature function else e) := by
  split
  · exact e.sends_notify feature function
  · exact Sends.refl _ e

theorem sends_acknowledge (e : Engine S) (source destination : FeatureAddress)
    (counter : MsgCounter) (classifier : CmdClassifier) (ackRequest : Bool) (outcome : CmdOutcome) :
    Sends (fun d => ∃ error, outcome = .answer error ∧ Datagram.reports counter error d) e
      (e.acknowledge source destination counter classifier ackRequest outcome) := by
  cases outcome with
  | deferred => exact Sends.refl _ e
  | answer error =>
    simp only [acknowledge]
    split
    · exact (e.sends_sendResult source destination counter error).mono
        fun d hd => ⟨error, rfl, hd⟩
    · exact Sends.refl _ e

theorem sends_answerDeferred (e : Engine S) (write : DeferredWrite S) (error : ErrorNumber) :
    Sends (Datagram.reports write.reference error) e (e.answerDeferred write error) := by
  simp only [answerDeferred]
  split
  · exact e.sends_sendResult _ _ _ _
  · exact Sends.refl _ e

/-- A relation between an engine and what hearing its peers out makes of it; it does not depend on the
records of peers. -/
structure Hearing (R : Engine S → Engine S → Prop) : Prop where
  refl (e : Engine S) : R e e
  trans {e e' e'' : Engine S} : R e e' → R e' e'' → R e e''
  peers (e : Engine S) (peers : List (Peer S)) : R e { e with peers := peers }
  removePeer (e : Engine S) (device : AddressDevice) : R e (e.removePeer device)
  news (e : Engine S) {event : SpineEvent S} (h : event.isNews = true) : R e (e.emit event)
  resolvePending (e : Engine S) (reference : Option MsgCounter) (origin : FeatureAddress) :
    R e (e.resolvePending reference origin).1
  recordRelation (e : Engine S) (request : Datagram S) :
    R e { e with relations := recordRelation e.relations request }

namespace Hearing

variable {R : Engine S → Engine S → Prop}

theorem evict (h : Hearing R) (e : Engine S) : R e e.evict := by
  simp only [Engine.evict]
  split
  · exact h.removePeer e _
  · exact h.peers e _

theorem peerEntry (h : Hearing R) (e : Engine S) (device : AddressDevice) : R e (e.peerEntry device) := by
  simp only [Engine.peerEntry]
  split
  · exact h.refl e
  · split
    · exact h.trans (h.evict e) (h.peers _ _)
    · exact h.peers e _

theorem observeSource (h : Hearing R) (e : Engine S) (source : FeatureAddress) (counter : MsgCounter) :
    R e (e.observeSource source counter).1 := by
  simp only [Engine.observeSource]
  split
  · exact h.refl e
  · exact h.trans (h.peerEntry e _) (h.peers _ _)

theorem absorb (h : Hearing R) (e : Engine S) (source : FeatureAddress) (data : CmdData S) (ops : WriteOps S) :
    R e (e.absorb source data ops).1 := by
  have hupdated : ∀ device (g : Peer S → Peer S), R e ((e.peerEntry device).updatePeer device g) :=
    fun device g => h.trans (h.peerEntry e device) (h.peers _ _)
  simp only [Engine.absorb]
  split
  · simp only [absorbDiscovery]
    split
    · exact h.refl e
    · exact h.trans (hupdated _ _) (h.news _ rfl)
  · simp only [absorbUseCases]
    split
    · exact h.refl e
    · exact h.trans (hupdated _ _) (h.news _ rfl)
  · simp only [resolveRemote]
    split
    · exact h.refl e
    · exact hupdated _ _

theorem handleIncomingData (h : Hearing R) (e : Engine S) (cmd : Cmd S) (source : FeatureAddress)
    (classifier : CmdClassifier) : R e (e.handleIncomingData cmd source classifier).1 := by
  simp only [Engine.handleIncomingData]
  split
  · exact h.refl e
  · refine h.trans (h.absorb e _ _ _) (h.news _ ?_)
    split <;> rfl

theorem informed (h : Hearing R) (e : Engine S) (cmd : Cmd S) (source : FeatureAddress)
    (classifier : CmdClassifier) (reference : Option MsgCounter) :
    R e ((e.resolvePending reference source).1.handleIncomingData cmd source classifier).1 :=
  h.trans (h.resolvePending e reference source) (h.handleIncomingData _ cmd source classifier)

theorem handleResult (h : Hearing R) (e : Engine S) (cmd : Cmd S) (reference : Option MsgCounter)
    (origin : FeatureAddress) : R e (e.handleResult cmd reference origin) := by
  have hpending := h.resolvePending e reference origin
  simp only [Engine.handleResult]
  split
  case h_1 e' heq => rwa [heq] at hpending
  case h_2 e' request heq =>
    rw [heq] at hpending
    refine h.trans hpending (h.trans ?_ (h.news _ rfl))
    split
    · exact h.recordRelation e' request.datagram
    · exact h.refl e'

end Hearing

theorem hearing_device : Hearing fun e e' : Engine S => e'.device = e.device where
  refl _ := rfl
  trans h h' := h'.trans h
  peers _ _ := rfl
  removePeer _ _ := rfl
  news _ _ _ := rfl
  resolvePending _ reference _ := by cases reference <;> rfl
  recordRelation _ _ := rfl

@[simp]
theorem observeSource_device (e : Engine S) (source : FeatureAddress) (counter : MsgCounter) :
    (e.observeSource source counter).1.device = e.device := hearing_device.observeSource e source counter

@[simp]
theorem resolvePending_device (e : Engine S) (reference : Option MsgCounter) (origin : FeatureAddress) :
    (e.resolvePending reference origin).1.device = e.device := hearing_device.resolvePending e reference origin

@[simp]
theorem handleIncomingData_device (e : Engine S) (cmd : Cmd S) (source : FeatureAddress)
    (classifier : CmdClassifier) : (e.handleIncomingData cmd source classifier).1.device = e.device :=
  hearing_device.handleIncomingData e cmd source classifier

@[simp]
theorem handleResult_device (e : Engine S) (cmd : Cmd S) (reference : Option MsgCounter)
    (origin : FeatureAddress) : (e.handleResult cmd reference origin).device = e.device :=
  hearing_device.handleResult e cmd reference origin

@[simp]
theorem handleRead_device (e : Engine S) (cmd : Cmd S) (source destination : FeatureAddress)
    (counter : MsgCounter) : (e.handleRead cmd source destination counter).1.device = e.device := by
  simp only [handleRead]
  split <;> rfl

theorem handleCall_says (e : Engine S) (cmd : Cmd S) (source : FeatureAddress) :
    ∃ relations said, (e.handleCall cmd source).1 =
        { e with relations := relations, events := e.events ++ said } ∧
      ∀ event ∈ said, event.ofRelation = true := by
  have hsilent : ∀ relations, ∃ relations' said, { e with relations := relations } =
      { e with relations := relations', events := e.events ++ said } ∧
      ∀ event ∈ said, event.ofRelation = true :=
    fun relations => ⟨relations, [], by rw [List.append_nil], by simp⟩
  have hsaid : ∀ relations (event : SpineEvent S), event.ofRelation = true →
      ∃ relations' said, { e with relations := relations }.emit event =
        { e with relations := relations', events := e.events ++ said } ∧
        ∀ event ∈ said, event.ofRelation = true :=
    fun relations event h => ⟨relations, [event], rfl, by simpa using h⟩
  simp only [handleCall]
  split
  · simp only [handleBindingRequest]
    repeat' split
    any_goals exact hsilent e.relations
    · exact hsaid _ _ rfl
    · exact hsilent _
  · simp only [handleSubscriptionRequest]
    repeat' split
    any_goals exact hsilent e.relations
    · exact hsaid _ _ rfl
    · exact hsilent _
  · simp only [handleBindingDelete]
    repeat' split
    any_goals exact hsilent e.relations
    exact hsaid _ _ rfl
  · simp only [handleSubscriptionDelete]
    repeat' split
    any_goals exact hsilent e.relations
    exact hsaid _ _ rfl
  · exact hsilent e.relations

@[simp]
theorem handleCall_device (e : Engine S) (cmd : Cmd S) (source : FeatureAddress) :
    (e.handleCall cmd source).1.device = e.device := by
  obtain ⟨relations, said, hsame, -⟩ := e.handleCall_says cmd source
  rw [hsame]

end Engine

end Eebus.Spine
