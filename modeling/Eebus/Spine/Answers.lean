import Eebus.Spine.Replica

/-!
The answers to a datagram: the messages that carry its counter as their reference. What a handler
queues besides (notifications) refers to nothing, and each way out of the dispatch leaves exactly one
place to answer.
-/

namespace Eebus.Spine

open Eebus.Library Eebus.Model

variable {S : Schema}

def Datagram.refersTo (counter : MsgCounter) (d : Datagram S) : Bool :=
  d.header.bind Header.msgCounterReference == some counter

def Datagram.unreferring (d : Datagram S) : Prop := d.header.bind Header.msgCounterReference = none

/-- If the message answers anything, it answers this peer's message of this counter. -/
def Datagram.answersOnly (peer : FeatureAddress) (counter : MsgCounter) (d : Datagram S) : Prop :=
  ∀ c, d.header.bind Header.msgCounterReference = some c →
    c = counter ∧ d.header.bind Header.addressDestination = some peer

/-- A result to this address, under this reference, that reports this error. -/
def Datagram.isResult (peer : FeatureAddress) (counter : MsgCounter) (error : ErrorNumber)
    (d : Datagram S) : Prop :=
  d.header.bind Header.addressDestination = some peer ∧ Datagram.reports counter error d

/-- Exactly one result where one is owed, and nothing otherwise. -/
def resultIf (owed : Bool) (peer : FeatureAddress) (counter : MsgCounter) (error : ErrorNumber)
    (answers : List (Datagram S)) : Prop :=
  if owed then ∃ d, answers = [d] ∧ Datagram.isResult peer counter error d else answers = []

/-- What the engine has queued on the way from `e` to `e'` in answer to this counter. -/
def answersTo (counter : MsgCounter) (e e' : Engine S) : List (Datagram S) :=
  (e'.outbox.drop e.outbox.length).filter (Datagram.refersTo counter)

def Answers (counter : MsgCounter) (e e' : Engine S) (answers : List (Datagram S)) : Prop :=
  ∃ sent, e'.outbox = e.outbox ++ sent ∧ sent.filter (Datagram.refersTo counter) = answers

namespace Answers

variable {counter : MsgCounter} {e e' e'' : Engine S} {answers answers' : List (Datagram S)}

theorem answersTo (h : Answers counter e e' answers) : answersTo counter e e' = answers := by
  obtain ⟨sent, hsent, rfl⟩ := h
  rw [Spine.answersTo, hsent, List.drop_left]

theorem of_outbox (h : e'.outbox = e.outbox) : Answers counter e e' [] :=
  ⟨[], by rw [h, List.append_nil], rfl⟩

theorem trans (h : Answers counter e e' answers) (h' : Answers counter e' e'' answers') :
    Answers counter e e'' (answers ++ answers') := by
  obtain ⟨sent, hsent, rfl⟩ := h
  obtain ⟨sent', hsent', rfl⟩ := h'
  exact ⟨sent ++ sent', by rw [hsent', hsent, List.append_assoc], List.filter_append ..⟩

theorem of_speaks (h : Speaks Datagram.unreferring e e') : Answers counter e e' [] := by
  obtain ⟨sent, hsent, -, hnone⟩ := h
  refine ⟨sent, hsent, List.filter_eq_nil_iff.mpr fun d hd => ?_⟩
  have hd : d.header.bind Header.msgCounterReference = none := hnone d hd
  simp [Datagram.refersTo, hd]

theorem of_mute (h : Mute e e') : Answers counter e e' [] := of_outbox h.1

end Answers

variable {datagram : Datagram S} {write : DeferredWrite S} {e : Engine S} {v : Envelope}
    {source : FeatureAddress} {token : Nat}

namespace Engine

variable {counter : MsgCounter}

theorem answers_sendCmd (e : Engine S) (source destination : FeatureAddress)
    (classifier : CmdClassifier) (counter : MsgCounter) (cmd : Cmd S) :
    Answers counter e (e.sendCmd source destination classifier (some counter) cmd)
      [⟨some (header source destination e.counters classifier false (some counter)),
        some ⟨some [cmd]⟩⟩] := by
  refine ⟨_, rfl, ?_⟩
  simp [Datagram.refersTo, header]

theorem answers_sendResult (e : Engine S) (source destination : FeatureAddress) (counter : MsgCounter)
    (error : ErrorNumber) : ∃ d, Datagram.isResult source counter error d ∧
      Answers counter e (e.sendResult source destination counter error) [d] :=
  ⟨_, ⟨rfl, rfl, rfl, _, rfl, rfl⟩, e.answers_sendCmd _ _ _ _ _⟩

theorem unreferring_notify (e : Engine S) (feature : FeatureAddress) (function : Function S.Other) :
    Speaks Datagram.unreferring e (e.notify feature function) :=
  e.speaks_notify feature function fun _ _ _ => rfl

theorem answers_notify (e : Engine S) (feature : FeatureAddress) (function : Function S.Other) :
    Answers counter e (e.notify feature function) [] :=
  .of_speaks (e.unreferring_notify feature function)

theorem readAnswer_error {cmd : Cmd S} {destination : FeatureAddress}
    {error : ErrorNumber} (h : e.readAnswer cmd source destination = .error error) :
    error.isSuccess = false := by
  simp only [readAnswer] at h
  split at h
  · cases h
    rfl
  split at h
  · cases h
    rfl
  split at h
  · cases h
    rfl
  split at h
  · cases h
    rfl
  split at h
  · cases h
    rfl
  generalize (if isNodeManagement destination then _ else none : Option (CmdData S)) = computed at h
  split at h
  · cases h
    rfl
  split at h
  · cases h
  split at h
  · cases h
    rfl
  split at h
  · cases h
  · cases h
    rfl

theorem answers_handleRead (e : Engine S) (cmd : Cmd S) (source destination : FeatureAddress)
    (counter : MsgCounter) : ((e.handleRead cmd source destination counter).2 = .none ∧
      ∃ d, Datagram.isOf .reply d ∧
        Answers counter e (e.handleRead cmd source destination counter).1 [d]) ∨
    ((e.handleRead cmd source destination counter).2.isSuccess = false ∧
      Answers counter e (e.handleRead cmd source destination counter).1 []) := by
  unfold handleRead
  split
  case h_1 error herror => exact .inr ⟨readAnswer_error herror, .of_outbox rfl⟩
  case h_2 data isPartial hanswer =>
    refine .inl ⟨rfl, _, ?_, e.answers_sendCmd _ _ _ _ _⟩
    rfl

theorem answers_handleWrite (e : Engine S) (cmd : Cmd S) (source destination : FeatureAddress)
    (sent : MsgCounter) (ackRequest : Bool) (now : Nat) :
    Answers counter e (e.handleWrite cmd source destination sent ackRequest now).1 [] := by
  have hsame : Answers counter e e [] := .of_outbox rfl
  unfold handleWrite
  split
  · exact hsame
  split
  · exact hsame
  split
  · exact hsame
  dsimp only
  split
  · exact hsame
  split
  · split
    · exact hsame
    · exact .of_outbox rfl
  · unfold applyWrite
    split
    · exact Answers.trans (.of_outbox rfl) (answers_notify _ _ _)
    · exact .of_outbox rfl

theorem answers_handleCommands (e : Engine S) (commands : List (Cmd S))
    (source destination : FeatureAddress) {classifier : CmdClassifier} (hread : classifier ≠ .read)
    (sent : MsgCounter) (reference : Option MsgCounter) (ackRequest : Bool) (now : Nat) :
    Answers counter e (e.handleCommands commands source destination classifier sent reference
      ackRequest now).1 [] := by
  match commands with
  | [] => cases classifier <;> exact .of_outbox rfl
  | _ :: _ :: _ => exact .of_outbox rfl
  | [cmd] =>
    cases classifier with
    | read => exact absurd rfl hread
    | write => exact answers_handleWrite _ _ _ _ _ _ _
    | call => exact .of_mute (mute_handleCall _ _ _)
    | reply =>
      exact .of_mute (hearing_mute.informed _ _ _ _ _)
    | notify =>
      exact .of_mute (hearing_mute.informed _ _ _ _ _)
    | result => exact .of_mute (hearing_mute.handleResult _ _ _ _)

theorem answers_filed (e : Engine S) (v : Envelope) : Answers counter e (v.filed e).1 [] :=
  .of_mute (hearing_mute.observeSource e _ _)

theorem answers_sendResultIf (e : Engine S) (owed : Bool) (source destination : FeatureAddress)
    (counter : MsgCounter) (error : ErrorNumber) :
    ∃ answers, resultIf owed source counter error answers ∧
      Answers counter e (if owed then e.sendResult source destination counter error else e) answers := by
  cases owed with
  | true =>
    obtain ⟨d, hd, hanswers⟩ := e.answers_sendResult source destination counter error
    exact ⟨[d], ⟨d, rfl, hd⟩, hanswers⟩
  | false => exact ⟨[], rfl, .of_outbox rfl⟩

def outcomeOf (e : Engine S) (datagram : Datagram S) (v : Envelope) (now : Nat) : CmdOutcome :=
  ((v.filed e).1.handleCommands datagram.commands v.source v.destination v.classifier v.counter
    v.reference v.ackRequest now).2

def settled (v : Envelope) (outcome : CmdOutcome) (answers : List (Datagram S)) : Prop :=
  match outcome with
  | .deferred => answers = []
  | .answer error => resultIf (owesAck v.classifier v.ackRequest error) v.source v.counter error answers

theorem answers_serve {e' : Engine S}
    {answered : List (Datagram S)} {outcome : CmdOutcome} (h : TakenUp e datagram v) (now : Nat)
    (hcommands : (v.filed e).1.handleCommands datagram.commands v.source v.destination v.classifier
      v.counter v.reference v.ackRequest now = (e', outcome))
    (hanswers : Answers v.counter (v.filed e).1 e' answered) :
    ∃ answers, settled v outcome answers ∧
      answersTo v.counter e (e.handleDatagram datagram now).1 = answered ++ answers := by
  have hserved : (e.handleDatagram datagram now).1 =
      e'.acknowledge v.source v.destination v.counter v.classifier v.ackRequest outcome := by
    rw [handleDatagram_of_takenUp h now, serve, hcommands]
  have hbefore : Answers v.counter e e' answered := (e.answers_filed v).trans hanswers
  rw [hserved]
  cases outcome with
  | deferred => exact ⟨[], rfl, (hbefore.trans (.of_outbox rfl)).answersTo⟩
  | answer error =>
    obtain ⟨answers, howed, hafter⟩ := e'.answers_sendResultIf
      (owesAck v.classifier v.ackRequest error) v.source v.destination v.counter error
    exact ⟨answers, howed, (hbefore.trans hafter).answersTo⟩

theorem answered_read (h : TakenUp e datagram v) (hread : v.classifier = .read) (now : Nat) :
    ∃ d, answersTo v.counter e (e.handleDatagram datagram now).1 = [d] ∧
      (Datagram.isOf .reply d ∨
        ∃ error, error.isSuccess = false ∧ Datagram.isResult v.source v.counter error d) := by
  have hrefused : ∀ (e' : Engine S) (error : ErrorNumber), error.isSuccess = false →
      (v.filed e).1.handleCommands datagram.commands v.source v.destination v.classifier v.counter
        v.reference v.ackRequest now = (e', .answer error) →
      Answers v.counter (v.filed e).1 e' [] →
      ∃ d, answersTo v.counter e (e.handleDatagram datagram now).1 = [d] ∧
        (Datagram.isOf .reply d ∨
          ∃ error, error.isSuccess = false ∧ Datagram.isResult v.source v.counter error d) := by
    intro e' error herror hcommands hanswers
    obtain ⟨answers, howed, hsent⟩ := answers_serve h now hcommands hanswers
    simp only [settled, resultIf, owesAck, ackScope, hread, herror, Bool.not_false, if_true] at howed
    obtain ⟨d, rfl, hd⟩ := howed
    exact ⟨d, hsent, .inr ⟨error, herror, hd⟩⟩
  rcases hcommand : datagram.commands with - | ⟨cmd, - | ⟨second, rest⟩⟩
  case nil =>
    refine hrefused (v.filed e).1 .general rfl ?_ (.of_outbox rfl)
    rw [hcommand, hread]
    rfl
  case cons.cons =>
    refine hrefused (v.filed e).1 .general rfl ?_ (.of_outbox rfl)
    rw [hcommand]
    rfl
  case cons.nil =>
    have hcommands : (v.filed e).1.handleCommands datagram.commands v.source v.destination v.classifier
        v.counter v.reference v.ackRequest now =
        (((v.filed e).1.handleRead cmd v.source v.destination v.counter).1,
          .answer ((v.filed e).1.handleRead cmd v.source v.destination v.counter).2) := by
      rw [hcommand, hread]
      rfl
    cases (v.filed e).1.answers_handleRead cmd v.source v.destination v.counter with
    | inr hfailed => exact hrefused _ _ hfailed.1 hcommands hfailed.2
    | inl hread' =>
      obtain ⟨herror, d, hd, hanswers⟩ := hread'
      obtain ⟨answers, howed, hsent⟩ := answers_serve h now hcommands hanswers
      rw [herror] at howed
      have hnothing : answers = [] := by
        simpa [settled, resultIf, owesAck, ackScope, hread, ErrorNumber.isSuccess] using howed
      subst hnothing
      exact ⟨d, hsent, .inl hd⟩

theorem answered_outcome (h : TakenUp e datagram v) (hread : v.classifier ≠ .read) (now : Nat) :
    settled v (e.outcomeOf datagram v now)
      (answersTo v.counter e (e.handleDatagram datagram now).1) := by
  obtain ⟨answers, howed, hsent⟩ := answers_serve h now rfl
    (answers_handleCommands _ _ _ _ hread _ _ _ _)
  rw [hsent, List.nil_append]
  exact howed

theorem applyWrite_answered (e : Engine S) (feature : LocalFeature S) (data : CmdData S)
    (ops : WriteOps S) (source destination : FeatureAddress) :
    (e.applyWrite feature data ops source destination).2 ≠ .deferred := by
  unfold applyWrite
  split
  · exact nofun
  · exact nofun

theorem handleWrite_deferred {cmd : Cmd S} {destination : FeatureAddress}
    {sent : MsgCounter} {ackRequest : Bool} {now : Nat}
    (h : (e.handleWrite cmd source destination sent ackRequest now).2 = .deferred) :
    ∃ feature data ops, (e.handleWrite cmd source destination sent ackRequest now).1 =
      e.deferWrite feature data ops source destination sent ackRequest now := by
  revert h
  unfold handleWrite
  split
  · exact nofun
  split
  · exact nofun
  split
  · exact nofun
  dsimp only
  split
  · exact nofun
  split
  · split
    · exact nofun
    · exact fun _ => ⟨_, _, _, rfl⟩
  · exact fun h => absurd h (applyWrite_answered _ _ _ _ _ _)

theorem handleCommands_deferred {commands : List (Cmd S)}
    {destination : FeatureAddress} {classifier : CmdClassifier} {sent : MsgCounter}
    {reference : Option MsgCounter} {ackRequest : Bool} {now : Nat}
    (h : (e.handleCommands commands source destination classifier sent reference ackRequest
      now).2 = .deferred) : classifier = .write ∧ ∃ feature data ops,
      (e.handleCommands commands source destination classifier sent reference ackRequest now).1 =
        e.deferWrite feature data ops source destination sent ackRequest now := by
  match commands with
  | [] => cases classifier <;> cases h
  | _ :: _ :: _ => cases h
  | [cmd] =>
    cases classifier with
    | read | call | reply | notify | result => cases h
    | write => exact ⟨rfl, handleWrite_deferred h⟩

theorem handleDatagram_deferred {now : Nat}
    (h : TakenUp e datagram v) (hdeferred : e.outcomeOf datagram v now = .deferred) :
    v.classifier = .write ∧ ∃ w : DeferredWrite S,
      (e.handleDatagram datagram now).1.deferred = (v.filed e).1.deferred ++ [w] ∧
        w.peer = v.source ∧ w.reference = v.counter ∧ w.ackRequest = v.ackRequest := by
  obtain ⟨hwrite, feature, data, ops, hstate⟩ := handleCommands_deferred hdeferred
  have hqueued : (e.handleDatagram datagram now).1.deferred = ((v.filed e).1.deferWrite feature data ops
      v.source v.destination v.counter v.ackRequest now).deferred := by
    have hserved : (v.filed e).1.handleCommands datagram.commands v.source v.destination v.classifier
        v.counter v.reference v.ackRequest now =
          ((v.filed e).1.deferWrite feature data ops v.source v.destination v.counter v.ackRequest now,
            .deferred) := Prod.ext hstate hdeferred
    rw [handleDatagram_of_takenUp h now, serve, hserved]
    rfl
  rw [hqueued]
  exact ⟨hwrite, _, rfl, rfl, rfl, rfl⟩

theorem answerDeferred_answers {e' : Engine S} (write : DeferredWrite S) (error : ErrorNumber)
    (h : Answers write.reference e e' []) :
    resultIf (write.ackRequest || !error.isSuccess) write.peer write.reference error
      (answersTo write.reference e (e'.answerDeferred write error)) := by
  obtain ⟨answers, howed, hanswers⟩ := e'.answers_sendResultIf
    (owesAck .write write.ackRequest error) write.peer write.feature write.reference error
  have hall : Answers write.reference e (e'.answerDeferred write error) ([] ++ answers) :=
    h.trans hanswers
  rw [hall.answersTo]
  exact howed

theorem finishWrite_answers
    (h : e.findDeferred token = some write) (replacement : Option (CmdData S)) :
    ∃ error, (error.isSuccess = true ↔ (e.finishWrite token replacement).2 = .ok ()) ∧
      resultIf (write.ackRequest || !error.isSuccess) write.peer write.reference error
        (answersTo write.reference e (e.finishWrite token replacement).1) := by
  have hrefused : ∀ {error : FeatureError S}, error.errorNumber.isSuccess = true ↔
      (Except.error (WriteError.notStored error) : Except (WriteError S) Unit) = .ok () := fun {error} =>
    ⟨fun h => by simp [error.errorNumber_ne_none] at h, nofun⟩
  unfold finishWrite
  rw [h]
  dsimp only
  split
  case h_1 => exact ⟨_, hrefused, answerDeferred_answers write _ (.of_outbox rfl)⟩
  case h_2 =>
    split
    case h_1 =>
      refine ⟨.none, ⟨fun _ => rfl, fun _ => rfl⟩, answerDeferred_answers write _ ?_⟩
      exact Answers.trans (.of_outbox rfl) (answers_notify _ _ _)
    case h_2 => exact ⟨_, hrefused, answerDeferred_answers write _ (.of_outbox rfl)⟩

theorem rejectWrite_answers (h : e.findDeferred token = some write) (error : ErrorNumber) :
    ∃ reported, reported.isSuccess = false ∧
      resultIf true write.peer write.reference reported
        (answersTo write.reference e (e.rejectWrite token error).1) := by
  have hreported : (if error.isSuccess then ErrorNumber.commandRejected else error).isSuccess = false := by
    split
    · rfl
    case isFalse hfailed => exact Bool.eq_false_iff.mpr hfailed
  refine ⟨_, hreported, ?_⟩
  have hanswers := answerDeferred_answers write
    (if error.isSuccess then ErrorNumber.commandRejected else error)
    (.of_outbox rfl : Answers write.reference e (e.dropDeferred token) [])
  rw [hreported, Bool.not_false, Bool.or_true] at hanswers
  unfold rejectWrite
  rw [h]
  exact hanswers

/-- A kind that takes in the answers to one message, which are no writes, and all notifications. -/
structure Answering (P : Datagram S → Prop) (peer : FeatureAddress) (counter : MsgCounter) : Prop where
  answer : ∀ {source : FeatureAddress} {number : MsgCounter} {classifier : CmdClassifier} {cmd : Cmd S},
    classifier ≠ .write → P ⟨some (header source peer number classifier false (some counter)),
      some ⟨some [cmd]⟩⟩
  notification : ∀ {feature subscriber : FeatureAddress} {number : MsgCounter} {cmd : Cmd S},
    P ⟨some (header feature subscriber number .notify false none), some ⟨some [cmd]⟩⟩

theorem answering_answersOnly (peer : FeatureAddress) (counter : MsgCounter) :
    Answering (S := S) (Datagram.answersOnly peer counter) peer counter where
  answer _ _ hreference := ⟨(Option.some.inj hreference).symm, rfl⟩
  notification _ hreference := nomatch hreference

section Answering

variable {P : Datagram S → Prop} {source : FeatureAddress}

theorem Answering.sendResultIf (h : Answering P source counter) (e : Engine S) (owed : Bool)
    (destination : FeatureAddress) (error : ErrorNumber) :
    Speaks P e (if owed then e.sendResult source destination counter error else e) := by
  split
  · exact e.speaks_sendCmd (h.answer nofun)
  · exact .refl e

theorem Answering.notify (h : Answering P source counter) (e : Engine S) (feature : FeatureAddress)
    (function : Function S.Other) : Speaks P e (e.notify feature function) :=
  e.speaks_notify feature function fun _ _ _ => h.notification

theorem Answering.handleWrite (h : Answering P source counter) (e : Engine S) (cmd : Cmd S)
    (destination : FeatureAddress) (ackRequest : Bool) (now : Nat) :
    Speaks P e (e.handleWrite cmd source destination counter ackRequest now).1 := by
  have hsame : Speaks P e e := .refl e
  unfold Engine.handleWrite
  split
  · exact hsame
  split
  · exact hsame
  split
  · exact hsame
  dsimp only
  split
  · exact hsame
  split
  · split
    · exact hsame
    · exact Mute.speaks ⟨rfl, rfl⟩
  · unfold applyWrite
    split
    · exact Speaks.trans (Mute.speaks ⟨rfl, rfl⟩) (h.notify _ _ _)
    · exact Mute.speaks ⟨rfl, rfl⟩

theorem Answering.handleCommands (h : Answering P source counter) (e : Engine S)
    (commands : List (Cmd S)) (destination : FeatureAddress) (classifier : CmdClassifier)
    (reference : Option MsgCounter) (ackRequest : Bool) (now : Nat) : Speaks P e
      (e.handleCommands commands source destination classifier counter reference ackRequest now).1 := by
  match commands with
  | [] => cases classifier <;> exact .refl e
  | _ :: _ :: _ => exact .refl e
  | [cmd] =>
    cases classifier with
    | read =>
      change Speaks _ e (e.handleRead cmd source destination counter).1
      unfold handleRead
      split
      · exact .refl e
      · exact e.speaks_sendCmd (h.answer nofun)
    | write => exact h.handleWrite _ _ _ _ _
    | call => exact (mute_handleCall _ _ _).speaks
    | reply => exact (hearing_mute.informed _ _ _ _ _).speaks
    | notify => exact (hearing_mute.informed _ _ _ _ _).speaks
    | result => exact (hearing_mute.handleResult _ _ _ _).speaks

theorem Answering.serve (h : Answering P source counter) (e : Engine S) (datagram : Datagram S)
    (destination : FeatureAddress) (classifier : CmdClassifier) (reference : Option MsgCounter)
    (ackRequest : Bool) (now : Nat) : Speaks P e
      (e.serve datagram source destination classifier counter reference ackRequest now) := by
  refine (h.handleCommands e datagram.commands destination classifier reference ackRequest now).trans ?_
  unfold Engine.serve acknowledge
  dsimp only
  split
  · exact .refl _
  · exact h.sendResultIf _ _ _ _

end Answering

theorem handleDatagram_speaks (e : Engine S) (datagram : Datagram S) (now : Nat) :
    Mute e (e.handleDatagram datagram now).1 ∨
      ∃ source counter, datagram.header.bind Header.addressSource = some source ∧
        Datagram.counter datagram = some counter ∧
        ∀ {P : Datagram S → Prop}, Answering P source counter →
          Speaks P e (e.handleDatagram datagram now).1 := by
  simp only [handleDatagram]
  split
  case h_1 => exact .inl (.refl e)
  case h_2 header hheader =>
    split
    case h_2 => exact .inl (.refl e)
    case h_1 counter classifier source destination hcounter _ hsource _ =>
      refine .inr ⟨source, counter, by simp [hheader, hsource],
        by simp [Datagram.counter, hheader, hcounter], fun {P} h => ?_⟩
      have hfiled : Mute e (e.observeSource source counter).1 := hearing_mute.observeSource e _ _
      split
      · exact .refl e
      split
      · exact h.sendResultIf _ _ _ _
      split
      · exact hfiled.speaks.trans (h.sendResultIf _ _ _ _)
      split
      · exact hfiled.speaks
      · exact hfiled.speaks.trans (h.serve _ _ _ _ _ _ _)

theorem handleDatagram_answers (e : Engine S) (datagram : Datagram S) (now : Nat) :
    Mute e (e.handleDatagram datagram now).1 ∨
      ∃ source counter, datagram.header.bind Header.addressSource = some source ∧
        Datagram.counter datagram = some counter ∧
        Speaks (Datagram.answersOnly source counter) e (e.handleDatagram datagram now).1 := by
  refine (e.handleDatagram_speaks datagram now).imp_right fun h => ?_
  obtain ⟨source, counter, hsource, hcounter, hspeaks⟩ := h
  exact ⟨source, counter, hsource, hcounter, hspeaks (answering_answersOnly source counter)⟩

theorem finishWrite_speaks
    (h : e.findDeferred token = some write) (replacement : Option (CmdData S)) {P : Datagram S → Prop}
    (hanswering : Answering P write.peer write.reference) :
    Speaks P e (e.finishWrite token replacement).1 := by
  have hquiet : ∀ {e' : Engine S}, Mute e e' → Speaks P e e' := Mute.speaks
  unfold finishWrite
  rw [h]
  dsimp only
  split
  case h_1 => exact (hquiet ⟨rfl, rfl⟩).trans (hanswering.sendResultIf _ _ _ _)
  case h_2 =>
    split
    case h_1 =>
      refine Speaks.trans ?_ (hanswering.sendResultIf _ _ _ _)
      exact (hquiet ⟨rfl, rfl⟩).trans (hanswering.notify _ _ _)
    case h_2 => exact (hquiet ⟨rfl, rfl⟩).trans (hanswering.sendResultIf _ _ _ _)

theorem answersOnly_finishWrite
    (h : e.findDeferred token = some write) (replacement : Option (CmdData S)) :
    Speaks (Datagram.answersOnly write.peer write.reference) e (e.finishWrite token replacement).1 :=
  finishWrite_speaks h replacement (answering_answersOnly _ _)

theorem rejectWrite_speaks
    (h : e.findDeferred token = some write) (error : ErrorNumber) {P : Datagram S → Prop}
    (hanswering : Answering P write.peer write.reference) :
    Speaks P e (e.rejectWrite token error).1 := by
  have hdropped : Mute e (e.dropDeferred token) := ⟨rfl, rfl⟩
  unfold rejectWrite
  rw [h]
  exact hdropped.speaks.trans (hanswering.sendResultIf _ _ _ _)

theorem answersOnly_rejectWrite (h : e.findDeferred token = some write) (error : ErrorNumber) :
    Speaks (Datagram.answersOnly write.peer write.reference) e (e.rejectWrite token error).1 :=
  rejectWrite_speaks h error (answering_answersOnly _ _)

theorem observe_duplicate {tracker : MsgCounterTracker} {counter : MsgCounter}
    (h : (tracker.observe counter).2.isAcceptable = false) :
    tracker.last.isSome = true ∧ (tracker.observe counter).1 = tracker := by
  cases hlast : tracker.last with
  | none => simp [MsgCounterTracker.observe, hlast, CounterCheck.isAcceptable] at h
  | some last =>
    refine ⟨rfl, ?_⟩
    simp only [MsgCounterTracker.observe, hlast] at h ⊢
    by_cases hahead : counter > last
    · by_cases hnext : counter - last = 1
      · simp [hahead, hnext, CounterCheck.isAcceptable] at h
      · simp [hahead, hnext, CounterCheck.isAcceptable] at h
    rw [if_neg hahead] at h ⊢
    split
    case isTrue hrestart =>
      rw [if_pos hrestart] at h
      cases h
    case isFalse hrestart =>
      rw [if_neg hrestart] at h
      split
      · rfl
      case isFalse hwindow =>
        rw [if_neg hwindow] at h
        split
        · rfl
        case isFalse hunseen =>
          rw [if_neg hunseen] at h
          cases h

theorem observeSource_duplicate {counter : MsgCounter}
    (h : (e.observeSource source counter).2 = false) : (e.observeSource source counter).1 = e := by
  cases hdevice : source.device with
  | none => simp only [observeSource, hdevice]
  | some device =>
    have hchecked := (e.observeSource_files hdevice counter).2
    rw [h] at hchecked
    obtain ⟨hsome, hsame⟩ := observe_duplicate hchecked.symm
    cases hfound : e.findPeer device with
    | none =>
      have hnew : e.peerAt device = Peer.new device := by simp [peerAt, hfound]
      rw [hnew] at hsome
      cases hsome
    | some peer =>
      simp only [observeSource, hdevice, observeCounter, peerEntry_of_found hfound, updatePeer]
      rw [hsame, peerAt_of_found hfound]
      have hpeers : modifyFirst (Peer.isAt device)
          (fun p _ => { p with counters := peer.counters }) e.peers = e.peers :=
        (modifyFirst_eq_self_iff hfound).mpr rfl
      rw [hpeers]

/-- The header is complete and can be trusted, but the counter has been seen before. -/
structure Repeated (e : Engine S) (datagram : Datagram S) (source : FeatureAddress) : Prop where
  header : ∃ h counter classifier destination, datagram.header = some h ∧
    h.msgCounter = some counter ∧ h.cmdClassifier = some classifier ∧
    h.addressSource = some source ∧ h.addressDestination = some destination ∧
    versionAcceptable h.specificationVersion = true ∧ (e.observeSource source counter).2 = false
  trusted : e.sourceTrusted source = true

theorem handleDatagram_repeated
    (h : Repeated e datagram source) (now : Nat) : (e.handleDatagram datagram now).1 = e := by
  obtain ⟨header, counter, classifier, destination, hheader, hcounter, hclassifier, hsource,
    hdestination, hversion, hseen⟩ := h.header
  have hsame := observeSource_duplicate hseen
  simp only [handleDatagram, hheader, hcounter, hclassifier, hsource, hdestination, h.trusted,
    hversion, hseen, Bool.not_true, Bool.not_false, Bool.false_and, Bool.false_eq_true, if_false,
    if_true]
  split
  · exact hsame
  · exact hsame

/-- The write that waits for the application's decision is answered by that decision, if it asked to
be or if it fails. -/
def AnsweredWhenDecided (v : Envelope) (w : DeferredWrite S) : Prop :=
  ∀ later : Engine S, later.findDeferred w.token = some w →
    (∀ replacement, ∃ error,
      (error.isSuccess = true ↔ (later.finishWrite w.token replacement).2 = .ok ()) ∧
        resultIf (v.ackRequest || !error.isSuccess) v.source v.counter error
          (answersTo v.counter later (later.finishWrite w.token replacement).1)) ∧
    ∀ refusal, ∃ error, error.isSuccess = false ∧
      resultIf true v.source v.counter error
        (answersTo v.counter later (later.rejectWrite w.token refusal).1)

/-- The answers a datagram that is taken up gets, classifier by classifier. -/
structure AnsweredOnce (e : Engine S) (datagram : Datagram S) (v : Envelope) (now : Nat)
    (answers : List (Datagram S)) : Prop where
  read : v.classifier = .read → ∃ d, answers = [d] ∧ (Datagram.isOf .reply d ∨
    ∃ error, error.isSuccess = false ∧ Datagram.isResult v.source v.counter error d)
  decided : v.classifier = .write ∨ v.classifier = .call →
    ∀ error, e.outcomeOf datagram v now = .answer error →
      resultIf (v.ackRequest || !error.isSuccess) v.source v.counter error answers
  deferred : e.outcomeOf datagram v now = .deferred → answers = [] ∧ v.classifier = .write ∧
    ∃ w : DeferredWrite S, (e.handleDatagram datagram now).1.deferred =
      (v.filed e).1.deferred ++ [w] ∧ AnsweredWhenDecided v w
  informed : v.classifier = .reply ∨ v.classifier = .notify →
    answers = [] ∨ ∃ d error, answers = [d] ∧ Datagram.isResult v.source v.counter error d
  result : v.classifier = .result → answers = []

theorem answeredWhenDecided {w : DeferredWrite S} (hpeer : w.peer = v.source)
    (hreference : w.reference = v.counter) (hack : w.ackRequest = v.ackRequest) :
    AnsweredWhenDecided v w := by
  intro later hfound
  rw [← hpeer, ← hreference, ← hack]
  exact ⟨finishWrite_answers hfound, rejectWrite_answers hfound⟩

theorem settled_of_answer {now : Nat}
    {error : ErrorNumber} (h : TakenUp e datagram v) (hread : v.classifier ≠ .read)
    (houtcome : e.outcomeOf datagram v now = .answer error) :
    resultIf (owesAck v.classifier v.ackRequest error) v.source v.counter error
      (answersTo v.counter e (e.handleDatagram datagram now).1) := by
  have hsettled := answered_outcome h hread now
  rwa [houtcome] at hsettled

theorem resultIf_none_or_one {owed : Bool} {peer : FeatureAddress} {counter : MsgCounter}
    {error : ErrorNumber} {answers : List (Datagram S)} (h : resultIf owed peer counter error answers) :
    answers = [] ∨ ∃ d error, answers = [d] ∧ Datagram.isResult peer counter error d := by
  cases owed with
  | true =>
    obtain ⟨d, hd, hresult⟩ := h
    exact .inr ⟨d, error, hd, hresult⟩
  | false => exact .inl h

/-- A datagram that is taken up gets one answer, where one is owed: a read its reply or an error, a
write or a call its result, at once or when the application has decided, a reply or a notification at
most a result, a result nothing. One whose counter has been seen before does nothing at all. -/
theorem one_answer_per_datagram (e : Engine S) (datagram : Datagram S) (now : Nat) :
    (∀ v, TakenUp e datagram v → AnsweredOnce e datagram v now
      (answersTo v.counter e (e.handleDatagram datagram now).1)) ∧
    ∀ source, Repeated e datagram source → (e.handleDatagram datagram now).1 = e := by
  refine ⟨fun v h => ⟨fun hread => answered_read h hread now, ?_, fun hdeferred => ?_, ?_, ?_⟩,
    fun source h => handleDatagram_repeated h now⟩
  · intro hdecides error houtcome
    have hread : v.classifier ≠ .read := by
      cases hdecides with
      | inl hwrite => exact hwrite ▸ nofun
      | inr hcall => exact hcall ▸ nofun
    have howed : owesAck v.classifier v.ackRequest error = (v.ackRequest || !error.isSuccess) := by
      cases hdecides with
      | inl hwrite => rw [hwrite]; rfl
      | inr hcall => rw [hcall]; rfl
    have hsettled := settled_of_answer h hread houtcome
    rwa [howed] at hsettled
  · obtain ⟨hwrite, w, hqueued, hpeer, hreference, hack⟩ := handleDatagram_deferred h hdeferred
    have hsettled := answered_outcome h (hwrite ▸ nofun) now
    rw [hdeferred] at hsettled
    exact ⟨hsettled, hwrite, w, hqueued, answeredWhenDecided hpeer hreference hack⟩
  · intro hinforms
    have hread : v.classifier ≠ .read := by
      cases hinforms with
      | inl hreply => exact hreply ▸ nofun
      | inr hnotify => exact hnotify ▸ nofun
    cases houtcome : e.outcomeOf datagram v now with
    | answer error => exact resultIf_none_or_one (settled_of_answer h hread houtcome)
    | deferred =>
      have hsettled := answered_outcome h hread now
      rw [houtcome] at hsettled
      exact .inl hsettled
  · intro hresult
    have hread : v.classifier ≠ .read := hresult ▸ nofun
    cases houtcome : e.outcomeOf datagram v now with
    | answer error =>
      have hsettled := settled_of_answer h hread houtcome
      rw [hresult] at hsettled
      exact hsettled
    | deferred =>
      have hsettled := answered_outcome h hread now
      rw [houtcome] at hsettled
      exact hsettled

end Engine

end Eebus.Spine
