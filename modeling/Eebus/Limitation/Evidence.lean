import Eebus.Limitation.Deciding

/-!
The record of limits and their answers, held against what the engine stored and sent.
-/

namespace Eebus.Limitation

open Eebus.Library Eebus.Model Eebus.Spine

variable {S : Schema}

def refuses (peer : FeatureAddress) (counter : MsgCounter) (d : Datagram S) : Bool :=
  d.header.bind Header.addressDestination == some peer &&
    d.header.bind Header.cmdClassifier == some .result &&
    d.header.bind Header.msgCounterReference == some counter &&
    d.commands.any fun cmd => !(Engine.resultError cmd).isSuccess

def refused (e e' : Engine S) (write : WriteRequest S) : Bool :=
  (e'.outbox.drop e.outbox.length).any (refuses write.origin write.request)

def reportsStored (write : WriteRequest S) : SpineEvent S → Bool
  | .dataWritten feature origin function =>
    decide (feature = write.feature ∧ origin = write.origin ∧ function = write.data.function)
  | _ => false

def stored (e e' : Engine S) (write : WriteRequest S) : Bool :=
  (e'.events.drop e.events.length).any (reportsStored write)

/-- The outcome on record is the one that went on the wire. -/
def Agrees (e e' : Engine S) (write : WriteRequest S) (outcome : WriteOutcome) : Prop :=
  (outcome.isAccepted = true ↔ stored e e' write = true ∧ refused e e' write = false) ∧
    (outcome.isAccepted = false ↔ refused e e' write = true)

instance {e e' : Engine S} {write : WriteRequest S} {outcome : WriteOutcome} :
    Decidable (Agrees e e' write outcome) := inferInstanceAs (Decidable (_ ∧ _))

theorem refuses_of_isResult {peer : FeatureAddress} {counter : MsgCounter} {error : ErrorNumber}
    {d : Datagram S} (h : Datagram.isResult peer counter error d) :
    refuses peer counter d = !error.isSuccess := by
  obtain ⟨hpeer, hclassifier, hreference, cmd, hcommands, herror⟩ := h
  simp [refuses, hpeer, hclassifier, hreference, hcommands, herror]

theorem refersTo_of_refuses {peer : FeatureAddress} {counter : MsgCounter} {d : Datagram S}
    (h : refuses peer counter d = true) : Datagram.refersTo counter d = true := by
  simp only [refuses, Bool.and_eq_true] at h
  exact h.1.2

variable {write : WriteRequest S}

theorem refused_iff_answers {e e' : Engine S} :
    refused e e' write = (answersTo write.request e e').any (refuses write.origin write.request) := by
  rw [refused, answersTo, Bool.eq_iff_iff, List.any_eq_true, List.any_eq_true]
  constructor
  · rintro ⟨d, hd, hrefuses⟩
    exact ⟨d, List.mem_filter.mpr ⟨hd, refersTo_of_refuses hrefuses⟩, hrefuses⟩
  · rintro ⟨d, hd, hrefuses⟩
    exact ⟨d, (List.mem_filter.mp hd).1, hrefuses⟩

theorem refused_of_resultIf {e e' : Engine S} {owed : Bool} {error : ErrorNumber}
    (h : resultIf owed write.origin write.request error (answersTo write.request e e')) :
    refused e e' write = (owed && !error.isSuccess) := by
  rw [refused_iff_answers]
  cases owed with
  | true =>
    obtain ⟨d, hanswers, hresult⟩ := h
    simp [hanswers, refuses_of_isResult hresult]
  | false =>
    have hnone : answersTo write.request e e' = [] := h
    simp [hnone]

theorem Announces.unheard {e e' e'' : Engine S} (h : Announces e' e'')
    (hgrown : ∃ sent, e'.outbox = e.outbox ++ sent) (write : WriteRequest S) :
    refused e e'' write = refused e e' write ∧ stored e e'' write = stored e e' write := by
  obtain ⟨sent, hsent⟩ := hgrown
  obtain ⟨notes, hnotes, hquiet⟩ := h.sent
  constructor
  · have hnone : notes.any (refuses write.origin write.request) = false := by
      refine List.any_eq_false.mpr fun d hd hrefuses => ?_
      have hquiet : d.header.bind Header.msgCounterReference = none := hquiet d hd
      have hrefers := refersTo_of_refuses hrefuses
      simp [Datagram.refersTo, hquiet] at hrefers
    simp only [refused, hnotes, hsent, List.append_assoc, List.drop_left, List.any_append, hnone,
      Bool.or_false]
  · rw [stored, stored, h.events]

theorem finishWrite_stored {e : Engine S} {waiting : DeferredWrite S}
    (hfound : e.findDeferred write.token = some waiting) (hfiled : write.Filed waiting) :
    stored e (e.acceptWrite write.token).1 write = true ↔
      (e.acceptWrite write.token).2 = .ok () := by
  have hsilent : ∀ {e' : Engine S}, e'.events = e.events → stored e e' write = false := by
    intro e' hevents
    simp [stored, hevents]
  unfold Engine.acceptWrite Engine.finishWrite
  rw [hfound]
  dsimp only
  split
  case h_1 =>
    refine iff_of_false (Bool.eq_false_iff.mp (hsilent ?_)) fun h => by cases h
    exact (Engine.sends_answerDeferred _ _ _).events
  case h_2 =>
    split
    case h_1 feature' _ =>
      refine iff_of_true ?_ rfl
      have hevents := (Engine.sends_answerDeferred
        (((e.dropDeferred write.token).storeFeature waiting.feature feature').reportWritten
          waiting.feature waiting.peer waiting.data.function) waiting .none).events.trans
        (Engine.sends_notify _ _ _).events
      rw [stored, hevents]
      simp [Engine.emit, Engine.storeFeature, Engine.dropDeferred, reportsStored, hfiled.feature,
        hfiled.origin, hfiled.data]
    case h_2 =>
      refine iff_of_false (Bool.eq_false_iff.mp (hsilent ?_)) fun h => by cases h
      exact (Engine.sends_answerDeferred _ _ _).events

/-- How a limit write can be decided: the engine once that is done, and the outcome on record. -/
inductive LimitDecision (e : Engine S) (write : WriteRequest S) : Engine S → WriteOutcome → Prop
  | rejected (reason : NackReason) : LimitDecision e write
      (e.rejectWrite write.token (WriteOutcome.rejected reason).errorNumber).1 (.rejected reason)
  | accepted (actor : ControllableSystemActor) (h : (e.acceptWrite write.token).2 = .ok ()) :
      LimitDecision e write (actor.publish (e.acceptWrite write.token).1) .accepted
  | unstored (actor : ControllableSystemActor) (h : (e.acceptWrite write.token).2 ≠ .ok ()) :
      LimitDecision e write (actor.publish (e.acceptWrite write.token).1) (.rejected .notStored)

def recordOf (write : WriteRequest S) (now : Nat) : CsEvent → Option LimitRecord
  | .limitDecided request limit outcome =>
    some ⟨now, write.origin.device, request, some limit, outcome⟩
  | .limitUnreadable request outcome => some ⟨now, write.origin.device, request, none, outcome⟩
  | _ => none

/-- A limit write has been decided: one record is added to the log, about this write, and the engine
has done what a decision of that outcome does. -/
structure DecidedBy (actor : ControllableSystemActor) (e : Engine S) (write : WriteRequest S) (now : Nat)
    (result : ControllableSystemActor × Engine S × CsEvent) (record : LimitRecord) : Prop where
  said : recordOf write now result.2.2 = some record
  logged : result.1.audit = actor.audit.record record
  request : record.request = write.request
  peer : record.peer = write.origin.device
  done : LimitDecision e write result.2.1 record.outcome

theorem refuseUnreadable_decides (actor : ControllableSystemActor) (e : Engine S)
    (write : WriteRequest S) (addressed : Bool) (now : Nat) :
    ∃ record, DecidedBy actor e write now (actor.refuseUnreadable e write addressed now) record := by
  have hreason : ∃ reason, (if addressed then actor.system.onUnreadableLimitWrite now
      else (actor.system, .rejected .unreadable)).2 = .rejected reason := by
    split
    · unfold ControllableSystem.onUnreadableLimitWrite ControllableSystem.refuse
      dsimp only
      split <;> exact ⟨_, rfl⟩
    · exact ⟨_, rfl⟩
  unfold ControllableSystemActor.refuseUnreadable
  generalize (if addressed then actor.system.onUnreadableLimitWrite now
    else (actor.system, .rejected .unreadable)) = decided at hreason
  obtain ⟨system, outcome⟩ := decided
  obtain ⟨reason, rfl⟩ := hreason
  exact ⟨_, rfl, rfl, rfl, rfl, .rejected reason⟩

theorem answerLimit_decides (actor : ControllableSystemActor) (e : Engine S)
    (write : WriteRequest S) (limit : LimitWrite) (now : Nat) :
    ∃ record, DecidedBy actor e write now (actor.answerLimit e write limit now) record := by
  unfold ControllableSystemActor.answerLimit
  dsimp only
  cases houtcome : (actor.system.onLimitWrite limit .apply now).2 with
  | accepted =>
    simp only [WriteOutcome.isAccepted, if_true]
    split
    case h_1 e' heq =>
      refine ⟨_, rfl, rfl, rfl, rfl, ?_⟩
      have hdone : LimitDecision e write _ _ := .accepted
        { actor with system := (actor.system.onLimitWrite limit .apply now).1 } (by rw [heq])
      rwa [heq] at hdone
    case h_2 e' error heq =>
      refine ⟨_, rfl, rfl, rfl, rfl, ?_⟩
      have hdone : LimitDecision e write _ _ := .unstored
        { actor with system :=
          (actor.system.onLimitWrite limit .apply now).1.onUnstoredLimitWrite now } (by rw [heq]; nofun)
      rwa [heq] at hdone
  | rejected reason =>
    simp only [WriteOutcome.isAccepted, Bool.false_eq_true, if_false]
    exact ⟨_, rfl, rfl, rfl, rfl, .rejected reason⟩

theorem decideLimit_decides (actor : ControllableSystemActor) (e : Engine S) (write : WriteRequest S)
    (now : Nat) :
    ∃ record, DecidedBy actor e write now (actor.decideLimit e write now) record := by
  unfold ControllableSystemActor.decideLimit
  dsimp only
  split
  · exact refuseUnreadable_decides actor e write _ now
  · exact answerLimit_decides actor e write _ now

theorem LimitDecision.agrees_iff {put : List (WriteRequest S)} {e e' : Engine S}
    {outcome : WriteOutcome} (h : LimitDecision e write e' outcome)
    (hjournal : Journal put e) (hput : write ∈ put) :
    Agrees e e' write outcome ↔ (e.findDeferred write.token).isSome = true := by
  cases hfound : e.findDeferred write.token with
  | none =>
    -- The token is spent: nothing is stored, nothing is sent, and the record says it was refused.
    have hrejects : ∀ error, e.rejectWrite write.token error = (e, false) := fun error => by
      rw [Engine.rejectWrite, hfound]
    have haccepts : e.acceptWrite write.token = (e, .error .unknownToken) := by
      rw [Engine.acceptWrite, Engine.finishWrite, hfound]
    have hunsent : refused e e write = false := by simp [refused]
    refine iff_of_false ?_ Bool.false_ne_true
    cases h with
    | rejected reason =>
      rw [hrejects, Agrees, hunsent]
      exact fun hagrees => Bool.false_ne_true (hagrees.2.mp rfl)
    | accepted actor hstored =>
      rw [haccepts] at hstored
      cases hstored
    | unstored actor hunstored =>
      rw [haccepts, Agrees, ((Announces.of_publish actor e).unheard ⟨[], by simp⟩ write).1, hunsent]
      exact fun hagrees => Bool.false_ne_true (hagrees.2.mp rfl)
  | some waiting =>
    have hfiled := hjournal.found hput hfound
    refine iff_of_true ?_ rfl
    obtain ⟨error, hsuccess, hanswered⟩ := Engine.finishWrite_answers hfound none
    rw [hfiled.origin, hfiled.request] at hanswered
    have hrefused := refused_of_resultIf hanswered
    have hstored := finishWrite_stored hfound hfiled
    obtain ⟨sent, hsent, -⟩ := Engine.answersOnly_finishWrite hfound none
    have hpublished := fun actor : ControllableSystemActor =>
      (Announces.of_publish actor (e.acceptWrite write.token).1).unheard ⟨sent, hsent⟩ write
    cases h with
    | accepted actor hok =>
      have herror : error.isSuccess = true := hsuccess.mpr hok
      rw [herror, Bool.not_true, Bool.and_false] at hrefused
      rw [Agrees, (hpublished actor).1, (hpublished actor).2, Engine.acceptWrite, hrefused]
      exact ⟨⟨fun _ => ⟨hstored.mpr hok, rfl⟩, fun _ => rfl⟩, by simp [WriteOutcome.isAccepted]⟩
    | unstored actor hfailed =>
      have herror : error.isSuccess = false := Bool.eq_false_iff.mpr fun h => hfailed (hsuccess.mp h)
      rw [herror, Bool.not_false, Bool.or_true, Bool.true_and] at hrefused
      rw [Agrees, (hpublished actor).1, (hpublished actor).2, Engine.acceptWrite, hrefused]
      exact ⟨iff_of_false Bool.false_ne_true fun h => Bool.false_ne_true h.2.symm, fun _ => rfl, fun _ => rfl⟩
    | rejected reason =>
      obtain ⟨reported, hreported, hresult⟩ := Engine.rejectWrite_answers hfound
        (WriteOutcome.rejected reason).errorNumber
      rw [hfiled.origin, hfiled.request] at hresult
      have hsaid := refused_of_resultIf hresult
      rw [hreported, Bool.not_false, Bool.true_and] at hsaid
      rw [Agrees, hsaid]
      exact ⟨iff_of_false Bool.false_ne_true fun h => Bool.false_ne_true h.2.symm, fun _ => rfl, fun _ => rfl⟩

namespace Running

/-- The engine as the actor meets it in a call: the event it is handed has left the queue. -/
def polled (s : Running S) : HostCall S → Engine S
  | .relay _ => { s.engine with events := s.engine.events.drop 1 }
  | _ => s.engine

def handed (s : Running S) : HostCall S → Option (SpineEvent S × Nat)
  | .handleEvent event now => some (event, now)
  | .relay now => s.engine.events.head?.map (·, now)
  | _ => none

/-- The limit write a call hands to the actor, and when. -/
def limitHanded (s : Running S) (call : HostCall S) : Option (WriteRequest S × Nat) :=
  match s.handed call with
  | some (.writeRequested write, now) =>
    if write.feature = s.actor.features.loadControl then some (write, now) else none
  | _ => none

def logged (s : Running S) (call : HostCall S) : List LimitRecord :=
  match s.limitHanded call, (s.serve call).2 with
  | some (write, now), some event => (recordOf write now event).toList
  | _, _ => []

theorem serve_handed {s : Running S} {call : HostCall S} {event : SpineEvent S} {now : Nat}
    (h : s.handed call = some (event, now)) :
    s.serve call = of (s.actor.handleEvent (s.polled call) event now) := by
  cases call with
  | handleEvent event' now' =>
    obtain ⟨rfl, rfl⟩ := Prod.mk.inj (Option.some.inj h)
    rfl
  | relay now' =>
    cases hevents : s.engine.events with
    | nil => simp [handed, hevents] at h
    | cons first rest =>
      simp only [handed, hevents, List.head?_cons, Option.map_some, Option.some.injEq] at h
      obtain ⟨rfl, rfl⟩ := Prod.mk.inj h
      simp only [serve, perform, polled, hevents, List.drop_one, List.tail_cons]
  | _ => cases h

theorem handed_of_limit {s : Running S} {call : HostCall S} {now : Nat}
    (h : s.limitHanded call = some (write, now)) :
    s.handed call = some (.writeRequested write, now) ∧
      write.feature = s.actor.features.loadControl := by
  unfold limitHanded at h
  split at h
  case h_1 write' now' hhanded =>
    split at h
    case isTrue hfeature =>
      obtain ⟨rfl, rfl⟩ := Prod.mk.inj (Option.some.inj h)
      exact ⟨hhanded, hfeature⟩
    case isFalse => cases h
  case h_2 => cases h

theorem serve_limit {s : Running S} {call : HostCall S} {now : Nat}
    (h : s.limitHanded call = some (write, now)) : ∃ record, s.logged call = [record] ∧
      (s.serve call).1.actor.audit = s.actor.audit.record record ∧
      record.request = write.request ∧ record.peer = write.origin.device ∧
      LimitDecision (s.polled call) write (s.serve call).1.engine record.outcome := by
  obtain ⟨hhanded, hfeature⟩ := handed_of_limit h
  obtain ⟨record, hdecided⟩ := decideLimit_decides s.actor (s.polled call) write now
  have hserved := serve_handed hhanded
  simp only [ControllableSystemActor.handleEvent, hfeature, if_true, of] at hserved
  refine ⟨record, ?_, ?_, hdecided.request, hdecided.peer, ?_⟩
  · simp only [logged, h, hserved, hdecided.said, Option.toList_some]
  · rw [hserved]
    exact hdecided.logged
  · rw [hserved]
    exact hdecided.done

theorem serve_silent {s : Running S} {call : HostCall S} (h : s.limitHanded call = none) :
    s.logged call = [] ∧ (s.serve call).1.actor.audit = s.actor.audit := by
  refine ⟨by simp only [logged, h], ?_⟩
  have hevent : ∀ (e : Engine S) (event : SpineEvent S) (now : Nat),
      (∀ write, event = .writeRequested write → write.feature ≠ s.actor.features.loadControl) →
      (s.actor.handleEvent e event now).1.audit = s.actor.audit := by
    intro e event now hother
    unfold ControllableSystemActor.handleEvent
    cases event with
    | dataNotified | replyReceived =>
      simp only [ControllableSystemActor.onData]
      split <;> rfl
    | writeRequested write =>
      dsimp only
      rw [if_neg (hother write rfl)]
      split
      · simp only [ControllableSystemActor.decideFailsafe]
        split
        · split
          · split <;> rfl
          · rfl
        · rfl
      · rfl
    | _ => rfl
  have hhanded : ∀ event now, s.handed call = some (event, now) →
      (s.serve call).1.actor.audit = s.actor.audit := by
    intro event now heq
    rw [serve_handed heq]
    refine hevent _ event now fun write hwrite hfeature => ?_
    subst hwrite
    simp [limitHanded, heq, hfeature] at h
  cases call with
  | handleEvent event now => exact hhanded event now rfl
  | handleTimeout now =>
    simp only [serve, perform, of, ControllableSystemActor.handleTimeout]
    split <;> rfl
  | relay now =>
    cases hevents : s.engine.events with
    | nil => simp only [serve, perform, hevents]
    | cons event rest => exact hhanded event now (by simp [handed, hevents])
  | interrupt reason now =>
    simp only [serve, ControllableSystemActor.interrupt]
    split <;> rfl
  | engine => rfl

theorem host_logged (s : Running S) (calls : List (HostCall S)) :
    (host.run s calls).actor.audit = (host.collect logged s calls).foldl AuditLog.record s.actor.audit := by
  induction calls generalizing s with
  | nil => rfl
  | cons call rest ih =>
    have hstep : (s.serve call).1.actor.audit = (s.logged call).foldl AuditLog.record s.actor.audit := by
      cases hlimit : s.limitHanded call with
      | none =>
        obtain ⟨hnone, haudit⟩ := serve_silent hlimit
        rw [hnone, haudit]
        rfl
      | some handed =>
        obtain ⟨record, hone, haudit, -⟩ := serve_limit hlimit
        rw [hone, haudit]
        rfl
    have hrest := ih (s.serve call).1
    rw [hstep, ← List.foldl_append] at hrest
    exact hrest

/-- The writes that have been put to the application once these calls have been served: by the engine
before the actor was installed on it, and since. -/
def putBy (device : LocalDevice S) (earlier : List (EngineOp S)) (installed : Running S)
    (calls : List (HostCall S)) : List (WriteRequest S) :=
  Engine.machine.collect Engine.puts (Engine.new device) earlier ++ host.collect puts installed calls

end Running

/-- In every run the log holds one record for each limit write that was handed to the actor, in order,
under its counter and its peer; and the outcome on record is what was stored and sent exactly where the
write still waited for its decision. -/
theorem records_agree_iff_waiting (actor : ControllableSystemActor) (device : LocalDevice S)
    (earlier : List (EngineOp S)) (start : Nat) (calls : List (HostCall S)) :
    let installed : Running S := .install actor (Engine.machine.run (Engine.new device) earlier) start
    (Running.host.run installed calls).actor.audit =
        (Running.host.collect Running.logged installed calls).foldl AuditLog.record actor.audit ∧
      ∀ before call, before ++ [call] <+: calls →
        let s := Running.host.run installed before
        let put := Running.putBy device earlier installed before
        requestsIn s.engine.events ⊆ put ∧
          ∀ write now, s.limitHanded call = some (write, now) → write ∈ put →
            ∃ record, s.logged call = [record] ∧ record.request = write.request ∧
              record.peer = write.origin.device ∧
              (Agrees (s.polled call) (s.serve call).1.engine write record.outcome ↔
                (s.engine.findDeferred write.token).isSome = true) := by
  intro installed
  refine ⟨Running.host_logged installed calls, fun before call _ => ?_⟩
  intro s put
  have hjournal : Journal put s.engine := Running.host_journal
    (Running.install_journal ((Journal.new device).run earlier) actor start) before
  refine ⟨hjournal.told, fun write now hlimit hput => ?_⟩
  obtain ⟨record, hone, -, hrequest, hpeer, hdecision⟩ := Running.serve_limit hlimit
  have hpolled : Journal put (s.polled call) := by
    cases call with
    | relay now => exact hjournal.of_same (List.drop_suffix 1 _) rfl rfl
    | _ => exact hjournal
  have hqueue : (s.polled call).findDeferred write.token = s.engine.findDeferred write.token := by
    cases call <;> rfl
  have hagrees := hdecision.agrees_iff hpolled hput
  rw [hqueue] at hagrees
  exact ⟨record, hone, hrequest, hpeer, hagrees⟩

namespace Scenario

/-- The heat pump has been put the manager's second limit. -/
def asked : List (HostCall Schema.limitsOnly) :=
  hosted ++ [.engine (.handleDatagram (limitAt features.loadControl) (fromSecs 3))]

/-- Decided at once, the limit is on record as it was answered. -/
theorem records_agree_iff_waiting_limit :
    ∃ write, (Running.host.run started asked).limitHanded (.relay (fromSecs 3)) =
        some (write, fromSecs 3) ∧
      ∃ record, (Running.host.run started asked).logged (.relay (fromSecs 3)) = [record] ∧
        record.request = write.request ∧ record.peer = write.origin.device ∧
        Agrees ((Running.host.run started asked).polled (.relay (fromSecs 3)))
          ((Running.host.run started asked).serve (.relay (fromSecs 3))).1.engine write
          record.outcome := by
  have hsome : ((Running.host.run started asked).limitHanded (.relay (fromSecs 3))).any
      (fun handed => handed.2 == fromSecs 3 && ((Running.host.run started asked).engine.findDeferred
        handed.1.token).isSome) = true := by decide +kernel
  have hreached : ∀ s, s = Running.host.run started asked →
      requestsIn s.engine.events ⊆ Running.putBy device [] started asked ∧
        ∀ write now, s.limitHanded (.relay (fromSecs 3)) = some (write, now) →
          write ∈ Running.putBy device [] started asked →
          ∃ record, s.logged (.relay (fromSecs 3)) = [record] ∧ record.request = write.request ∧
            record.peer = write.origin.device ∧
            (Agrees (s.polled (.relay (fromSecs 3))) (s.serve (.relay (fromSecs 3))).1.engine write
              record.outcome ↔ (s.engine.findDeferred write.token).isSome = true) := by
    have hstarted : started = .install (.builder (.new config 0) .consumption features)
      (Engine.machine.run (Engine.new device) []) 0 := rfl
    rintro s rfl
    rw [hstarted]
    exact (records_agree_iff_waiting (.builder (.new config 0) .consumption features) device [] 0
      (asked ++ [.relay (fromSecs 3)])).2 asked (.relay (fromSecs 3)) (List.prefix_refl _)
  obtain ⟨s, hs⟩ : ∃ s, s = Running.host.run started asked := ⟨_, rfl⟩
  rw [← hs] at hsome ⊢
  obtain ⟨htold, hdecided⟩ := hreached s hs
  obtain ⟨⟨write, now⟩, hhanded, hwaits⟩ := (Option.any_eq_true _ _).mp hsome
  simp only [Bool.and_eq_true, beq_iff_eq] at hwaits
  obtain ⟨rfl, hwaits⟩ := hwaits
  have hevent : write ∈ requestsIn s.engine.events := by
    obtain ⟨hrelayed, -⟩ := Running.handed_of_limit hhanded
    obtain ⟨event, hfirst, hpair⟩ := Option.map_eq_some_iff.mp hrelayed
    obtain rfl : event = .writeRequested write := congrArg Prod.fst hpair
    exact List.mem_filterMap.mpr ⟨_, List.mem_of_head? hfirst, rfl⟩
  obtain ⟨record, hone, hrequest, hpeer, hagrees⟩ :=
    hdecided write (fromSecs 3) hhanded (htold hevent)
  exact ⟨write, hhanded, record, hone, hrequest, hpeer, hagrees.mpr hwaits⟩

/-- The engine has given the write up when the actor comes to decide it: the record says that it was
refused, and nobody was told. -/
theorem abandoned_limit_is_recorded_as_refused :
    let s := Running.host.run started (asked ++ [.engine (.handleTimeout (fromSecs 14))])
    let call : HostCall Schema.limitsOnly := .relay (fromSecs 14)
    (s.logged call).map (fun record => (record.request, record.peer, record.outcome)) =
        [(6, some manager, .rejected .notStored)] ∧
      (s.serve call).1.engine.outbox.drop (s.polled call).outbox.length = [] ∧
      (s.limitHanded call).any (fun handed => (s.logged call).all fun record =>
        !decide (Agrees (s.polled call) (s.serve call).1.engine handed.1 record.outcome)) = true := by
  decide +kernel

end Scenario

end Eebus.Limitation
