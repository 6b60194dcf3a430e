import Eebus.Library.Ledger
import Eebus.Spine.Answers
import Eebus.Spine.Session

/-!
The writes that wait for the application. Each is put to it under a token of its own and leaves the
queue once: it is decided, or its peer has stopped waiting or is gone.
-/

namespace Eebus.Spine

open Eebus.Library Eebus.Model

variable {S : Schema}

def SpineEvent.reportedToken : SpineEvent S → Option Nat
  | .writeRequested write => some write.token
  | _ => none

def SpineEvent.abandonedToken : SpineEvent S → Option Nat
  | .writeAbandoned token _ _ => some token
  | _ => none

def SpineEvent.quiet (event : SpineEvent S) : Prop :=
  event.reportedToken = none ∧ event.abandonedToken = none

theorem SpineEvent.quiet_of_written (event : SpineEvent S) (h : event.isWritten = true) :
    event.quiet := by
  cases event <;> first | exact ⟨rfl, rfl⟩ | cases h

theorem SpineEvent.quiet_of_relation (event : SpineEvent S) (h : event.ofRelation = true) :
    event.quiet := by
  cases event
  case writeRequested => cases h
  case writeAbandoned => cases h
  all_goals exact ⟨rfl, rfl⟩

def reportedIn (events : List (SpineEvent S)) : List Nat := events.filterMap SpineEvent.reportedToken

def abandonedIn (events : List (SpineEvent S)) : List Nat := events.filterMap SpineEvent.abandonedToken

def Engine.waiting (e : Engine S) : List Nat := e.deferred.map DeferredWrite.token

theorem abandonedIn_abandoned (writes : List (DeferredWrite S)) :
    abandonedIn (writes.map Engine.abandonedEvent) = writes.map DeferredWrite.token := by
  rw [abandonedIn, List.filterMap_map, ← List.filterMap_eq_map]
  rfl

theorem reportedIn_abandoned (writes : List (DeferredWrite S)) :
    reportedIn (writes.map Engine.abandonedEvent) = [] := by
  rw [reportedIn, List.filterMap_map]
  exact List.filterMap_eq_nil_iff.mpr fun _ _ => rfl

theorem reportedIn_quiet {events : List (SpineEvent S)} (h : ∀ event ∈ events, event.quiet) :
    reportedIn events = [] :=
  List.filterMap_eq_nil_iff.mpr fun event hevent => (h event hevent).1

theorem abandonedIn_quiet {events : List (SpineEvent S)} (h : ∀ event ∈ events, event.quiet) :
    abandonedIn events = [] :=
  List.filterMap_eq_nil_iff.mpr fun event hevent => (h event hevent).2

/-- On the way from `e` to `e'` these tokens have been reported, the next ones in order, and these
have been decided; and the books balance. -/
def Accounts (reported decided : List Nat) (e e' : Engine S) : Prop :=
  ∃ new, e'.events = e.events ++ new ∧ reportedIn new = reported ∧
    Balances reported (decided ++ abandonedIn new) e.waiting e'.waiting ∧
    e'.nextToken = e.nextToken + reported.length ∧
    reported = List.range' e.nextToken reported.length

namespace Accounts

variable {reported reported' decided decided' : List Nat} {e e' e'' : Engine S}

theorem trans (h : Accounts reported decided e e') (h' : Accounts reported' decided' e' e'') :
    Accounts (reported ++ reported') (decided ++ decided') e e'' := by
  obtain ⟨new, hevents, hnew, hbalanced, hnext, hreported⟩ := h
  obtain ⟨new', hevents', hnew', hbalanced', hnext', hreported'⟩ := h'
  refine ⟨new ++ new', by rw [hevents', hevents, List.append_assoc], ?_, ?_, ?_, ?_⟩
  · rw [reportedIn, List.filterMap_append]
    exact congrArg₂ (· ++ ·) hnew hnew'
  · rw [abandonedIn, List.filterMap_append]
    refine (hbalanced.trans hbalanced').perm_closed ?_
    rw [List.append_assoc, List.append_assoc]
    exact (List.perm_append_comm_assoc decided' (abandonedIn new) (abandonedIn new')).append_left decided
  · rw [hnext', hnext, List.length_append, Nat.add_assoc]
  · rw [List.length_append, ← List.range'_append_1, ← hreported, ← hnext, ← hreported']

theorem of_quiet {new : List (SpineEvent S)} (hevents : e'.events = e.events ++ new)
    (hquiet : ∀ event ∈ new, event.quiet) (hdeferred : e'.deferred = e.deferred)
    (htoken : e'.nextToken = e.nextToken) : Accounts [] [] e e' := by
  refine ⟨new, hevents, reportedIn_quiet hquiet, ?_, htoken, rfl⟩
  rw [abandonedIn_quiet hquiet, Engine.waiting, Engine.waiting, hdeferred]
  exact Balances.refl _

theorem of_same (hevents : e'.events = e.events) (hdeferred : e'.deferred = e.deferred)
    (htoken : e'.nextToken = e.nextToken) : Accounts [] [] e e' :=
  of_quiet (by rw [hevents, List.append_nil]) (by simp) hdeferred htoken

theorem refl (e : Engine S) : Accounts [] [] e e := of_same rfl rfl rfl

theorem of_sends {P : Datagram S → Prop} (h : Sends P e e') : Accounts [] [] e e' :=
  of_same h.events h.deferred h.nextToken

theorem of_books {said : List (SpineEvent S)} (h : SameBooks said e e')
    (hsaid : ∀ event ∈ said, event.isWritten = true) : Accounts [] [] e e' :=
  of_quiet h.events (fun event hevent => event.quiet_of_written (hsaid event hevent)) h.deferred
    h.nextToken

theorem of_abandoned {picked : DeferredWrite S → Bool}
    (hevents : e'.events = e.events ++ (e.deferred.filter picked).map Engine.abandonedEvent)
    (hdeferred : e'.deferred = e.deferred.filter fun write => !picked write)
    (htoken : e'.nextToken = e.nextToken) : Accounts [] [] e e' := by
  refine ⟨_, hevents, reportedIn_abandoned _, ?_, htoken, rfl⟩
  rw [abandonedIn_abandoned, Engine.waiting, Engine.waiting, hdeferred, List.nil_append]
  exact (Balances.closes_filter e.deferred picked).map DeferredWrite.token

end Accounts

variable {write : DeferredWrite S} {e : Engine S} {op : EngineOp S} {token : Nat}

namespace Engine

theorem accounts_emit (e : Engine S) {event : SpineEvent S} (h : event.quiet) :
    Accounts [] [] e (e.emit event) :=
  .of_quiet rfl (by simpa using h) rfl rfl

theorem accounts_removePeer (e : Engine S) (device : AddressDevice) :
    Accounts [] [] e (e.removePeer device) :=
  .of_abandoned rfl rfl rfl

theorem hearing_accounts : Hearing (Accounts [] [] : Engine S → Engine S → Prop) where
  refl := .refl
  trans := .trans
  peers _ _ := .of_same rfl rfl rfl
  removePeer := accounts_removePeer
  news e event h := e.accounts_emit (by cases event <;> first | exact ⟨rfl, rfl⟩ | cases h)
  resolvePending _ reference _ := by cases reference <;> exact .of_same rfl rfl rfl
  recordRelation _ _ := .of_same rfl rfl rfl

theorem accounts_handleCall (e : Engine S) (cmd : Cmd S) (source : FeatureAddress) :
    Accounts [] [] e (e.handleCall cmd source).1 := by
  obtain ⟨relations, said, hsame, hsaid⟩ := e.handleCall_says cmd source
  rw [hsame]
  exact .of_quiet rfl (fun event hevent => event.quiet_of_relation (hsaid event hevent)) rfl rfl

theorem accounts_deferWrite (e : Engine S) (feature : LocalFeature S) (data : CmdData S)
    (ops : WriteOps S) (source destination : FeatureAddress) (counter : MsgCounter)
    (ackRequest : Bool) (now : Nat) : Accounts [e.nextToken] [] e
      (e.deferWrite feature data ops source destination counter ackRequest now) := by
  refine ⟨_, rfl, rfl, ?_, rfl, rfl⟩
  rw [waiting, waiting, deferWrite, List.map_append]
  exact Balances.opens e.waiting e.nextToken

theorem accounts_decideWrite (e : Engine S) (w : DatagramWrite S) (now : Nat) :
    ∃ reported, Accounts reported [] e (e.decideWrite w now).1 ∧
      (reported ≠ [] → (e.decideWrite w now).2 = .deferred) := by
  unfold decideWrite
  split
  · split
    · exact ⟨[], .refl e, nofun⟩
    · exact ⟨_, e.accounts_deferWrite _ _ _ _ _ _ _ _, fun _ => rfl⟩
  · obtain ⟨said, hsaid, hbooks⟩ := e.applyWrite_books w.feature w.data w.ops w.source w.destination
    exact ⟨[], .of_books hbooks hsaid, nofun⟩

theorem accounts_handleDatagram (e : Engine S) (datagram : Datagram S) (now : Nat) :
    ∃ reported, Accounts reported [] e (e.handleDatagram datagram now).1 ∧
      (reported ≠ [] → ∃ v, TakenUp e datagram v ∧ e.outcomeOf datagram v now = .deferred) := by
  rcases e.handleDatagram_served datagram now with hdiscarded | ⟨v, e', htaken, hserved, hsends⟩
  · refine ⟨[], ?_, nofun⟩
    cases hdiscarded with
    | unread hsends => exact .of_sends hsends
    | filed source counter _ _ hsends =>
      exact (hearing_accounts.observeSource e source counter).trans (.of_sends hsends)
  · have hfiled : Accounts [] [] e (v.filed e).1 := hearing_accounts.observeSource e _ _
    have hquiet : Accounts [] [] (v.filed e).1 e' → ∃ reported,
        Accounts reported [] e (e.handleDatagram datagram now).1 ∧
          (reported ≠ [] → ∃ v, TakenUp e datagram v ∧ e.outcomeOf datagram v now = .deferred) :=
      fun h => ⟨[], (hfiled.trans h).trans (.of_sends hsends), nofun⟩
    cases hserved with
    | answered _ _ hanswered => exact hquiet (.of_sends hanswered)
    | written w hw =>
      obtain ⟨reported, haccounts, hdeferred⟩ := (w.filed e).1.accounts_decideWrite w now
      have hall := (hfiled.trans haccounts).trans (.of_sends hsends)
      rw [List.nil_append, List.append_nil] at hall
      refine ⟨reported, hall, fun hsome => ⟨w.toEnvelope, htaken, ?_⟩⟩
      rw [outcomeOf, hw.command, hw.isWrite]
      exact (congrArg Prod.snd (hw.handleWrite_eq now)).trans (hdeferred hsome)
    | called _ cmd _ _ => exact hquiet (accounts_handleCall _ _ _)
    | informed _ cmd _ _ => exact hquiet (hearing_accounts.informed _ _ _ _ _)
    | settled _ cmd _ _ => exact hquiet (hearing_accounts.handleResult _ _ _ _)

theorem findDeferred_token (h : e.findDeferred token = some write) : write.token = token := by
  simpa using List.find?_some h

theorem accounts_dropDeferred
    (h : e.findDeferred token = some write) : Accounts [] [token] e (e.dropDeferred token) := by
  refine ⟨[], (List.append_nil _).symm, rfl, ?_, rfl, rfl⟩
  have hclosed := (Balances.closes_first h).map DeferredWrite.token
  rwa [List.map_singleton, findDeferred_token h] at hclosed

theorem accounts_finishWrite
    (h : e.findDeferred token = some write) (replacement : Option (CmdData S)) :
    Accounts [] [token] e (e.finishWrite token replacement).1 := by
  obtain ⟨said, hsaid, hbooks⟩ := e.finishWrite_books token replacement
  exact (accounts_dropDeferred h).trans (.of_books hbooks hsaid)

theorem accounts_rejectWrite (h : e.findDeferred token = some write) (error : ErrorNumber) :
    Accounts [] [token] e (e.rejectWrite token error).1 :=
  (accounts_dropDeferred h).trans (.of_books (e.rejectWrite_books token error) (List.forall_mem_nil _))

theorem accounts_expire (now : Nat) (acc : Engine S × List (Pending S) × List (Pending S))
    (request : Pending S) : Accounts [] [] acc.1 (expire now acc request).1 := by
  obtain ⟨e, kept, abandoned⟩ := acc
  simp only [expire]
  split
  · exact .refl e
  · split
    · split <;> exact .refl e
    · exact .of_quiet rfl (by simp [SpineEvent.quiet, SpineEvent.reportedToken,
        SpineEvent.abandonedToken]) rfl rfl

theorem quiet_timedOut {requests : List (Pending S)} :
    ∀ event ∈ requests.map timedOutEvent, event.quiet := by
  intro event hevent
  obtain ⟨request, -, rfl⟩ := List.mem_map.mp hevent
  exact ⟨rfl, rfl⟩

theorem accounts_handleTimeout (e : Engine S) (now : Nat) : Accounts [] [] e (e.handleTimeout now) := by
  have hstart : Accounts [] [] e { e with pending := [] } := .of_same rfl rfl rfl
  have hexpired : Accounts [] [] e (e.pending.foldl (expire now) ({ e with pending := [] }, [], [])).1 :=
    List.foldlRecOn (motive := fun acc => Accounts [] [] e acc.1) e.pending (expire now) hstart
      fun acc h request _ => h.trans (accounts_expire now acc request)
  generalize hfold : e.pending.foldl (expire now) ({ e with pending := [] }, [], []) = acc at hexpired
  have hgiven : Accounts [] [] acc.1 { acc.1 with
      pending := acc.2.1, events := acc.1.events ++ acc.2.2.map timedOutEvent } :=
    .of_quiet rfl quiet_timedOut rfl rfl
  have hdropped : Accounts [] [] { acc.1 with
      pending := acc.2.1, events := acc.1.events ++ acc.2.2.map timedOutEvent } (e.handleTimeout now) := by
    simp only [handleTimeout, hfold]
    exact .of_abandoned rfl rfl rfl
  exact (hexpired.trans hgiven).trans hdropped

theorem accounts_request (e : Engine S) (source destination : FeatureAddress)
    (classifier : CmdClassifier) (ackRequest : Bool) (cmd : Cmd S) (now : Nat) :
    Accounts [] [] e (e.request source destination classifier ackRequest cmd now).1 :=
  .of_quiet rfl quiet_timedOut rfl rfl

theorem accounts_local (e : Engine S) (h : op.isLocal = true) :
    Accounts [] [] e (e.perform op) :=
  .of_books (e.books_local h) (List.forall_mem_nil _)

def said (e : Engine S) (op : EngineOp S) : List (SpineEvent S) :=
  (e.perform op).events.drop e.events.length

def queued (e : Engine S) (op : EngineOp S) : List (Datagram S) :=
  (e.perform op).outbox.drop e.outbox.length

end Engine

inductive Settling
  | accepted
  | rejected
  | abandoned
deriving DecidableEq

namespace Engine

def decides (e : Engine S) : EngineOp S → Option (DeferredWrite S × Settling)
  | .finishWrite token _ => (e.findDeferred token).map (·, .accepted)
  | .rejectWrite token _ => (e.findDeferred token).map (·, .rejected)
  | _ => none

def reports (e : Engine S) (op : EngineOp S) : List Nat := reportedIn (e.said op)

def settlements (e : Engine S) (op : EngineOp S) : List (Nat × Settling) :=
  ((e.decides op).map fun decided => (decided.1.token, decided.2)).toList ++
    (abandonedIn (e.said op)).map (·, .abandoned)

def decided (e : Engine S) (op : EngineOp S) : List Nat :=
  ((e.decides op).map fun decided => decided.1.token).toList

theorem settlements_tokens (e : Engine S) (op : EngineOp S) :
    (e.settlements op).map Prod.fst = e.decided op ++ abandonedIn (e.said op) := by
  rw [settlements, List.map_append, List.map_map]
  refine congrArg₂ (· ++ ·) ?_ (List.map_id _)
  unfold decided
  cases e.decides op <;> rfl

theorem accounts_perform (e : Engine S) (op : EngineOp S) (h : op ≠ .pollEvent) :
    ∃ reported, Accounts reported (e.decided op) e (e.perform op) ∧
      (reported ≠ [] → ∃ datagram now v, op = .handleDatagram datagram now ∧
        TakenUp e datagram v ∧ e.outcomeOf datagram v now = .deferred) := by
  have hsilent : Accounts [] (e.decided op) e (e.perform op) → ∃ reported,
      Accounts reported (e.decided op) e (e.perform op) ∧
        (reported ≠ [] → ∃ datagram now v, op = .handleDatagram datagram now ∧
          TakenUp e datagram v ∧ e.outcomeOf datagram v now = .deferred) :=
    fun haccounts => ⟨[], haccounts, fun hsome => absurd rfl hsome⟩
  cases op with
  | handleDatagram datagram now =>
    obtain ⟨reported, haccounts, hdeferred⟩ := e.accounts_handleDatagram datagram now
    refine ⟨reported, haccounts, fun hsome => ?_⟩
    obtain ⟨v, hv, houtcome⟩ := hdeferred hsome
    exact ⟨datagram, now, v, rfl, hv, houtcome⟩
  | handleTimeout now => exact hsilent (e.accounts_handleTimeout now)
  | finishWrite token replacement =>
    refine hsilent ?_
    cases hfound : e.findDeferred token with
    | none =>
      have hnothing : e.decided (.finishWrite token replacement) = [] := by
        simp [decided, decides, hfound]
      rw [hnothing, perform, finishWrite, hfound]
      exact .refl e
    | some write =>
      have hone : e.decided (.finishWrite token replacement) = [token] := by
        simp [decided, decides, hfound, findDeferred_token hfound]
      rw [hone]
      exact accounts_finishWrite hfound replacement
  | rejectWrite token error =>
    refine hsilent ?_
    cases hfound : e.findDeferred token with
    | none =>
      have hnothing : e.decided (.rejectWrite token error) = [] := by
        simp [decided, decides, hfound]
      rw [hnothing, perform, rejectWrite, hfound]
      exact .refl e
    | some write =>
      have hone : e.decided (.rejectWrite token error) = [token] := by
        simp [decided, decides, hfound, findDeferred_token hfound]
      rw [hone]
      exact accounts_rejectWrite hfound error
  | readFiltered | writeFiltered | requestBinding | requestSubscription =>
    exact hsilent (e.accounts_request _ _ _ _ _ _)
  | removePeer device => exact hsilent (e.accounts_removePeer device)
  | pollEvent => exact absurd rfl h
  | pollTransmit => exact hsilent (.of_same rfl rfl rfl)
  | _ => exact hsilent (e.accounts_local rfl)

theorem perform_balanced (e : Engine S) (op : EngineOp S) :
    Balances (e.reports op) ((e.settlements op).map Prod.fst) e.waiting (e.perform op).waiting ∧
      (e.perform op).nextToken = e.nextToken + (e.reports op).length ∧
      e.reports op = List.range' e.nextToken (e.reports op).length ∧
      (e.reports op ≠ [] → ∃ datagram now v, op = .handleDatagram datagram now ∧
        TakenUp e datagram v ∧ e.outcomeOf datagram v now = .deferred) := by
  rw [settlements_tokens, reports]
  by_cases hpoll : op = .pollEvent
  · subst hpoll
    have hsilent : e.said .pollEvent = [] := by simp [said, perform]
    rw [hsilent]
    exact ⟨Balances.refl _, rfl, rfl, fun hsome => absurd rfl hsome⟩
  · obtain ⟨reported, ⟨new, hevents, rfl, hbalanced, hnext, hreported⟩, hdeferred⟩ :=
      e.accounts_perform op hpoll
    have hsaid : e.said op = new := by rw [said, hevents, List.drop_left]
    rw [hsaid]
    exact ⟨hbalanced, hnext, hreported, hdeferred⟩

theorem run_balanced (e : Engine S) (ops : List (EngineOp S)) :
    Balances (machine.collect reports e ops) ((machine.collect settlements e ops).map Prod.fst)
      e.waiting (machine.run e ops).waiting := by
  rw [Machine.map_collect]
  exact machine.collect_balanced (fun e op => (e.perform_balanced op).1) e ops

theorem run_reports (e : Engine S) (ops : List (EngineOp S)) : machine.collect reports e ops =
      List.range' e.nextToken (machine.collect reports e ops).length := by
  induction ops generalizing e with
  | nil => rfl
  | cons op rest ih =>
    obtain ⟨-, hnext, hreported, -⟩ := e.perform_balanced op
    change e.reports op ++ machine.collect reports (e.perform op) rest =
      List.range' e.nextToken (e.reports op ++ machine.collect reports (e.perform op) rest).length
    rw [List.length_append, ← List.range'_append_1, ← hreported, ← hnext, ← ih (e.perform op)]

theorem requestsOnly_new (device : LocalDevice S) : (new device).RequestsOnly :=
  fun _ hp => absurd hp List.not_mem_nil

theorem requestsOnly_of_subset {e' : Engine S} (h : e.RequestsOnly)
    (hsubset : ∀ p ∈ e'.pending, p ∈ e.pending) : e'.RequestsOnly :=
  fun p hp => h p (hsubset p hp)

theorem requestsOnly_request (h : e.RequestsOnly) (source destination : FeatureAddress)
    (classifier : CmdClassifier) (ackRequest : Bool) (cmd : Cmd S) (now : Nat) :
    (e.request source destination classifier ackRequest cmd now).1.RequestsOnly := by
  intro p hp
  cases List.mem_append.mp hp with
  | inl hmem => exact h p (List.mem_of_mem_drop hmem)
  | inr hmem => exact List.mem_singleton.mp hmem ▸ ⟨_, rfl, rfl⟩

theorem requestsOnly_perform (h : e.RequestsOnly) (op : EngineOp S) :
    (e.perform op).RequestsOnly := by
  cases op with
  | handleTimeout now => exact (speaks_handleTimeout h now).2
  | readFiltered | writeFiltered | requestBinding | requestSubscription =>
    exact requestsOnly_request h _ _ _ _ _ _
  | _ => exact requestsOnly_of_subset h fun p hp => List.Sublist.subset (e.perform_pending rfl) hp

theorem unreferring_of_isRequest {d : Datagram S} (h : Datagram.isRequest d) :
    Datagram.unreferring d := by
  obtain ⟨header, hheader, hreference⟩ := h
  rw [Datagram.unreferring, hheader]
  exact hreference

theorem unreferring_request (e : Engine S) (source destination : FeatureAddress)
    (classifier : CmdClassifier) (ackRequest : Bool) (cmd : Cmd S) (now : Nat) :
    Speaks Datagram.unreferring e (e.request source destination classifier ackRequest cmd now).1 :=
  e.speaks_request rfl

theorem reshaping_speaks {P : Datagram S → Prop} (h : ∀ source subscriber counter cmd,
    P ⟨some (header source subscriber counter .notify false none), some ⟨some [cmd]⟩⟩) :
    Reshaping (Speaks P) where
  refl := .refl
  trans := .trans
  reshape _ _ _ _ := Mute.speaks ⟨rfl, rfl⟩
  notification e _ _ _ := e.speaks_sendCmd (h _ _ _ _)

/-- The message this step can answer: the datagram it handles, or the write it decides. -/
def repliesTo (e : Engine S) (op : EngineOp S) (peer : FeatureAddress) (counter : MsgCounter) : Prop :=
  match op with
  | .handleDatagram datagram _ => datagram.header.bind Header.addressSource = some peer ∧
      Datagram.counter datagram = some counter
  | op => ∃ write settling, e.decides op = some (write, settling) ∧ write.peer = peer ∧
      write.reference = counter

/-- If the message answers anything, it answers what the step replies to. -/
def Attributed (e : Engine S) (op : EngineOp S) (d : Datagram S) : Prop :=
  ∀ counter, d.header.bind Header.msgCounterReference = some counter →
    ∃ peer, d.header.bind Header.addressDestination = some peer ∧ e.repliesTo op peer counter

theorem attributed_perform (h : e.RequestsOnly)
    (hpoll : op ≠ .pollTransmit) : Speaks (e.Attributed op) e (e.perform op) := by
  have hunreferring : Speaks Datagram.unreferring e (e.perform op) →
      Speaks (e.Attributed op) e (e.perform op) :=
    fun hspeaks => hspeaks.mono fun d hd counter hcounter => absurd (hd.symm.trans hcounter) nofun
  cases op with
  | handleDatagram datagram now =>
    cases e.handleDatagram_answers datagram now with
    | inl hmute => exact hmute.speaks
    | inr hanswers =>
      obtain ⟨source, counter, hsource, hcounter, hspeaks⟩ := hanswers
      refine hspeaks.mono fun d hd c hc => ?_
      obtain ⟨rfl, hpeer⟩ := hd c hc
      exact ⟨source, hpeer, hsource, hcounter⟩
  | handleTimeout now =>
    exact hunreferring ((speaks_handleTimeout h now).1.mono fun _ hd => unreferring_of_isRequest hd)
  | finishWrite token replacement =>
    cases hfound : e.findDeferred token with
    | none =>
      rw [perform, finishWrite, hfound]
      exact .refl e
    | some write =>
      refine (answersOnly_finishWrite hfound replacement).mono fun d hd c hc => ?_
      obtain ⟨rfl, hpeer⟩ := hd c hc
      exact ⟨write.peer, hpeer, write, .accepted, by simp [decides, hfound], rfl, rfl⟩
  | rejectWrite token error =>
    cases hfound : e.findDeferred token with
    | none =>
      rw [perform, rejectWrite, hfound]
      exact .refl e
    | some write =>
      refine (answersOnly_rejectWrite hfound error).mono fun d hd c hc => ?_
      obtain ⟨rfl, hpeer⟩ := hd c hc
      exact ⟨write.peer, hpeer, write, .rejected, by simp [decides, hfound], rfl, rfl⟩
  | readFiltered | writeFiltered | requestBinding | requestSubscription =>
    exact hunreferring (e.unreferring_request _ _ _ _ _ _)
  | pollTransmit => exact absurd rfl hpoll
  | removePeer | pollEvent => exact Mute.speaks ⟨rfl, rfl⟩
  | _ => exact hunreferring ((reshaping_speaks fun _ _ _ _ => rfl).perform e rfl)

theorem queued_pollTransmit (e : Engine S) : e.queued .pollTransmit = [] := by
  simp [queued, perform]

theorem attributed_queued (h : e.RequestsOnly) (op : EngineOp S) :
    ∀ d ∈ e.queued op, e.Attributed op d := by
  by_cases hpoll : op = .pollTransmit
  · subst hpoll
    rw [queued_pollTransmit]
    exact fun d hd => absurd hd List.not_mem_nil
  · obtain ⟨sent, hsent, -, hattributed⟩ := attributed_perform h hpoll
    rw [queued, hsent, List.drop_left]
    exact hattributed

def answering (messages : List (Datagram S)) : List (Datagram S) :=
  messages.filter fun d => (d.header.bind Header.msgCounterReference).isSome

theorem answering_of_answersOnly {messages : List (Datagram S)} {peer : FeatureAddress}
    {counter : MsgCounter} (h : ∀ d ∈ messages, Datagram.answersOnly peer counter d) :
    answering messages = messages.filter (Datagram.refersTo counter) := by
  refine List.filter_congr fun d hd => ?_
  cases hreference : d.header.bind Header.msgCounterReference with
  | none => simp [Datagram.refersTo, hreference]
  | some c =>
    obtain rfl := (h d hd c hreference).1
    simp [Datagram.refersTo, hreference]

theorem answering_queued {e' : Engine S} {peer : FeatureAddress} {counter : MsgCounter}
    (h : Speaks (Datagram.answersOnly peer counter) e e') :
    answering (e'.outbox.drop e.outbox.length) = answersTo counter e e' := by
  obtain ⟨sent, hsent, -, honly⟩ := h
  rw [answersTo, hsent, List.drop_left]
  exact answering_of_answersOnly honly

theorem decision_answered {settling : Settling} (h : e.decides op = some (write, settling)) :
    answering (e.queued op) = [] ∨ ∃ d error, answering (e.queued op) = [d] ∧
      Datagram.isResult write.peer write.reference error d := by
  cases op with
  | finishWrite token replacement =>
    obtain ⟨found, hfound, hpair⟩ := Option.map_eq_some_iff.mp h
    obtain rfl : found = write := congrArg Prod.fst hpair
    obtain ⟨error, -, howed⟩ := finishWrite_answers hfound replacement
    rw [queued, perform, answering_queued (answersOnly_finishWrite hfound replacement)]
    exact resultIf_none_or_one howed
  | rejectWrite token error =>
    obtain ⟨found, hfound, hpair⟩ := Option.map_eq_some_iff.mp h
    obtain rfl : found = write := congrArg Prod.fst hpair
    obtain ⟨reported, -, howed⟩ := rejectWrite_answers hfound error
    rw [queued, perform, answering_queued (answersOnly_rejectWrite hfound error)]
    exact resultIf_none_or_one howed
  | _ => cases h

theorem reported_unanswered (h : e.reports op ≠ []) : answering (e.queued op) = [] := by
  obtain ⟨-, -, -, hdeferred⟩ := e.perform_balanced op
  obtain ⟨datagram, now, v, rfl, hv, houtcome⟩ := hdeferred h
  have hwrite := (handleDatagram_deferred hv houtcome).1
  have hunanswered := answered_outcome hv (hwrite ▸ nofun) now
  rw [houtcome] at hunanswered
  cases e.handleDatagram_answers datagram now with
  | inl hmute =>
    rw [queued, perform, hmute.1, List.drop_length]
    rfl
  | inr hanswers =>
    obtain ⟨source, counter, -, hcounter, hspeaks⟩ := hanswers
    obtain ⟨header, hheader, hown, -⟩ := hv.header
    have hsame : counter = v.counter := by
      rw [Datagram.counter, hheader] at hcounter
      exact Option.some.inj (hcounter.symm.trans hown)
    rw [queued, perform, answering_queued hspeaks, hsame]
    exact hunanswered

/-- The messages by which a step answers the write of this token. -/
def resultsFor (token : Nat) (e : Engine S) (op : EngineOp S) : List (Datagram S) :=
  if (e.decides op).any (fun decided => decided.1.token == token) then answering (e.queued op) else []

theorem decides_decision
    {settling : Settling} (h : e.decides op = some (write, settling)) : settling ≠ .abandoned := by
  cases op with
  | finishWrite token replacement =>
    obtain ⟨found, -, hpair⟩ := Option.map_eq_some_iff.mp h
    obtain rfl : Settling.accepted = settling := congrArg Prod.snd hpair
    exact nofun
  | rejectWrite token error =>
    obtain ⟨found, -, hpair⟩ := Option.map_eq_some_iff.mp h
    obtain rfl : Settling.rejected = settling := congrArg Prod.snd hpair
    exact nofun
  | _ => cases h

theorem resultsFor_length (token : Nat) (e : Engine S) (op : EngineOp S) :
    (resultsFor token e op).length ≤
      ((e.settlements op).filter fun s => s.2 != .abandoned && s.1 == token).length := by
  unfold resultsFor
  split
  case isFalse => exact Nat.zero_le _
  case isTrue hany =>
    cases hdecides : e.decides op with
    | none => simp [hdecides] at hany
    | some decided =>
      obtain ⟨write, settling⟩ := decided
      have htoken : write.token = token := by simpa [hdecides] using hany
      have hdecision : (settling != .abandoned) = true := bne_iff_ne.mpr (decides_decision hdecides)
      have hatMost : (answering (e.queued op)).length ≤ 1 := by
        rcases decision_answered hdecides with hnone | ⟨d, error, hone, -⟩
        · simp [hnone]
        · simp [hone]
      refine hatMost.trans ?_
      simp [settlements, hdecides, htoken, hdecision]

/-- What holds of the messages of one step: each answers what the step replies to, a decision is
answered at most once, to the peer that wrote, and a write just put to the application not at all. -/
structure AnswersOnce (e : Engine S) (op : EngineOp S) : Prop where
  attributed : ∀ d ∈ e.queued op, e.Attributed op d
  decision : ∀ write settling, e.decides op = some (write, settling) →
    answering (e.queued op) = [] ∨ ∃ d error, answering (e.queued op) = [d] ∧
      Datagram.isResult write.peer write.reference error d
  reported : e.reports op ≠ [] → answering (e.queued op) = []

theorem findDeferred_of_not_waiting (h : token ∉ e.waiting) : e.findDeferred token = none := by
  refine List.find?_eq_none.mpr fun write hwrite htoken => h ?_
  exact List.mem_map.mpr ⟨write, hwrite, by simpa using htoken⟩

theorem spent_token (h : token ∉ e.waiting) :
    (∀ replacement, e.finishWrite token replacement = (e, .error .unknownToken)) ∧
      ∀ error, e.rejectWrite token error = (e, false) := by
  have hfound := findDeferred_of_not_waiting h
  refine ⟨fun replacement => ?_, fun error => ?_⟩
  · rw [finishWrite, hfound]
  · rw [rejectWrite, hfound]

/-- Every token that is reported is a new one, and is settled at most once: it still waits, or it has
been accepted, rejected or abandoned, one of the three and once, and is then of no further use. Its
write is answered at most once, when it is decided, and not at all when it is abandoned. -/
theorem deferred_writes_settled_once (device : LocalDevice S) (ops : List (EngineOp S)) :
    let e := machine.run (new device) ops
    let reported := machine.collect reports (new device) ops
    let settled := machine.collect settlements (new device) ops
    reported.Pairwise (· < ·) ∧
      (∀ token, token ∈ reported ↔ token ∈ e.waiting ∨ ∃ settling, (token, settling) ∈ settled) ∧
      (∀ token ∈ e.waiting, entriesOf token settled = []) ∧
      (∀ token settling, (token, settling) ∈ settled →
        entriesOf token settled = [(token, settling)] ∧
          (∀ replacement, e.finishWrite token replacement = (e, .error .unknownToken)) ∧
          ∀ error, e.rejectWrite token error = (e, false)) ∧
      (∀ token, (machine.collect (resultsFor token) (new device) ops).length ≤ 1 ∧
        ((token, .abandoned) ∈ settled → machine.collect (resultsFor token) (new device) ops = [])) ∧
      ∀ before op, before ++ [op] <+: ops → AnswersOnce (machine.run (new device) before) op := by
  intro e reported settled
  have hordered : reported.Pairwise (· < ·) := by
    have hrange : reported = List.range' 1 reported.length := run_reports (new device) ops
    rw [hrange]
    exact List.pairwise_lt_range'
  obtain ⟨hmem, hwaiting, honce⟩ := (run_balanced (new device) ops).once (hordered.imp Nat.ne_of_lt)
  have hresults : ∀ token, (machine.collect (resultsFor token) (new device) ops).length ≤
      ((entriesOf token settled).filter fun s => s.2 != .abandoned).length := fun token => by
    rw [entriesOf, List.filter_filter]
    exact machine.length_collect_le (resultsFor_length token) (new device) ops
  refine ⟨hordered, hmem, hwaiting, fun token settling h => ⟨(honce token settling h).1, ?_⟩,
    fun token => ⟨?_, fun habandoned => ?_⟩, ?_⟩
  · exact spent_token (honce token settling h).2
  · have hatMost : (entriesOf token settled).length ≤ 1 := by
      cases hentries : entriesOf token settled with
      | nil => exact Nat.zero_le 1
      | cons entry rest =>
        have hentry : entry ∈ entriesOf token settled := hentries ▸ List.mem_cons_self
        obtain ⟨hin, heq⟩ := List.mem_filter.mp hentry
        have hpair : (token, entry.2) ∈ settled := beq_iff_eq.mp heq ▸ hin
        rw [← hentries, (honce token entry.2 hpair).1]
        exact Nat.le_refl 1
    exact (hresults token).trans ((List.length_filter_le _ _).trans hatMost)
  · have hnone := hresults token
    rw [(honce token .abandoned habandoned).1] at hnone
    exact List.eq_nil_of_length_eq_zero (Nat.le_zero.mp hnone)
  · refine machine.run_steps RequestsOnly (fun e op h _ => requestsOnly_perform h op)
      (fun e op h _ => ⟨attributed_queued h op, fun _ _ hdecides => decision_answered hdecides,
        reported_unanswered⟩) (requestsOnly_new device)
      (machine.admits_of_forall (fun _ _ => trivial) ops (new device))

end Engine

end Eebus.Spine
