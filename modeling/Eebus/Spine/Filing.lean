import Eebus.Spine.Deferral

/-!
What the application is told of the writes that wait: whatever waits has been put to it, under the
token it waits under.
-/

namespace Eebus.Spine

open Eebus.Library Eebus.Model

variable {S : Schema}

def SpineEvent.requested : SpineEvent S → Option (WriteRequest S)
  | .writeRequested write => some write
  | _ => none

/-- The writes these events put to the application. -/
def requestsIn (events : List (SpineEvent S)) : List (WriteRequest S) :=
  events.filterMap SpineEvent.requested

theorem requestsIn_append (events later : List (SpineEvent S)) :
    requestsIn (events ++ later) = requestsIn events ++ requestsIn later := List.filterMap_append

theorem requestsIn_tokens (events : List (SpineEvent S)) :
    (requestsIn events).map WriteRequest.token = reportedIn events := by
  rw [requestsIn, reportedIn, List.map_filterMap]
  refine List.filterMap_congr fun event _ => ?_
  cases event <;> rfl

theorem requestsIn_eq_nil {events : List (SpineEvent S)} (h : reportedIn events = []) :
    requestsIn events = [] := by
  rw [← requestsIn_tokens] at h
  exact List.map_eq_nil_iff.mp h

structure WriteRequest.Filed (put : WriteRequest S) (write : DeferredWrite S) : Prop where
  token : write.token = put.token
  request : write.reference = put.request
  feature : write.feature = put.feature
  origin : write.peer = put.origin
  data : write.data = put.data

def putBetween (e e' : Engine S) : List (WriteRequest S) :=
  requestsIn (e'.events.drop e.events.length)

theorem putBetween_of_append {e e' : Engine S} {new : List (SpineEvent S)}
    (h : e'.events = e.events ++ new) : putBetween e e' = requestsIn new := by
  rw [putBetween, h, List.drop_left]

theorem Accounts.putBetween_tokens {reported decided : List Nat} {e e' : Engine S}
    (h : Accounts reported decided e e') : (putBetween e e').map WriteRequest.token = reported := by
  obtain ⟨new, hevents, hreported, -⟩ := h
  rw [putBetween_of_append hevents, requestsIn_tokens, hreported]

theorem Accounts.putBetween_nil {decided : List Nat} {e e' : Engine S}
    (h : Accounts [] decided e e') : putBetween e e' = [] :=
  List.map_eq_nil_iff.mp h.putBetween_tokens

namespace Engine

theorem deferred_of_eq {e e' : Engine S} (h : e'.deferred = e.deferred) :
    e'.deferred ⊆ e.deferred := h ▸ List.Subset.refl _

theorem deferred_removePeer (e : Engine S) (device : AddressDevice) :
    (e.removePeer device).deferred ⊆ e.deferred := List.filter_subset_self _

theorem hearing_deferred : Hearing fun e e' : Engine S => e'.deferred ⊆ e.deferred where
  refl _ := List.Subset.refl _
  trans h h' := List.Subset.trans h' h
  peers _ _ := List.Subset.refl _
  removePeer := deferred_removePeer
  news _ _ _ := List.Subset.refl _
  resolvePending _ reference _ := deferred_of_eq (by cases reference <;> rfl)
  recordRelation _ _ := List.Subset.refl _

theorem deferred_handleTimeout (e : Engine S) (now : Nat) :
    (e.handleTimeout now).deferred ⊆ e.deferred :=
  (e.handleTimeout_frame now).2.2.1

/-- The write a datagram leaves with the application: what waits, and what the application is told. -/
structure Deferral (e : Engine S) (datagram : Datagram S) (now : Nat) (w : DatagramWrite S)
    (put : WriteRequest S) (write : DeferredWrite S) : Prop where
  admitted : Admitted e datagram w
  approval : w.feature.approval = .deferred
  filed : put.Filed write
  feature : put.feature = w.destination
  origin : put.origin = w.source
  payload : put.data = w.data
  preview : put.resolved = resolveWrite (w.feature.data w.data.function) w.data w.ops
  isPartial : put.isPartial = w.ops.isPartial
  queued : (e.handleDatagram datagram now).1.deferred = (w.filed e).1.deferred ++ [write]
  told : putBetween e (e.handleDatagram datagram now).1 = [put]

theorem handleDatagram_puts (e : Engine S) (datagram : Datagram S) (now : Nat) :
    putBetween e (e.handleDatagram datagram now).1 = [] ∧
        (e.handleDatagram datagram now).1.deferred ⊆ e.deferred ∨
      ∃ w put write, Deferral e datagram now w put write := by
  rcases e.handleDatagram_served datagram now with hdiscarded | ⟨v, e', htaken, hserved, hsends⟩
  · refine .inl ?_
    cases hdiscarded with
    | unread hsends =>
      exact ⟨(Accounts.of_sends hsends).putBetween_nil, deferred_of_eq hsends.deferred⟩
    | filed source counter _ _ hsends =>
      exact ⟨((hearing_accounts.observeSource e source counter).trans (.of_sends hsends)).putBetween_nil,
        hsends.deferred ▸ hearing_deferred.observeSource e _ _⟩
  · have hfiled : Accounts [] [] e (v.filed e).1 := hearing_accounts.observeSource e _ _
    have hkept : (v.filed e).1.deferred ⊆ e.deferred := hearing_deferred.observeSource e _ _
    have hquiet : Accounts [] [] (v.filed e).1 e' → e'.deferred ⊆ (v.filed e).1.deferred →
        putBetween e (e.handleDatagram datagram now).1 = [] ∧
          (e.handleDatagram datagram now).1.deferred ⊆ e.deferred := fun haccounts hsub =>
      ⟨((hfiled.trans haccounts).trans (.of_sends hsends)).putBetween_nil,
        hsends.deferred ▸ List.Subset.trans hsub hkept⟩
    cases hserved with
    | answered _ _ hanswered =>
      exact .inl (hquiet (.of_sends hanswered) (deferred_of_eq hanswered.deferred))
    | called _ cmd _ _ =>
      exact .inl (hquiet (accounts_handleCall _ _ _)
        (deferred_of_eq (handleCall_frame _ _ _).2.2))
    | informed _ cmd _ _ =>
      exact .inl (hquiet (hearing_accounts.informed _ _ _ _ _) (hearing_deferred.informed _ _ _ _ _))
    | settled _ cmd _ _ =>
      exact .inl (hquiet (hearing_accounts.handleResult _ _ _ _)
        (hearing_deferred.handleResult _ _ _ _))
    | written w hw =>
      by_cases happroval : w.feature.approval = .deferred
      case neg =>
        -- The feature takes the write at once, and nothing is left to decide.
        refine .inl (hquiet ?_ ?_)
        · obtain ⟨reported, haccounts, hdeferred⟩ := (w.filed e).1.accounts_decideWrite w now
          have hnone : reported = [] := by
            by_contra hsome
            have houtcome := hdeferred hsome
            rw [decideWrite, if_neg happroval] at houtcome
            exact applyWrite_answered _ _ _ _ _ _ houtcome
          exact hnone ▸ haccounts
        · rw [decideWrite, if_neg happroval, applyWrite]
          split
          · exact deferred_of_eq (e := (w.filed e).1) (sends_notify _ _ _).deferred
          · exact List.Subset.refl _
      case pos =>
        by_cases hfull : maxDeferredWrites ≤ (w.filed e).1.deferred.length
        · have hsame : ((w.filed e).1.decideWrite w now).1 = (w.filed e).1 := by
            rw [decideWrite, if_pos happroval, if_pos hfull]
          rw [hsame] at hsends
          exact .inl ⟨(hfiled.trans (.of_sends hsends)).putBetween_nil, hsends.deferred ▸ hkept⟩
        · have hqueued : ((w.filed e).1.decideWrite w now).1 = (w.filed e).1.deferWrite w.feature w.data
              w.ops w.source w.destination w.counter w.ackRequest now := by
            rw [decideWrite, if_pos happroval, if_neg hfull]
          rw [hqueued] at hsends
          obtain ⟨before, hbefore, hnone, -⟩ := hfiled
          have hevents := hsends.events
          rw [deferWrite, hbefore, List.append_assoc] at hevents
          have htold := putBetween_of_append hevents
          rw [requestsIn_append, requestsIn_eq_nil hnone, List.nil_append] at htold
          exact .inr ⟨w, _, _, ⟨hw, happroval, ⟨rfl, rfl, rfl, rfl, rfl⟩, rfl, rfl, rfl, rfl, rfl,
            hsends.deferred, htold⟩⟩

theorem deferred_finishWrite (e : Engine S) (token : Nat) (replacement : Option (CmdData S)) :
    (e.finishWrite token replacement).1.deferred ⊆ (e.dropDeferred token).deferred := by
  obtain ⟨said, -, hbooks⟩ := e.finishWrite_books token replacement
  exact deferred_of_eq hbooks.deferred

theorem deferred_rejectWrite (e : Engine S) (token : Nat) (error : ErrorNumber) :
    (e.rejectWrite token error).1.deferred ⊆ (e.dropDeferred token).deferred :=
  deferred_of_eq (e.rejectWrite_books token error).deferred

theorem deferred_dropDeferred (e : Engine S) (token : Nat) :
    (e.dropDeferred token).deferred ⊆ e.deferred := List.eraseP_subset

end Engine

/-- What an operation puts to the application: only a datagram puts anything. -/
def Engine.puts (e : Engine S) : EngineOp S → List (WriteRequest S)
  | .handleDatagram datagram now => putBetween e (e.handleDatagram datagram now).1
  | _ => []

/-- What has been put to the application so far, each write under the next token; what waits, no token
twice and each write as it was put; and what it has yet to be told of, which was put as well. -/
structure Journal (put : List (WriteRequest S)) (e : Engine S) : Prop where
  tokens : put.map WriteRequest.token = List.range' 1 put.length
  next : e.nextToken = 1 + put.length
  waiting : e.waiting.Nodup
  filed : ∀ write ∈ e.deferred, ∃ request ∈ put, request.Filed write
  told : requestsIn e.events ⊆ put

namespace Journal

variable {put : List (WriteRequest S)} {e e' : Engine S}

theorem new (device : LocalDevice S) : Journal [] (Engine.new device) :=
  ⟨rfl, rfl, List.nodup_nil, fun _ hwrite => absurd hwrite List.not_mem_nil, List.nil_subset _⟩

theorem of_same (h : Journal put e) (hevents : e'.events <:+ e.events)
    (hdeferred : e'.deferred = e.deferred) (htoken : e'.nextToken = e.nextToken) :
    Journal put e' where
  tokens := h.tokens
  next := htoken.trans h.next
  waiting := by
    rw [Engine.waiting, hdeferred]
    exact h.waiting
  filed := by
    rw [hdeferred]
    exact h.filed
  told := by
    obtain ⟨taken, htaken⟩ := hevents
    have htold := h.told
    rw [← htaken, requestsIn_append] at htold
    exact fun write hwrite => htold (List.mem_append_right _ hwrite)

theorem lt_next (h : Journal put e) {token : Nat} (hwaits : token ∈ e.waiting) :
    token < e.nextToken := by
  obtain ⟨write, hwrite, rfl⟩ := List.mem_map.mp hwaits
  obtain ⟨request, hrequest, hfiled⟩ := h.filed write hwrite
  have hmem : request.token ∈ List.range' 1 put.length :=
    h.tokens ▸ List.mem_map_of_mem hrequest
  rw [hfiled.token, h.next]
  exact (List.mem_range'_1.mp hmem).2

theorem step {reported decided : List Nat} (h : Journal put e) (haccounts : Accounts reported decided e e')
    (hfiled : ∀ write ∈ e'.deferred, write ∈ e.deferred ∨
      ∃ request ∈ putBetween e e', request.Filed write) :
    Journal (put ++ putBetween e e') e' := by
  have htokens := haccounts.putBetween_tokens
  have hlength : (putBetween e e').length = reported.length := by
    rw [← htokens, List.length_map]
  obtain ⟨new, hevents, -, hbalanced, hnext, hreported⟩ := haccounts
  refine ⟨?_, ?_, ?_, fun write hwrite => ?_, ?_⟩
  · rw [List.map_append, h.tokens, htokens, List.length_append, ← List.range'_append_1, hlength,
      ← h.next, ← hreported]
  · rw [hnext, h.next, List.length_append, hlength, Nat.add_assoc]
  · have hopen : (e.waiting ++ reported).Nodup := by
      refine List.nodup_append.mpr ⟨h.waiting, hreported ▸ List.nodup_range', fun a ha b hb heq => ?_⟩
      rw [hreported] at hb
      have hbefore := h.lt_next ha
      have hafter := (List.mem_range'_1.mp hb).1
      omega
    exact (List.nodup_append.mp (hbalanced.nodup_iff.mpr hopen)).2.1
  · cases hfiled write hwrite with
    | inl hbefore =>
      obtain ⟨request, hrequest, hmatch⟩ := h.filed write hbefore
      exact ⟨request, List.mem_append_left _ hrequest, hmatch⟩
    | inr hput =>
      obtain ⟨request, hrequest, hmatch⟩ := hput
      exact ⟨request, List.mem_append_right _ hrequest, hmatch⟩
  · rw [hevents, requestsIn_append, putBetween_of_append hevents]
    exact List.append_subset.mpr ⟨fun write hwrite => List.mem_append_left _ (h.told hwrite),
      List.subset_append_right _ _⟩

theorem quiet {decided : List Nat} (h : Journal put e) (haccounts : Accounts [] decided e e')
    (hsub : e'.deferred ⊆ e.deferred) : Journal put e' := by
  have hall := h.step haccounts fun write hwrite => .inl (hsub hwrite)
  rwa [haccounts.putBetween_nil, List.append_nil] at hall

section

variable (h : Journal put e)

include h

theorem handleDatagram (datagram : Datagram S) (now : Nat) :
    Journal (put ++ putBetween e (e.handleDatagram datagram now).1) (e.handleDatagram datagram now).1 := by
  obtain ⟨reported, haccounts, -⟩ := e.accounts_handleDatagram datagram now
  refine h.step haccounts fun write hwrite => ?_
  cases e.handleDatagram_puts datagram now with
  | inl hnone => exact .inl (hnone.2 hwrite)
  | inr hsome =>
    obtain ⟨w, request, filed, hdeferral⟩ := hsome
    rw [hdeferral.queued] at hwrite
    rw [hdeferral.told]
    cases List.mem_append.mp hwrite with
    | inl hbefore => exact .inl (Engine.hearing_deferred.observeSource e _ _ hbefore)
    | inr hnew => exact .inr ⟨request, List.mem_singleton_self _, List.mem_singleton.mp hnew ▸ hdeferral.filed⟩

theorem handleTimeout (now : Nat) : Journal put (e.handleTimeout now) :=
  h.quiet (e.accounts_handleTimeout now) (e.deferred_handleTimeout now)

theorem removePeer (device : AddressDevice) : Journal put (e.removePeer device) :=
  h.quiet (e.accounts_removePeer device) (e.deferred_removePeer device)

theorem finishWrite (token : Nat) (replacement : Option (CmdData S)) :
    Journal put (e.finishWrite token replacement).1 := by
  cases hfound : e.findDeferred token with
  | none => rwa [Engine.finishWrite, hfound]
  | some write =>
    exact h.quiet (Engine.accounts_finishWrite hfound replacement)
      (List.Subset.trans (e.deferred_finishWrite token replacement) (e.deferred_dropDeferred token))

theorem rejectWrite (token : Nat) (error : ErrorNumber) :
    Journal put (e.rejectWrite token error).1 := by
  cases hfound : e.findDeferred token with
  | none => rwa [Engine.rejectWrite, hfound]
  | some write =>
    exact h.quiet (Engine.accounts_rejectWrite hfound error)
      (List.Subset.trans (e.deferred_rejectWrite token error) (e.deferred_dropDeferred token))

theorem request (source destination : FeatureAddress)
    (classifier : CmdClassifier) (ackRequest : Bool) (cmd : Cmd S) (now : Nat) :
    Journal put (e.request source destination classifier ackRequest cmd now).1 :=
  h.quiet (e.accounts_request _ _ _ _ _ _) (List.Subset.refl _)

theorem perform (op : EngineOp S) : Journal (put ++ e.puts op) (e.perform op) := by
  have hsilent : ∀ {e : Engine S}, Journal put e → Journal (put ++ []) e := fun h => by
    rwa [List.append_nil]
  cases op with
  | handleDatagram datagram now => exact h.handleDatagram datagram now
  | handleTimeout now => exact hsilent (h.handleTimeout now)
  | finishWrite token replacement => exact hsilent (h.finishWrite token replacement)
  | rejectWrite token error => exact hsilent (h.rejectWrite token error)
  | readFiltered | writeFiltered | requestBinding | requestSubscription =>
    exact hsilent (h.request _ _ _ _ _ _)
  | removePeer device => exact hsilent (h.removePeer device)
  | pollTransmit => exact hsilent (h.of_same (List.suffix_refl _) rfl rfl)
  | pollEvent => exact hsilent (h.of_same (List.drop_suffix 1 _) rfl rfl)
  | _ => exact hsilent (h.quiet (e.accounts_local rfl) (Engine.deferred_of_eq (SameBooks.deferred (e.books_local rfl))))

theorem run (ops : List (EngineOp S)) :
    Journal (put ++ Engine.machine.collect Engine.puts e ops) (Engine.machine.run e ops) := by
  induction ops generalizing e put with
  | nil =>
    rw [Machine.collect, List.append_nil]
    exact h
  | cons op rest ih =>
    have hall := ih (h.perform op)
    rwa [List.append_assoc] at hall

theorem found {request : WriteRequest S} (hput : request ∈ put)
    {write : DeferredWrite S} (hfound : e.findDeferred request.token = some write) :
    request.Filed write := by
  obtain ⟨other, hother, hfiled⟩ := h.filed write (List.mem_of_find?_eq_some hfound)
  have htoken : other.token = request.token :=
    hfiled.token.symm.trans (Engine.findDeferred_token hfound)
  have hunique : (put.map WriteRequest.token).Nodup := h.tokens ▸ List.nodup_range'
  obtain rfl := List.inj_on_of_nodup_map hunique hother hput htoken
  exact hfiled

theorem dropped (token : Nat) : token ∉ (e.dropDeferred token).waiting := by
  cases hfound : e.findDeferred token with
  | none =>
    intro hwaits
    obtain ⟨write, hwrite, htoken⟩ := List.mem_map.mp hwaits
    have hother := List.find?_eq_none.mp hfound write (e.deferred_dropDeferred token hwrite)
    exact hother (beq_iff_eq.mpr htoken)
  | some write =>
    obtain ⟨new, -, -, hbalanced, -⟩ := Engine.accounts_dropDeferred hfound
    have hopen : (e.waiting ++ []).Nodup := by rw [List.append_nil]; exact h.waiting
    have hclosed := hbalanced.nodup_iff.mpr hopen
    rw [List.append_assoc] at hclosed
    exact fun hwaits => (List.nodup_cons.mp hclosed).1 (List.mem_append_right (abandonedIn new) hwaits)

theorem findDeferred_of_dropped {token : Nat}
    (hsub : e'.deferred ⊆ (e.dropDeferred token).deferred) : e'.findDeferred token = none := by
  refine List.find?_eq_none.mpr fun write hwrite htoken => ?_
  exact h.dropped token (List.mem_map.mpr ⟨write, hsub hwrite, beq_iff_eq.mp htoken⟩)

end

end Journal

end Eebus.Spine
