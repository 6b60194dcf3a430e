import Eebus.Spine.Requests

/-! What an engine sends again, and how its requests come and go in between. -/

namespace Eebus.Spine

open Eebus.Library Eebus.Model

variable {S : Schema}

def Pending.resends (now : Nat) (p : Pending S) : Bool := p.deadline ≤ now && p.awaiting == .retry

def retransmissions : MsgCounter → List (Pending S) → List (MsgCounter × Datagram S)
  | _, [] => []
  | counter, p :: rest =>
    (p.request, p.messageUnder counter) :: retransmissions (nextMsgCounter counter) rest

def Datagram.destination (datagram : Datagram S) : Option FeatureAddress :=
  datagram.header.bind Header.addressDestination

theorem Pending.destination_messageUnder (p : Pending S) (counter : MsgCounter) :
    Datagram.destination (p.messageUnder counter) = Datagram.destination p.datagram := by
  unfold Pending.messageUnder Datagram.destination
  cases p.datagram.header <;> rfl

theorem map_fst_retransmissions (counter : MsgCounter) (requests : List (Pending S)) :
    (retransmissions counter requests).map Prod.fst = requests.map Pending.request := by
  induction requests generalizing counter with
  | nil => rfl
  | cons p rest ih => rw [retransmissions, List.map_cons, List.map_cons, ih]

theorem mem_retransmissions {counter read : MsgCounter} {requests : List (Pending S)}
    {message : Datagram S} (h : (read, message) ∈ retransmissions counter requests) :
    ∃ p ∈ requests, ∃ n < (retransmissions counter requests).length,
      read = p.request ∧ message = p.messageUnder (nextMsgCounter^[n] counter) := by
  induction requests generalizing counter with
  | nil => simp [retransmissions] at h
  | cons p rest ih =>
    rw [retransmissions] at h ⊢
    cases List.mem_cons.mp h with
    | inl heq =>
      obtain ⟨rfl, rfl⟩ := Prod.mk.inj heq
      exact ⟨p, List.mem_cons_self, 0, Nat.succ_pos _, rfl, rfl⟩
    | inr hmem =>
      obtain ⟨q, hq, n, hn, hread, hmessage⟩ := ih hmem
      refine ⟨q, List.mem_cons_of_mem p hq, n + 1, Nat.succ_lt_succ hn, hread, ?_⟩
      rw [hmessage, Function.iterate_succ_apply]

theorem exists_mem_retransmissions (counter : MsgCounter) {requests : List (Pending S)}
    {p : Pending S} (hp : p ∈ requests) :
    ∃ message, (p.request, message) ∈ retransmissions counter requests := by
  have hmem : p.request ∈ (retransmissions counter requests).map Prod.fst := by
    rw [map_fst_retransmissions]
    exact List.mem_map_of_mem hp
  obtain ⟨⟨read, message⟩, hmem, heq⟩ := List.mem_map.mp hmem
  exact ⟨message, heq ▸ hmem⟩

namespace Engine

def resent (e : Engine S) (now : Nat) : List (Pending S) := e.pending.filter (Pending.resends now)

theorem expire_sends (now : Nat) (acc : Engine S × List (Pending S) × List (Pending S))
    (request : Pending S) :
    let new := retransmissions acc.1.counters ([request].filter (Pending.resends now))
    (expire now acc request).1.outbox = acc.1.outbox ++ new.map Prod.snd ∧
      (∃ said, (expire now acc request).1.events = acc.1.events ++ said ∧
        retriedIn said = new.map Prod.fst) ∧
      (expire now acc request).1.counters = nextMsgCounter^[new.length] acc.1.counters := by
  obtain ⟨e, kept, abandoned⟩ := acc
  have hsilent : ∃ said : List (SpineEvent S), e.events = e.events ++ said ∧ retriedIn said = [] :=
    ⟨[], (List.append_nil _).symm, rfl⟩
  have houtbox : e.outbox = e.outbox ++ [] := (List.append_nil _).symm
  intro new
  by_cases hdue : now < request.deadline
  · have hnone : new = [] := by simp [new, Pending.resends, hdue, retransmissions]
    rw [hnone]
    simp only [expire, hdue, if_true]
    exact ⟨houtbox, hsilent, rfl⟩
  cases hawaiting : request.awaiting with
  | answer =>
    have hnone : new = [] := by simp [new, Pending.resends, hawaiting, retransmissions]
    rw [hnone]
    simp only [expire, hdue, if_false, hawaiting]
    split <;> exact ⟨houtbox, hsilent, rfl⟩
  | retry =>
    have hone : new = [(request.request, request.messageUnder e.counters)] := by
      simp [new, Pending.resends, hawaiting, retransmissions, Nat.le_of_not_lt hdue]
    rw [hone]
    simp only [expire, hdue, if_false, hawaiting]
    exact ⟨rfl, ⟨[_], rfl, rfl⟩, rfl⟩

theorem retransmissions_append (counter : MsgCounter) (requests requests' : List (Pending S)) :
    retransmissions counter (requests ++ requests') = retransmissions counter requests ++
      retransmissions (nextMsgCounter^[(retransmissions counter requests).length] counter) requests' := by
  induction requests generalizing counter with
  | nil => rfl
  | cons p rest ih =>
    rw [List.cons_append, retransmissions, retransmissions, ih, List.length_cons,
      Function.iterate_succ_apply, List.cons_append]

theorem foldl_expire_sends (now : Nat) (requests : List (Pending S))
    (acc : Engine S × List (Pending S) × List (Pending S)) :
    let new := retransmissions acc.1.counters (requests.filter (Pending.resends now))
    let acc' := requests.foldl (expire now) acc
    acc'.1.outbox = acc.1.outbox ++ new.map Prod.snd ∧
      (∃ said, acc'.1.events = acc.1.events ++ said ∧ retriedIn said = new.map Prod.fst) ∧
      acc'.1.counters = nextMsgCounter^[new.length] acc.1.counters := by
  induction requests generalizing acc with
  | nil => exact ⟨(List.append_nil _).symm, ⟨[], (List.append_nil _).symm, rfl⟩, rfl⟩
  | cons request rest ih =>
    obtain ⟨houtbox, ⟨said, hevents, hsaid⟩, hcounters⟩ := expire_sends now acc request
    obtain ⟨houtbox', ⟨said', hevents', hsaid'⟩, hcounters'⟩ := ih (expire now acc request)
    have hnew : retransmissions acc.1.counters ((request :: rest).filter (Pending.resends now)) =
        retransmissions acc.1.counters ([request].filter (Pending.resends now)) ++
          retransmissions (expire now acc request).1.counters
            (rest.filter (Pending.resends now)) := by
      rw [hcounters, ← retransmissions_append, ← List.filter_append]
      rfl
    intro new acc'
    have hnew : new = _ := hnew
    rw [hnew]
    refine ⟨?_, ⟨said ++ said', ?_, ?_⟩, ?_⟩
    · rw [List.map_append, ← List.append_assoc, ← houtbox]
      exact houtbox'
    · rw [← List.append_assoc, ← hevents]
      exact hevents'
    · rw [List.map_append, ← hsaid, ← hsaid']
      exact List.filterMap_append ..
    · rw [List.length_append, Nat.add_comm, Function.iterate_add_apply, ← hcounters]
      exact hcounters'

theorem transmitted_handleTimeout (e : Engine S) (now : Nat) :
    e.transmitted (.handleTimeout now) = retransmissions e.counters (e.resent now) ∧
      (e.queued (.handleTimeout now)).length = (retransmissions e.counters (e.resent now)).length ∧
      (e.handleTimeout now).counters =
        nextMsgCounter^[(retransmissions e.counters (e.resent now)).length] e.counters ∧
      ∀ p ∈ (e.handleTimeout now).pending, ∃ q ∈ e.pending, p.request = q.request ∧
        Datagram.destination p.datagram = Datagram.destination q.datagram := by
  obtain ⟨houtbox, hevents, hcounters⟩ :=
    foldl_expire_sends now e.pending ({ e with pending := [] }, [], [])
  obtain ⟨hqueued, htransmitted⟩ := transmitted_of_expired houtbox hevents
  refine ⟨htransmitted, ?_, hcounters, fun p hp => ?_⟩
  · rw [hqueued, List.length_map]
    rfl
  · obtain ⟨q, hq, hrequest, -, hsame | ⟨counter, hsame⟩⟩ := e.handleTimeout_kept now p hp
    · exact ⟨q, hq, hrequest, congrArg Datagram.destination hsame⟩
    · exact ⟨q, hq, hrequest, hsame ▸ q.destination_messageUnder counter⟩

theorem pending_perform (e : Engine S) {op : EngineOp S} (hop : ∀ now, op ≠ .handleTimeout now) :
    ∀ p ∈ (e.perform op).pending, p ∈ e.pending ∨
      p.request = e.counters ∧ (e.perform op).counters = nextMsgCounter e.counters := by
  have hmade : ∀ (source destination : FeatureAddress) (classifier : CmdClassifier)
      (ackRequest : Bool) (cmd : Cmd S) (now : Nat),
      ∀ p ∈ (e.request source destination classifier ackRequest cmd now).1.pending,
        p ∈ e.pending ∨ p.request = e.counters ∧
          (e.request source destination classifier ackRequest cmd now).1.counters =
            nextMsgCounter e.counters := by
    intro source destination classifier ackRequest cmd now p hp
    cases List.mem_append.mp hp with
    | inl hmem => exact .inl (List.mem_of_mem_drop hmem)
    | inr hmem => exact .inr ⟨List.mem_singleton.mp hmem ▸ rfl, rfl⟩
  cases op with
  | handleTimeout now => exact absurd rfl (hop now)
  | readFiltered | writeFiltered | requestBinding | requestSubscription => exact hmade _ _ _ _ _ _
  | _ => exact fun p hp => .inl (List.Sublist.subset (e.perform_pending rfl) hp)

end Engine

/-- From `e` to `e'` requests are made and let go, and none is sent again. -/
structure Proceeds (e e' : Engine S) : Prop where
  requests : e'.RequestsOnly
  speaks : Speaks (fun _ => True) e e'
  pending : e.counters.toNat + (e'.outbox.length - e.outbox.length) < 2 ^ 64 →
    ∀ p ∈ e'.pending, p ∈ e.pending ∨ e.counters ≤ p.request ∧ p.request < e'.counters

namespace Proceeds

variable {e e' e'' : Engine S}

theorem of_same (h : e.RequestsOnly) (hmute : Mute e e') (hpending : e'.pending = e.pending) :
    Proceeds e e' where
  requests := Engine.requestsOnly_of_subset h fun _ hp => hpending ▸ hp
  speaks := hmute.speaks
  pending _ _ hp := .inl (hpending ▸ hp)

theorem refl (h : e.RequestsOnly) : Proceeds e e := of_same h (.refl e) rfl

theorem counters (h : Proceeds e e')
    (hroom : e.counters.toNat + (e'.outbox.length - e.outbox.length) < 2 ^ 64) :
    e'.counters.toNat = e.counters.toNat + (e'.outbox.length - e.outbox.length) := by
  obtain ⟨sent, houtbox, hnumbered, -⟩ := h.speaks
  have hlength : e'.outbox.length - e.outbox.length = sent.length := by simp [houtbox]
  rw [hlength] at hroom ⊢
  exact Engine.Numbered.next hnumbered hroom

theorem counters_le (h : Proceeds e e')
    (hroom : e.counters.toNat + (e'.outbox.length - e.outbox.length) < 2 ^ 64) :
    e.counters ≤ e'.counters := by
  rw [UInt64.le_iff_toNat_le, h.counters hroom]
  exact Nat.le_add_right _ _

theorem trans (h : Proceeds e e') (h' : Proceeds e' e'') : Proceeds e e'' where
  requests := h'.requests
  speaks := h.speaks.trans h'.speaks
  pending hroom p hp := by
    obtain ⟨sent, houtbox, -⟩ := h.speaks
    obtain ⟨sent', houtbox', -⟩ := h'.speaks
    have hsplit : e'.outbox.length - e.outbox.length + (e''.outbox.length - e'.outbox.length) =
        e''.outbox.length - e.outbox.length := by
      rw [houtbox', houtbox]
      simp only [List.length_append]
      omega
    have hfirst : e.counters.toNat + (e'.outbox.length - e.outbox.length) < 2 ^ 64 := by omega
    have hcounters := h.counters hfirst
    have hsecond : e'.counters.toNat + (e''.outbox.length - e'.outbox.length) < 2 ^ 64 := by omega
    rcases h'.pending hsecond p hp with hmem | ⟨hlater, hlt⟩
    · rcases h.pending hfirst p hmem with hold | ⟨hlater, hlt⟩
      · exact .inl hold
      · exact .inr ⟨hlater, UInt64.lt_of_lt_of_le hlt (h'.counters_le hsecond)⟩
    · exact .inr ⟨UInt64.le_trans (h.counters_le hfirst) hlater, hlt⟩

theorem perform (h : e.RequestsOnly) (op : EngineOp S) (htimer : ∀ now, op ≠ .handleTimeout now)
    (hpoll : op ≠ .pollTransmit) : Proceeds e (e.perform op) where
  requests := Engine.requestsOnly_perform h op
  speaks := (Engine.attributed_perform h hpoll).mono fun _ _ => trivial
  pending hroom p hp := by
    rcases e.pending_perform htimer p hp with hmem | ⟨hmade, hnext⟩
    · exact .inl hmem
    · obtain ⟨sent, houtbox, hnumbered, -⟩ := Engine.attributed_perform h hpoll
      rw [hmade, hnext]
      refine .inr ⟨UInt64.le_refl _, (lt_nextMsgCounter ?_).1⟩
      cases sent with
      | nil =>
        have hstuck : nextMsgCounter e.counters = e.counters := hnext.symm.trans hnumbered
        exact absurd hstuck (nextMsgCounter_ne e.counters)
      | cons message rest =>
        rw [houtbox, List.length_append, List.length_cons] at hroom
        omega

end Proceeds

end Eebus.Spine
