import Eebus.Spine.Operations

/-! What an engine sends, and under which counters: one after the other, each message under the
next, until they wrap. -/

namespace Eebus.Spine

open Eebus.Library Eebus.Model

variable {S : Schema}

def Datagram.counter (datagram : Datagram S) : Option MsgCounter :=
  datagram.header.bind Header.msgCounter

/-- Consecutive counters, from the first up to the one that comes next. -/
def Numbered : MsgCounter → List (Datagram S) → MsgCounter → Prop
  | counter, [], next => next = counter
  | counter, datagram :: rest, next =>
    Datagram.counter datagram = some counter ∧ Numbered (nextMsgCounter counter) rest next

theorem Numbered.append {datagrams datagrams' : List (Datagram S)} {counter next next' : MsgCounter}
    (h : Numbered counter datagrams next) (h' : Numbered next datagrams' next') :
    Numbered counter (datagrams ++ datagrams') next' := by
  induction datagrams generalizing counter with
  | nil =>
    obtain rfl : next = counter := h
    exact h'
  | cons datagram rest ih => exact ⟨h.1, ih h.2⟩

/-- Counters that rise from above the last one to below the next. -/
def Ascending : Option MsgCounter → List (Datagram S) → MsgCounter → Prop
  | last, [], next => ∀ counter, last = some counter → counter < next
  | last, datagram :: rest, next =>
    ∃ counter, Datagram.counter datagram = some counter ∧ (∀ c, last = some c → c < counter) ∧
      Ascending (some counter) rest next

theorem Ascending.append {datagrams datagrams' : List (Datagram S)} {last : Option MsgCounter}
    {next next' : MsgCounter} (h : Ascending last datagrams next)
    (h' : ∀ last', (∀ counter, last' = some counter → counter < next) →
      Ascending last' datagrams' next') : Ascending last (datagrams ++ datagrams') next' := by
  induction datagrams generalizing last with
  | nil => exact h' last h
  | cons datagram rest ih =>
    obtain ⟨counter, hcounter, hlast, hrest⟩ := h
    exact ⟨counter, hcounter, hlast, ih hrest⟩

theorem lt_nextMsgCounter {counter : MsgCounter} (h : counter.toNat + 1 < 2 ^ 64) :
    counter < nextMsgCounter counter ∧ (nextMsgCounter counter).toNat = counter.toNat + 1 := by
  rw [nextMsgCounter, if_pos h, UInt64.lt_iff_toNat_lt, UInt64.toNat_add, UInt64.toNat_one]
  omega

theorem nextMsgCounter_ne (counter : MsgCounter) : nextMsgCounter counter ≠ counter := by
  intro heq
  by_cases hfits : counter.toNat + 1 < 2 ^ 64
  · have hlt := (lt_nextMsgCounter hfits).1
    rw [heq] at hlt
    exact UInt64.lt_irrefl counter hlt
  · rw [nextMsgCounter, if_neg hfits] at heq
    rw [← heq] at hfits
    exact hfits (by decide)

theorem toNat_iterate_nextMsgCounter {counter : MsgCounter} {n : Nat}
    (h : counter.toNat + n < 2 ^ 64) : (nextMsgCounter^[n] counter).toNat = counter.toNat + n := by
  induction n with
  | zero => rfl
  | succ n ih =>
    have hfits : (nextMsgCounter^[n] counter).toNat + 1 < 2 ^ 64 := by
      rw [ih (by omega)]
      omega
    rw [Function.iterate_succ_apply', (lt_nextMsgCounter hfits).2, ih (by omega)]
    omega

theorem Numbered.ascending {datagrams : List (Datagram S)} {counter next : MsgCounter}
    (h : Numbered counter datagrams next) (hroom : counter.toNat + datagrams.length < 2 ^ 64)
    (keep : Datagram S → Bool) {last : Option MsgCounter}
    (hlast : ∀ c, last = some c → c < counter) : Ascending last (datagrams.filter keep) next := by
  induction datagrams generalizing counter last with
  | nil =>
    obtain rfl : next = counter := h
    exact hlast
  | cons datagram rest ih =>
    rw [List.length_cons] at hroom
    have hfits : counter.toNat + 1 < 2 ^ 64 := by omega
    obtain ⟨hlt, hvalue⟩ := lt_nextMsgCounter hfits
    have hroom' : (nextMsgCounter counter).toNat + rest.length < 2 ^ 64 := by omega
    by_cases hkeep : keep datagram = true
    · rw [List.filter_cons_of_pos hkeep]
      refine ⟨counter, h.1, hlast, ih h.2 hroom' fun c hc => ?_⟩
      cases hc
      exact hlt
    · rw [List.filter_cons_of_neg hkeep]
      exact ih h.2 hroom' fun c hc => UInt64.lt_trans (hlast c hc) hlt

/-- The engine has sent something, each message of the kind `P`. -/
def Speaks (P : Datagram S → Prop) (e e' : Engine S) : Prop :=
  ∃ sent, e'.outbox = e.outbox ++ sent ∧ Numbered e.counters sent e'.counters ∧ ∀ d ∈ sent, P d

def Mute (e e' : Engine S) : Prop := e'.outbox = e.outbox ∧ e'.counters = e.counters

section Speech

variable {P Q : Datagram S → Prop} {e e' e'' : Engine S}

theorem Mute.refl (e : Engine S) : Mute e e := ⟨rfl, rfl⟩

theorem Mute.trans (h : Mute e e') (h' : Mute e' e'') : Mute e e'' :=
  ⟨h'.1.trans h.1, h'.2.trans h.2⟩

theorem Mute.speaks (h : Mute e e') : Speaks P e e' := ⟨[], by simp [h.1], h.2, by simp⟩

theorem Speaks.refl (e : Engine S) : Speaks P e e := (Mute.refl e).speaks

theorem Speaks.trans (h : Speaks P e e') (h' : Speaks P e' e'') : Speaks P e e'' := by
  obtain ⟨sent, houtbox, hnumbered, hP⟩ := h
  obtain ⟨sent', houtbox', hnumbered', hP'⟩ := h'
  refine ⟨sent ++ sent', by rw [houtbox', houtbox, List.append_assoc], hnumbered.append hnumbered',
    fun d hd => ?_⟩
  cases List.mem_append.mp hd with
  | inl hmem => exact hP d hmem
  | inr hmem => exact hP' d hmem

theorem Speaks.mono (h : Speaks P e e') (hPQ : ∀ d, P d → Q d) : Speaks Q e e' := by
  obtain ⟨sent, houtbox, hnumbered, hP⟩ := h
  exact ⟨sent, houtbox, hnumbered, fun d hd => hPQ d (hP d hd)⟩

end Speech

namespace Engine

variable {P : Datagram S → Prop}

theorem speaks_sendCmd (e : Engine S) {source destination : FeatureAddress}
    {classifier : CmdClassifier} {reference : Option MsgCounter} {cmd : Cmd S}
    (h : P ⟨some (header source destination e.counters classifier false reference),
      some ⟨some [cmd]⟩⟩) :
    Speaks P e (e.sendCmd source destination classifier reference cmd) :=
  ⟨_, rfl, ⟨rfl, rfl⟩, by simpa using h⟩

theorem speaks_request (e : Engine S) {source destination : FeatureAddress}
    {classifier : CmdClassifier} {ackRequest : Bool} {cmd : Cmd S} {now : Nat}
    (h : P ⟨some (header source destination e.counters classifier ackRequest none),
      some ⟨some [cmd]⟩⟩) :
    Speaks P e (e.request source destination classifier ackRequest cmd now).1 :=
  ⟨_, rfl, ⟨rfl, rfl⟩, by simpa using h⟩

theorem speaks_notify (e : Engine S) (feature : FeatureAddress) (function : Function S.Other)
    (h : ∀ subscriber counter data, P ⟨some (header feature subscriber counter .notify false none),
      some ⟨some [Cmd.withData data]⟩⟩) : Speaks P e (e.notify feature function) := by
  have hloop : ∀ (subscribers : List FeatureAddress) (e : Engine S),
      Speaks P e (subscribers.foldl (notifySubscriber feature function) e) := by
    intro subscribers
    induction subscribers with
    | nil => exact .refl
    | cons subscriber rest ih =>
      intro e
      refine Speaks.trans ?_ (ih (notifySubscriber feature function e subscriber))
      unfold notifySubscriber
      split
      · exact .refl e
      · exact e.speaks_sendCmd (h _ _ _)
  unfold notify
  split
  · exact .refl e
  · exact hloop _ e

theorem hearing_mute : Hearing (Mute : Engine S → Engine S → Prop) where
  refl := .refl
  trans := .trans
  peers _ _ := ⟨rfl, rfl⟩
  removePeer _ _ := ⟨rfl, rfl⟩
  news _ _ _ := ⟨rfl, rfl⟩
  resolvePending _ reference _ := by cases reference <;> exact ⟨rfl, rfl⟩
  recordRelation _ _ := ⟨rfl, rfl⟩

theorem mute_handleCall (e : Engine S) (cmd : Cmd S) (source : FeatureAddress) :
    Mute e (e.handleCall cmd source).1 := by
  obtain ⟨relations, said, hsame, -⟩ := e.handleCall_says cmd source
  rw [hsame]
  exact ⟨rfl, rfl⟩

end Engine

def Datagram.isRequest (d : Datagram S) : Prop :=
  ∃ header, d.header = some header ∧ header.msgCounterReference = none

namespace Engine

def RequestsOnly (e : Engine S) : Prop := ∀ p ∈ e.pending, Datagram.isRequest p.datagram

theorem speaks_expire {P : Datagram S → Prop} (now : Nat)
    (acc : Engine S × List (Pending S) × List (Pending S)) {request : Pending S}
    (hheader : request.datagram.header.isSome) (h : ∀ counter, P (request.messageUnder counter)) :
    Speaks P acc.1 (expire now acc request).1 := by
  obtain ⟨e, kept, abandoned⟩ := acc
  unfold expire
  dsimp only
  split
  · exact .refl e
  · split
    · split <;> exact .refl e
    · refine ⟨[_], rfl, ⟨?_, rfl⟩, List.forall_mem_singleton.mpr (h e.counters)⟩
      obtain ⟨header, hheader⟩ := Option.isSome_iff_exists.mp hheader
      rw [hheader]
      rfl

theorem handleTimeout_speaks {P : Datagram S → Prop} (e : Engine S) (now : Nat)
    (h : ∀ p ∈ e.pending, p.datagram.header.isSome ∧ ∀ counter, P (p.messageUnder counter)) :
    Speaks P e (e.handleTimeout now) :=
  List.foldlRecOn (b := ({ e with pending := [] }, [], [])) (motive := fun acc => Speaks P e acc.1)
    e.pending (expire now) (.refl e) fun acc hspeaks request hrequest =>
      hspeaks.trans (speaks_expire now acc (h request hrequest).1 (h request hrequest).2)

theorem speaks_handleTimeout {e : Engine S} (h : e.RequestsOnly) (now : Nat) :
    Speaks Datagram.isRequest e (e.handleTimeout now) ∧ (e.handleTimeout now).RequestsOnly := by
  have hagain : ∀ p ∈ e.pending, p.datagram.header.isSome ∧
      ∀ counter, Datagram.isRequest (p.messageUnder counter) := by
    intro p hp
    obtain ⟨header, hheader, hreference⟩ := h p hp
    refine ⟨Option.isSome_of_eq_some hheader, fun counter => ?_⟩
    rw [Pending.messageUnder, hheader]
    exact ⟨_, rfl, hreference⟩
  refine ⟨e.handleTimeout_speaks now hagain, fun p hp => ?_⟩
  obtain ⟨q, hq, -, -, hsame | ⟨counter, hsame⟩⟩ := e.handleTimeout_kept now p hp
  · exact hsame ▸ h q hq
  · exact hsame ▸ (hagain q hq).2 counter

end Engine

end Eebus.Spine
