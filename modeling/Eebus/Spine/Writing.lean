import Eebus.Spine.Retransmission

/-! What an engine writes to its peers: what it is told to write, and again what was not answered. -/

namespace Eebus.Spine

open Eebus.Library Eebus.Model

variable {S : Schema}

def Datagram.isWrite (d : Datagram S) : Bool := d.header.bind Header.cmdClassifier == some .write

structure WriteKind (K : Datagram S → Bool) : Prop where
  writes : ∀ d, K d = true → Datagram.isWrite d = true
  counter : ∀ (p : Pending S) counter, K (p.messageUnder counter) = K p.datagram

/-- Whatever the engine has to send is of this kind: what waits in the outbox, and what it may send again. -/
structure Engine.Bears (P : Datagram S → Prop) (e : Engine S) : Prop where
  outbox : ∀ d ∈ e.outbox, P d
  pending : ∀ p ∈ e.pending, P p.datagram

/-- From `e` to `e'` messages of this kind have gone out, and every request that is new is one of them. -/
def Requests (P : Datagram S → Prop) (e e' : Engine S) : Prop :=
  ∃ sent, e'.outbox = e.outbox ++ sent ∧ (∀ d ∈ sent, P d) ∧
    ∀ p ∈ e'.pending, p ∈ e.pending ∨ p.datagram ∈ sent

def EngineOp.writes : EngineOp S → Bool
  | .writeFiltered _ _ _ _ _ => true
  | _ => false

theorem Speaks.countP {K : Datagram S → Bool} {e e' : Engine S} (hK : WriteKind K)
    (h : Speaks (fun d => Datagram.isWrite d = false) e e') : e'.outbox.countP K = e.outbox.countP K := by
  obtain ⟨sent, hsent, -, hnone⟩ := h
  have hzero : sent.countP K = 0 := List.countP_eq_zero.mpr fun d hd hkind => by
    have hwrite := hK.writes d hkind
    rw [hnone d hd] at hwrite
    cases hwrite
  rw [hsent, List.countP_append, hzero, Nat.add_zero]

namespace Requests

variable {P Q : Datagram S → Prop} {e e' e'' : Engine S}

theorem refl (e : Engine S) : Requests P e e :=
  ⟨[], (List.append_nil _).symm, by simp, fun _ hp => .inl hp⟩

theorem trans (h : Requests P e e') (h' : Requests P e' e'') : Requests P e e'' := by
  obtain ⟨sent, hsent, hall, hpending⟩ := h
  obtain ⟨sent', hsent', hall', hpending'⟩ := h'
  refine ⟨sent ++ sent', by rw [hsent', hsent, List.append_assoc], fun d hd => ?_, fun p hp => ?_⟩
  · exact (List.mem_append.mp hd).elim (hall d) (hall' d)
  · rcases hpending' p hp with hmem | hnew
    · exact (hpending p hmem).imp_right (List.mem_append_left _)
    · exact .inr (List.mem_append_right _ hnew)

theorem mono (h : Requests P e e') (hPQ : ∀ d, P d → Q d) : Requests Q e e' := by
  obtain ⟨sent, hsent, hall, hpending⟩ := h
  exact ⟨sent, hsent, fun d hd => hPQ d (hall d hd), hpending⟩

theorem of_request (e : Engine S) (source destination : FeatureAddress) {classifier : CmdClassifier}
    (hclassifier : classifier ≠ .write) (ackRequest : Bool) (cmd : Cmd S) (now : Nat) :
    Requests (fun d => Datagram.isWrite d = false) e
      (e.request source destination classifier ackRequest cmd now).1 := by
  refine ⟨[_], rfl, fun d hd => ?_, fun p hp => ?_⟩
  · rw [List.mem_singleton.mp hd]
    exact beq_false_of_ne fun heq => hclassifier (Option.some.inj heq)
  · rcases List.mem_append.mp hp with hmem | hnew
    · exact .inl (List.mem_of_mem_drop hmem)
    · rw [List.mem_singleton.mp hnew]
      exact .inr List.mem_cons_self

end Requests

namespace Engine

theorem answering_no_write (peer : FeatureAddress) (counter : MsgCounter) :
    Answering (S := S) (fun d => Datagram.isWrite d = false) peer counter where
  answer hclassifier := beq_false_of_ne fun heq => hclassifier (Option.some.inj heq)
  notification := rfl

theorem request_no_write (e : Engine S) (source destination : FeatureAddress)
    {classifier : CmdClassifier} (hclassifier : classifier ≠ .write) (ackRequest : Bool) (cmd : Cmd S)
    (now : Nat) : Speaks (fun d => Datagram.isWrite d = false) e
      (e.request source destination classifier ackRequest cmd now).1 :=
  e.speaks_request (beq_false_of_ne fun heq => hclassifier (Option.some.inj heq))

def again (e : Engine S) : EngineOp S → List (Pending S)
  | .handleTimeout now => e.resent now
  | _ => []

theorem countP_retransmissions {K : Datagram S → Bool} (hK : WriteKind K) (counter : MsgCounter)
    (requests : List (Pending S)) :
    ((retransmissions counter requests).map Prod.snd).countP K =
      requests.countP fun p => K p.datagram := by
  induction requests generalizing counter with
  | nil => rfl
  | cons p rest ih =>
    rw [retransmissions, List.map_cons, List.countP_cons, List.countP_cons, ih, hK.counter]

theorem countP_handleTimeout {K : Datagram S → Bool} (hK : WriteKind K) (e : Engine S) (now : Nat) :
    (e.handleTimeout now).outbox.countP K =
      e.outbox.countP K + (e.resent now).countP fun p => K p.datagram := by
  obtain ⟨houtbox, -⟩ := foldl_expire_sends now e.pending ({ e with pending := [] }, [], [])
  have hsent : (e.handleTimeout now).outbox =
      e.outbox ++ (retransmissions e.counters (e.resent now)).map Prod.snd := houtbox
  rw [hsent, List.countP_append, countP_retransmissions hK]

theorem countP_perform {K : Datagram S → Bool} (hK : WriteKind K) (e : Engine S) {op : EngineOp S}
    (hop : op.writes = false) :
    (e.perform op).outbox.countP K ≤ e.outbox.countP K + (e.again op).countP fun p => K p.datagram := by
  have hsilent : Speaks (fun d => Datagram.isWrite d = false) e (e.perform op) →
      (e.perform op).outbox.countP K ≤
        e.outbox.countP K + (e.again op).countP fun p => K p.datagram :=
    fun h => (h.countP hK).le.trans (Nat.le_add_right _ _)
  cases op with
  | handleDatagram datagram now =>
    refine hsilent ?_
    cases e.handleDatagram_speaks datagram now with
    | inl hmute => exact hmute.speaks
    | inr hanswers =>
      obtain ⟨source, counter, -, -, hspeaks⟩ := hanswers
      exact hspeaks (answering_no_write source counter)
  | handleTimeout now => exact (countP_handleTimeout hK e now).le
  | finishWrite token replacement =>
    refine hsilent ?_
    cases hfound : e.findDeferred token with
    | none =>
      rw [perform, finishWrite, hfound]
      exact .refl e
    | some write => exact finishWrite_speaks hfound replacement (answering_no_write _ _)
  | rejectWrite token error =>
    refine hsilent ?_
    cases hfound : e.findDeferred token with
    | none =>
      rw [perform, rejectWrite, hfound]
      exact .refl e
    | some write => exact rejectWrite_speaks hfound error (answering_no_write _ _)
  | writeFiltered => cases hop
  | readFiltered | requestBinding | requestSubscription =>
    refine hsilent (e.request_no_write _ _ ?_ _ _ _)
    intro h
    cases h
  | pollTransmit => exact ((List.drop_sublist 1 e.outbox).countP_le).trans (Nat.le_add_right _ _)
  | removePeer | pollEvent => exact hsilent (Mute.speaks ⟨rfl, rfl⟩)
  | _ => exact hsilent ((reshaping_speaks fun _ _ _ _ => rfl).perform e rfl)

theorem pending_no_write (e : Engine S) {op : EngineOp S} (hop : op.writes = false)
    (htimer : ∀ now, op ≠ .handleTimeout now) :
    ∀ p ∈ (e.perform op).pending, p ∈ e.pending ∨ Datagram.isWrite p.datagram = false := by
  have hmade : ∀ (source destination : FeatureAddress) {classifier : CmdClassifier},
      classifier ≠ .write → ∀ (ackRequest : Bool) (cmd : Cmd S) (now : Nat),
      ∀ p ∈ (e.request source destination classifier ackRequest cmd now).1.pending,
        p ∈ e.pending ∨ Datagram.isWrite p.datagram = false := by
    intro source destination classifier hclassifier ackRequest cmd now p hp
    obtain ⟨sent, -, hall, hpending⟩ := Requests.of_request e source destination hclassifier ackRequest cmd now
    exact (hpending p hp).imp_right (hall _)
  cases op with
  | handleTimeout now => exact absurd rfl (htimer now)
  | writeFiltered => cases hop
  | readFiltered | requestBinding | requestSubscription =>
    refine hmade _ _ ?_ _ _ _
    intro h
    cases h
  | _ => exact fun p hp => .inl (List.Sublist.subset (e.perform_pending rfl) hp)

theorem Bears.perform {P : Datagram S → Prop} {e : Engine S} (h : e.Bears P)
    (hwrites : ∀ d, Datagram.isWrite d = false → P d)
    (hcounter : ∀ (p : Pending S) counter, P (p.messageUnder counter) ↔ P p.datagram) {op : EngineOp S}
    (hop : op.writes = false) : (e.perform op).Bears P where
  outbox := by
    classical
    have hkind : WriteKind fun d : Datagram S => decide ¬P d := by
      refine ⟨fun d hd => ?_, fun p counter => by simp only [hcounter]⟩
      by_contra hno
      exact of_decide_eq_true hd (hwrites d (by simpa using hno))
    have hnone : ∀ l : List (Datagram S), l.countP (fun d => decide ¬P d) = 0 ↔ ∀ d ∈ l, P d := fun l => by
      simp [List.countP_eq_zero]
    have hpending : (e.again op).countP (fun p => decide ¬P p.datagram) = 0 := by
      refine List.countP_eq_zero.mpr fun p hp => ?_
      have hmem : p ∈ e.pending := by
        cases op with
        | handleTimeout now => exact List.mem_of_mem_filter hp
        | _ => cases hp
      simpa using h.pending p hmem
    have hcount := e.countP_perform hkind hop
    rw [hpending, (hnone _).mpr h.outbox] at hcount
    exact (hnone _).mp (Nat.le_zero.mp hcount)
  pending := by
    intro p hp
    by_cases htimer : ∃ now, op = .handleTimeout now
    · obtain ⟨now, rfl⟩ := htimer
      obtain ⟨q, hq, -, -, hsame | ⟨counter, hsame⟩⟩ := e.handleTimeout_kept now p hp
      · rw [hsame]
        exact h.pending q hq
      · rw [hsame]
        exact (hcounter q counter).mpr (h.pending q hq)
    · rcases e.pending_no_write hop (fun now heq => htimer ⟨now, heq⟩) p hp with hmem | hno
      · exact h.pending p hmem
      · exact hwrites _ hno

end Engine

end Eebus.Spine
