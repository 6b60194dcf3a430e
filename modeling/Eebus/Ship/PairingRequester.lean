import Eebus.Library.Duration
import Eebus.Library.Machine

/-!
The requesting end of the pairing service: when its announcement is on the air, and a caller that
carries out each action it polls.
-/

namespace Eebus.Ship

open Eebus.Library

inductive RequesterAction where
  | announce
  | withdraw
deriving DecidableEq

inductive RequesterState where
  /-- On the air; `since` is when the current connection began, if one is up. -/
  | announcing (since : Option Nat)
  | settled
deriving DecidableEq

def settledAfter : Nat := fromSecs (15 * 60)

structure Requester where
  state : RequesterState
  /-- The action the caller has not yet carried out. -/
  pending : Option RequesterAction
deriving DecidableEq

namespace Requester

def new : Requester := ⟨.announcing none, some .announce⟩

def settled : Requester := ⟨.settled, none⟩

def isAnnouncing (r : Requester) : Bool :=
  match r.state with
  | .announcing _ => true
  | .settled => false

def pollAction (r : Requester) : Option RequesterAction × Requester := (r.pending, { r with pending := none })

def onConnected (r : Requester) (now : Nat) : Requester :=
  match r.state with
  | .announcing _ => { r with state := .announcing (some now) }
  | .settled => r

def onDisconnected (r : Requester) : Requester :=
  match r.state with
  | .announcing _ => { r with state := .announcing none }
  | .settled => r

def settle (r : Requester) : Requester :=
  ⟨.settled, if r.isAnnouncing then some .withdraw else none⟩

def handleTimeout (r : Requester) (now : Nat) : Requester :=
  match r.state with
  | .announcing (some since) => if since + settledAfter ≤ now then r.settle else r
  | _ => r

def withdraw (r : Requester) : Requester := r.settle

@[simp] theorem pending_onConnected (r : Requester) (now : Nat) :
    (r.onConnected now).pending = r.pending := by
  cases h : r.state <;> simp only [onConnected, h]

@[simp] theorem isAnnouncing_onConnected (r : Requester) (now : Nat) :
    (r.onConnected now).isAnnouncing = r.isAnnouncing := by
  cases h : r.state <;> simp only [onConnected, isAnnouncing, h]

@[simp] theorem pending_onDisconnected (r : Requester) :
    r.onDisconnected.pending = r.pending := by
  cases h : r.state <;> simp only [onDisconnected, h]

@[simp] theorem isAnnouncing_onDisconnected (r : Requester) :
    r.onDisconnected.isAnnouncing = r.isAnnouncing := by
  cases h : r.state <;> simp only [onDisconnected, isAnnouncing, h]

@[simp] theorem state_settle (r : Requester) : r.settle.state = .settled := rfl

theorem handleTimeout_cases (r : Requester) (now : Nat) : r.handleTimeout now = r ∨
      ∃ since, r.state = .announcing (some since) ∧ since + settledAfter ≤ now ∧
        r.handleTimeout now = r.settle := by
  cases h : r.state with
  | settled => exact .inl (by simp only [handleTimeout, h])
  | announcing since =>
    cases since with
    | none => exact .inl (by simp only [handleTimeout, h])
    | some since =>
      by_cases hheld : since + settledAfter ≤ now
      · exact .inr ⟨since, rfl, hheld, by simp only [handleTimeout, h, if_pos hheld]⟩
      · exact .inl (by simp only [handleTimeout, h, if_neg hheld])

end Requester

inductive RequesterCall where
  | onConnected (now : Nat)
  | onDisconnected
  | handleTimeout (now : Nat)
  | withdraw
  | pollAction
deriving DecidableEq

namespace RequesterCall

def movesClock : RequesterCall → Bool
  | .onConnected _ => true
  | .onDisconnected => true
  | _ => false

end RequesterCall

/-- A requester, and what its caller has on the air. -/
structure Broadcast where
  requester : Requester
  onAir : Bool
deriving DecidableEq

variable {b : Broadcast}

namespace Broadcast

/-- A requester as it is built: for a new request, or for a pairing that completed earlier. -/
def start (completed : Bool) : Broadcast := ⟨if completed then .settled else .new, false⟩

def carryOut (onAir : Bool) : Option RequesterAction → Bool
  | some .announce => true
  | some .withdraw => false
  | none => onAir

def call (b : Broadcast) : RequesterCall → Broadcast
  | .onConnected now => { b with requester := b.requester.onConnected now }
  | .onDisconnected => { b with requester := b.requester.onDisconnected }
  | .handleTimeout now => { b with requester := b.requester.handleTimeout now }
  | .withdraw => { b with requester := b.requester.withdraw }
  | .pollAction => ⟨b.requester.pollAction.2, carryOut b.onAir b.requester.pollAction.1⟩

def machine : Machine Broadcast RequesterCall Unit where
  step b c := (b.call c, ())

/-- Where nothing is left to poll, the announcement is on the air if and only if the requester
says so. -/
def Follows (b : Broadcast) : Prop :=
  b.requester.pollAction.1 = none → (b.onAir = true ↔ b.requester.isAnnouncing = true)

instance (b : Broadcast) : Decidable b.Follows := inferInstanceAs (Decidable (_ → _))

/-- A connection began at `since`, and no later call of the run ended it or began another. -/
def ConnectedSince (calls : List RequesterCall) (since : Nat) : Prop :=
  ∃ earlier later, calls = earlier ++ .onConnected since :: later ∧ ∀ c ∈ later, c.movesClock = false

/-- After `calls`, a timeout at `now` settles the requester only on an unbroken connection. -/
def SettlesDuly (completed : Bool) (calls : List RequesterCall) (now : Nat) : Prop :=
  (machine.run (start completed) calls).requester.isAnnouncing = true →
  (machine.run (start completed) (calls ++ [.handleTimeout now])).requester.isAnnouncing = false →
  ∃ since, ConnectedSince calls since ∧ since + settledAfter ≤ now

/-- The announcement is on the air and its withdrawal waits to be polled. -/
def Withdrawing (b : Broadcast) : Prop :=
  b.onAir = true ∧ b.requester.state = .settled ∧ b.requester.pending = some .withdraw

/-- No second withdrawal comes before the first is polled. -/
def Spares (b : Broadcast) (c : RequesterCall) : Prop := c = .withdraw → ¬b.Withdrawing

def Sound (b : Broadcast) : Prop :=
  match b.requester.pending with
  | none => b.onAir = b.requester.isAnnouncing
  | some .announce => b.requester.isAnnouncing = true
  | some .withdraw => b.requester.isAnnouncing = false

theorem sound_start (completed : Bool) : (start completed).Sound := by
  cases completed <;> rfl

theorem Sound.follows (h : b.Sound) : b.Follows := by
  intro hnone
  have hpending : b.requester.pending = none := hnone
  simp only [Sound, hpending] at h
  rw [h]

theorem Sound.of_same (h : b.Sound) {r : Requester}
    (hpending : r.pending = b.requester.pending) (hair : r.isAnnouncing = b.requester.isAnnouncing) :
    Sound { b with requester := r } := by
  simpa only [Sound, hpending, hair] using h

theorem Sound.settle (h : b.Sound) (hspares : ¬b.Withdrawing) :
    Sound { b with requester := b.requester.settle } := by
  obtain ⟨⟨state, pending⟩, onAir⟩ := b
  cases state with
  | announcing since => rfl
  | settled =>
    cases pending with
    | none => exact h
    | some action =>
      cases action with
      | announce => exact absurd h Bool.false_ne_true
      | withdraw => exact Bool.eq_false_iff.mpr fun hair => hspares ⟨hair, rfl, rfl⟩

theorem Sound.poll (h : b.Sound) : (b.call .pollAction).Sound := by
  obtain ⟨⟨state, pending⟩, onAir⟩ := b
  cases pending with
  | none => exact h
  | some action => cases action <;> exact h.symm

theorem Sound.call (h : b.Sound) {c : RequesterCall} (hspares : b.Spares c) :
    (b.call c).Sound := by
  cases c with
  | onConnected now => exact h.of_same (by simp) (by simp)
  | onDisconnected => exact h.of_same (by simp) (by simp)
  | handleTimeout now =>
    cases b.requester.handleTimeout_cases now with
    | inl hsame => exact h.of_same (by rw [hsame]) (by rw [hsame])
    | inr hsettles =>
      obtain ⟨since, hstate, -, heq⟩ := hsettles
      have hfree : ¬b.Withdrawing := fun hw => nomatch hstate.symm.trans hw.2.1
      change Sound { b with requester := b.requester.handleTimeout now }
      rw [heq]
      exact h.settle hfree
  | withdraw => exact h.settle (hspares rfl)
  | pollAction => exact h.poll

theorem sound_run {completed : Bool} {calls : List RequesterCall}
    (h : machine.Admits Spares (start completed) calls) :
    (machine.run (start completed) calls).Sound :=
  machine.run_invariant Spares Sound (fun _ _ hsound hspares => hsound.call hspares) calls _
    (sound_start completed) h

theorem Withdrawing.not_follows (h : b.Withdrawing) : ¬(b.call .withdraw).Follows := by
  obtain ⟨hair, hstate, -⟩ := h
  intro hfollows
  have hlost : (b.call .withdraw).requester = ⟨.settled, none⟩ := by
    change b.requester.settle = _
    simp only [Requester.settle, Requester.isAnnouncing, hstate, if_neg Bool.false_ne_true]
  have hnone : (b.call .withdraw).requester.pollAction.1 = none := by rw [hlost]; rfl
  have hup := (hfollows hnone).mp hair
  rw [hlost] at hup
  exact Bool.false_ne_true hup

theorem state_of_call {c : RequesterCall} {since : Nat}
    (h : (b.call c).requester.state = .announcing (some since)) : c = .onConnected since ∨
      c.movesClock = false ∧ b.requester.state = .announcing (some since) := by
  cases c with
  | onConnected now =>
    change (b.requester.onConnected now).state = _ at h
    cases hs : b.requester.state with
    | settled => simp [Requester.onConnected, hs] at h
    | announcing old =>
      simp only [Requester.onConnected, hs, RequesterState.announcing.injEq, Option.some.injEq] at h
      exact .inl (congrArg RequesterCall.onConnected h)
  | onDisconnected =>
    change b.requester.onDisconnected.state = _ at h
    cases hs : b.requester.state <;> simp [Requester.onDisconnected, hs] at h
  | handleTimeout now =>
    change (b.requester.handleTimeout now).state = _ at h
    cases b.requester.handleTimeout_cases now with
    | inl hsame => exact .inr ⟨rfl, hsame ▸ h⟩
    | inr hsettles =>
      obtain ⟨-, -, -, heq⟩ := hsettles
      rw [heq] at h
      nomatch h
  | withdraw => nomatch h
  | pollAction => exact .inr ⟨rfl, h⟩

theorem connectedSince_of_state {completed : Bool} {calls : List RequesterCall} {since : Nat}
    (h : (machine.run (start completed) calls).requester.state = .announcing (some since)) :
    ConnectedSince calls since := by
  induction calls using List.reverseRecOn with
  | nil => cases completed <;> nomatch h
  | append_singleton calls c ih =>
    rw [machine.run_append] at h
    cases state_of_call h with
    | inl hnow => exact ⟨calls, [], by rw [hnow], by simp⟩
    | inr hbefore =>
      obtain ⟨hstill, hstate⟩ := hbefore
      obtain ⟨earlier, later, rfl, hlater⟩ := ih hstate
      refine ⟨earlier, later ++ [c], by simp, fun d hd => ?_⟩
      cases List.mem_append.mp hd with
      | inl hd => exact hlater d hd
      | inr hd => exact List.mem_singleton.mp hd ▸ hstill

theorem settlesDuly (completed : Bool) (calls : List RequesterCall) (now : Nat) :
    SettlesDuly completed calls now := by
  intro hup hdown
  rw [machine.run_append] at hdown
  change ((machine.run (start completed) calls).requester.handleTimeout now).isAnnouncing = _ at hdown
  cases (machine.run (start completed) calls).requester.handleTimeout_cases now with
  | inl hsame =>
    rw [hsame, hup] at hdown
    nomatch hdown
  | inr hsettles =>
    obtain ⟨since, hstate, hheld, -⟩ := hsettles
    exact ⟨since, connectedSince_of_state hstate, hheld⟩

/-- The announcement follows the requester in exactly the runs without a second withdrawal while
the first waits. -/
theorem announcement_follows_iff (completed : Bool) (calls : List RequesterCall) :
    (∀ before, before <+: calls → (machine.run (start completed) before).Follows) ∧
      (∀ before now, before ++ [.handleTimeout now] <+: calls → SettlesDuly completed before now) ↔
    machine.Admits Spares (start completed) calls := by
  constructor
  · rintro ⟨hfollows, -⟩
    refine machine.admits_of_steps fun before c hprefix => ?_
    rintro rfl hwithdrawing
    refine hwithdrawing.not_follows ?_
    have hafter := hfollows _ hprefix
    rw [machine.run_append] at hafter
    exact hafter
  · intro hspares
    refine ⟨fun before hprefix => ?_, fun before now _ => settlesDuly completed before now⟩
    exact (sound_run (machine.admits_prefix hspares hprefix)).follows

/-- The announcement goes up, the administrator withdraws it twice, and it stays up. -/
theorem announcement_outlives_requester :
    ¬∀ before, before <+: [.pollAction, .withdraw, .withdraw, .pollAction] →
      (machine.run (start false) before).Follows := by
  intro h
  have hend := h _ List.prefix_rfl
  revert hend
  decide

end Broadcast

end Eebus.Ship
