import Eebus.Limitation.EnergyGuard

/-!
The heartbeats of one device and the monitor another has for them, joined by a channel that keeps their order.
-/

namespace Eebus.Limitation

open Eebus.Library Eebus.Model Eebus.Spine

/-- A producer, its heartbeats that are on their way, each with the time it was sent, and the monitor they are
for. -/
structure Supervision where
  clock : Nat
  producer : HeartbeatProducer
  underway : List (Nat × DeviceDiagnosisHeartbeatData)
  monitor : HeartbeatMonitor

/-- A wake-up of the producer, a heartbeat before its time, the arrival of the oldest one, and a wake-up of the
monitor. -/
inductive SupervisionOp
  | tick (now : Nat)
  | beatNow (now : Nat)
  | deliver (now : Nat)
  | watch (now : Nat)

def SupervisionOp.now : SupervisionOp → Nat
  | .tick now | .beatNow now | .deliver now | .watch now => now

namespace Supervision

variable (S : Schema)

def start (producer : HeartbeatProducer) (timeout now : Nat) : Supervision :=
  ⟨now, producer, [], HeartbeatMonitor.new.withTimeout timeout⟩

def send (s : Supervision) (now : Nat) : Supervision :=
  { s with
    producer := (s.producer.beat now).1
    underway := s.underway ++ [(now, (s.producer.beat now).2)] }

def deliver (s : Supervision) (now : Nat) : Supervision :=
  match s.underway with
  | [] => s
  | beat :: rest =>
    { s with
      underway := rest
      monitor := (s.monitor.observeData (S := S) ⟨.deviceDiagnosisHeartbeatData, beat.2⟩ now).1 }

/-- The two devices and the channel as a machine, which answers whether a loss is reported. -/
def machine : Machine Supervision SupervisionOp Bool where
  step s op :=
    let s := { s with clock := op.now }
    match op with
    | .tick now => (if now < s.producer.next then s else s.send now, false)
    | .beatNow now => (s.send now, false)
    | .deliver now => (s.deliver S now, false)
    | .watch now => ({ s with monitor := (s.monitor.handleTimeout now).1 }, (s.monitor.handleTimeout now).2)

/-- Time goes on, the producer is not woken later than `slack` after a heartbeat is due, and no heartbeat is on its
way for longer than `delay`. -/
def Timely (slack delay : Nat) (s : Supervision) (op : SupervisionOp) : Prop :=
  s.clock ≤ op.now ∧ op.now ≤ s.producer.next + slack ∧ ∀ beat ∈ s.underway.head?, op.now ≤ beat.1 + delay

instance decidableTimely (slack delay : Nat) (s : Supervision) (op : SupervisionOp) :
    Decidable (s.Timely slack delay op) :=
  inferInstanceAs (Decidable (_ ∧ _ ∧ ∀ beat ∈ s.underway.head?, _))

/-- Heartbeats sent at `times` follow one sent at `last` in time, and so does the one that is due at `next`. -/
def Paced (period slack : Nat) : Nat → List Nat → Nat → Prop
  | last, [], next => next ≤ last + period
  | last, time :: times, next => time ≤ last + period + slack ∧ Paced period slack time times next

def Counted : Nat → List DeviceDiagnosisHeartbeatData → Nat → Prop
  | last, [], counter => last = counter
  | last, beat :: beats, counter =>
    beat.heartbeatCounter = some ((last + 1) % 2 ^ 64) ∧ Counted ((last + 1) % 2 ^ 64) beats counter

variable {S}

theorem Paced.send {period slack last next now : Nat} {times : List Nat} (h : Paced period slack last times next)
    (hnow : now ≤ next + slack) : Paced period slack last (times ++ [now]) (now + period) := by
  induction times generalizing last with
  | nil =>
    have hdue : next ≤ last + period := h
    exact ⟨by omega, Nat.le_refl _⟩
  | cons time times ih => exact ⟨h.1, ih h.2⟩

theorem Paced.reach {period slack delay last next now : Nat} {times : List Nat}
    (h : Paced period slack last times next) (hnow : now ≤ next + slack)
    (hhead : ∀ time ∈ times.head?, now ≤ time + delay) : now ≤ last + period + slack + delay := by
  cases times with
  | nil =>
    have hdue : next ≤ last + period := h
    omega
  | cons time times =>
    have hsent := h.1
    have harrives := hhead time rfl
    omega

theorem Counted.send {last : Nat} {beats : List DeviceDiagnosisHeartbeatData} {producer : HeartbeatProducer}
    (h : Counted last beats producer.counter) (now : Nat) :
    Counted last (beats ++ [(producer.beat now).2]) (producer.beat now).1.counter := by
  induction beats generalizing last with
  | nil =>
    obtain rfl : last = producer.counter := h
    exact ⟨rfl, rfl⟩
  | cons beat beats ih => exact ⟨h.1, ih h.2⟩

/-- The heartbeats on their way follow one another in time, and the last one the monitor has heard; and the
monitor is patient enough. -/
structure Steady (slack delay : Nat) (s : Supervision) : Prop where
  margin : s.producer.period + slack + delay < s.monitor.timeout
  sent : ∀ beat ∈ s.underway, beat.1 ≤ s.clock
  following : ∀ time times, s.underway.map Prod.fst = time :: times →
    Paced s.producer.period slack time times s.producer.next
  heard : ∀ last, s.monitor.last = some last →
    ∃ time ≤ last, Paced s.producer.period slack time (s.underway.map Prod.fst) s.producer.next

variable {s : Supervision} {slack delay : Nat}

namespace Steady

section

variable (h : s.Steady slack delay)

include h

theorem wait {now : Nat} (hnow : s.clock ≤ now) :
    Steady slack delay { s with clock := now } :=
  ⟨h.margin, fun beat hbeat => (h.sent beat hbeat).trans hnow, h.following, h.heard⟩

theorem send (hdue : s.clock ≤ s.producer.next + slack) :
    (s.send s.clock).Steady slack delay := by
  have htimes : (s.send s.clock).underway.map Prod.fst = s.underway.map Prod.fst ++ [s.clock] := List.map_append
  refine ⟨h.margin, fun beat hbeat => ?_, fun time times htime => ?_, fun last hlast => ?_⟩
  · rcases List.mem_append.mp hbeat with hold | hnew
    · exact h.sent beat hold
    · rw [List.mem_singleton.mp hnew]
      exact Nat.le_refl _
  · rw [htimes] at htime
    cases hold : s.underway.map Prod.fst with
    | nil =>
      rw [hold] at htime
      obtain ⟨rfl, rfl⟩ := List.cons.inj htime
      exact Nat.le_refl _
    | cons first rest =>
      rw [hold] at htime
      obtain ⟨rfl, rfl⟩ := List.cons.inj htime
      exact (h.following first rest hold).send hdue
  · obtain ⟨time, htime, hpaced⟩ := h.heard last hlast
    exact ⟨time, htime, htimes ▸ hpaced.send hdue⟩

theorem deliver : (s.deliver S s.clock).Steady slack delay := by
  unfold Supervision.deliver
  split
  case h_1 => exact h
  case h_2 beat rest hunderway =>
    have hnext : Paced s.producer.period slack beat.1 (rest.map Prod.fst) s.producer.next :=
      h.following _ _ (congrArg (List.map Prod.fst) hunderway)
    refine ⟨h.margin, fun later hlater => ?_, fun time times htimes => ?_, fun last hlast => ?_⟩
    · exact h.sent later (hunderway ▸ List.mem_cons_of_mem beat hlater)
    · rw [htimes] at hnext
      exact hnext.2
    · obtain rfl : s.clock = last := Option.some.inj hlast
      exact ⟨beat.1, h.sent beat (hunderway ▸ List.mem_cons_self), hnext⟩

theorem watch :
    Steady slack delay { s with monitor := (s.monitor.handleTimeout s.clock).1 } := by
  unfold HeartbeatMonitor.handleTimeout
  split
  · exact h
  · exact ⟨h.margin, h.sent, h.following, h.heard⟩

theorem alive (hdue : s.clock ≤ s.producer.next + slack)
    (hhead : ∀ beat ∈ s.underway.head?, s.clock ≤ beat.1 + delay) :
    (s.monitor.handleTimeout s.clock).2 = false := by
  cases hlast : s.monitor.last with
  | none => simp [HeartbeatMonitor.handleTimeout, hlast]
  | some last =>
    obtain ⟨time, htime, hpaced⟩ := h.heard last hlast
    have hreach : s.clock ≤ time + s.producer.period + slack + delay := by
      refine hpaced.reach hdue fun sent hsent => ?_
      rw [List.head?_map] at hsent
      obtain ⟨beat, hbeat, rfl⟩ := Option.map_eq_some_iff.mp hsent
      exact hhead beat hbeat
    have hmargin := h.margin
    have halive : s.monitor.isAlive s.clock = true := by
      rw [HeartbeatMonitor.isAlive, hlast]
      exact decide_eq_true (by omega)
    simp [HeartbeatMonitor.handleTimeout, halive]

theorem step {op : SupervisionOp} (hop : s.Timely slack delay op) :
    ((machine S).next s op).Steady slack delay ∧ ((machine S).step s op).2 = false := by
  obtain ⟨hnow, hdue, hhead⟩ := hop
  have hwait := h.wait hnow
  cases op with
  | tick now =>
    refine ⟨?_, rfl⟩
    change (if now < s.producer.next then _ else _ : Supervision).Steady slack delay
    split
    · exact hwait
    · exact hwait.send hdue
  | beatNow now => exact ⟨hwait.send hdue, rfl⟩
  | deliver now => exact ⟨hwait.deliver, rfl⟩
  | watch now => exact ⟨hwait.watch, hwait.alive hdue hhead⟩

theorem quiet {ops : List SupervisionOp}
    (hops : (machine S).Admits (Timely slack delay) s ops) : true ∉ (machine S).outputs s ops := by
  induction ops generalizing s with
  | nil => exact List.not_mem_nil
  | cons op ops ih =>
    obtain ⟨hnext, hquiet⟩ := h.step (S := S) hops.1
    rw [Machine.outputs_cons, hquiet, List.mem_cons]
    exact not_or.mpr ⟨Bool.noConfusion, ih hnext hops.2⟩

end

end Steady

/-- What the monitor has counted, and the heartbeats on their way, are what the producer has counted. -/
def Agrees (first : Nat) (s : Supervision) : Prop :=
  Counted (s.monitor.counter.getD first) (s.underway.map Prod.snd) s.producer.counter

theorem Agrees.step {first : Nat} (h : s.Agrees first) (op : SupervisionOp) :
    ((machine S).next s op).Agrees first := by
  have hsend : ∀ now, (s.send now).Agrees first := fun now => by
    rw [Agrees, Supervision.send, List.map_append]
    exact Counted.send h now
  cases op with
  | tick now =>
    change (if now < s.producer.next then _ else _ : Supervision).Agrees first
    split
    · exact h
    · exact hsend now
  | beatNow now => exact hsend now
  | deliver now =>
    change (Supervision.deliver S { s with clock := now } now).Agrees first
    unfold Supervision.deliver
    split
    case h_1 => exact h
    case h_2 beat rest hunderway =>
      have hcounted : Counted (s.monitor.counter.getD first) (s.underway.map Prod.snd) s.producer.counter := h
      rw [show s.underway = beat :: rest from hunderway] at hcounted
      refine (congrArg (fun counter => Counted counter _ _) ?_).mpr hcounted.2
      exact congrArg (fun counter => Option.getD (counter.or s.monitor.counter) first) hcounted.1
  | watch now =>
    change Counted ((s.monitor.handleTimeout now).1.counter.getD first) _ _
    unfold HeartbeatMonitor.handleTimeout
    split
    · exact h
    · exact h

theorem no_false_alarm (producer : HeartbeatProducer) (timeout now : Nat) {slack delay : Nat}
    (hmargin : producer.period + slack + delay < timeout) (ops : List SupervisionOp)
    (h : (machine S).Admits (Timely slack delay) (start producer timeout now) ops) :
    let s := (machine S).run (start producer timeout now) ops
    true ∉ (machine S).outputs (start producer timeout now) ops ∧
      (s.underway = [] → s.monitor.counter.getD producer.counter = s.producer.counter) := by
  intro s
  have hstart : (start producer timeout now).Steady slack delay :=
    ⟨hmargin, fun _ hbeat => absurd hbeat List.not_mem_nil, fun _ _ hnone => (by cases hnone),
      fun _ hnone => (by cases hnone)⟩
  have hagrees : s.Agrees producer.counter :=
    (machine S).run_invariant (fun _ _ => True) (Agrees producer.counter) (fun _ op hs _ => hs.step op) ops _ rfl
      ((machine S).admits_of_forall (fun _ _ => trivial) ops _)
  refine ⟨hstart.quiet h, fun hnone => ?_⟩
  rw [Agrees, hnone] at hagrees
  exact hagrees

theorem no_false_alarm_late :
    true ∉ (machine .limitsOnly).outputs (start (.new 0) (fromSecs 120) 0)
      [.tick (fromSecs 60), .deliver (fromSecs 60), .tick (fromSecs 140), .watch (fromSecs 159)] :=
  (@no_false_alarm .limitsOnly (.new 0) (fromSecs 120) 0 (fromSecs 20) (fromSecs 20) (by decide) _
    (by decide)).1

end Supervision

end Eebus.Limitation
