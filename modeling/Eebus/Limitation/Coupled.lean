import Eebus.Limitation.Passage
import Eebus.Limitation.WriteDiscipline
import Eebus.Spine.Joined

/-!
A guard and a Controllable System at the two ends of channels that keep the order of what they carry. While
the guard is told nothing of the limit but what was acknowledged, it writes the limit that is required of it
once, and the system is limited by it no longer than was required. But what the system publishes leaves the
duration out.
-/

namespace Eebus.Spine

open Eebus.Model

variable {S : Schema}

/-- What an application does to its engine of its own accord: it neither stands in for the channels nor
writes past its actor. -/
def EngineOp.isOwn : EngineOp S → Bool
  | .handleDatagram _ _ | .pollTransmit | .pollEvent => false
  | op => !op.writes

theorem EngineOp.writes_of_isOwn {op : EngineOp S} (h : op.isOwn = true) : op.writes = false := by
  cases op <;> first | rfl | cases h

namespace Engine

theorem putBetween_isOwn (e : Engine S) {op : EngineOp S} (h : op.isOwn = true) :
    ∃ new, (e.perform op).events = e.events ++ new ∧ requestsIn new = [] := by
  obtain ⟨reported, haccounts, hdatagram⟩ := e.accounts_perform op (by rintro rfl; cases h)
  have hnone : reported = [] := by
    by_contra hsome
    obtain ⟨datagram, now, v, rfl, -⟩ := hdatagram hsome
    cases h
  obtain ⟨new, hevents, hreported, -⟩ := haccounts
  exact ⟨new, hevents, requestsIn_eq_nil (hreported.trans hnone)⟩

end Engine

end Eebus.Spine

namespace Eebus.Limitation

open Eebus.Library Eebus.Model Eebus.Spine

variable {S : Schema}

def GuardCall.isOwn : GuardCall S → Bool
  | .handleEvent _ _ => false
  | .engine op => op.isOwn
  | _ => true

def HostCall.isOwn : HostCall S → Bool
  | .handleEvent _ _ => false
  | .engine op => op.isOwn
  | _ => true

/-- A guard and a system, what is on its way between them, the limits the system has accepted, the latest
first, and how many limit writes the guard's engine has made again for want of an answer. -/
structure Coupled (S : Schema) where
  guard : Guarding S
  system : Running S
  toSystem : List (Datagram S)
  toGuard : List (Datagram S)
  accepted : List (Nat × LimitWrite)
  repeated : Nat

inductive Move (S : Schema)
  | guard (call : GuardCall S) (own : call.isOwn = true)
  /-- Hands the guard the next event of its engine. -/
  | guardRelay (now : Nat)
  | guardTransmit
  | guardReceive (now : Nat)
  | system (call : HostCall S) (own : call.isOwn = true)
  | systemTransmit
  | systemReceive (now : Nat)

def Move.decision : Move S → Option (Option LimitWrite)
  | .guard call _ => call.decision
  | _ => none

def HostCall.time : HostCall S → Nat
  | .handleEvent _ now | .handleTimeout now | .relay now | .interrupt _ now => now
  | .engine _ => 0

namespace Coupled

def repeats (s : Coupled S) : GuardCall S → Nat
  | .engine op => (s.guard.engine.again op).countP fun p => isLimitWrite p.datagram
  | _ => 0

def move (s : Coupled S) : Move S → Coupled S
  | .guard call _ => { s with guard := s.guard.perform call, repeated := s.repeated + s.repeats call }
  | .guardRelay now =>
    match s.guard.engine.events with
    | [] => s
    | event :: _ =>
      { s with guard := (s.guard.perform (.engine .pollEvent)).perform (.handleEvent event now) }
  | .guardTransmit =>
    match s.guard.engine.outbox with
    | [] => s
    | datagram :: _ =>
      { s with
        guard := s.guard.perform (.engine .pollTransmit)
        toSystem := if Datagram.isFor s.system.engine.device.address datagram
          then s.toSystem ++ [datagram] else s.toSystem }
  | .guardReceive now =>
    match s.toGuard with
    | [] => s
    | datagram :: rest =>
      { s with guard := s.guard.perform (.engine (.handleDatagram datagram now)), toGuard := rest }
  | .system call _ =>
    let (system, event) := s.system.serve call
    { s with system := system, accepted := taking s.accepted call.time event }
  | .systemTransmit =>
    match s.system.engine.outbox with
    | [] => s
    | datagram :: _ =>
      { s with
        system := (s.system.serve (.engine .pollTransmit)).1
        toGuard := if Datagram.isFor s.guard.engine.device.address datagram
          then s.toGuard ++ [datagram] else s.toGuard }
  | .systemReceive now =>
    match s.toSystem with
    | [] => s
    | datagram :: rest =>
      { s with system := (s.system.serve (.engine (.handleDatagram datagram now))).1, toSystem := rest }

/-- What the guard is called with in a move, and as it stands then. -/
def called (s : Coupled S) : Move S → Option (Guarding S × GuardCall S)
  | .guard call _ => if call.isOfEngine then none else some (s.guard, call)
  | .guardRelay now =>
    match s.guard.engine.events with
    | [] => none
    | event :: _ => some (s.guard.perform (.engine .pollEvent), .handleEvent event now)
  | _ => none

def machine : Machine (Coupled S) (Move S) Unit where
  step s move := (s.move move, ())

def start (direction : Direction) (client diagnosis : FeatureAddress) (guardDevice : LocalDevice S)
    (actor : ControllableSystemActor) (systemDevice : LocalDevice S) (now now' : Nat) : Coupled S where
  guard := .start direction client diagnosis (Engine.new guardDevice) now
  system := .install actor (Engine.new systemDevice) now'
  toSystem := []
  toGuard := []
  accepted := []
  repeated := 0

/-- The guard is about to be told of another limit than was acknowledged to it. -/
def Surprised (s : Coupled S) : Move S → Prop
  | .guardRelay now => ∃ event ∈ s.guard.engine.events.head?, s.guard.Surprised (.handleEvent event now)
  | _ => False

instance (s : Coupled S) : (move : Move S) → Decidable (s.Surprised move)
  | .guardRelay now => inferInstanceAs (Decidable (∃ event ∈ s.guard.engine.events.head?,
      s.guard.Surprised (.handleEvent event now)))
  | .guard _ _ | .guardTransmit | .guardReceive _ | .system _ _ | .systemTransmit | .systemReceive _ =>
    .isFalse id

/-- The guard has restrained itself, and goes by these limits; no limit write was accepted that was not noted
or made again; what is on its way writes these limits, what was accepted was taken for them; and the system is
held by the limit it accepted last. -/
structure Sound (D : LimitWrite → Prop) (s : Coupled S) : Prop where
  books : ∃ now, Books restraint now s.guard
  requires : s.guard.Requires D
  bears : s.guard.engine.Bears (WritesOnly D)
  carried : ∀ d ∈ s.toSystem, WritesOnly D d
  put : ∀ write ∈ requestsIn s.system.engine.events, AsksFor D write
  taken : ∀ acceptance ∈ s.accepted, TakenAs D acceptance.2
  counted : s.accepted.length + limitRequests s.system.engine + s.toSystem.countP isLimitWrite +
    s.guard.outgoing ≤ limitWrites s.guard.diary + s.repeated
  held : s.system.actor.system.Held s.accepted

def Restrained (D : LimitWrite → Prop) (diary : List Entry) (device : AddressDevice) (_time _limitId : Nat)
    (limit : LimitWrite) : Prop :=
  (written (since device diary) = true → limit.Strange) ∧ D limit

section Steps

variable {D : LimitWrite → Prop} {s : Coupled S}

theorem outgoing_engine (g : Guarding S) {op : EngineOp S} (h : op.writes = false) :
    (g.perform (.engine op)).outgoing ≤
      g.outgoing + (g.engine.again op).countP fun p => isLimitWrite p.datagram :=
  g.engine.countP_perform writeKind_isLimitWrite h

theorem performs_restrained {g : Guarding S} {now : Nat} (hbooks : Books restraint now g)
    (hrequires : g.Requires D) (hbears : g.engine.Bears (WritesOnly D)) {call : GuardCall S}
    (hop : call.isOfEngine = false) (hdecision : ∀ limit ∈ call.decision, D (Limitation.carried limit))
    (hcalm : ¬g.Surprised call) :
    (∃ now, Books restraint now (g.perform call)) ∧ (g.perform call).Requires D ∧
      (g.perform call).engine.Bears (WritesOnly D) ∧ g.Says (Restrained D) (g.perform call) ∧
        (g.perform call).outgoing + limitWrites g.diary = g.outgoing + limitWrites (g.perform call).diary := by
  have hperforms := hbooks.performs_call call hop (fun _ _ => ⟨trivial, trivial⟩)
    ⟨fun hsurprised => hcalm hsurprised, False.elim⟩
  refine ⟨⟨_, hperforms.books⟩, hrequires.moved hdecision hperforms.moved, hperforms.told.bears hrequires hbears,
    ?_, ?_⟩
  · obtain ⟨entries, sent, hdiary, hsent, hpending, htold⟩ := hperforms.writes.of_required hrequires
    exact ⟨entries, sent, hdiary, hsent, hpending, htold.mono fun _ _ _ _ _ _ _ h => ⟨h.1.1, h.2⟩⟩
  · obtain ⟨entries, sent, hdiary, hsent, -, htold⟩ := hperforms.told
    rw [Guarding.outgoing, Guarding.outgoing, hsent, hdiary, List.countP_append, htold.countP, limitWrites,
      limitWrites, limitWrites, List.countP_append]
    omega

theorem Sound.guard (h : s.Sound D) {call : GuardCall S} (own : call.isOwn = true)
    (hdecision : ∀ limit ∈ call.decision, D (Limitation.carried limit)) :
    (s.move (.guard call own)).Sound D := by
  obtain ⟨now, hbooks⟩ := h.books
  have hcounted := h.counted
  by_cases hop : call.isOfEngine = false
  · have hcalm : ¬s.guard.Surprised call := fun hsurprised => by
      cases call with
      | handleEvent event now => cases own
      | _ => exact hsurprised
    obtain ⟨hbooks', hrequires, hbears, -, hcount⟩ :=
      performs_restrained hbooks h.requires h.bears hop hdecision hcalm
    refine ⟨hbooks', hrequires, hbears, h.carried, h.put, h.taken, ?_, h.held⟩
    dsimp only [move]
    omega
  · cases call with
    | engine op =>
      refine ⟨⟨now, hbooks.of_same rfl rfl rfl⟩, h.requires.engine op,
        bears_engine h.bears op (EngineOp.writes_of_isOwn own), h.carried, h.put, h.taken, ?_, h.held⟩
      have hout := outgoing_engine s.guard (EngineOp.writes_of_isOwn own)
      have hdiary : (s.guard.perform (.engine op)).diary = s.guard.diary := rfl
      dsimp only [move]
      rw [hdiary, repeats]
      omega
    | _ => exact absurd rfl hop

theorem Sound.guardRelay (h : s.Sound D) {now : Nat} (hcalm : ¬s.Surprised (.guardRelay now)) :
    (s.move (.guardRelay now)).Sound D := by
  dsimp only [move]
  split
  · exact h
  case h_2 event rest hevents =>
    obtain ⟨last, hbooks⟩ := h.books
    have hcounted := h.counted
    have hpolled : Books restraint last (s.guard.perform (.engine .pollEvent)) := hbooks.of_same rfl rfl rfl
    have hquiet : (GuardCall.handleEvent event now).isOfEngine = false := rfl
    obtain ⟨hbooks', hrequires, hbears, -, hcount⟩ := performs_restrained hpolled
      (h.requires.engine .pollEvent) (bears_engine h.bears .pollEvent rfl) hquiet (fun _ hnone => nomatch hnone)
      (fun hsurprised => hcalm ⟨event, by rw [hevents]; rfl, hsurprised⟩)
    refine ⟨hbooks', hrequires, hbears, h.carried, h.put, h.taken, ?_, h.held⟩
    have hsame : (s.guard.perform (.engine .pollEvent)).outgoing = s.guard.outgoing ∧
        (s.guard.perform (.engine .pollEvent)).diary = s.guard.diary := ⟨rfl, rfl⟩
    rw [hsame.1, hsame.2] at hcount
    dsimp only
    omega

theorem Sound.guardTransmit (h : s.Sound D) : (s.move .guardTransmit).Sound D := by
  dsimp only [move]
  split
  · exact h
  case h_2 datagram rest houtbox =>
    obtain ⟨last, hbooks⟩ := h.books
    refine ⟨⟨last, hbooks.of_same rfl rfl rfl⟩, h.requires.engine .pollTransmit,
      bears_engine h.bears .pollTransmit rfl,
      fun d hd => ?_, h.put, h.taken, ?_, h.held⟩
    · split at hd
      · rcases List.mem_append.mp hd with hmem | hnew
        · exact h.carried d hmem
        · rw [List.mem_singleton.mp hnew]
          exact h.bears.outbox datagram (houtbox ▸ List.mem_cons_self)
      · exact h.carried d hd
    · have hcounted := h.counted
      have hout : s.guard.outgoing = (s.guard.perform (.engine .pollTransmit)).outgoing +
          if isLimitWrite datagram then 1 else 0 := by
        simp only [Guarding.outgoing, Guarding.perform, Engine.perform, houtbox, List.drop_one,
          List.tail_cons, List.countP_cons]
      have hdiary : (s.guard.perform (.engine .pollTransmit)).diary = s.guard.diary := rfl
      dsimp only
      rw [hdiary]
      split
      · rw [List.countP_append, List.countP_singleton]
        omega
      · omega

theorem Sound.guardReceive (h : s.Sound D) (now : Nat) : (s.move (.guardReceive now)).Sound D := by
  dsimp only [move]
  split
  · exact h
  case h_2 datagram rest harrived =>
    obtain ⟨last, hbooks⟩ := h.books
    refine ⟨⟨last, hbooks.of_same rfl rfl rfl⟩, h.requires.engine (.handleDatagram datagram now),
      bears_engine h.bears (.handleDatagram datagram now) rfl, h.carried, h.put, h.taken, ?_, h.held⟩
    have hcounted := h.counted
    have hout := outgoing_engine s.guard (rfl : (EngineOp.handleDatagram datagram now).writes = false)
    have hagain : s.guard.engine.again (.handleDatagram datagram now) = [] := rfl
    have hdiary : (s.guard.perform (.engine (.handleDatagram datagram now))).diary = s.guard.diary := rfl
    rw [hagain, List.countP_nil, Nat.add_zero] at hout
    dsimp only
    rw [hdiary]
    omega

theorem serve_takes (r : Running S) {call : HostCall S} (own : call.isOwn = true) :
    ((r.serve call).2.bind CsEvent.accepts = none ∧
        (requestsIn (r.serve call).1.engine.events).Sublist (requestsIn r.engine.events)) ∨
      ∃ write rest, requestsIn r.engine.events = write :: rest ∧
        requestsIn (r.serve call).1.engine.events = rest ∧
        (readLimitWrite write.data limitId).isSome = true ∧
        (r.serve call).2.bind CsEvent.accepts = readLimitWrite write.resolved limitId := by
  have hquiet : ∀ {r' : Running S × Option CsEvent}, r'.2.bind CsEvent.accepts = none →
      PutsNothing r.engine r'.1.engine → r'.2.bind CsEvent.accepts = none ∧
        (requestsIn r'.1.engine.events).Sublist (requestsIn r.engine.events) :=
    fun hnone hputs => ⟨hnone, hputs ▸ List.Sublist.refl _⟩
  cases call with
  | handleEvent event now => cases own
  | handleTimeout now =>
    refine .inl (hquiet ?_ (.of_announces ?_))
    · simp only [Running.serve, Running.perform, Running.of, ControllableSystemActor.handleTimeout]
      split <;> rfl
    · have hticked := Announces.of_tick r.actor.heartbeat r.engine r.actor.features.deviceDiagnosis now
      simp only [Running.serve, Running.perform, Running.of, ControllableSystemActor.handleTimeout]
      split
      · exact hticked
      · exact hticked.trans (.of_publish _ _)
  | interrupt reason now =>
    refine .inl (hquiet rfl (.of_announces ?_))
    simp only [Running.serve, ControllableSystemActor.interrupt]
    split
    · exact .refl _
    · exact .of_publish _ _
  | engine op =>
    refine .inl (hquiet rfl ?_)
    obtain ⟨new, hevents, hnone⟩ := r.engine.putBetween_isOwn own
    rw [PutsNothing, Running.serve, hevents, requestsIn_append, hnone, List.append_nil]
  | relay now =>
    simp only [Running.serve, Running.perform]
    split
    · exact .inl ⟨rfl, List.Sublist.refl _⟩
    case h_2 event rest hevents =>
      have hrest : ∀ polled : Engine S, polled.events = rest →
          requestsIn (r.actor.handleEvent polled event now).2.1.events = requestsIn rest := by
        rintro polled rfl
        exact putsNothing_handleEvent r.actor event now
      have hleft := hrest { r.engine with events := rest } rfl
      cases haccepts : (r.actor.handleEvent { r.engine with events := rest } event now).2.2.bind
          CsEvent.accepts with
      | none =>
        refine .inl ⟨haccepts, ?_⟩
        rw [hevents]
        exact hleft ▸ (List.sublist_cons_self event rest).filterMap _
      | some limit =>
        obtain ⟨write, rfl, haddressed, hread⟩ := handleEvent_accepts haccepts
        exact .inr ⟨write, requestsIn rest, by rw [hevents]; rfl, hleft, haddressed, haccepts.trans hread.symm⟩

theorem serve_counted (r : Running S) (accepted : List (Nat × LimitWrite)) {call : HostCall S}
    (own : call.isOwn = true) :
    (taking accepted call.time (r.serve call).2).length + limitRequests (r.serve call).1.engine ≤
      accepted.length + limitRequests r.engine := by
  rcases serve_takes r own with ⟨hnone, hfewer⟩ | ⟨write, rest, hbefore, hafter, haddressed, -⟩
  · rw [taking_none hnone]
    exact Nat.add_le_add_left hfewer.countP_le _
  · have hlength := length_taking_le accepted (r.serve call).2 call.time
    have hkey := readLimitWrite_key haddressed
    rw [limitRequests, limitRequests, hbefore, hafter, List.countP_cons_of_pos (by simpa using hkey)]
    omega

theorem serve_held (r : Running S) {accepted : List (Nat × LimitWrite)}
    (h : r.actor.system.Held accepted) {call : HostCall S} (own : call.isOwn = true) :
    (r.serve call).1.actor.system.Held (taking accepted call.time (r.serve call).2) := by
  cases call with
  | handleEvent event now => cases own
  | handleTimeout now =>
    have hticked := h.handleTimeout now
    simp only [Running.serve, Running.perform, Running.of, ControllableSystemActor.handleTimeout]
    split <;> exact hticked
  | interrupt reason now =>
    have hinterrupted := h.interrupt reason now
    simp only [Running.serve, ControllableSystemActor.interrupt]
    split
    case h_1 => exact h
    case h_2 system heq =>
      rw [heq] at hinterrupted
      exact hinterrupted
  | engine op => exact h
  | relay now =>
    simp only [Running.serve, Running.perform, HostCall.time]
    split
    · exact h
    · exact held_handleEvent h _ now

theorem Sound.system (h : s.Sound D) (hlasts : ∀ limit, D limit → ∀ d ∈ limit.duration, d ≤ durationMax)
    (call : HostCall S) (own : call.isOwn = true) : (s.move (.system call own)).Sound D := by
  have hcounted := h.counted
  have hserved := serve_counted s.system s.accepted own
  refine ⟨h.books, h.requires, h.bears, h.carried, ?_, ?_, ?_, serve_held s.system h.held own⟩
  · intro write hwrite
    rcases serve_takes s.system own with ⟨-, hfewer⟩ | ⟨first, rest, hbefore, hafter, -⟩
    · exact h.put write (hfewer.subset hwrite)
    · refine h.put write ?_
      rw [hbefore]
      exact List.mem_cons_of_mem first (hafter ▸ hwrite)
  · intro acceptance hmem
    have htook : acceptance ∈ taking s.accepted call.time (s.system.serve call).2 := hmem
    rcases mem_taking htook with hold | haccepted
    · exact h.taken acceptance hold
    · rcases serve_takes s.system own with ⟨hnone, -⟩ | ⟨write, rest, hbefore, -, haddressed, hread⟩
      · rw [hnone] at haccepted
        cases haccepted
      · have hput := h.put write (hbefore ▸ List.mem_cons_self)
        exact hput.taken hlasts haddressed (hread.symm.trans haccepted)
  · dsimp only [move]
    omega

theorem Sound.systemTransmit (h : s.Sound D) : (s.move .systemTransmit).Sound D := by
  dsimp only [move]
  split
  · exact h
  · exact ⟨h.books, h.requires, h.bears, h.carried, h.put, h.taken, h.counted, h.held⟩

theorem Sound.systemReceive (h : s.Sound D) (now : Nat) : (s.move (.systemReceive now)).Sound D := by
  dsimp only [move]
  split
  · exact h
  case h_2 datagram rest harrived =>
    have hcarried := h.carried
    have hcounted := h.counted
    rw [harrived] at hcarried
    refine ⟨h.books, h.requires, h.bears, fun d hd => hcarried d (List.mem_cons_of_mem datagram hd),
      asksFor_handleDatagram h.put (hcarried datagram List.mem_cons_self) now, h.taken, ?_, h.held⟩
    have hput := limitRequests_handleDatagram s.system.engine datagram now
    rw [harrived, List.countP_cons] at hcounted
    dsimp only [Running.serve, Engine.perform]
    omega

end Steps

theorem sound_step {D : LimitWrite → Prop} (hlasts : ∀ limit, D limit → ∀ d ∈ limit.duration, d ≤ durationMax)
    {s : Coupled S} (h : s.Sound D) (move : Move S) (hcalm : ¬s.Surprised move)
    (hdecision : ∀ limit ∈ move.decision, D (Limitation.carried limit)) : (s.move move).Sound D := by
  cases move with
  | guard call own => exact h.guard own hdecision
  | guardRelay now => exact h.guardRelay hcalm
  | guardTransmit => exact h.guardTransmit
  | guardReceive now => exact h.guardReceive now
  | system call own => exact h.system hlasts call own
  | systemTransmit => exact h.systemTransmit
  | systemReceive now => exact h.systemReceive now

theorem sound_start {D : LimitWrite → Prop} (hnothing : D LimitWrite.deactivated) (direction : Direction)
    (client diagnosis : FeatureAddress) (guardDevice : LocalDevice S) {actor : ControllableSystemActor}
    (hinit : actor.system.state = .init) (systemDevice : LocalDevice S) (now now' : Nat) :
    (start direction client diagnosis guardDevice actor systemDevice now now').Sound D := by
  have hevents : (Running.install actor (Engine.new systemDevice) now').engine.events = [] :=
    (Announces.of_publish { actor with heartbeat := HeartbeatProducer.new now' }
      { Engine.new systemDevice with
        relations := (Engine.new systemDevice).relations.bindTogether
          [actor.features.loadControl, actor.features.deviceConfiguration] }).events
  have hnone : ∀ {α : Type} {P : α → Prop}, ∀ x ∈ ([] : List α), P x :=
    fun _ h => absurd h List.not_mem_nil
  refine ⟨⟨now, Books.start restraint _ _ _ _ now⟩, ⟨hnothing, hnone, hnone⟩, ⟨hnone, hnone⟩, hnone, ?_, hnone,
    ?_, .of_free ?_⟩
  · dsimp only [start]
    rw [hevents]
    exact hnone
  · dsimp only [start]
    rw [limitRequests, hevents]
    exact le_refl _
  · have hstate : (Running.install actor (Engine.new systemDevice) now').actor.system.state = .init := hinit
    dsimp only [start]
    rw [hstate]
    decide

theorem sound_run {D : LimitWrite → Prop} (hlasts : ∀ limit, D limit → ∀ d ∈ limit.duration, d ≤ durationMax)
    {s : Coupled S} (h : s.Sound D) (moves : List (Move S))
    (hdecision : ∀ move ∈ moves, ∀ limit ∈ move.decision, D (Limitation.carried limit))
    (hcalm : machine.Admits (fun s move => ¬s.Surprised move) s moves) : (machine.run s moves).Sound D := by
  induction moves generalizing s with
  | nil => exact h
  | cons move rest ih =>
    obtain ⟨hfirst, hrest⟩ := hcalm
    exact ih (sound_step hlasts h move hfirst (hdecision move List.mem_cons_self))
      (fun move' hmove => hdecision move' (List.mem_cons_of_mem move hmove)) hrest

end Coupled

namespace Scenario

def speaks (now : Nat) : List (Move Schema.limitsOnly) :=
  List.replicate 8 (.guardRelay now) ++ List.replicate 8 .guardTransmit

def answers (now : Nat) : List (Move Schema.limitsOnly) :=
  List.replicate 8 (.systemReceive now) ++ List.replicate 8 (.system (.relay now) rfl) ++
    List.replicate 8 .systemTransmit ++ List.replicate 8 (.guardReceive now)

end Scenario

end Eebus.Limitation
