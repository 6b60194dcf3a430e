import Eebus.Ship.Handshake

/-!
The script of a connection: what each of two nodes may say at each stage, and what it takes to have heard
by then. Data comes past the lock that a PIN requirement puts on it.
-/

namespace Eebus.Ship

open Eebus.Library

def Role.other : Role → Role
  | .client => .server
  | .server => .client

inductive Stage
  | silent
  | opened
  | ready
  | proposed
  | confirmed
  | pinned
deriving DecidableEq

def Stage.rank : Stage → Nat
  | .silent => 0
  | .opened => 1
  | .ready => 2
  | .proposed => 3
  | .confirmed => 4
  | .pinned => 5

def Stage.needs : Role → Stage → Stage
  | .client, .proposed => .ready
  | .client, .confirmed | .client, .pinned => .proposed
  | .server, .proposed => .proposed
  | .server, .confirmed | .server, .pinned => .confirmed
  | _, _ => .silent

variable {hello : ConnectionHello} {control : ControlMessage} {messages : List ShipMessage}
    {message : ShipMessage} {s t : Stage}

theorem Stage.needs_mono (role : Role) (h : s.rank ≤ t.rank) :
    (s.needs role).rank ≤ (t.needs role).rank := by
  revert h
  cases role <;> cases s <;> cases t <;> decide

def lowerVersion (v w : ShipVersion) : ShipVersion := if v.le w then v else w

theorem ShipVersion.le_total (v w : ShipVersion) : v.le w = true ∨ w.le v = true := by
  simp only [ShipVersion.le, Bool.or_eq_true, Bool.and_eq_true, decide_eq_true_eq, beq_iff_eq]
  omega

theorem lowerVersion_le (v w : ShipVersion) : (lowerVersion v w).le v = true := by
  unfold lowerVersion
  split
  · exact (ShipVersion.le_total v v).elim id id
  case isFalse hle => exact (ShipVersion.le_total v w).resolve_left hle

theorem lowerVersion_major {v w : ShipVersion} (hv : 1 ≤ v.major) (hw : 1 ≤ w.major) :
    1 ≤ (lowerVersion v w).major := by
  unfold lowerVersion
  split
  · exact hv
  · exact hw

def selectionOf (choice : ShipVersion × String) : MessageProtocolHandshake :=
  ⟨some .select, some ⟨some choice.1.major, some choice.1.minor⟩, some (some [choice.2])⟩

section Script

variable (configs : Role → HandshakeConfig)

def offer : MessageProtocolHandshake where
  handshakeType := some .announceMax
  version := some ⟨some (configs .client).maxVersion.major, some (configs .client).maxVersion.minor⟩
  formats := some (some (configs .client).formats)

/-- The lower of the two versions, and the first of the server's formats that the client offers. -/
def choice : Option (ShipVersion × String) :=
  ((configs .server).formats.find? fun ours => (configs .client).formats.contains ours).map
    (lowerVersion (configs .client).maxVersion (configs .server).maxVersion, ·)

def Stage.afterHello (s : Stage) (hello : ConnectionHello) : Option Stage :=
  match hello.phase, s with
  | some .pending, .opened => some .opened
  | some .ready, .opened | some .ready, .ready => if hello.waiting.isSome then some .ready else none
  | some .aborted, .opened | some .aborted, .ready => some s
  | _, _ => none

def Stage.afterProtocol (role : Role) (s : Stage) (msg : MessageProtocolHandshake) : Option Stage :=
  match role, s with
  | .client, .ready => if msg = offer configs then some .proposed else none
  | .client, .proposed => if (choice configs).map selectionOf = some msg then some .confirmed else none
  | .server, .ready => if (choice configs).map selectionOf = some msg then some .proposed else none
  | _, _ => none

def Stage.afterPinState (role : Role) (s : Stage) (state : ConnectionPinState) : Option Stage :=
  if state.pinState.isNone then none
  else
    match role, s with
    | .client, .confirmed | .server, .proposed | _, .pinned => some .pinned
    | _, _ => none

def Stage.after (role : Role) (s : Stage) : ControlMessage → Option Stage
  | .connectionHello hello => s.afterHello hello
  | .messageProtocolHandshake msg => s.afterProtocol configs role msg
  | .connectionPinState state => s.afterPinState role state
  | .connectionPinInput _ => if s = .pinned then some s else none
  | _ => some s

structure Progress where
  stage : Stage
  closing : Bool := false
deriving DecidableEq

/-- One message further in the script of the node in this role; `none` when the message is not in it.
After the announcement of a close anything may be said. -/
def Progress.hear (role : Role) (p : Progress) (message : ShipMessage) : Option Progress :=
  if p.closing then some p
  else
    match message with
    | .cmi => if p.stage = .silent then some ⟨.opened, false⟩ else none
    | .control control => (p.stage.after configs role control).map (⟨·, false⟩)
    | .data => if p.stage = .pinned then some p else none
    | .connectionClose close =>
      match close.phase with
      | some .announce => some ⟨p.stage, true⟩
      | some .confirm => some p
      | none => none

def Progress.say (role : Role) (p : Progress) : ShipMessage → Option Progress
  | .data => none
  | message => p.hear configs role message

end Script

variable {configs : Role → HandshakeConfig} {role : Role}

theorem Progress.hear_closing {p : Progress} (h : p.closing = true) (message : ShipMessage) :
    p.hear configs role message = some p := if_pos h

theorem Progress.hear_control :
    (⟨s, false⟩ : Progress).hear configs role (.control control) =
      (s.after configs role control).map (⟨·, false⟩) := rfl

theorem Progress.say_control :
    (⟨s, false⟩ : Progress).say configs role (.control control) =
      (s.after configs role control).map (⟨·, false⟩) := rfl

theorem Stage.after_rank (h : s.after configs role control = some t) : s.rank ≤ t.rank := by
  cases control with
  | connectionHello hello =>
    simp only [Stage.after, Stage.afterHello] at h
    split at h
    all_goals (try split at h) <;> cases h <;> decide
  | messageProtocolHandshake msg =>
    simp only [Stage.after, Stage.afterProtocol] at h
    split at h
    all_goals (try split at h) <;> cases h <;> decide
  | connectionPinState state =>
    simp only [Stage.after, Stage.afterPinState] at h
    split at h
    · cases h
    · split at h <;> cases h <;> decide
  | connectionPinInput pin =>
    simp only [Stage.after] at h
    split at h <;> cases h
    exact le_rfl
  | _ =>
    cases h
    exact le_rfl

theorem Stage.afterHello_ready (hready : hello.phase = some .ready)
    (h : s.afterHello hello = some t) : hello.waiting.isSome = true ∧ t = .ready := by
  simp only [Stage.afterHello, hready] at h
  split at h <;> simp_all

theorem Stage.afterHello_pending
    (hpending : hello.phase = some .pending) (h : s.afterHello hello = some t) :
    s = .opened ∧ t = .opened := by
  simp only [Stage.afterHello, hpending] at h
  split at h <;> simp_all

theorem Stage.afterHello_aborted
    (haborted : hello.phase = some .aborted) (h : s.afterHello hello = some t) : s = t := by
  simp only [Stage.afterHello, haborted] at h
  split at h <;> simp_all

theorem Stage.afterHello_early
    (h : s.afterHello hello = some t) : s = .opened ∨ s = .ready := by
  unfold Stage.afterHello at h
  split at h <;> simp_all

theorem Stage.afterHello_of_ready (h : Stage.ready.afterHello hello = some t) : t = .ready := by
  unfold Stage.afterHello at h
  split at h <;> simp_all

theorem Stage.afterPinState_iff {state : ConnectionPinState} :
    s.afterPinState role state = some t ↔ state.pinState.isSome = true ∧ t = .pinned ∧
      (s = .pinned ∨ s = Stage.pinned.needs role.other) := by
  unfold Stage.afterPinState
  cases state.pinState <;> cases role <;> cases s <;> simp [Stage.needs, Role.other, eq_comm]

theorem Progress.hear_pinState {p : Progress} {state : ConnectionPinState}
    (hstate : state.pinState.isSome = true)
    (hstage : p.stage = .pinned ∨ p.stage = Stage.pinned.needs role.other) (hopen : p.closing = false) :
    p.hear configs role (.control (.connectionPinState state)) = some ⟨.pinned, false⟩ := by
  obtain ⟨stage, closing⟩ := p
  subst hopen
  rw [Progress.hear_control, Stage.after]
  rw [Stage.afterPinState_iff.mpr ⟨hstate, rfl, hstage⟩]
  rfl

theorem Stage.afterProtocol_cases {msg : MessageProtocolHandshake}
    (h : s.afterProtocol configs role msg = some t) :
    (role = .client ∧ s = .ready ∧ t = .proposed ∧ msg = offer configs) ∨
    (role = .client ∧ s = .proposed ∧ t = .confirmed ∧ (choice configs).map selectionOf = some msg) ∨
    (role = .server ∧ s = .ready ∧ t = .proposed ∧ (choice configs).map selectionOf = some msg) := by
  unfold Stage.afterProtocol at h
  split at h
  all_goals try split at h
  all_goals simp_all

theorem Progress.hear_rank {p q : Progress}
    (h : p.hear configs role message = some q) : p.stage.rank ≤ q.stage.rank := by
  unfold Progress.hear at h
  split at h
  · cases h
    exact le_rfl
  cases message with
  | cmi =>
    simp only at h
    split at h
    case isTrue hsilent =>
      cases h
      rw [hsilent]
      decide
    · cases h
  | control control =>
    obtain ⟨t, ht, rfl⟩ := Option.map_eq_some_iff.mp h
    exact Stage.after_rank ht
  | data =>
    simp only at h
    split at h <;> cases h
    exact le_rfl
  | connectionClose close =>
    simp only at h
    split at h <;> cases h <;> exact le_rfl

def ControlMessage.isAside : ControlMessage → Bool
  | .connectionHello _ | .messageProtocolHandshake _ | .connectionPinState _ | .connectionPinInput _ =>
    false
  | _ => true

theorem Progress.hear_aside (p : Progress) (haside : control.isAside = true) :
    p.hear configs role (.control control) = some p := by
  obtain ⟨stage, closing⟩ := p
  cases closing with
  | true => rfl
  | false => cases control <;> first | rfl | cases haside

def ShipMessage.opens : ShipMessage → Bool
  | .cmi => true
  | .control (.messageProtocolHandshake _) => true
  | _ => false

def ShipMessage.announces : ShipMessage → Bool
  | .connectionClose close => close.phase = some .announce
  | _ => false

def ShipMessage.isData : ShipMessage → Bool
  | .data => true
  | _ => false

/-- A PIN requirement, how far it is met, the wrong PINs so far, and whether a penalty runs. -/
structure PinLock where
  pin : PinRequirement
  state : PinState
  attempts : Nat
  barred : Bool

namespace PinLock

variable {lock : PinLock}

def attempt (lock : PinLock) (input : Option String) : PinLock :=
  if lock.barred then lock
  else if input.isSome ∧ input = Handshake.expectedPin lock.pin then { lock with state := .pinOk }
  else
    let attempts := min (lock.attempts + 1) (2 ^ 32 - 1)
    { lock with attempts := attempts, barred := (pinPenalty attempts).isSome }

def hear (lock : PinLock) : ShipMessage → PinLock
  | .control (.connectionPinInput input) => lock.attempt input
  | _ => lock

/-- Every payload on its way finds the requirement met by the PINs on their way before it, unless the
peer's close comes first. -/
def admits (lock : PinLock) : List ShipMessage → Bool
  | [] => true
  | message :: rest =>
    message.announces ||
      ((!message.isData || lock.state ≠ .required) && (lock.hear message).admits rest)

theorem admits_cons {rest : List ShipMessage} :
    lock.admits (message :: rest) = true ↔ message.announces = true ∨
      (message.isData = true → lock.state ≠ .required) ∧ (lock.hear message).admits rest = true := by
  cases hdata : message.isData <;> simp [admits, hdata]

theorem attempt_met (h : lock.state ≠ .required) (input : Option String) :
    (lock.attempt input).state ≠ .required := by
  unfold attempt
  split
  · exact h
  split
  · nofun
  · exact h

theorem hear_met (h : lock.state ≠ .required) (message : ShipMessage) :
    (lock.hear message).state ≠ .required := by
  unfold hear
  split
  · exact attempt_met h _
  · exact h

theorem admits_met (h : lock.state ≠ .required) (messages : List ShipMessage) :
    lock.admits messages = true := by
  induction messages generalizing lock with
  | nil => rfl
  | cons message rest ih => exact admits_cons.mpr (.inr ⟨fun _ => h, ih (hear_met h message)⟩)

theorem admits_append {more : List ShipMessage} (h : lock.admits messages = true)
    (hmore : ∀ lock : PinLock, lock.admits more = true) : lock.admits (messages ++ more) = true := by
  induction messages generalizing lock with
  | nil => exact hmore lock
  | cons message rest ih => exact admits_cons.mpr ((admits_cons.mp h).imp id fun h => ⟨h.1, ih h.2⟩)

theorem admits_dataless (h : ∀ message ∈ messages, message.isData = false) :
    lock.admits messages = true := by
  induction messages generalizing lock with
  | nil => rfl
  | cons message rest ih =>
    have hmessage := h message List.mem_cons_self
    refine admits_cons.mpr (.inr ⟨fun hdata => ?_, ih fun m hm => h m (List.mem_cons_of_mem _ hm)⟩)
    rw [hmessage] at hdata
    cases hdata

theorem admits_barred (hbarred : lock.barred = true) (hstate : lock.state = .required)
    (h : lock.admits messages = true) (lock' : PinLock) : lock'.admits messages = true := by
  induction messages generalizing lock' with
  | nil => rfl
  | cons message rest ih =>
    have hsame : lock.hear message = lock := by
      unfold hear attempt
      split <;> simp [hbarred]
    refine admits_cons.mpr ((admits_cons.mp h).imp id fun ⟨hdata, hrest⟩ => ?_)
    rw [hsame] at hrest
    exact ⟨fun hisData => absurd hstate (hdata hisData), ih hrest _⟩

theorem admits_eased (h : lock.admits messages = true) :
    { lock with barred := false }.admits messages = true := by
  by_cases hstate : lock.state = .required
  · cases hbarred : lock.barred with
    | true => exact admits_barred hbarred hstate h _
    | false => rwa [← hbarred]
  · refine admits_met ?_ messages
    exact hstate

theorem admits_announced {more : List ShipMessage} (h : lock.admits messages = true)
    (hannounced : ∃ message ∈ messages, message.announces = true) :
    lock.admits (messages ++ more) = true := by
  induction messages generalizing lock with
  | nil => simp at hannounced
  | cons message rest ih =>
    refine admits_cons.mpr ?_
    cases hannounces : message.announces with
    | true => exact .inl rfl
    | false =>
      obtain ⟨hdata, hrest⟩ := (admits_cons.mp h).resolve_left (by simp [hannounces])
      exact .inr ⟨hdata, ih hrest (by simpa [hannounces] using hannounced)⟩

end PinLock

namespace Progress

variable {p q : Progress} {messages : List ShipMessage}

theorem foldlM_rank (h : messages.foldlM (hear configs role) p = some q) :
    p.stage.rank ≤ q.stage.rank := by
  induction messages generalizing p with
  | nil =>
    cases h
    exact le_rfl
  | cons message rest ih =>
    obtain ⟨next, hnext, hrest⟩ := Option.bind_eq_some_iff.mp h
    exact (hear_rank hnext).trans (ih hrest)

theorem hear_announces (h : p.hear configs role message = some q)
    (hopen : p.closing = false) : q.closing = message.announces := by
  simp only [hear, hopen, Bool.false_eq_true, if_false] at h
  cases message with
  | cmi =>
    simp only at h
    split at h <;> cases h
    rfl
  | control control =>
    obtain ⟨stage, -, rfl⟩ := Option.map_eq_some_iff.mp h
    rfl
  | data =>
    simp only at h
    split at h <;> cases h
    exact hopen
  | connectionClose close =>
    simp only [ShipMessage.announces]
    simp only at h
    split at h <;> cases h <;> simp [*]

theorem foldlM_announces (h : messages.foldlM (hear configs role) p = some q) (hopen : p.closing = false)
    (hclosing : q.closing = true) : ∃ message ∈ messages, message.announces = true := by
  induction messages generalizing p with
  | nil =>
    cases h
    rw [hopen] at hclosing
    cases hclosing
  | cons message rest ih =>
    obtain ⟨next, hnext, hrest⟩ := Option.bind_eq_some_iff.mp h
    cases hannounces : message.announces with
    | true => exact ⟨message, List.mem_cons_self, hannounces⟩
    | false =>
      obtain ⟨later, hmem, hlater⟩ := ih hrest ((hear_announces hnext hopen).trans hannounces)
      exact ⟨later, List.mem_cons_of_mem _ hmem, hlater⟩

theorem say_hear (h : p.say configs role message = some q) :
    message.isData = false ∧ p.hear configs role message = some q := by
  cases message <;> first | exact ⟨rfl, h⟩ | cases h

theorem foldlM_say (h : messages.foldlM (say configs role) p = some q) :
    (∀ message ∈ messages, message.isData = false) ∧
      messages.foldlM (hear configs role) p = some q := by
  induction messages generalizing p with
  | nil => exact ⟨nofun, h⟩
  | cons message rest ih =>
    obtain ⟨next, hnext, hrest⟩ := Option.bind_eq_some_iff.mp h
    obtain ⟨hdata, hheard⟩ := say_hear hnext
    obtain ⟨hdataless, hheards⟩ := ih hrest
    refine ⟨List.forall_mem_cons.mpr ⟨hdata, hdataless⟩, ?_⟩
    exact Option.bind_eq_some_iff.mpr ⟨next, hheard, hheards⟩

theorem foldlM_closing (h : messages.foldlM (hear configs role) p = some q) (hclosing : p.closing = true) :
    q = p := by
  induction messages generalizing p with
  | nil =>
    cases h
    rfl
  | cons message rest ih =>
    obtain ⟨next, hnext, hrest⟩ := Option.bind_eq_some_iff.mp h
    rw [hear_closing hclosing] at hnext
    cases hnext
    exact ih hrest hclosing

end Progress

end Eebus.Ship
