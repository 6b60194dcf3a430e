import Eebus.Library.Machine
import Eebus.Runtime.Hub
import Mathlib.Data.List.Dedup

/-!
The handshakes a hub has running in the background: the slots they take, the trust decisions they ask
for, and what is reported of them. A handshake is known by the address at its other end; a decision is
asked for once a peer.
-/

namespace Eebus.Runtime

open Eebus.Library Eebus.Ship

def maxPendingTrust : Nat := 4

structure SocketAddr where
  ip : Nat
  port : Nat
deriving DecidableEq

inductive ConnectionOrigin
  | accepted (from_ : SocketAddr)
  | dialed (address : SocketAddr)
deriving DecidableEq

def ConnectionOrigin.isDialed : ConnectionOrigin → Bool
  | .dialed _ => true
  | .accepted _ => false

inductive ConnectionError
  | selfConnection
  | tooManyConnections
  | tooManyPendingPairings
  | handshake (why : String)
deriving DecidableEq

inductive ReceptionEvent
  | trustRequested (ski : Ski) (origin : ConnectionOrigin)
  | connected (ski : Ski)
  | handshakeFailed (origin : ConnectionOrigin) (ski : Option Ski) (error : ConnectionError)
deriving DecidableEq

def ReceptionEvent.isOutcome : ReceptionEvent → Bool
  | .trustRequested _ _ => false
  | .connected _ => true
  | .handshakeFailed _ _ _ => true

inductive Stage
  | started
  | waiting (ski : Ski)
  | refused
  | decided
  | finished
deriving DecidableEq

structure Attempt where
  origin : ConnectionOrigin
  stage : Stage
deriving DecidableEq

def Attempt.waitsFor (a : Attempt) : Option Ski :=
  match a.stage with
  | .waiting ski => some ski
  | _ => none

/-- The hub as its handshakes see it. `refusals` are the peers it has the node refuse. For
specifications only, an event is marked with the handshake it is about. -/
structure Reception where
  ski : Ski
  maxConnections : Nat
  links : List (Ski × ConnectionOrigin)
  inFlightDialed : Nat
  inFlightAccepted : Nat
  awaitingTrust : List (ConnectionOrigin × Ski)
  refusals : List Ski
  pending : List (Option Nat × ReceptionEvent)
  attempts : List Attempt

namespace Reception

def new (ski : Ski) (maxConnections : Nat) : Reception := ⟨ski, maxConnections, [], 0, 0, [], [], [], []⟩

def raise (r : Reception) (attempt : Option Nat) (event : ReceptionEvent) : Reception :=
  { r with pending := r.pending ++ [(attempt, event)] }

def setStage (r : Reception) (id : Nat) (stage : Stage) : Reception :=
  { r with attempts := r.attempts.modify id fun a => { a with stage := stage } }

def held (r : Reception) (origin : ConnectionOrigin) : Nat :=
  (r.links.filter fun link => link.2.isDialed == origin.isDialed).length

def inFlight (r : Reception) (origin : ConnectionOrigin) : Nat :=
  if origin.isDialed then r.inFlightDialed else r.inFlightAccepted

def hasRoomFor (r : Reception) (origin : ConnectionOrigin) : Bool :=
  if r.maxConnections ≤ r.links.length + r.inFlightDialed + r.inFlightAccepted then false
  else if r.maxConnections ≤ 1 then true
  else r.held origin + r.inFlight origin < r.maxConnections - 1

def hasSlotFor (r : Reception) (origin : ConnectionOrigin) : Bool :=
  if r.maxConnections ≤ r.links.length then false
  else if r.maxConnections ≤ 1 then true
  else r.held origin < r.maxConnections - 1

def spawn (r : Reception) (origin : ConnectionOrigin) : Reception :=
  let r := { r with attempts := r.attempts ++ [Attempt.mk origin .started] }
  if origin.isDialed then { r with inFlightDialed := r.inFlightDialed + 1 }
  else { r with inFlightAccepted := r.inFlightAccepted + 1 }

def accept (r : Reception) (from_ : SocketAddr) : Reception :=
  if !r.hasRoomFor (.accepted from_) then
    r.raise none (.handshakeFailed (.accepted from_) none .tooManyConnections)
  else r.spawn (.accepted from_)

def spawnDial (r : Reception) (address : SocketAddr) (expected : Option Ski) : Reception :=
  if !r.hasRoomFor (.dialed address) then
    r.raise none (.handshakeFailed (.dialed address) expected .tooManyConnections)
  else r.spawn (.dialed address)

def releaseInFlight (r : Reception) (origin : ConnectionOrigin) : Reception :=
  if origin.isDialed then { r with inFlightDialed := r.inFlightDialed - 1 }
  else { r with inFlightAccepted := r.inFlightAccepted - 1 }

def adoptFrom (r : Reception) (ski : Ski) (origin : ConnectionOrigin) (attempt : Option Nat) :
    Reception × Option ConnectionError :=
  if ski = r.ski then (r, some .selfConnection)
  else if maxConnectionsPerPeer ≤ (r.links.filter fun link => link.1 == ski).length ||
      !r.hasSlotFor origin then
    (r, some .tooManyConnections)
  else ({ r with links := r.links ++ [(ski, origin)] }.raise attempt (.connected ski), none)

def trustRequested (r : Reception) (id : Nat) (origin : ConnectionOrigin) (ski : Ski) : Reception :=
  let alreadyWaiting := r.awaitingTrust.any fun entry => entry.2 == ski
  if r.awaitingTrust.any fun entry => entry.1 == origin then r.setStage id (.waiting ski)
  else if !alreadyWaiting && maxPendingTrust ≤ r.awaitingTrust.length then
    -- the peer is told to try again later; its handshake has yet to hear of it
    ({ r with refusals := r.refusals ++ [ski] }.setStage id .refused).raise (some id)
      (.handshakeFailed origin (some ski) .tooManyPendingPairings)
  else if alreadyWaiting then r.setStage id (.waiting ski)
  else
    ({ r with awaitingTrust := r.awaitingTrust ++ [(origin, ski)] }.setStage id (.waiting ski)).raise
      (some id) (.trustRequested ski origin)

def established (r : Reception) (id : Nat) (origin : ConnectionOrigin) (ski : Ski) : Reception :=
  let r := (r.releaseInFlight origin).setStage id .finished
  let r := { r with awaitingTrust := r.awaitingTrust.filter fun entry => entry.1 != origin }
  match r.adoptFrom ski origin (some id) with
  | (r, none) => r
  | (r, some reason) => r.raise (some id) (.handshakeFailed origin (some ski) reason)

def failed (r : Reception) (id : Nat) (origin : ConnectionOrigin) (ski : Option Ski)
    (error : ConnectionError) : Reception :=
  let r := (r.releaseInFlight origin).setStage id .finished
  let ski :=
    match r.awaitingTrust.find? fun entry => entry.1 == origin with
    | some (_, waiting) => some waiting
    | none => ski
  { r with awaitingTrust := r.awaitingTrust.eraseP fun entry => entry.1 == origin }.raise (some id)
    (.handshakeFailed origin ski error)

end Reception

/-- What happens to the hub. A background handshake asks for a decision at most once, and then ends in
one of two ways; a message that breaks this is not sent. -/
inductive ReceptionOp
  | accept (from_ : SocketAddr)
  | dial (address : SocketAddr) (expected : Option Ski)
  | adopt (ski : Ski)
  | trustRequested (id : Nat) (ski : Ski)
  | established (id : Nat) (ski : Ski)
  | failed (id : Nat) (ski : Option Ski) (error : ConnectionError)
  | approve (ski : Ski)
  | drop (index : Nat)

namespace Reception

def perform (r : Reception) : ReceptionOp → Reception
  | .accept from_ => r.accept from_
  | .dial address expected => r.spawnDial address expected
  | .adopt ski => (r.adoptFrom ski (.dialed ⟨0, 0⟩) none).1
  | .trustRequested id ski =>
    match r.attempts[id]? with
    | some a => if a.stage = .started then r.trustRequested id a.origin ski else r
    | none => r
  | .established id ski =>
    match r.attempts[id]? with
    | some a => if a.stage = .finished then r else r.established id a.origin ski
    | none => r
  | .failed id ski error =>
    match r.attempts[id]? with
    | some a => if a.stage = .finished then r else r.failed id a.origin ski error
    | none => r
  | .approve ski =>
    { r with attempts := r.attempts.map fun a =>
        if a.stage = .waiting ski then { a with stage := .decided } else a }
  | .drop index => { r with links := r.links.eraseIdx index }

def machine : Machine Reception ReceptionOp Unit where
  step r op := (r.perform op, ())

def outcomes (r : Reception) (id : Nat) : Nat :=
  r.pending.countP fun e => e.1 == some id && e.2.isOutcome

def waiting (r : Reception) : List Ski := (r.attempts.filterMap Attempt.waitsFor).dedup

/-- A decision is asked for where a peer that already waits, or a free slot, takes it, and from an
address recorded for no other peer; and a handshake recorded at its address ends while no other one
waits for the same peer. -/
def Accounted (r : Reception) : ReceptionOp → Prop
  | .trustRequested id ski => ∀ a, r.attempts[id]? = some a → a.stage = .started →
      (∀ entry ∈ r.awaitingTrust, entry.1 = a.origin → entry.2 = ski) ∧
        ((∃ entry ∈ r.awaitingTrust, entry.2 = ski) ∨ r.awaitingTrust.length < maxPendingTrust)
  | .established id _ | .failed id _ _ => ∀ a, r.attempts[id]? = some a → a.stage ≠ .finished →
      ∀ entry ∈ r.awaitingTrust, entry.1 = a.origin →
        ∀ j b, j ≠ id → r.attempts[j]? = some b → b.stage ≠ .waiting entry.2
  | _ => True

/-- A decision is asked for from an address recorded for no other peer, and a handshake recorded at its
address ends while no other one waits for the same peer. -/
def Untangled (r : Reception) : ReceptionOp → Prop
  | .trustRequested id ski => ∀ a, r.attempts[id]? = some a → a.stage = .started →
      ∀ entry ∈ r.awaitingTrust, entry.1 = a.origin → entry.2 = ski
  | .established id _ | .failed id _ _ => ∀ a, r.attempts[id]? = some a → a.stage ≠ .finished →
      ∀ entry ∈ r.awaitingTrust, entry.1 = a.origin →
        ∀ j b, j ≠ id → r.attempts[j]? = some b → b.stage ≠ .waiting entry.2
  | _ => True

theorem Accounted.untangled {r : Reception} {op : ReceptionOp} (h : r.Accounted op) : r.Untangled op := by
  cases op with
  | trustRequested id ski => exact fun a ha hstarted => (h a ha hstarted).1
  | _ => exact h

/-- Every peer that a handshake waits for is recorded, once, and only so many are. -/
structure Tabled (r : Reception) : Prop where
  nodup : (r.awaitingTrust.map Prod.snd).Nodup
  bounded : r.awaitingTrust.length ≤ maxPendingTrust
  recorded : ∀ (j : Nat) (b : Attempt) (ski : Ski), r.attempts[j]? = some b → b.stage = .waiting ski →
    ∃ entry ∈ r.awaitingTrust, entry.2 = ski

structure Reported (r : Reception) : Prop where
  once : ∀ (id : Nat) (a : Attempt), r.attempts[id]? = some a →
    r.outcomes id = if a.stage = .finished then 1 else 0
  known : ∀ e ∈ r.pending, ∀ id, e.1 = some id → id < r.attempts.length

variable {r : Reception}

theorem outcomes_raise (attempt : Option Nat) (event : ReceptionEvent) (id : Nat) :
    (r.raise attempt event).outcomes id =
      r.outcomes id + if attempt = some id ∧ event.isOutcome = true then 1 else 0 := by
  simp [outcomes, raise, List.countP_append, List.countP_singleton]

theorem setStage_entry {id j : Nat} {stage : Stage} {b : Attempt}
    (h : (r.setStage id stage).attempts[j]? = some b) :
    ∃ a, r.attempts[j]? = some a ∧ b = if j = id then { a with stage := stage } else a := by
  simp only [setStage, List.getElem?_modify, Option.map_eq_map, Option.map_eq_some_iff] at h
  obtain ⟨a, hentry, rfl⟩ := h
  refine ⟨a, hentry, ?_⟩
  by_cases hj : j = id
  · simp [hj]
  · simp [hj, Ne.symm hj]

theorem adoptFrom_cases (ski : Ski) (origin : ConnectionOrigin) (attempt : Option Nat) :
    (∃ reason, r.adoptFrom ski origin attempt = (r, some reason)) ∨
      r.adoptFrom ski origin attempt =
        ({ r with links := r.links ++ [(ski, origin)] }.raise attempt (.connected ski), none) := by
  simp only [adoptFrom]
  split
  · exact .inl ⟨_, rfl⟩
  · split
    · exact .inl ⟨_, rfl⟩
    · exact .inr rfl

theorem releaseInFlight_eq (origin : ConnectionOrigin) :
    ∃ dialed accepted, r.releaseInFlight origin =
      { r with inFlightDialed := dialed, inFlightAccepted := accepted } := by
  simp only [releaseInFlight]
  split
  · exact ⟨_, _, rfl⟩
  · exact ⟨_, _, rfl⟩

theorem append_entry {origin : ConnectionOrigin} {j : Nat} {b : Attempt}
    (h : (r.attempts ++ [Attempt.mk origin .started])[j]? = some b) :
    r.attempts[j]? = some b ∨ j = r.attempts.length ∧ b = ⟨origin, .started⟩ := by
  rcases Nat.lt_or_ge j r.attempts.length with hlt | hge
  · rw [List.getElem?_append_left hlt] at h
    exact .inl h
  · rw [List.getElem?_append_right hge, List.getElem?_singleton] at h
    split at h
    case isTrue hzero => exact .inr ⟨by omega, (Option.some.inj h).symm⟩
    case isFalse => exact absurd h nofun

theorem approve_entry {ski : Ski} {j : Nat} {b : Attempt}
    (h : (r.perform (.approve ski)).attempts[j]? = some b) :
    ∃ a, r.attempts[j]? = some a ∧ (a.stage = .finished ↔ b.stage = .finished) ∧
      ∀ other, b.stage = .waiting other → a.stage = .waiting other := by
  simp only [Reception.perform, List.getElem?_map, Option.map_eq_some_iff] at h
  obtain ⟨a, ha, rfl⟩ := h
  refine ⟨a, ha, ?_⟩
  split
  case isTrue hwaiting => exact ⟨by simp [hwaiting], fun other h => absurd h nofun⟩
  case isFalse => exact ⟨Iff.rfl, fun other h => h⟩

theorem established_reports (r : Reception) (id : Nat) (origin : ConnectionOrigin) (ski : Ski) :
    ((r.established id origin ski).awaitingTrust = r.awaitingTrust.filter fun entry => entry.1 != origin) ∧
      (r.established id origin ski).attempts = (r.setStage id .finished).attempts ∧
      ∃ event, event.isOutcome = true ∧
        (r.established id origin ski).pending = r.pending ++ [(some id, event)] := by
  obtain ⟨dialed, accepted, heq⟩ := releaseInFlight_eq (r := r) origin
  simp only [Reception.established, heq]
  split
  case h_1 r' hadopt =>
    rcases adoptFrom_cases ski origin (some id) with ⟨reason, hrefused⟩ | htaken
    · rw [hadopt] at hrefused
      exact absurd (congrArg Prod.snd hrefused) nofun
    · rw [hadopt] at htaken
      cases htaken
      exact ⟨rfl, rfl, _, rfl, rfl⟩
  case h_2 r' reason hadopt =>
    rcases adoptFrom_cases ski origin (some id) with ⟨reason', hrefused⟩ | htaken
    · rw [hadopt] at hrefused
      cases hrefused
      exact ⟨rfl, rfl, _, rfl, rfl⟩
    · rw [hadopt] at htaken
      exact absurd (congrArg Prod.snd htaken) nofun

theorem failed_reports (r : Reception) (id : Nat) (origin : ConnectionOrigin) (ski : Option Ski) (error : ConnectionError) :
    ((r.failed id origin ski error).awaitingTrust = r.awaitingTrust.eraseP fun entry => entry.1 == origin) ∧
      (r.failed id origin ski error).attempts = (r.setStage id .finished).attempts ∧
      ∃ event, event.isOutcome = true ∧
        (r.failed id origin ski error).pending = r.pending ++ [(some id, event)] := by
  obtain ⟨dialed, accepted, heq⟩ := releaseInFlight_eq (r := r) origin
  simp only [Reception.failed, heq]
  exact ⟨rfl, rfl, _, rfl, rfl⟩

namespace Tabled

theorem of_same (h : r.Tabled) {r' : Reception} (hawaiting : r'.awaitingTrust = r.awaitingTrust)
    (hattempts : r'.attempts = r.attempts) : r'.Tabled where
  nodup := hawaiting ▸ h.nodup
  bounded := hawaiting ▸ h.bounded
  recorded j b ski hentry hstage := hawaiting ▸ h.recorded j b ski (hattempts ▸ hentry) hstage

theorem spawn (h : r.Tabled) (origin : ConnectionOrigin) : (r.spawn origin).Tabled := by
  have happended : ({ r with attempts := r.attempts ++ [Attempt.mk origin .started] } : Reception).Tabled := by
    refine ⟨h.nodup, h.bounded, fun j b ski hb hstage => ?_⟩
    rcases append_entry hb with hold | ⟨-, rfl⟩
    · exact h.recorded j b ski hold hstage
    · exact absurd hstage nofun
  simp only [Reception.spawn]
  split <;> exact happended.of_same rfl rfl

theorem wait (h : r.Tabled) {id : Nat} (ski : Ski) (hheld : ∃ entry ∈ r.awaitingTrust, entry.2 = ski) :
    (r.setStage id (.waiting ski)).Tabled where
  nodup := h.nodup
  bounded := h.bounded
  recorded j b other hentry hstage := by
    obtain ⟨a, ha, rfl⟩ := setStage_entry hentry
    by_cases hj : j = id
    · obtain rfl : ski = other := by simpa [hj] using hstage
      exact hheld
    · exact h.recorded j a other ha (by simpa [hj] using hstage)

theorem refuse (h : r.Tabled) (id : Nat) (ski : Ski) :
    ({ r with refusals := r.refusals ++ [ski] }.setStage id .refused : Reception).Tabled where
  nodup := h.nodup
  bounded := h.bounded
  recorded j b other hentry hstage := by
    obtain ⟨a, ha, rfl⟩ := setStage_entry hentry
    by_cases hj : j = id
    · simp [hj] at hstage
    · exact h.recorded j a other ha (by simpa [hj] using hstage)

theorem record (h : r.Tabled) (entry : ConnectionOrigin × Ski)
    (hfresh : ∀ other ∈ r.awaitingTrust, other.2 ≠ entry.2)
    (hfree : r.awaitingTrust.length < maxPendingTrust) :
    ({ r with awaitingTrust := r.awaitingTrust ++ [entry] } : Reception).Tabled where
  nodup := by
    rw [List.map_append]
    refine h.nodup.append (List.nodup_singleton _) fun ski hold hnew => ?_
    obtain ⟨other, hmem, rfl⟩ := List.mem_map.mp hold
    exact hfresh other hmem (by simpa using hnew)
  bounded := by
    rw [List.length_append]
    exact hfree
  recorded j b ski hb hstage := by
    obtain ⟨other, hmem, heq⟩ := h.recorded j b ski hb hstage
    exact ⟨other, List.mem_append_left _ hmem, heq⟩

theorem trustRequested (h : r.Tabled) {id : Nat} {origin : ConnectionOrigin} {ski : Ski}
    (hsame : ∀ entry ∈ r.awaitingTrust, entry.1 = origin → entry.2 = ski) :
    (r.trustRequested id origin ski).Tabled := by
  simp only [Reception.trustRequested]
  split
  case isTrue horigin =>
    obtain ⟨entry, hmem, heq⟩ := List.any_eq_true.mp horigin
    exact h.wait ski ⟨entry, hmem, hsame entry hmem (by simpa using heq)⟩
  case isFalse =>
    split
    case isTrue => exact (h.refuse id ski).of_same rfl rfl
    case isFalse hnotfull =>
      split
      case isTrue hwaiting =>
        obtain ⟨entry, hmem, heq⟩ := List.any_eq_true.mp hwaiting
        exact h.wait ski ⟨entry, hmem, by simpa using heq⟩
      case isFalse hnew =>
        have hfresh : ∀ entry ∈ r.awaitingTrust, entry.2 ≠ ski := by
          intro entry hmem heq
          exact hnew (List.any_eq_true.mpr ⟨entry, hmem, by simpa using heq⟩)
        have hfree : r.awaitingTrust.length < maxPendingTrust := by
          have hnone : (r.awaitingTrust.any fun entry => entry.2 == ski) = false :=
            List.any_eq_false.mpr fun entry hmem => by simpa using hfresh entry hmem
          simpa [hnone] using hnotfull
        have hrecorded := h.record (origin, ski) hfresh hfree
        have hasked := @wait _ hrecorded id ski ⟨_, List.mem_append_right _ List.mem_cons_self, rfl⟩
        exact hasked.of_same rfl rfl

theorem finish (h : r.Tabled) {id : Nat} {origin : ConnectionOrigin} {r' : Reception}
    (hsub : r'.awaitingTrust.Sublist r.awaitingTrust)
    (hkept : ∀ entry ∈ r.awaitingTrust, entry.1 ≠ origin → entry ∈ r'.awaitingTrust)
    (hothers : ∀ entry ∈ r.awaitingTrust, entry.1 = origin →
      ∀ j b, j ≠ id → r.attempts[j]? = some b → b.stage ≠ .waiting entry.2)
    (hattempts : r'.attempts = (r.setStage id .finished).attempts) : r'.Tabled where
  nodup := h.nodup.sublist (hsub.map _)
  bounded := hsub.length_le.trans h.bounded
  recorded j b ski hb hstage := by
    obtain ⟨b', hb', rfl⟩ := setStage_entry (hattempts ▸ hb)
    have hj : j ≠ id := by
      rintro rfl
      simp at hstage
    have hwaiting : b'.stage = .waiting ski := by simpa [hj] using hstage
    obtain ⟨entry, hmem, rfl⟩ := h.recorded j b' ski hb' hwaiting
    refine ⟨entry, hkept entry hmem fun horigin => ?_, rfl⟩
    exact hothers entry hmem horigin j b' hj hb' hwaiting

theorem perform (h : r.Tabled) {op : ReceptionOp} (huntangled : r.Untangled op) : (r.perform op).Tabled := by
  cases op with
  | accept from_ =>
    simp only [Reception.perform, Reception.accept]
    split
    · exact h.of_same rfl rfl
    · exact h.spawn _
  | dial address expected =>
    simp only [Reception.perform, Reception.spawnDial]
    split
    · exact h.of_same rfl rfl
    · exact h.spawn _
  | adopt ski =>
    simp only [Reception.perform]
    rcases adoptFrom_cases (r := r) ski (.dialed ⟨0, 0⟩) none with ⟨reason, heq⟩ | heq
    · rw [heq]
      exact h
    · rw [heq]
      exact h.of_same rfl rfl
  | trustRequested id ski =>
    simp only [Reception.perform]
    split
    case h_1 a hentry =>
      split
      case isTrue hstarted => exact h.trustRequested (huntangled a hentry hstarted)
      case isFalse => exact h
    case h_2 => exact h
  | established id ski =>
    simp only [Reception.perform]
    split
    case h_1 a hentry =>
      split
      case isTrue => exact h
      case isFalse hopen =>
        obtain ⟨hawaiting, hattempts, -⟩ := established_reports r id a.origin ski
        refine h.finish (hawaiting ▸ List.filter_sublist) (fun entry hmem hother => ?_)
          (huntangled a hentry hopen) hattempts
        rw [hawaiting]
        exact List.mem_filter.mpr ⟨hmem, by simpa using hother⟩
    case h_2 => exact h
  | failed id ski error =>
    simp only [Reception.perform]
    split
    case h_1 a hentry =>
      split
      case isTrue => exact h
      case isFalse hopen =>
        obtain ⟨hawaiting, hattempts, -⟩ := failed_reports r id a.origin ski error
        refine h.finish (hawaiting ▸ List.eraseP_sublist) (fun entry hmem hother => ?_)
          (huntangled a hentry hopen) hattempts
        rw [hawaiting]
        exact (List.mem_eraseP_of_neg (by simpa using hother)).mpr hmem
    case h_2 => exact h
  | approve ski =>
    refine ⟨h.nodup, h.bounded, fun j b other hb hstage => ?_⟩
    obtain ⟨a, ha, -, hwaiting⟩ := approve_entry hb
    exact h.recorded j a other ha (hwaiting other hstage)
  | drop index => exact h.of_same rfl rfl

theorem waiting_le (h : r.Tabled) : r.waiting.length ≤ maxPendingTrust := by
  have hsubset : r.waiting ⊆ r.awaitingTrust.map Prod.snd := by
    intro ski hski
    obtain ⟨a, ha, hwaits⟩ := List.mem_filterMap.mp (List.mem_dedup.mp hski)
    obtain ⟨j, hj, heq⟩ := List.getElem_of_mem ha
    have hentry : r.attempts[j]? = some a := List.getElem?_eq_some_iff.mpr ⟨hj, heq⟩
    have hstage : a.stage = .waiting ski := by
      unfold Attempt.waitsFor at hwaits
      split at hwaits
      case h_1 other hother => rw [hother, Option.some.inj hwaits]
      case h_2 => exact absurd hwaits nofun
    obtain ⟨entry, hmem, rfl⟩ := h.recorded j a ski hentry hstage
    exact List.mem_map_of_mem hmem
  have hle := (List.subperm_of_subset (List.nodup_dedup _) hsubset).length_le
  rw [List.length_map] at hle
  exact hle.trans h.bounded

theorem new (ski : Ski) (maxConnections : Nat) : (new ski maxConnections).Tabled where
  nodup := List.nodup_nil
  bounded := Nat.zero_le _
  recorded j b other hb := by simp [Reception.new] at hb

end Tabled

namespace Reported

theorem of_same (h : r.Reported) {r' : Reception} (hpending : r'.pending = r.pending)
    (hattempts : r'.attempts = r.attempts) : r'.Reported where
  once id a hentry := by
    rw [outcomes, hpending]
    exact h.once id a (hattempts ▸ hentry)
  known e he id hid := hattempts ▸ h.known e (hpending ▸ he) id hid

theorem raise (h : r.Reported) {attempt : Option Nat} {event : ReceptionEvent}
    (hevent : attempt = none ∨ event.isOutcome = false)
    (hknown : ∀ id, attempt = some id → id < r.attempts.length) : (r.raise attempt event).Reported where
  once id a hentry := by
    have hnot : ¬ (attempt = some id ∧ event.isOutcome = true) := by
      rintro ⟨hid, hends⟩
      rcases hevent with hnone | hother
      · simp [hnone] at hid
      · simp [hother] at hends
    rw [outcomes_raise, if_neg hnot, h.once id a hentry, Nat.add_zero]
  known e he id hid := by
    rcases List.mem_append.mp he with hold | hnew
    · exact h.known e hold id hid
    · rw [List.mem_singleton.mp hnew] at hid
      exact hknown id hid

theorem spawn (h : r.Reported) (origin : ConnectionOrigin) : (r.spawn origin).Reported := by
  have happended : ({ r with attempts := r.attempts ++ [Attempt.mk origin .started] } : Reception).Reported := by
    refine ⟨fun id a ha => ?_, fun e he id hid => ?_⟩
    · rcases append_entry ha with hold | ⟨rfl, rfl⟩
      · exact h.once id a hold
      · refine List.countP_eq_zero.mpr fun e he hmarked => ?_
        simp only [Bool.and_eq_true, beq_iff_eq] at hmarked
        exact absurd (h.known e he _ hmarked.1) (lt_irrefl _)
    · rw [List.length_append]
      exact Nat.lt_add_right 1 (h.known e he id hid)
  simp only [Reception.spawn]
  split <;> exact happended.of_same rfl rfl

theorem stage (h : r.Reported) {id : Nat} {a : Attempt} (hentry : r.attempts[id]? = some a)
    (hopen : a.stage ≠ .finished) {stage : Stage} (hstage : stage ≠ .finished) :
    (r.setStage id stage).Reported where
  once j b hb := by
    obtain ⟨a', ha', rfl⟩ := setStage_entry hb
    have hbefore : (r.setStage id stage).outcomes j = _ := h.once j a' ha'
    rw [hbefore]
    by_cases hj : j = id
    · obtain rfl : a = a' := Option.some.inj (hentry.symm.trans (hj ▸ ha'))
      simp [hj, hopen, hstage]
    · simp [hj]
  known e he j hj := by
    have hlt := h.known e he j hj
    simpa [setStage] using hlt

theorem trustRequested (h : r.Reported) {id : Nat} {a : Attempt} {ski : Ski}
    (hentry : r.attempts[id]? = some a) (hstarted : a.stage = .started)
    (hroom : (∃ entry ∈ r.awaitingTrust, entry.2 = ski) ∨ r.awaitingTrust.length < maxPendingTrust) :
    (r.trustRequested id a.origin ski).Reported := by
  have hopen : a.stage ≠ .finished := by
    rw [hstarted]
    nofun
  have hwaits := h.stage hentry hopen (show Stage.waiting ski ≠ .finished from nofun)
  simp only [Reception.trustRequested]
  split
  case isTrue => exact hwaits
  case isFalse =>
    split
    case isTrue hfull =>
      simp only [Bool.and_eq_true, Bool.not_eq_true', List.any_eq_false, decide_eq_true_eq] at hfull
      rcases hroom with ⟨entry, hmem, heq⟩ | hfree
      · exact absurd heq (by simpa using hfull.1 entry hmem)
      · exact absurd hfull.2 (not_le.mpr hfree)
    case isFalse =>
      split
      case isTrue => exact hwaits
      case isFalse =>
        have hasked : ({ r with awaitingTrust := r.awaitingTrust ++ [(a.origin, ski)] }.setStage id
            (.waiting ski) : Reception).Reported := hwaits.of_same rfl rfl
        refine hasked.raise (.inr rfl) fun other hother => ?_
        cases hother
        have hlt := (List.getElem?_eq_some_iff.mp hentry).choose
        simpa [setStage] using hlt

theorem finish (h : r.Reported) {id : Nat} {a : Attempt} {r' : Reception} {event : ReceptionEvent}
    (hentry : r.attempts[id]? = some a) (hopen : a.stage ≠ .finished)
    (hattempts : r'.attempts = (r.setStage id .finished).attempts)
    (hpending : r'.pending = r.pending ++ [(some id, event)]) (hends : event.isOutcome = true) :
    r'.Reported where
  once j b hb := by
    obtain ⟨b', hb', rfl⟩ := setStage_entry (hattempts ▸ hb)
    have hraised : r'.outcomes j = r.outcomes j + if some id = some j ∧ event.isOutcome = true then 1 else 0 := by
      rw [← outcomes_raise, outcomes, outcomes, hpending, Reception.raise]
    rw [hraised, h.once j b' hb']
    by_cases hj : j = id
    · subst hj
      obtain rfl : a = b' := Option.some.inj (hentry.symm.trans hb')
      simp [hopen, hends]
    · simp [hj, Ne.symm hj]
  known e he other hother := by
    have hlength : r'.attempts.length = r.attempts.length := by simp [hattempts, setStage]
    rw [hlength]
    rw [hpending] at he
    rcases List.mem_append.mp he with hold | hnew
    · exact h.known e hold other hother
    · rw [List.mem_singleton.mp hnew] at hother
      cases hother
      exact (List.getElem?_eq_some_iff.mp hentry).choose

theorem perform (h : r.Reported) {op : ReceptionOp} (haccounted : r.Accounted op) :
    (r.perform op).Reported := by
  cases op with
  | accept from_ =>
    simp only [Reception.perform, Reception.accept]
    split
    · exact h.raise (.inl rfl) nofun
    · exact h.spawn _
  | dial address expected =>
    simp only [Reception.perform, Reception.spawnDial]
    split
    · exact h.raise (.inl rfl) nofun
    · exact h.spawn _
  | adopt ski =>
    simp only [Reception.perform]
    rcases adoptFrom_cases (r := r) ski (.dialed ⟨0, 0⟩) none with ⟨reason, heq⟩ | heq
    · rw [heq]
      exact h
    · rw [heq]
      have hlinked : ({ r with links := r.links ++ [(ski, .dialed ⟨0, 0⟩)] } : Reception).Reported :=
        h.of_same rfl rfl
      exact hlinked.raise (.inl rfl) nofun
  | trustRequested id ski =>
    simp only [Reception.perform]
    split
    case h_1 a hentry =>
      split
      case isTrue hstarted => exact h.trustRequested hentry hstarted (haccounted a hentry hstarted).2
      case isFalse => exact h
    case h_2 => exact h
  | established id ski =>
    simp only [Reception.perform]
    split
    case h_1 a hentry =>
      split
      case isTrue => exact h
      case isFalse hopen =>
        obtain ⟨-, hattempts, event, hends, hpending⟩ := established_reports r id a.origin ski
        exact h.finish hentry hopen hattempts hpending hends
    case h_2 => exact h
  | failed id ski error =>
    simp only [Reception.perform]
    split
    case h_1 a hentry =>
      split
      case isTrue => exact h
      case isFalse hopen =>
        obtain ⟨-, hattempts, event, hends, hpending⟩ := failed_reports r id a.origin ski error
        exact h.finish hentry hopen hattempts hpending hends
    case h_2 => exact h
  | approve ski =>
    refine ⟨fun id b hb => ?_, fun e he id hid => ?_⟩
    · obtain ⟨a, ha, hfinished, -⟩ := approve_entry hb
      have hbefore : (r.perform (.approve ski)).outcomes id = _ := h.once id a ha
      rw [hbefore]
      simp only [hfinished]
    · have hlt := h.known e he id hid
      simpa [Reception.perform] using hlt
  | drop index => exact h.of_same rfl rfl

theorem new (ski : Ski) (maxConnections : Nat) : (new ski maxConnections).Reported where
  once id a ha := by simp [Reception.new] at ha
  known := nofun

end Reported

/-- Few enough peers wait for a decision, however many ask for one: where the table of the waiting is full,
a further one is refused. -/
theorem waiting_bounded (ski : Ski) (maxConnections : Nat) (ops : List ReceptionOp)
    (huntangled : machine.Admits Untangled (new ski maxConnections) ops) :
    (machine.run (new ski maxConnections) ops).waiting.length ≤ maxPendingTrust :=
  (machine.run_invariant Untangled Tabled (fun _ _ h hop => h.perform hop) ops _
    (Tabled.new ski maxConnections) huntangled).waiting_le

/-- In every state reached, the end of each handshake has been reported exactly once, if it has ended,
and few enough peers wait for a decision. -/
def WellKept (ski : Ski) (maxConnections : Nat) (ops : List ReceptionOp) : Prop :=
  ∀ before, before <+: ops →
    (∀ id a, (machine.run (new ski maxConnections) before).attempts[id]? = some a →
      (machine.run (new ski maxConnections) before).outcomes id = if a.stage = .finished then 1 else 0) ∧
    (machine.run (new ski maxConnections) before).waiting.length ≤ maxPendingTrust

end Reception

/-- Where every request for a decision finds a slot, and no handshake that is recorded ends while another
one waits for the same peer, each handshake is reported exactly once as it ends, and the bound on waiting
peers holds. -/
theorem handshakes_accounted (ski : Ski) (maxConnections : Nat) (ops : List ReceptionOp)
    (haccounted : Reception.machine.Admits Reception.Accounted (.new ski maxConnections) ops) :
    Reception.WellKept ski maxConnections ops := by
  intro before hprefix
  have hbefore := Reception.machine.admits_prefix haccounted hprefix
  have hreported := Reception.machine.run_invariant _ Reception.Reported (fun _ _ h hok => h.perform hok) before
    _ (Reception.Reported.new ski maxConnections) hbefore
  exact ⟨hreported.once, Reception.waiting_bounded ski maxConnections before
    (Reception.machine.admits_mono (fun _ _ h => h.untangled) hbefore)⟩

/-- Two peers ask for a decision, of which one is approved and connects; a third handshake fails. -/
theorem handshakes_accounted_three :
    Reception.WellKept 0 16 [.accept ⟨1, 1⟩, .dial ⟨2, 2⟩ none, .accept ⟨3, 3⟩, .trustRequested 0 1,
      .trustRequested 1 2, .approve 1, .established 0 1, .failed 2 none (.handshake "timeout")] := by
  refine handshakes_accounted 0 16 _ ⟨trivial, trivial, trivial, ?_, ?_, trivial, ?_, ?_, trivial⟩
  · exact fun a ha _ => ⟨nofun, .inr (by decide +kernel)⟩
  · intro a ha _
    cases (show some (Attempt.mk (.dialed ⟨2, 2⟩) .started) = some a from ha)
    exact ⟨by decide +kernel, .inr (by decide +kernel)⟩
  · intro a ha _ entry hentry horigin j b _ hb
    cases (show some (Attempt.mk (.accepted ⟨1, 1⟩) .decided) = some a from ha)
    have hothers : ∀ entry ∈ (Reception.machine.run (.new 0 16) [.accept ⟨1, 1⟩, .dial ⟨2, 2⟩ none,
        .accept ⟨3, 3⟩, .trustRequested 0 1, .trustRequested 1 2, .approve 1]).awaitingTrust,
        entry.1 = .accepted ⟨1, 1⟩ → ∀ b ∈ (Reception.machine.run (.new 0 16) [.accept ⟨1, 1⟩,
          .dial ⟨2, 2⟩ none, .accept ⟨3, 3⟩, .trustRequested 0 1, .trustRequested 1 2,
          .approve 1]).attempts, b.stage ≠ .waiting entry.2 := by decide +kernel
    exact hothers entry hentry horigin b (List.mem_of_getElem? hb)
  · intro a ha _ entry hentry horigin
    cases (show some (Attempt.mk (.accepted ⟨3, 3⟩) .started) = some a from ha)
    have hnone : ∀ entry ∈ (Reception.machine.run (.new 0 16) [.accept ⟨1, 1⟩, .dial ⟨2, 2⟩ none,
        .accept ⟨3, 3⟩, .trustRequested 0 1, .trustRequested 1 2, .approve 1,
        .established 0 1]).awaitingTrust, entry.1 ≠ .accepted ⟨3, 3⟩ := by decide +kernel
    exact absurd horigin (hnone entry hentry)

/-- Five peers ask for a decision, and the fifth handshake is reported as failed twice. -/
theorem handshake_reported_twice :
    ¬ Reception.WellKept 0 16 [.accept ⟨1, 1⟩, .accept ⟨2, 2⟩, .accept ⟨3, 3⟩, .accept ⟨4, 4⟩,
      .accept ⟨5, 5⟩, .trustRequested 0 1, .trustRequested 1 2, .trustRequested 2 3, .trustRequested 3 4,
      .trustRequested 4 5, .failed 4 none (.handshake "trust rejected")] := by
  intro h
  have htwice := (h _ (List.prefix_refl _)).1 4 ⟨.accepted ⟨5, 5⟩, .finished⟩ (by decide +kernel)
  exact absurd htwice (by decide +kernel)

end Eebus.Runtime
