import Eebus.Library.FirstMatch
import Eebus.Runtime.Discovery
import Eebus.Runtime.TrustStore
import Mathlib.Logic.Relation

/-!
The peers a hub dials, and dials again when the link drops: what it remembers of them, what the network
announces, and when the next attempt is due. The handshakes themselves are those of `Reception`.
-/

namespace Eebus.Runtime

open Eebus.Library Eebus.Ship

def baseDelay : Nat := 1
def maxDelay : Nat := 120
def jitterShift : Nat := 2

def reconnectDelay (attempt : Nat) : Nat := min (baseDelay * 2 ^ min attempt 7) maxDelay

def mixed (peer : Ski) : Nat :=
  peer.bytes.toList.foldl (fun acc byte => (acc * 31 + byte.toNat) % 2 ^ 64) 0

def reconnectDelayFor (peer : Ski) (attempt : Nat) : Nat :=
  let base := reconnectDelay attempt * 1000
  let spread := base / 2 ^ jitterShift
  if spread = 0 then base else base - spread + mixed peer % (2 * spread)

def fromMillis (millis : Nat) : Nat := millis * 1000000

def shortestDelay (attempt : Nat) : Nat := reconnectDelay attempt * 750

theorem reconnectDelay_mono {m n : Nat} (h : m ≤ n) : reconnectDelay m ≤ reconnectDelay n := by
  have hpow : 2 ^ min m 7 ≤ 2 ^ min n 7 := Nat.pow_le_pow_right (by decide) (by omega)
  simp only [reconnectDelay, baseDelay]
  omega

theorem reconnectDelay_pos (attempt : Nat) : 0 < reconnectDelay attempt := by
  have hfirst : reconnectDelay 0 = 1 := rfl
  have hle := reconnectDelay_mono (Nat.zero_le attempt)
  omega

theorem reconnectDelayFor_bounds (peer : Ski) (attempt : Nat) :
    shortestDelay attempt ≤ reconnectDelayFor peer attempt ∧
      reconnectDelayFor peer attempt < reconnectDelay attempt * 1250 := by
  have hpos := reconnectDelay_pos attempt
  have hspread : reconnectDelay attempt * 1000 / 2 ^ jitterShift = reconnectDelay attempt * 250 := by
    simp only [jitterShift]
    omega
  have hoffset : mixed peer % (2 * (reconnectDelay attempt * 250)) < 2 * (reconnectDelay attempt * 250) :=
    Nat.mod_lt _ (by omega)
  simp only [reconnectDelayFor, hspread, shortestDelay]
  rw [if_neg (by omega)]
  omega

def maxSightings : Nat := 64

structure Known where
  ski : Ski
  address : SocketAddr
  instance_ : Option (List Char)
  /-- Failed attempts since the last success. -/
  attempts : Nat
  nextAttempt : Nat
  /-- A dial is running in the background. -/
  dialing : Bool
deriving DecidableEq

structure Sighting where
  ski : Ski
  address : SocketAddr
  instance_ : List Char
deriving DecidableEq

/-- The hub as its schedule sees it. `expected` has the peer each handshake that is running looks for.
For specifications only, `dials` has when each peer was dialled again. -/
structure Schedule where
  reception : Reception
  clock : Nat
  store : TrustStore
  known : List Known
  sightings : List Sighting
  ownInstance : Option (List Char)
  expected : List (Option Ski)
  dials : List (Ski × Nat)

def updateKnown (ski : Ski) (change : Known → Known) (known : List Known) : List Known :=
  modifyFirst (fun k => k.ski == ski) (fun k _ => change k) known

namespace Schedule

def new (ski : Ski) (maxConnections : Nat) (store : TrustStore) : Schedule :=
  ⟨.new ski maxConnections, 0, store, [], [], none, [], []⟩

def linked (h : Schedule) (ski : Ski) : Bool := h.reception.links.any fun link => link.1 == ski

def deferRedial (h : Schedule) (ski : Ski) : Schedule :=
  { h with known := updateKnown ski (fun k =>
      let attempts := min (k.attempts + 1) (2 ^ 32 - 1)
      { k with attempts, nextAttempt := h.clock + fromMillis (reconnectDelayFor k.ski attempts) }) h.known }

def accept (h : Schedule) (from_ : SocketAddr) : Schedule :=
  if h.reception.hasRoomFor (.accepted from_) then
    { h with reception := h.reception.accept from_, expected := h.expected ++ [none] }
  else { h with reception := h.reception.accept from_ }

def spawnDial (h : Schedule) (address : SocketAddr) (expected : Option Ski) : Schedule :=
  if !h.reception.hasRoomFor (.dialed address) then
    let h := { h with reception := h.reception.spawnDial address expected }
    match expected with
    | some ski => h.deferRedial ski
    | none => h
  else
    let h := { h with
      reception := h.reception.spawnDial address expected
      expected := h.expected ++ [expected]
      dials := h.dials ++ (expected.map fun ski => (ski, h.clock)).toList }
    match expected with
    | some ski => { h with known := updateKnown ski (fun k => { k with dialing := true }) h.known }
    | none => h

def remember (h : Schedule) (ski : Ski) (address : SocketAddr) : Schedule :=
  if ski = h.reception.ski then h
  else
    match h.known.find? fun k => k.ski == ski with
    | some _ =>
      { h with known := updateKnown ski (fun k =>
          { k with address, attempts := 0, nextAttempt := h.clock }) h.known }
    | none => { h with known := h.known ++ [⟨ski, address, none, 0, h.clock, false⟩] }

def nameInstance (h : Schedule) (ski : Ski) (instance_ : List Char) : Schedule :=
  { h with known := updateKnown ski (fun k => { k with instance_ := some instance_ }) h.known }

def sight (h : Schedule) (sighting : Sighting) : Schedule :=
  let others := h.sightings.filter fun s => s.ski != sighting.ski
  let others := if maxSightings ≤ others.length then others.eraseIdx 0 else others
  { h with sightings := others ++ [sighting] }

def rememberDiscovered (h : Schedule) (found : Discovered) : Schedule :=
  if found.ski = h.reception.ski then h
  else
    match found.socketAddress with
    | none => h
    | some address =>
      if !h.store.isTrusted found.ski then h.sight ⟨found.ski, address, found.instance_⟩
      else (h.remember found.ski address).nameInstance found.ski found.instance_

def forgetDiscovered (h : Schedule) (instance_ : List Char) : Schedule :=
  { h with
    sightings := h.sightings.filter fun s => s.instance_ != instance_
    known := h.known.eraseP fun k => k.instance_ == some instance_ }

def forgetPeer (h : Schedule) (ski : Ski) : Schedule :=
  { h with known := h.known.filter fun k => k.ski != ski }

def approve (h : Schedule) (ski : Ski) : Schedule :=
  if ski = h.reception.ski then h
  else
    let h := { h with store := h.store.trust ski, reception := h.reception.perform (.approve ski) }
    match h.sightings.find? fun s => s.ski == ski with
    | none => h
    | some sighting =>
      let h := { h with sightings := h.sightings.eraseP fun s => s.ski == ski }
      (h.remember ski sighting.address).nameInstance ski sighting.instance_

def isIdle (h : Schedule) (k : Known) : Bool := !k.dialing && !h.linked k.ski

/-- Starts a dial for every remembered peer that is not connected, not already being dialled, and whose
backoff has expired. -/
def redial (h : Schedule) : Schedule :=
  let due := (h.known.filter fun k => !k.dialing && k.nextAttempt ≤ h.clock && !h.linked k.ski).map
    fun k => (k.ski, k.address)
  due.foldl (fun h peer => h.spawnDial peer.2 (some peer.1)) h

/-- The earliest instant anything wants attention, `others` being the instants of what is no redial. -/
def nextDeadline (h : Schedule) (others : List Nat) : Option Nat :=
  (others ++ (h.known.filter h.isIdle).map Known.nextAttempt).min?

def dialEnded (h : Schedule) (expected : Option Ski) : Schedule :=
  match expected with
  | some ski => { h with known := updateKnown ski (fun k => { k with dialing := false }) h.known }
  | none => h

def deferExpected (h : Schedule) (expected : Option Ski) : Schedule :=
  match expected with
  | some ski => h.deferRedial ski
  | none => h

/-- A handshake has been completed; at the address looked up, somebody else may have answered. -/
def established (h : Schedule) (id : Nat) (origin : ConnectionOrigin) (ski : Ski) : Schedule :=
  let expected := h.expected[id]?.join
  let refused := (h.reception.adoptFrom ski origin (some id)).2
  let h := { h with
    reception := h.reception.established id origin ski
    expected := h.expected.set id none }.dialEnded expected
  match refused with
  | none =>
    if expected = some ski then
      { h with known := updateKnown ski (fun k => { k with attempts := 0, nextAttempt := h.clock }) h.known }
    else h.deferExpected expected
  | some reason =>
    -- having refused itself, it does not dial that address again
    if reason = .selfConnection then
      { h with
        known := h.known.filter fun k => k.ski != ski
        sightings := h.sightings.filter fun s => s.ski != ski }
    else h.deferExpected expected

def failed (h : Schedule) (id : Nat) (origin : ConnectionOrigin) (ski : Option Ski)
    (error : ConnectionError) : Schedule :=
  let expected := h.expected[id]?.join
  let h := { h with
    reception := h.reception.failed id origin ski error
    expected := h.expected.set id none }
  (h.dialEnded expected).deferExpected expected

def found (h : Schedule) (found : Discovered) : Schedule :=
  if found.ski = h.reception.ski then { h with ownInstance := some found.instance_ }
  else h.rememberDiscovered found

def lost (h : Schedule) (instance_ : List Char) : Schedule :=
  if h.ownInstance = some instance_ then { h with ownInstance := none } else h.forgetDiscovered instance_

end Schedule

/-- What happens to the schedule. An operation takes no time; the clock goes on between them. -/
inductive ScheduleOp
  | advance (d : Nat)
  | accept (from_ : SocketAddr)
  | dial (address : SocketAddr)
  | adopt (ski : Ski)
  | drop (index : Nat)
  | trustRequested (id : Nat) (ski : Ski)
  | established (id : Nat) (ski : Ski)
  | failed (id : Nat) (ski : Option Ski) (error : ConnectionError)
  | remember (ski : Ski) (address : SocketAddr)
  | forgetPeer (ski : Ski)
  | approve (ski : Ski)
  /-- The application has changed the trust store itself. -/
  | restore (store : TrustStore)
  | found (peer : Discovered)
  | lost (instance_ : List Char)
  | redial
  | close (ski : Ski)
  | limit (connections : Nat)

namespace Schedule

def perform (h : Schedule) : ScheduleOp → Schedule
  | .advance d => { h with clock := h.clock + d }
  | .accept from_ => h.accept from_
  | .dial address => h.spawnDial address none
  | .adopt ski => { h with reception := h.reception.perform (.adopt ski) }
  | .drop index => { h with reception := h.reception.perform (.drop index) }
  | .trustRequested id ski => { h with reception := h.reception.perform (.trustRequested id ski) }
  | .established id ski =>
    match h.reception.attempts[id]? with
    | some a => if a.stage = .finished then h else h.established id a.origin ski
    | none => h
  | .failed id ski error =>
    match h.reception.attempts[id]? with
    | some a => if a.stage = .finished then h else h.failed id a.origin ski error
    | none => h
  | .remember ski address => h.remember ski address
  | .forgetPeer ski => h.forgetPeer ski
  | .approve ski => h.approve ski
  | .restore store => { h with store }
  | .found peer => h.found peer
  | .lost instance_ => h.lost instance_
  | .redial => h.redial
  | .close ski =>
    { h with reception := { h.reception with links := h.reception.links.filter fun link => link.1 != ski } }
  | .limit connections => { h with reception := { h.reception with maxConnections := max connections 1 } }

def machine : Machine Schedule ScheduleOp Unit where
  step h op := (h.perform op, ())

end Schedule

namespace Reception

/-- A handshake has been started, and has not ended. -/
def IsRunning (r : Reception) (id : Nat) : Prop := ∃ a, r.attempts[id]? = some a ∧ a.stage ≠ .finished

structure Continues (r r' : Reception) : Prop where
  ski : r'.ski = r.ski
  length : r'.attempts.length = r.attempts.length
  running : ∀ id, r.IsRunning id → r'.IsRunning id

structure Spawns (r r' : Reception) : Prop where
  ski : r'.ski = r.ski
  length : r'.attempts.length = r.attempts.length + 1
  running : ∀ id, r.IsRunning id → r'.IsRunning id
  last : r'.IsRunning r.attempts.length

structure Ends (r r' : Reception) (id : Nat) : Prop where
  ski : r'.ski = r.ski
  length : r'.attempts.length = r.attempts.length
  running : ∀ j, j ≠ id → r.IsRunning j → r'.IsRunning j

variable {r r' : Reception}

theorem Continues.of_same (hski : r'.ski = r.ski) (hattempts : r'.attempts = r.attempts) : r.Continues r' where
  ski := hski
  length := by rw [hattempts]
  running id hid := by
    obtain ⟨a, ha, hopen⟩ := hid
    exact ⟨a, hattempts ▸ ha, hopen⟩

theorem Spawns.of_append {origin : ConnectionOrigin} (hski : r'.ski = r.ski)
    (hattempts : r'.attempts = r.attempts ++ [Attempt.mk origin .started]) : r.Spawns r' where
  ski := hski
  length := by rw [hattempts, List.length_append, List.length_singleton]
  running id hid := by
    obtain ⟨a, ha, hopen⟩ := hid
    have hlt : id < r.attempts.length := (List.getElem?_eq_some_iff.mp ha).choose
    exact ⟨a, by rw [hattempts, List.getElem?_append_left hlt, ha], hopen⟩
  last := ⟨⟨origin, .started⟩, by rw [hattempts, List.getElem?_concat_length], by simp⟩

theorem setStage_running {id j : Nat} {stage : Stage} (h : r.IsRunning j)
    (hstage : j = id → stage ≠ .finished) : (r.setStage id stage).IsRunning j := by
  obtain ⟨a, ha, hopen⟩ := h
  simp only [IsRunning, setStage, List.getElem?_modify, ha, Option.map_eq_map, Option.map_some]
  by_cases hj : id = j
  · exact ⟨{ a with stage := stage }, by simp [hj], hstage hj.symm⟩
  · exact ⟨a, by simp [hj], hopen⟩

theorem accept_spawns {from_ : SocketAddr} (h : r.hasRoomFor (.accepted from_) = true) :
    r.Spawns (r.accept from_) := by
  simp only [accept, h, spawn]
  exact .of_append rfl rfl

theorem accept_continues {from_ : SocketAddr} (h : r.hasRoomFor (.accepted from_) = false) :
    r.Continues (r.accept from_) := by
  simp only [accept, h]
  exact .of_same rfl rfl

theorem spawnDial_spawns {address : SocketAddr} {expected : Option Ski}
    (h : r.hasRoomFor (.dialed address) = true) : r.Spawns (r.spawnDial address expected) := by
  simp only [spawnDial, h, spawn]
  exact .of_append rfl rfl

theorem spawnDial_continues {address : SocketAddr} {expected : Option Ski}
    (h : r.hasRoomFor (.dialed address) = false) : r.Continues (r.spawnDial address expected) := by
  simp only [spawnDial, h]
  exact .of_same rfl rfl

theorem adopt_continues (ski : Ski) : r.Continues (r.perform (.adopt ski)) := by
  simp only [perform]
  rcases adoptFrom_cases (r := r) ski (.dialed ⟨0, 0⟩) none with ⟨reason, heq⟩ | heq
  · rw [heq]
    exact .of_same rfl rfl
  · rw [heq]
    exact .of_same rfl rfl

theorem setStage_continues {id : Nat} {stage : Stage} (hstage : stage ≠ .finished) (hski : r'.ski = r.ski)
    (hattempts : r'.attempts = (r.setStage id stage).attempts) : r.Continues r' where
  ski := hski
  length := by simp [hattempts, setStage]
  running j hj := by
    obtain ⟨a, ha, hopen⟩ := setStage_running hj fun _ => hstage
    exact ⟨a, hattempts ▸ ha, hopen⟩

theorem setStage_ends {id : Nat} (hski : r'.ski = r.ski)
    (hattempts : r'.attempts = (r.setStage id .finished).attempts) : r.Ends r' id where
  ski := hski
  length := by simp [hattempts, setStage]
  running j hne hj := by
    obtain ⟨a, ha, hopen⟩ : (r.setStage id .finished).IsRunning j := setStage_running hj fun heq => absurd heq hne
    exact ⟨a, hattempts ▸ ha, hopen⟩

theorem trustRequested_continues (id : Nat) (ski : Ski) : r.Continues (r.perform (.trustRequested id ski)) := by
  have hkept : r.Continues r := .of_same rfl rfl
  have hwaiting : Stage.waiting ski ≠ .finished := by simp
  simp only [perform]
  split
  case h_2 => exact hkept
  case h_1 =>
    split
    case isFalse => exact hkept
    case isTrue =>
      simp only [trustRequested]
      split
      · exact setStage_continues hwaiting rfl rfl
      · split
        · exact setStage_continues (by simp : Stage.refused ≠ .finished) rfl rfl
        · split
          · exact setStage_continues hwaiting rfl rfl
          · exact setStage_continues hwaiting rfl rfl

theorem approve_continues (ski : Ski) : r.Continues (r.perform (.approve ski)) where
  ski := rfl
  length := List.length_map _
  running id hid := by
    obtain ⟨a, ha, hopen⟩ := hid
    simp only [IsRunning, perform, List.getElem?_map, ha, Option.map_some]
    refine ⟨_, rfl, ?_⟩
    split
    · simp
    · exact hopen

theorem established_ends (id : Nat) (origin : ConnectionOrigin) (ski : Ski) :
    r.Ends (r.established id origin ski) id := by
  obtain ⟨dialed, accepted, heq⟩ := releaseInFlight_eq (r := r) origin
  simp only [established, heq]
  split
  case h_1 r' hadopt =>
    rcases adoptFrom_cases ski origin (some id) with ⟨reason, hrefused⟩ | htaken
    · rw [hadopt] at hrefused
      cases hrefused
    · rw [hadopt] at htaken
      cases htaken
      exact setStage_ends rfl rfl
  case h_2 r' reason hadopt =>
    rcases adoptFrom_cases ski origin (some id) with ⟨reason', hrefused⟩ | htaken
    · rw [hadopt] at hrefused
      cases hrefused
      exact setStage_ends rfl rfl
    · rw [hadopt] at htaken
      cases htaken

theorem failed_ends (id : Nat) (origin : ConnectionOrigin) (ski : Option Ski) (error : ConnectionError) :
    r.Ends (r.failed id origin ski error) id := by
  obtain ⟨dialed, accepted, heq⟩ := releaseInFlight_eq (r := r) origin
  simp only [failed, heq]
  exact setStage_ends rfl rfl

end Reception

section Updates

variable {ski : Ski} {change : Known → Known} {known : List Known}

theorem map_updateKnown (h : ∀ k, (change k).ski = k.ski) :
    (updateKnown ski change known).map Known.ski = known.map Known.ski :=
  map_modifyFirst Known.ski known fun k _ => h k

theorem updateKnown_eq_map (hnodup : (known.map Known.ski).Nodup) :
    updateKnown ski change known = known.map fun k => if k.ski = ski then change k else k := by
  induction known with
  | nil => rfl
  | cons first rest ih =>
    obtain ⟨hnew, hrest⟩ := List.nodup_cons.mp hnodup
    rw [List.map_cons]
    by_cases hfirst : first.ski = ski
    · rw [updateKnown, modifyFirst_cons_pos rest (by simpa using hfirst), if_pos hfirst]
      refine congrArg (change first :: ·) ((List.map_id' rest).symm.trans (List.map_congr_left fun k hk => ?_))
      rw [if_neg fun heq => hnew (List.mem_map.mpr ⟨k, hk, heq.trans hfirst.symm⟩)]
    · rw [updateKnown, modifyFirst_cons_neg rest (by simpa using hfirst), if_neg hfirst, ← updateKnown, ih hrest]

theorem forall_mem_updateKnown {P : Known → Prop} (hnodup : (known.map Known.ski).Nodup)
    (hother : ∀ k ∈ known, k.ski ≠ ski → P k) (hself : ∀ k ∈ known, k.ski = ski → P (change k)) :
    ∀ k ∈ updateKnown ski change known, P k := by
  rw [updateKnown_eq_map hnodup, List.forall_mem_map]
  intro k hk
  split
  case isTrue heq => exact hself k hk heq
  case isFalse hne => exact hother k hk hne

end Updates

namespace Schedule

/-- No peer is remembered twice, this node never; and what is noted as running is. -/
structure Kept (h : Schedule) : Prop where
  distinct : (h.known.map Known.ski).Nodup
  notOwn : ∀ k ∈ h.known, k.ski ≠ h.reception.ski
  sighted : (h.sightings.map Sighting.ski).Nodup
  sightedNotOwn : ∀ s ∈ h.sightings, s.ski ≠ h.reception.ski
  bounded : h.sightings.length ≤ maxSightings
  aligned : h.expected.length = h.reception.attempts.length
  running : ∀ (id : Nat) (ski : Ski), h.expected[id]? = some (some ski) → h.reception.IsRunning id
  dialed : ∀ k ∈ h.known, k.dialing = true → some k.ski ∈ h.expected
  lookedFor : ∀ ski, some ski ∈ h.expected → ski ≠ h.reception.ski

def finish (h : Schedule) (reception : Reception) (id : Nat) : Schedule :=
  { h with reception, expected := h.expected.set id none }.dialEnded h.expected[id]?.join

@[simp] theorem finish_reception (h : Schedule) (reception : Reception) (id : Nat) :
    (h.finish reception id).reception = reception := by
  rw [finish]
  cases h.expected[id]?.join <;> rfl

/-- The elementary changes of a schedule, of which an operation is made up. `resets` are the peers
whose backoff starts again, `removes` those that may be forgotten. -/
inductive Move (resets removes : Ski → Prop) : Schedule → Schedule → Prop
  | wait (h : Schedule) (clock : Nat) (store : TrustStore) (ownInstance : Option (List Char))
      (hclock : h.clock ≤ clock) : Move resets removes h { h with clock, store, ownInstance }
  | continues (h : Schedule) (reception : Reception) (hreception : h.reception.Continues reception) :
      Move resets removes h { h with reception }
  | spawns (h : Schedule) (reception : Reception) (hreception : h.reception.Spawns reception) :
      Move resets removes h { h with reception, expected := h.expected ++ [none] }
  | dials (h : Schedule) (reception : Reception) (hreception : h.reception.Spawns reception) (ski : Ski)
      (hdue : ∃ k ∈ h.known, k.ski = ski ∧ k.dialing = false ∧ k.nextAttempt ≤ h.clock) :
      Move resets removes h { h with
        reception
        expected := h.expected ++ [some ski]
        dials := h.dials ++ [(ski, h.clock)]
        known := updateKnown ski (fun k => { k with dialing := true }) h.known }
  | ends (h : Schedule) (reception : Reception) (id : Nat) (hreception : h.reception.Ends reception id)
      (hreset : ∀ ski, h.expected[id]?.join = some ski → resets ski) :
      Move resets removes h (h.finish reception id)
  | endsDeferred (h : Schedule) (reception : Reception) (id : Nat)
      (hreception : h.reception.Ends reception id) :
      Move resets removes h ((h.finish reception id).deferExpected h.expected[id]?.join)
  | deferred (h : Schedule) (ski : Ski) : Move resets removes h (h.deferRedial ski)
  | restarts (h : Schedule) (ski : Ski) (address : Known → SocketAddr) (hreset : resets ski) :
      Move resets removes h { h with known := updateKnown ski (fun k =>
        { k with address := address k, attempts := 0, nextAttempt := h.clock }) h.known }
  | adds (h : Schedule) (k : Known) (hreset : resets k.ski) (hown : k.ski ≠ h.reception.ski)
      (hnew : ∀ other ∈ h.known, other.ski ≠ k.ski) (hdialing : k.dialing = false) :
      Move resets removes h { h with known := h.known ++ [k] }
  | names (h : Schedule) (ski : Ski) (instance_ : List Char) : Move resets removes h (h.nameInstance ski instance_)
  | forgets (h : Schedule) (known : List Known) (hsub : known.Sublist h.known)
      (hremove : ∀ k ∈ h.known, k ∉ known → removes k.ski) : Move resets removes h { h with known }
  | sights (h : Schedule) (sightings : List Sighting) (hnodup : (sightings.map Sighting.ski).Nodup)
      (hown : ∀ s ∈ sightings, s.ski ≠ h.reception.ski) (hbound : sightings.length ≤ maxSightings) :
      Move resets removes h { h with sightings }

variable {h h' : Schedule} {resets removes : Ski → Prop}

theorem Kept.update (hk : h.Kept) (ski : Ski) (change : Known → Known) (hski : ∀ k, (change k).ski = k.ski)
    (hdialing : ∀ k, k.ski = ski → (change k).dialing = true → k.dialing = true ∨ some ski ∈ h.expected) :
    ({ h with known := updateKnown ski change h.known } : Schedule).Kept :=
  { hk with
    distinct := by
      simp only
      rw [map_updateKnown hski]
      exact hk.distinct
    notOwn := forall_mem_updateKnown hk.distinct (fun k hmem _ => hk.notOwn k hmem)
      fun k hmem _ => hski k ▸ hk.notOwn k hmem
    dialed := forall_mem_updateKnown hk.distinct (fun k hmem _ => hk.dialed k hmem) fun k hmem hself hd => by
      rw [hski, hself]
      rcases hdialing k hself hd with hbefore | hlooked
      · exact hself ▸ hk.dialed k hmem hbefore
      · exact hlooked }

theorem Kept.deferred (hk : h.Kept) (ski : Ski) : (h.deferRedial ski).Kept :=
  hk.update ski _ (fun _ => rfl) fun _ _ hd => .inl hd

theorem Kept.deferExpected (hk : h.Kept) (expected : Option Ski) : (h.deferExpected expected).Kept := by
  cases expected with
  | none => exact hk
  | some ski => exact hk.deferred ski

theorem Kept.finish (hk : h.Kept) {reception : Reception} {id : Nat}
    (hreception : h.reception.Ends reception id) : (h.finish reception id).Kept := by
  have hset : ∀ (j : Nat) (e : Ski), (h.expected.set id none)[j]? = some (some e) →
      j ≠ id ∧ h.expected[j]? = some (some e) := by
    intro j e hj
    rw [List.getElem?_set] at hj
    split at hj
    case isTrue =>
      split at hj
      · cases hj
      · cases hj
    case isFalse hne => exact ⟨Ne.symm hne, hj⟩
  have hrunning : ∀ (j : Nat) (e : Ski), (h.expected.set id none)[j]? = some (some e) →
      reception.IsRunning j := fun j e hj =>
    hreception.running j (hset j e hj).1 (hk.running j e (hset j e hj).2)
  have haligned : (h.expected.set id none).length = reception.attempts.length := by
    rw [List.length_set, hreception.length]
    exact hk.aligned
  have hleft : ∀ e, h.expected[id]?.join ≠ some e → some e ∈ h.expected → some e ∈ h.expected.set id none := by
    intro e hne hmem
    obtain ⟨j, hj⟩ := List.getElem?_of_mem hmem
    refine List.mem_of_getElem? (i := j) ?_
    rw [List.getElem?_set_ne (fun heq => hne (by rw [heq, hj]; rfl)), hj]
  have hlooked : ∀ ski, some ski ∈ h.expected.set id none → ski ≠ reception.ski := by
    intro ski hmem
    rw [hreception.ski]
    rcases List.mem_or_eq_of_mem_set hmem with hold | hnone
    · exact hk.lookedFor ski hold
    · cases hnone
  cases hexpected : h.expected[id]?.join with
  | none =>
    simp only [Schedule.finish, hexpected, dialEnded]
    exact { hk with
      notOwn := fun k hmem => hreception.ski ▸ hk.notOwn k hmem
      sightedNotOwn := fun s hmem => hreception.ski ▸ hk.sightedNotOwn s hmem
      aligned := haligned
      running := hrunning
      lookedFor := hlooked
      dialed := fun k hmem hd => hleft k.ski (by simp [hexpected]) (hk.dialed k hmem hd) }
  | some ski =>
    have hcleared := hk.update ski (fun k => { k with dialing := false }) (fun _ => rfl)
      fun _ _ hd => (by cases hd)
    simp only [Schedule.finish, hexpected, dialEnded]
    exact { hcleared with
      notOwn := fun k hmem => hreception.ski ▸ hcleared.notOwn k hmem
      sightedNotOwn := fun s hmem => hreception.ski ▸ hk.sightedNotOwn s hmem
      aligned := haligned
      running := hrunning
      lookedFor := hlooked
      dialed := forall_mem_updateKnown hk.distinct
        (fun k hmem hne hd => hleft k.ski (by simpa [hexpected] using Ne.symm hne) (hk.dialed k hmem hd))
        fun k _ _ hd => by cases hd }

theorem Kept.spawned (hk : h.Kept) {reception : Reception} (hreception : h.reception.Spawns reception)
    {expected : Option Ski} (hown : ∀ ski ∈ expected, ski ≠ h.reception.ski) : ({ h with reception, expected := h.expected ++ [expected] } : Schedule).Kept :=
  { hk with
    notOwn := fun k hmem => hreception.ski ▸ hk.notOwn k hmem
    sightedNotOwn := fun s hmem => hreception.ski ▸ hk.sightedNotOwn s hmem
    aligned := by
      simp only [List.length_append, List.length_singleton]
      rw [hreception.length, hk.aligned]
    running := fun id ski hid => by
      rcases Nat.lt_or_ge id h.expected.length with hlt | hge
      · rw [List.getElem?_append_left hlt] at hid
        exact hreception.running id (hk.running id ski hid)
      · have hlast : id < (h.expected ++ [expected]).length := (List.getElem?_eq_some_iff.mp hid).choose
        rw [List.length_append, List.length_singleton] at hlast
        obtain rfl : id = h.reception.attempts.length := by
          rw [← hk.aligned]
          omega
        exact hreception.last
    dialed := fun k hmem hd => List.mem_append_left _ (hk.dialed k hmem hd)
    lookedFor := fun ski hmem => by
      rw [hreception.ski]
      rcases List.mem_append.mp hmem with hold | hlast
      · exact hk.lookedFor ski hold
      · exact hown ski (List.mem_singleton.mp hlast).symm }

theorem Kept.move (hk : h.Kept) (hmove : Move resets removes h h') : h'.Kept := by
  cases hmove with
  | wait clock store ownInstance hclock => exact { hk with }
  | continues reception hreception =>
    exact { hk with
      notOwn := fun k hmem => hreception.ski ▸ hk.notOwn k hmem
      sightedNotOwn := fun s hmem => hreception.ski ▸ hk.sightedNotOwn s hmem
      aligned := hreception.length ▸ hk.aligned
      running := fun id ski hid => hreception.running id (hk.running id ski hid)
      lookedFor := fun ski hmem => hreception.ski ▸ hk.lookedFor ski hmem }
  | spawns reception hreception => exact hk.spawned hreception fun ski hski => (by cases hski)
  | dials reception hreception ski hdue =>
    obtain ⟨k, hmem, rfl, -⟩ := hdue
    have hspawned := hk.spawned hreception fun ski hski => Option.mem_some_iff.mp hski ▸ hk.notOwn k hmem
    have hmarked := hspawned.update k.ski (fun k => { k with dialing := true }) (fun _ => rfl)
      fun _ _ _ => .inr (List.mem_append_right _ List.mem_cons_self)
    exact { hmarked with }
  | ends reception id hreception hreset => exact hk.finish hreception
  | endsDeferred reception id hreception => exact (hk.finish hreception).deferExpected _
  | deferred ski => exact hk.deferred ski
  | restarts ski address hreset => exact hk.update ski _ (fun _ => rfl) fun _ _ hd => .inl hd
  | adds k hreset hown hnew hdialing =>
    exact { hk with
      distinct := by
        simp only [List.map_append]
        refine hk.distinct.append (List.nodup_singleton _) fun ski hold hmem => ?_
        obtain ⟨other, hother, rfl⟩ := List.mem_map.mp hold
        exact hnew other hother (List.mem_singleton.mp hmem)
      notOwn := fun other hmem => by
        rcases List.mem_append.mp hmem with hold | hlast
        · exact hk.notOwn other hold
        · exact List.mem_singleton.mp hlast ▸ hown
      dialed := fun other hmem hd => by
        rcases List.mem_append.mp hmem with hold | hlast
        · exact hk.dialed other hold hd
        · rw [List.mem_singleton.mp hlast, hdialing] at hd
          cases hd }
  | names ski instance_ => exact hk.update ski _ (fun _ => rfl) fun _ _ hd => .inl hd
  | forgets known hsub hremove =>
    exact { hk with
      distinct := hk.distinct.sublist (hsub.map _)
      notOwn := fun k hmem => hk.notOwn k (hsub.mem hmem)
      dialed := fun k hmem => hk.dialed k (hsub.mem hmem) }
  | sights sightings hnodup hown hbound =>
    exact { hk with sighted := hnodup, sightedNotOwn := hown, bounded := hbound }

theorem Kept.moves (hk : h.Kept) (hmoves : Relation.ReflTransGen (Move resets removes) h h') : h'.Kept := by
  induction hmoves with
  | refl => exact hk
  | tail _ hmove ih => exact ih.move hmove

/-- The peers whose backoff an operation starts again. -/
def Resets (h : Schedule) : ScheduleOp → Ski → Prop
  | .remember ski _, peer => peer = ski
  | .found announced, peer => peer = announced.ski ∧ h.store.isTrusted peer = true
  | .approve ski, peer => peer = ski ∧ ∃ s ∈ h.sightings, s.ski = ski
  -- the peer itself has answered, or this node
  | .established id ski, peer => h.expected[id]?.join = some peer ∧ (ski = peer ∨ ski = h.reception.ski)
  | _, _ => False

/-- The peers an operation may forget. -/
def Removes (h : Schedule) : ScheduleOp → Ski → Prop
  | .forgetPeer ski, peer => peer = ski
  | .lost instance_, peer =>
    h.ownInstance ≠ some instance_ ∧ ∃ k ∈ h.known, k.ski = peer ∧ k.instance_ = some instance_
  | _, _ => False

theorem deferExpected_moves (expected : Option Ski) :
    Relation.ReflTransGen (Move resets removes) h (h.deferExpected expected) := by
  cases expected with
  | none => exact .refl
  | some ski => exact .single (.deferred h ski)

theorem spawnDial_moves {address : SocketAddr} {expected : Option Ski}
    (hdue : ∀ ski ∈ expected, ∃ k ∈ h.known, k.ski = ski ∧ k.dialing = false ∧ k.nextAttempt ≤ h.clock) :
    Relation.ReflTransGen (Move resets removes) h (h.spawnDial address expected) := by
  cases hroom : h.reception.hasRoomFor (.dialed address) with
  | false =>
    have hrefused : Move resets removes h { h with reception := h.reception.spawnDial address expected } :=
      .continues h _ (Reception.spawnDial_continues hroom)
    simp only [spawnDial, hroom]
    exact (Relation.ReflTransGen.single hrefused).trans (deferExpected_moves expected)
  | true =>
    have hspawns : h.reception.Spawns (h.reception.spawnDial address expected) :=
      Reception.spawnDial_spawns hroom
    simp only [spawnDial, hroom]
    cases expected with
    | none =>
      simp only [Option.map_none, Option.toList_none, List.append_nil]
      exact .single (.spawns h _ hspawns)
    | some ski => exact .single (.dials h _ hspawns ski (hdue ski rfl))

theorem remember_moves {ski : Ski} {address : SocketAddr} (hreset : resets ski) :
    Relation.ReflTransGen (Move resets removes) h (h.remember ski address) := by
  simp only [remember]
  split
  case isTrue => exact .refl
  case isFalse hown =>
    split
    case h_1 => exact .single (.restarts h ski (fun _ => address) hreset)
    case h_2 hnone =>
      refine .single (.adds h _ hreset hown (fun other hother heq => ?_) rfl)
      exact List.find?_eq_none.mp hnone other hother (by simpa using heq)

theorem own_of_selfConnection {r : Reception} {ski : Ski} {origin : ConnectionOrigin} {attempt : Option Nat}
    (h : (r.adoptFrom ski origin attempt).2 = some .selfConnection) : ski = r.ski := by
  simp only [Reception.adoptFrom] at h
  split at h
  case isTrue heq => exact heq
  case isFalse =>
    split at h
    · cases h
    · cases h

theorem established_moves (hk : h.Kept) (id : Nat) (origin : ConnectionOrigin) (ski : Ski) :
    Relation.ReflTransGen (Move (h.Resets (.established id ski)) (h.Removes (.established id ski))) h
      (h.established id origin ski) := by
  have hends := Reception.established_ends (r := h.reception) id origin ski
  have hfinish := hk.finish hends
  simp only [established]
  split
  case h_1 =>
    split
    case isTrue heq =>
      have hreset : h.Resets (.established id ski) ski := ⟨heq, .inl rfl⟩
      refine (Relation.ReflTransGen.single (.ends h _ id hends fun peer hpeer => ?_)).tail
        (.restarts _ ski Known.address hreset)
      exact ⟨hpeer, .inl (Option.some.inj (heq.symm.trans hpeer))⟩
    case isFalse => exact .single (.endsDeferred h _ id hends)
  case h_2 reason hreason =>
    split
    case isFalse => exact .single (.endsDeferred h _ id hends)
    case isTrue hself =>
      have hown : ski = h.reception.ski := own_of_selfConnection (hself ▸ hreason)
      refine ((Relation.ReflTransGen.single (.ends h _ id hends fun peer hpeer => ⟨hpeer, .inr hown⟩)).tail
        (.forgets _ _ List.filter_sublist fun k hmem hgone => ?_)).tail (.sights _ _ ?_ ?_ ?_)
      · exact hfinish.sighted.sublist (List.filter_sublist.map _)
      · exact fun s hs => hfinish.sightedNotOwn s (List.mem_of_mem_filter hs)
      · exact (List.length_filter_le _ _).trans hfinish.bounded
      · have hother : k.ski ≠ ski := by
          have hkept := hfinish.notOwn k hmem
          rwa [finish_reception, hends.ski, ← hown] at hkept
        exact absurd (List.mem_filter.mpr ⟨hmem, by simpa using hother⟩) hgone

theorem nameInstance_moves (ski : Ski) (instance_ : List Char) :
    Relation.ReflTransGen (Move resets removes) h (h.nameInstance ski instance_) :=
  .single (.names h ski instance_)

theorem sight_moves (hk : h.Kept) (sighting : Sighting) (hown : sighting.ski ≠ h.reception.ski) :
    Relation.ReflTransGen (Move resets removes) h (h.sight sighting) := by
  obtain ⟨others, hothers⟩ : ∃ others, others = h.sightings.filter fun s => s.ski != sighting.ski := ⟨_, rfl⟩
  obtain ⟨kept, hkept⟩ :
      ∃ kept, kept = if maxSightings ≤ others.length then others.eraseIdx 0 else others := ⟨_, rfl⟩
  have hsub : others.Sublist h.sightings := hothers ▸ List.filter_sublist
  have hkeptSub : kept.Sublist others := by
    rw [hkept]
    split
    · exact List.eraseIdx_sublist _ _
    · exact List.Sublist.refl _
  have hlength : kept.length < maxSightings := by
    have hle := hsub.length_le.trans hk.bounded
    have hpos : 0 < maxSightings := by decide
    rw [hkept]
    split
    case isTrue hfull =>
      rw [List.length_eraseIdx_of_lt (by omega)]
      omega
    case isFalse hroom => omega
  have hsight : h.sight sighting = { h with sightings := kept ++ [sighting] } := by
    rw [sight, hkept, hothers]
  rw [hsight]
  refine .single (.sights h _ ?_ (fun s hs => ?_) ?_)
  · rw [List.map_append]
    refine (hk.sighted.sublist ((hkeptSub.trans hsub).map _)).append (List.nodup_singleton _) fun ski hold hnew => ?_
    obtain ⟨s, hs, rfl⟩ := List.mem_map.mp hold
    have hne := (List.mem_filter.mp (hothers ▸ hkeptSub.mem hs)).2
    exact absurd (List.mem_singleton.mp hnew) (by simpa using hne)
  · rcases List.mem_append.mp hs with hold | hlast
    · exact hk.sightedNotOwn s ((hkeptSub.trans hsub).mem hold)
    · exact List.mem_singleton.mp hlast ▸ hown
  · rw [List.length_append, List.length_singleton]
    exact hlength

theorem approve_moves (hk : h.Kept) (ski : Ski) :
    Relation.ReflTransGen (Move (h.Resets (.approve ski)) (h.Removes (.approve ski))) h (h.approve ski) := by
  simp only [approve]
  split
  case isTrue => exact .refl
  case isFalse =>
    have hdecided : Move (h.Resets (.approve ski)) (h.Removes (.approve ski)) h
        { h with reception := h.reception.perform (.approve ski) } :=
      .continues h _ (Reception.approve_continues ski)
    have hstore := (Relation.ReflTransGen.single hdecided).tail
      (.wait _ h.clock (h.store.trust ski) h.ownInstance le_rfl)
    split
    case h_1 => exact hstore
    case h_2 sighting hsighting =>
      have hreset : h.Resets (.approve ski) ski :=
        ⟨rfl, sighting, List.mem_of_find?_eq_some hsighting, by simpa using List.find?_some hsighting⟩
      have hsights := hstore.tail (.sights _ (h.sightings.eraseP fun s => s.ski == ski)
        (hk.sighted.sublist (List.eraseP_sublist.map _))
        (fun s hs => hk.sightedNotOwn s (List.mem_of_mem_eraseP hs))
        (List.eraseP_sublist.length_le.trans hk.bounded))
      exact (hsights.trans (remember_moves hreset)).trans (nameInstance_moves _ _)

theorem found_moves (hk : h.Kept) (peer : Discovered) :
    Relation.ReflTransGen (Move (h.Resets (.found peer)) (h.Removes (.found peer))) h (h.found peer) := by
  simp only [found]
  split
  case isTrue => exact .single (.wait h h.clock h.store _ le_rfl)
  case isFalse hown =>
    rw [rememberDiscovered, if_neg hown]
    split
    case h_1 => exact .refl
    case h_2 address _ =>
      split
      case isTrue => exact sight_moves hk _ hown
      case isFalse htrusted =>
        have hreset : h.Resets (.found peer) peer.ski := ⟨rfl, by simpa using htrusted⟩
        exact (remember_moves hreset).trans (nameInstance_moves _ _)

theorem mem_spawnDial {k : Known} {address : SocketAddr} {ski : Ski} (hmem : k ∈ h.known) (hne : k.ski ≠ ski) :
    k ∈ (h.spawnDial address (some ski)).known ∧ (h.spawnDial address (some ski)).clock = h.clock := by
  have hother : ∀ change : Known → Known, (∀ k, (change k).ski = k.ski) → k ∈ updateKnown ski change h.known := by
    intro change hchange
    have hfilter : (updateKnown ski change h.known).filter (fun k => k.ski != ski) =
        h.known.filter fun k => k.ski != ski :=
      filter_modifyFirst h.known fun a ha => by
        have heq : a.ski = ski := by simpa using ha
        simp [hchange, heq]
    exact List.mem_of_mem_filter (hfilter ▸ List.mem_filter.mpr ⟨hmem, by simpa using hne⟩)
  simp only [spawnDial]
  split
  · exact ⟨hother _ fun _ => rfl, rfl⟩
  · exact ⟨hother _ fun _ => rfl, rfl⟩

theorem dials_moves (due : List (Ski × SocketAddr)) (hnodup : (due.map Prod.fst).Nodup)
    (hdue : ∀ peer ∈ due, ∃ k ∈ h.known, k.ski = peer.1 ∧ k.dialing = false ∧ k.nextAttempt ≤ h.clock) :
    Relation.ReflTransGen (Move resets removes) h
      (due.foldl (fun h peer => h.spawnDial peer.2 (some peer.1)) h) := by
  induction due generalizing h with
  | nil => exact .refl
  | cons peer due ih =>
    obtain ⟨hnew, hrest⟩ := List.nodup_cons.mp hnodup
    have hfirst : Relation.ReflTransGen (Move resets removes) h (h.spawnDial peer.2 (some peer.1)) :=
      spawnDial_moves fun ski hski => Option.mem_some_iff.mp hski ▸ hdue peer List.mem_cons_self
    refine hfirst.trans (ih hrest fun other hother => ?_)
    obtain ⟨k, hk, hski, hidle, hnext⟩ := hdue other (List.mem_cons_of_mem _ hother)
    have hne : k.ski ≠ peer.1 := fun heq => hnew (List.mem_map.mpr ⟨other, hother, hski.symm.trans heq⟩)
    obtain ⟨hmem, hclock⟩ := @mem_spawnDial h k peer.2 peer.1 hk hne
    exact ⟨k, hmem, hski, hidle, hclock ▸ hnext⟩

theorem redial_moves (hk : h.Kept) :
    Relation.ReflTransGen (Move resets removes) h h.redial := by
  refine dials_moves _ ?_ fun peer hpeer => ?_
  · rw [List.map_map]
    exact hk.distinct.sublist (List.filter_sublist.map _)
  · obtain ⟨k, hk, rfl⟩ := List.mem_map.mp hpeer
    obtain ⟨hmem, hdue⟩ := List.mem_filter.mp hk
    simp only [Bool.and_eq_true, Bool.not_eq_true', decide_eq_true_eq] at hdue
    exact ⟨k, hmem, rfl, hdue.1.1, hdue.1.2⟩

theorem perform_moves (hk : h.Kept) (op : ScheduleOp) :
    Relation.ReflTransGen (Move (h.Resets op) (h.Removes op)) h (h.perform op) := by
  cases op with
  | advance d => exact .single (.wait h (h.clock + d) h.store h.ownInstance (Nat.le_add_right _ _))
  | accept from_ =>
    simp only [perform, accept]
    split
    case isTrue hroom => exact .single (.spawns h _ (Reception.accept_spawns hroom))
    case isFalse hroom => exact .single (.continues h _ (Reception.accept_continues (by simpa using hroom)))
  | dial address =>
    rw [perform]
    exact spawnDial_moves fun ski hski => (by simp at hski)
  | adopt ski => exact .single (.continues h _ (Reception.adopt_continues ski))
  | drop index => exact .single (.continues h _ (.of_same rfl rfl))
  | trustRequested id ski => exact .single (.continues h _ (Reception.trustRequested_continues id ski))
  | established id ski =>
    simp only [perform]
    split
    case h_2 => exact .refl
    case h_1 a _ =>
      split
      case isTrue => exact .refl
      case isFalse => exact established_moves hk id a.origin ski
  | failed id ski error =>
    simp only [perform]
    split
    case h_2 => exact .refl
    case h_1 a _ =>
      split
      case isTrue => exact .refl
      case isFalse => exact .single (.endsDeferred h _ id (Reception.failed_ends id a.origin ski error))
  | remember ski address => exact remember_moves rfl
  | forgetPeer ski =>
    refine .single (.forgets h _ List.filter_sublist fun k hmem hgone => ?_)
    by_contra hne
    have hother : k.ski ≠ ski := hne
    exact hgone (List.mem_filter.mpr ⟨hmem, by simpa using hother⟩)
  | approve ski => exact approve_moves hk ski
  | restore store => exact .single (.wait h h.clock store h.ownInstance le_rfl)
  | found peer => exact found_moves hk peer
  | lost instance_ =>
    simp only [perform, lost]
    split
    case isTrue => exact .single (.wait h h.clock h.store none le_rfl)
    case isFalse hother =>
      have hsights : Move (h.Resets (.lost instance_)) (h.Removes (.lost instance_)) h
          { h with sightings := h.sightings.filter fun s => s.instance_ != instance_ } :=
        .sights h _ (hk.sighted.sublist (List.filter_sublist.map _))
          (fun s hs => hk.sightedNotOwn s (List.mem_of_mem_filter hs))
          ((List.length_filter_le _ _).trans hk.bounded)
      refine (Relation.ReflTransGen.single hsights).tail ?_
      refine .forgets _ _ List.eraseP_sublist fun k hmem hgone => ⟨hother, k, hmem, rfl, ?_⟩
      by_contra hne
      exact hgone ((List.mem_eraseP_of_neg (by simpa using hne)).mpr hmem)
  | redial => exact redial_moves hk
  | close ski => exact .single (.continues h _ (.of_same rfl rfl))
  | limit connections => exact .single (.continues h _ (.of_same rfl rfl))

theorem Move.ski (hmove : Move resets removes h h') : h'.reception.ski = h.reception.ski := by
  have hdeferred : ∀ (h : Schedule) (expected : Option Ski),
      (h.deferExpected expected).reception = h.reception := by
    intro h expected
    cases expected <;> rfl
  cases hmove with
  | continues reception hreception => exact hreception.ski
  | spawns reception hreception => exact hreception.ski
  | dials reception hreception => exact hreception.ski
  | ends reception id hreception =>
    rw [finish_reception]
    exact hreception.ski
  | endsDeferred reception id hreception =>
    rw [hdeferred, finish_reception]
    exact hreception.ski
  | _ => rfl

theorem moves_ski (hmoves : Relation.ReflTransGen (Move resets removes) h h') :
    h'.reception.ski = h.reception.ski := by
  induction hmoves with
  | refl => rfl
  | tail _ hmove ih => exact hmove.ski.trans ih

theorem kept_new (ski : Ski) (maxConnections : Nat) (store : TrustStore) : (new ski maxConnections store).Kept where
  distinct := List.nodup_nil
  notOwn k hk := by cases hk
  sighted := List.nodup_nil
  sightedNotOwn s hs := by cases hs
  bounded := Nat.zero_le _
  aligned := rfl
  running id e he := by cases he
  dialed k hk := by cases hk
  lookedFor e he := by cases he

theorem Kept.perform (hk : h.Kept) (op : ScheduleOp) : (h.perform op).Kept := hk.moves (perform_moves hk op)

theorem kept_run (ski : Ski) (maxConnections : Nat) (store : TrustStore) (ops : List ScheduleOp) :
    (machine.run (new ski maxConnections store) ops).Kept ∧
      (machine.run (new ski maxConnections store) ops).reception.ski = ski :=
  machine.run_invariant (fun _ _ => True) (fun h => h.Kept ∧ h.reception.ski = ski)
    (fun _ op hk _ => ⟨hk.1.perform op, (moves_ski (perform_moves hk.1 op)).trans hk.2⟩) ops _
    ⟨kept_new ski maxConnections store, rfl⟩ (machine.admits_of_forall (fun _ _ => trivial) ops _)

/-- A remembered peer is connected, a dial to it is running, or the loop wakes up for it. -/
def Attended (h : Schedule) (k : Known) : Prop :=
  h.linked k.ski = true ∨ (∃ id, h.expected[id]? = some (some k.ski) ∧ h.reception.IsRunning id) ∨
    ∀ others, ∃ at_ ∈ h.nextDeadline others, at_ ≤ k.nextAttempt

theorem Kept.attended (hk : h.Kept) {k : Known} (hmem : k ∈ h.known) : h.Attended k := by
  cases hlinked : h.linked k.ski with
  | true => exact .inl hlinked
  | false =>
    refine .inr ?_
    cases hdialing : k.dialing with
    | true =>
      obtain ⟨id, hid⟩ := List.getElem?_of_mem (hk.dialed k hmem hdialing)
      exact .inl ⟨id, hid, hk.running id k.ski hid⟩
    | false =>
      refine .inr fun others => ?_
      have hidle : k.nextAttempt ∈ others ++ (h.known.filter h.isIdle).map Known.nextAttempt := by
        refine List.mem_append_right _ (List.mem_map_of_mem (List.mem_filter.mpr ⟨hmem, ?_⟩))
        simp [isIdle, hdialing, hlinked]
      obtain ⟨at_, hat⟩ := Option.isSome_iff_exists.mp (List.isSome_min?_of_mem hidle)
      exact ⟨at_, hat, (List.min?_eq_some_iff.mp hat).2 _ hidle⟩

/-- Nothing is to be done for the peer at this instant. -/
def Settled (h : Schedule) (k : Known) : Prop :=
  h.linked k.ski = true ∨ k.dialing = true ∨ h.clock < k.nextAttempt

theorem spawnDial_settles (hk : h.Kept) (address : SocketAddr) (ski : Ski)
    {P : Known → Prop} (hother : ∀ k ∈ h.known, k.ski ≠ ski → P k)
    (hdialed : ∀ k, k.dialing = true → P k) (hlater : ∀ k, h.clock < k.nextAttempt → P k) :
    ∀ k ∈ (h.spawnDial address (some ski)).known, P k := by
  have hdelay : ∀ (peer : Ski) (attempt : Nat), 0 < fromMillis (reconnectDelayFor peer attempt) := by
    intro peer attempt
    have hpos := reconnectDelay_pos attempt
    have hle := (reconnectDelayFor_bounds peer attempt).1
    simp only [shortestDelay] at hle
    simp only [fromMillis]
    omega
  simp only [spawnDial]
  split
  · exact forall_mem_updateKnown hk.distinct hother fun k _ _ =>
      hlater _ (Nat.lt_add_of_pos_right (hdelay _ _))
  · exact forall_mem_updateKnown hk.distinct hother fun k _ _ => hdialed _ rfl

theorem spawnDial_links (r : Reception) (address : SocketAddr) (expected : Option Ski) :
    (r.spawnDial address expected).links = r.links := by
  simp only [Reception.spawnDial, Reception.spawn]
  split
  · rfl
  · split <;> rfl

theorem spawnDial_same (address : SocketAddr) (ski : Ski) :
    (h.spawnDial address (some ski)).clock = h.clock ∧
      (h.spawnDial address (some ski)).reception.links = h.reception.links := by
  have hlinks := spawnDial_links h.reception address (some ski)
  simp only [spawnDial]
  split
  · exact ⟨rfl, hlinks⟩
  · exact ⟨rfl, hlinks⟩

theorem dials_settle (due : List (Ski × SocketAddr)) (hk : h.Kept) (hnodup : (due.map Prod.fst).Nodup)
    (hdue : ∀ peer ∈ due, ∃ k ∈ h.known, k.ski = peer.1 ∧ k.dialing = false ∧ k.nextAttempt ≤ h.clock)
    (hrest : ∀ k ∈ h.known, h.Settled k ∨ k.ski ∈ due.map Prod.fst) :
    ∀ k ∈ (due.foldl (fun h peer => h.spawnDial peer.2 (some peer.1)) h).known,
      (due.foldl (fun h peer => h.spawnDial peer.2 (some peer.1)) h).Settled k := by
  induction due generalizing h with
  | nil => exact fun k hk => (hrest k hk).resolve_right List.not_mem_nil
  | cons peer due ih =>
    obtain ⟨hnew, hlater⟩ := List.nodup_cons.mp hnodup
    obtain ⟨hclock, hlinks⟩ := spawnDial_same (h := h) peer.2 peer.1
    have hmoves : Relation.ReflTransGen (Move (fun _ => False) fun _ => False) h
        (h.spawnDial peer.2 (some peer.1)) :=
      spawnDial_moves fun ski hski => Option.mem_some_iff.mp hski ▸ hdue peer List.mem_cons_self
    refine ih (hk.moves hmoves) hlater (fun other hother => ?_) ?_
    · obtain ⟨k, hmem, hski, hidle, hnext⟩ := hdue other (List.mem_cons_of_mem _ hother)
      have hne : k.ski ≠ peer.1 := fun heq => hnew (List.mem_map.mpr ⟨other, hother, hski.symm.trans heq⟩)
      exact ⟨k, (mem_spawnDial hmem hne).1, hski, hidle, hclock ▸ hnext⟩
    · refine spawnDial_settles hk peer.2 peer.1 (fun k hmem hne => ?_) (fun k hd => .inl (.inr (.inl hd)))
        fun k hnext => .inl (.inr (.inr (hclock ▸ hnext)))
      rcases hrest k hmem with hsettled | hturn
      · refine .inl ?_
        rw [Settled, linked, hlinks, hclock]
        exact hsettled
      · exact .inr ((List.mem_cons.mp hturn).resolve_left hne)

theorem Kept.redial_settles (hk : h.Kept) : ∀ k ∈ h.redial.known, h.redial.Settled k := by
  refine dials_settle _ hk ?_ (fun peer hpeer => ?_) fun k hmem => ?_
  · rw [List.map_map]
    exact hk.distinct.sublist (List.filter_sublist.map _)
  · obtain ⟨k, hmem, rfl⟩ := List.mem_map.mp hpeer
    obtain ⟨hmem, hdue⟩ := List.mem_filter.mp hmem
    simp only [Bool.and_eq_true, Bool.not_eq_true', decide_eq_true_eq] at hdue
    exact ⟨k, hmem, rfl, hdue.1.1, hdue.1.2⟩
  · by_cases hsettled : h.Settled k
    · exact .inl hsettled
    · simp only [Settled, not_or, Bool.not_eq_true, Nat.not_lt] at hsettled
      refine .inr ?_
      rw [List.map_map]
      refine List.mem_map.mpr ⟨k, List.mem_filter.mpr ⟨hmem, ?_⟩, rfl⟩
      simp [hsettled.1, hsettled.2.1, hsettled.2.2]

end Schedule

/-- Whatever happens to a hub, it remembers each peer once and never itself, it looks for no connection
to itself, and it keeps few enough sightings; every peer it remembers is connected, is being dialled by a
handshake that is running, or is what the loop wakes up for; and no peer is left due by a redial. -/
theorem every_peer_attended (ski : Ski) (maxConnections : Nat) (store : TrustStore) (ops : List ScheduleOp) :
    let h := Schedule.machine.run (.new ski maxConnections store) ops
    (h.known.map Known.ski).Nodup ∧ (∀ k ∈ h.known, k.ski ≠ ski) ∧ (∀ peer, some peer ∈ h.expected → peer ≠ ski) ∧
      ((h.sightings.map Sighting.ski).Nodup ∧ (∀ s ∈ h.sightings, s.ski ≠ ski) ∧
        h.sightings.length ≤ maxSightings) ∧
      (∀ k ∈ h.known, h.Attended k) ∧ ∀ k ∈ h.redial.known, h.redial.Settled k := by
  intro h
  obtain ⟨hk, hown⟩ := Schedule.kept_run ski maxConnections store ops
  exact ⟨hk.distinct, fun k hmem => hown ▸ hk.notOwn k hmem, fun peer hmem => hown ▸ hk.lookedFor peer hmem,
    ⟨hk.sighted, fun s hmem => hown ▸ hk.sightedNotOwn s hmem, hk.bounded⟩, fun _ => hk.attended,
    hk.redial_settles⟩

end Eebus.Runtime
