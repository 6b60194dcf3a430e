import Eebus.Runtime.Displacement
import Eebus.Ship.Handshake

/-!
Trust decisions and the handshakes that wait for them. A decision wakes every handshake of the node;
an approval is read off the trust store, a refusal is a token that the first handshake of the peer to
wake takes with it.
-/

namespace Eebus.Ship

def Handshake.awaitsTrust (hs : Handshake) : Bool :=
  match hs.phase, hs.trust with
  | .hello, .pending => !hs.helloLocalReady
  | _, _ => false

def HandshakeEvent.isPinVerified : HandshakeEvent → Bool
  | .peerPinVerified => true
  | _ => false

theorem Handshake.setTrust_rejected {hs : Handshake} (h : hs.awaitsTrust = true) (now : Nat) :
    ∃ hs', hs.setTrust .rejected now = some hs' ∧ hs'.phase = .aborted := by
  unfold awaitsTrust at h
  split at h
  case h_1 hphase htrust =>
    have hready : hs.helloLocalReady = false := by simpa using h
    refine ⟨_, by simp only [setTrust, isOver, hphase, if_true]; rfl, ?_⟩
    simp [announceHello, refuseHello, send, abort, isOver, report, tryFinishHello, hready]
  case h_2 => cases h

end Eebus.Ship

namespace Eebus.Runtime

open Eebus.Library Eebus.Ship

def TrustOp.touches (store : TrustStore) : TrustOp → Bool
  | .observeUnitSki fingerprint ski =>
    store.isCertificateTrusted fingerprint && store.unit.bind PairedUnit.ski != some ski
  | .awardPinTrust ski => store.isTrusted ski
  | _ => true

structure PeerIdentity where
  ski : Ski
  fingerprint : Fingerprint
deriving DecidableEq

/-- One handshake. `seen` is the version of the trust store it has looked at. For specifications only:
`due` when it was waiting as its peer was refused, and has not looked since. -/
structure HandshakeTask where
  peer : PeerIdentity
  handshake : Handshake
  seen : Nat
  running : Bool
  due : Bool

/-- What the handshakes of a node share: the trust store and its version, and the refusals left. -/
structure NodeState where
  store : TrustStore
  version : Nat
  refusals : List Ski
  tasks : List HandshakeTask

/-- What a handshake does of its own accord or its peer's. -/
inductive TaskInput
  | pump
  | message (message : ShipMessage) (now : Nat)
  | timeout (now : Nat)
  | lost

inductive DecisionOp
  | check (peer : PeerIdentity)
  | start (peer : PeerIdentity) (role : Role) (config : HandshakeConfig) (trust : Trust)
  | task (index : Nat) (input : TaskInput)
  | wake (index : Nat) (now : Nat)
  | refusePairing (ski : Ski)
  | store (op : TrustOp)

namespace HandshakeTask

def take (t : HandshakeTask) (outcome : Option Handshake) : HandshakeTask :=
  match outcome with
  | some handshake => { t with handshake := handshake }
  | none => { t with running := false }

def pumped (t : HandshakeTask) : HandshakeTask :=
  { t with
    handshake := { t.handshake with events := [], outbox := [] }
    running := !(t.handshake.events.any HandshakeEvent.isAborted || t.handshake.isReadyForData) }

def step (t : HandshakeTask) : TaskInput → HandshakeTask
  | .pump => t.pumped
  | .message message now => t.take (t.handshake.handleMessage message now)
  | .timeout now => t.take (t.handshake.handleTimeout now)
  | .lost => { t with running := false }

def pinProofs (t : HandshakeTask) : TaskInput → Nat
  | .pump => ((t.handshake.events.takeWhile fun e => !e.isAborted).filter
      HandshakeEvent.isPinVerified).length
  | _ => 0

end HandshakeTask

variable {t t' : HandshakeTask} {index : Nat} {ski : Ski}

namespace NodeState

def empty (store : TrustStore) : NodeState := ⟨store, 0, [], []⟩

def apply (n : NodeState) (op : TrustOp) : NodeState :=
  { n with
    store := n.store.perform op
    version := if op.touches n.store then n.version + 1 else n.version }

def trustFor (n : NodeState) (peer : PeerIdentity) : NodeState × Trust :=
  match n.store.get peer.ski with
  | some known => (n, .trusted known.trust)
  | none =>
    if n.store.isCertificateTrusted peer.fingerprint then
      (n.apply (.observeUnitSki peer.fingerprint peer.ski),
        .trusted (TrustLevel.commissioned commissioningTrust))
    else (n, .pending)

/-- A handshake starts with what it was told of its peer, and looks at the store from now on. -/
def start (n : NodeState) (peer : PeerIdentity) (role : Role) (config : HandshakeConfig)
    (trust : Trust) : NodeState :=
  { n with tasks := n.tasks ++ [⟨peer, .new role config trust 0, n.version, true, false⟩] }

def setTask (n : NodeState) (index : Nat) (t : HandshakeTask) : NodeState :=
  { n with tasks := n.tasks.set index t }

def run (n : NodeState) (index : Nat) (input : TaskInput) : NodeState :=
  match n.tasks[index]? with
  | none => n
  | some t =>
    if !t.running then n
    else
      let n := (List.replicate (t.pinProofs input) (TrustOp.awardPinTrust t.peer.ski)).foldl apply n
      n.setTask index (t.step input)

/-- The decision a handshake finds when it wakes: a refusal left for its peer, which it takes with it,
or an approval. -/
def decision (n : NodeState) (peer : PeerIdentity) : NodeState × Option Trust :=
  if n.refusals.contains peer.ski then
    ({ n with refusals := n.refusals.erase peer.ski }, some .rejected)
  else
    match n.trustFor peer with
    | (n, .trusted level) => (n, some (.trusted level))
    | (n, _) => (n, none)

def wake (n : NodeState) (index : Nat) (now : Nat) : NodeState :=
  match n.tasks[index]? with
  | none => n
  | some t =>
    if !t.running || t.seen = n.version then n
    else
      let t := { t with seen := n.version, due := false }
      match n.decision t.peer with
      | (n, some trust) => n.setTask index (t.take (t.handshake.setTrust trust now))
      | (n, none) => n.setTask index t

def refusePairing (n : NodeState) (ski : Ski) : NodeState :=
  { n with
    refusals := if n.refusals.contains ski then n.refusals else n.refusals ++ [ski]
    version := n.version + 1
    tasks := n.tasks.map fun t =>
      if t.running && t.peer.ski == ski && t.handshake.awaitsTrust then { t with due := true } else t }

def perform (n : NodeState) : DecisionOp → NodeState
  | .check peer => (n.trustFor peer).1
  | .start peer role config trust => n.start peer role config trust
  | .task index input => n.run index input
  | .wake index now => n.wake index now
  | .refusePairing ski => n.refusePairing ski
  | .store op => n.apply op

def machine : Machine NodeState DecisionOp Unit where
  step n op := (n.perform op, ())

/-- The peer is approved neither by its SKI nor by its certificate. -/
def Untrusted (n : NodeState) (peer : PeerIdentity) : Prop :=
  n.store.isTrusted peer.ski = false ∧ n.store.isCertificateTrusted peer.fingerprint = false

/-- The one handshake of a peer that runs, and it waits for a decision. -/
structure Sole (n : NodeState) (ski : Ski) (index : Nat) (t : HandshakeTask) : Prop where
  entry : n.tasks[index]? = some t
  running : t.running = true
  named : t.peer.ski = ski
  awaits : t.handshake.awaitsTrust = true
  untrusted : n.Untrusted t.peer
  only : ∀ j t', n.tasks[j]? = some t' → t'.running = true → t'.peer.ski = ski → j = index

/-- A peer is refused while exactly one handshake of it runs, and that one waits; until the refusal has
been taken, no other handshake of the peer starts, nothing else ends the one that waits, and the peer is
not approved. -/
def Settled (n : NodeState) : DecisionOp → Prop
  | .check peer => peer.ski ∉ n.refusals
  | .start peer _ _ _ => peer.ski ∉ n.refusals
  | .task index input => ∀ t, n.tasks[index]? = some t → t.running = true → t.peer.ski ∈ n.refusals →
      (t.step input).running = true ∧ (t.step input).handshake.awaitsTrust = true
  | .wake _ _ => True
  | .refusePairing ski => ∃ index t, n.Sole ski index t
  | .store op => ∀ t ∈ n.tasks, t.running = true → t.peer.ski ∈ n.refusals → n.Untrusted t.peer →
      (n.apply op).Untrusted t.peer

/-- What is left of refusals is due to one waiting handshake each, which is going to wake. -/
structure Sound (n : NodeState) : Prop where
  nodup : n.refusals.Nodup
  held : ∀ ski ∈ n.refusals, ∃ index t, n.Sole ski index t ∧ t.due = true
  due : ∀ (index : Nat) (t : HandshakeTask), n.tasks[index]? = some t → t.running = true →
    t.due = true → t.peer.ski ∈ n.refusals ∧ t.seen < n.version
  seen : ∀ (index : Nat) (t : HandshakeTask), n.tasks[index]? = some t → t.seen ≤ n.version

variable {n : NodeState}

theorem mem_of_entry (h : n.tasks[index]? = some t) : t ∈ n.tasks :=
  List.mem_of_getElem? h

theorem Sound.store (hs : n.Sound) {store : TrustStore} {version : Nat} (hle : n.version ≤ version)
    (huntrusted : ∀ t ∈ n.tasks, t.running = true → t.peer.ski ∈ n.refusals → n.Untrusted t.peer →
      store.isTrusted t.peer.ski = false ∧ store.isCertificateTrusted t.peer.fingerprint = false) :
    ({ n with store := store, version := version } : NodeState).Sound where
  nodup := hs.nodup
  held ski hski := by
    obtain ⟨index, t, hsole, hdue⟩ := hs.held ski hski
    refine ⟨index, t, { hsole with untrusted := ?_ }, hdue⟩
    exact huntrusted t (mem_of_entry hsole.entry) hsole.running (hsole.named ▸ hski) hsole.untrusted
  due index t hentry hrunning hdue :=
    (hs.due index t hentry hrunning hdue).imp_right fun hlt => hlt.trans_le hle
  seen index t hentry := (hs.seen index t hentry).trans hle

theorem apply_version (op : TrustOp) : n.version ≤ (n.apply op).version := by
  simp only [apply]
  split
  · exact Nat.le_succ _
  · exact le_rfl

theorem Sound.apply (hs : n.Sound) {op : TrustOp} (hsettled : n.Settled (.store op)) :
    (n.apply op).Sound :=
  hs.store (apply_version op) hsettled

theorem isTrusted_observe {store : TrustStore} {fingerprint : Fingerprint} {other : Ski}
    (hother : other ≠ ski) (h : store.isTrusted other = false) :
    (store.observeUnitSki fingerprint ski).isTrusted other = false := by
  cases hcertificate : store.isCertificateTrusted fingerprint with
  | false => rwa [TrustStore.observeUnitSki_other hcertificate]
  | true =>
    obtain ⟨unit, hunit, rfl⟩ := TrustStore.isCertificateTrusted_iff.mp hcertificate
    rw [← Bool.not_eq_true]
    intro htrusted
    rcases TrustStore.isTrusted_observeUnitSki hunit htrusted with hsame | ⟨hold, -⟩
    · exact hother hsame
    · simp [h] at hold

theorem Sound.trustFor (hs : n.Sound) {peer : PeerIdentity} (hpeer : peer.ski ∉ n.refusals) :
    (n.trustFor peer).1.Sound := by
  simp only [NodeState.trustFor]
  split
  · exact hs
  · split
    case isTrue =>
      refine hs.apply fun t _ _ hski huntrusted => ⟨?_, ?_⟩
      · exact isTrusted_observe (fun heq => hpeer (heq ▸ hski)) huntrusted.1
      · simp only [NodeState.apply, TrustStore.perform, TrustStore.isCertificateTrusted_observeUnitSki]
        exact huntrusted.2
    case isFalse => exact hs

theorem Sound.award (hs : n.Sound) (ski : Ski) : (n.apply (.awardPinTrust ski)).Sound := by
  refine hs.apply fun t _ _ _ huntrusted => ⟨?_, ?_⟩
  · simp only [NodeState.apply, TrustStore.perform, TrustStore.isTrusted_awardPinTrust]
    exact huntrusted.1
  · have hunit : (n.store.awardPinTrust ski).1.unit = n.store.unit := by
      simp only [TrustStore.awardPinTrust]
      split <;> rfl
    simp only [NodeState.apply, TrustStore.perform, TrustStore.isCertificateTrusted, hunit]
    exact huntrusted.2

theorem foldl_award_tasks (ops : List TrustOp) : (ops.foldl apply n).tasks = n.tasks ∧
    (ops.foldl apply n).refusals = n.refusals := by
  induction ops generalizing n with
  | nil => exact ⟨rfl, rfl⟩
  | cons op ops ih => exact ih

theorem Sound.awards (hs : n.Sound) (count : Nat) (ski : Ski) :
    ((List.replicate count (TrustOp.awardPinTrust ski)).foldl NodeState.apply n).Sound := by
  induction count generalizing n with
  | zero => exact hs
  | succ count ih => exact ih (hs.award ski)

theorem setTask_self (hentry : n.tasks[index]? = some t) :
    (n.setTask index t').tasks[index]? = some t' := by
  obtain ⟨hlt, -⟩ := List.getElem?_eq_some_iff.mp hentry
  simp [setTask, hlt]

theorem setTask_other {j : Nat} (t' : HandshakeTask) (hj : j ≠ index) :
    (n.setTask index t').tasks[j]? = n.tasks[j]? := by
  simp [setTask, hj.symm]

theorem setTask_entry {j : Nat} {u : HandshakeTask}
    (h : (n.setTask index t').tasks[j]? = some u) :
    j = index ∧ u = t' ∨ j ≠ index ∧ n.tasks[j]? = some u := by
  by_cases hj : j = index
  · subst hj
    simp only [setTask, List.getElem?_set, if_true] at h
    split at h
    · exact .inl ⟨rfl, (Option.some.inj h).symm⟩
    · exact absurd h nofun
  · rw [setTask_other t' hj] at h
    exact .inr ⟨hj, h⟩

theorem Sole.setTask_other {index₀ : Nat} {t₀ : HandshakeTask}
    (hsole : n.Sole ski index₀ t₀) (hentry : n.tasks[index]? = some t) (hpeer : t'.peer = t.peer)
    (hrunning : t.running = true) (hne : index₀ ≠ index) : (n.setTask index t').Sole ski index₀ t₀ where
  entry := by rw [NodeState.setTask_other t' hne, hsole.entry]
  running := hsole.running
  named := hsole.named
  awaits := hsole.awaits
  untrusted := hsole.untrusted
  only j u hu hurunning hski := by
    rcases setTask_entry hu with ⟨-, rfl⟩ | ⟨-, hold⟩
    · exact absurd (hsole.only index t hentry hrunning (hpeer ▸ hski)).symm hne
    · exact hsole.only j u hold hurunning hski

theorem Sole.setTask_self (hsole : n.Sole ski index t)
    (hpeer : t'.peer = t.peer) (hrunning : t'.running = true)
    (hawaits : t'.handshake.awaitsTrust = true) : (n.setTask index t').Sole ski index t' where
  entry := NodeState.setTask_self hsole.entry
  running := hrunning
  named := hpeer ▸ hsole.named
  awaits := hawaits
  untrusted := hpeer ▸ hsole.untrusted
  only j u hu hurunning hski := by
    rcases setTask_entry hu with ⟨rfl, -⟩ | ⟨-, hold⟩
    · rfl
    · exact hsole.only j u hold hurunning hski

theorem Sound.setTask (hs : n.Sound)
    (hentry : n.tasks[index]? = some t) (hpeer : t'.peer = t.peer) (hrunning : t.running = true)
    (hkept : t.peer.ski ∈ n.refusals → t'.running = true ∧ t'.handshake.awaitsTrust = true ∧
      (t.due = true → t'.due = true))
    (hdue : t'.due = true → t.due = true ∧ t'.seen = t.seen) (hseen : t'.seen ≤ n.version) :
    (n.setTask index t').Sound where
  nodup := hs.nodup
  held ski hski := by
    obtain ⟨index₀, t₀, hsole, hdue₀⟩ := hs.held ski hski
    by_cases hsame : index₀ = index
    · subst hsame
      obtain rfl : t₀ = t := Option.some.inj (hsole.entry.symm.trans hentry)
      obtain ⟨hruns, hawaits, hstill⟩ := hkept (hsole.named ▸ hski)
      exact ⟨index₀, t', hsole.setTask_self hpeer hruns hawaits, hstill hdue₀⟩
    · exact ⟨index₀, t₀, hsole.setTask_other hentry hpeer hrunning hsame, hdue₀⟩
  due j u hu hurunning hudue := by
    rcases setTask_entry hu with ⟨-, rfl⟩ | ⟨-, hold⟩
    · obtain ⟨hbefore, hsame⟩ := hdue hudue
      rw [hpeer, hsame]
      exact hs.due index t hentry hrunning hbefore
    · exact hs.due j u hold hurunning hudue
  seen j u hu := by
    rcases setTask_entry hu with ⟨-, rfl⟩ | ⟨-, hold⟩
    · exact hseen
    · exact hs.seen j u hold

theorem take_same (t : HandshakeTask) (outcome : Option Handshake) :
    (t.take outcome).peer = t.peer ∧ (t.take outcome).due = t.due ∧ (t.take outcome).seen = t.seen := by
  cases outcome <;> exact ⟨rfl, rfl, rfl⟩

theorem step_same (t : HandshakeTask) (input : TaskInput) :
    (t.step input).peer = t.peer ∧ (t.step input).due = t.due ∧ (t.step input).seen = t.seen := by
  cases input with
  | pump | lost => exact ⟨rfl, rfl, rfl⟩
  | message | timeout => exact take_same t _

theorem Sound.run (hs : n.Sound) {input : TaskInput}
    (hsettled : n.Settled (.task index input)) : (n.run index input).Sound := by
  simp only [NodeState.run]
  split
  case h_1 => exact hs
  case h_2 t hentry =>
    split
    case isTrue => exact hs
    case isFalse hrunning =>
      have hruns : t.running = true := by simpa using hrunning
      have hawarded := hs.awards (t.pinProofs input) t.peer.ski
      obtain ⟨htasks, hrefusals⟩ := foldl_award_tasks (n := n)
        (List.replicate (t.pinProofs input) (TrustOp.awardPinTrust t.peer.ski))
      obtain ⟨hpeer, hdue, hseen⟩ := step_same t input
      refine hawarded.setTask (htasks ▸ hentry) hpeer hruns (fun hski => ?_) (fun hd => ?_) ?_
      · obtain ⟨hstill, hawaits⟩ := hsettled t hentry hruns (hrefusals ▸ hski)
        exact ⟨hstill, hawaits, fun hd => hdue ▸ hd⟩
      · exact ⟨hdue ▸ hd, hseen⟩
      · rw [hseen]
        exact hawarded.seen index t (htasks ▸ hentry)

theorem Sound.start (hs : n.Sound) {peer : PeerIdentity} (role : Role) (config : HandshakeConfig)
    (trust : Trust) (hpeer : peer.ski ∉ n.refusals) : (n.start peer role config trust).Sound := by
  have hget : ∀ (j : Nat) (u : HandshakeTask), (n.start peer role config trust).tasks[j]? = some u →
      n.tasks[j]? = some u ∨ u.peer = peer ∧ u.due = false ∧ u.seen = n.version := by
    intro j u hu
    rcases Nat.lt_or_ge j n.tasks.length with hlt | hge
    · exact .inl (by simpa [NodeState.start, List.getElem?_append_left hlt] using hu)
    · simp only [NodeState.start, List.getElem?_append_right hge, List.getElem?_singleton] at hu
      split at hu
      · cases hu
        exact .inr ⟨rfl, rfl, rfl⟩
      · exact absurd hu nofun
  refine ⟨hs.nodup, fun ski hski => ?_, fun j u hu hrunning hdue => ?_, fun j u hu => ?_⟩
  · obtain ⟨index, t, hsole, hdue⟩ := hs.held ski hski
    refine ⟨index, t, { hsole with entry := ?_, only := fun j u hu hrunning hnamed => ?_ }, hdue⟩
    · obtain ⟨hlt, -⟩ := List.getElem?_eq_some_iff.mp hsole.entry
      simpa [NodeState.start, List.getElem?_append_left hlt] using hsole.entry
    · rcases hget j u hu with hold | ⟨rfl, -, -⟩
      · exact hsole.only j u hold hrunning hnamed
      · exact absurd (hnamed ▸ hski) hpeer
  · rcases hget j u hu with hold | ⟨-, hnew, -⟩
    · exact hs.due j u hold hrunning hdue
    · simp [hnew] at hdue
  · rcases hget j u hu with hold | ⟨-, -, hnew⟩
    · exact hs.seen j u hold
    · exact hnew.le

theorem refusePairing_entry {j : Nat} {u : HandshakeTask}
    (h : (n.refusePairing ski).tasks[j]? = some u) :
    ∃ t, n.tasks[j]? = some t ∧ u.peer = t.peer ∧ u.running = t.running ∧ u.handshake = t.handshake ∧
      u.seen = t.seen ∧ (u.due = true → t.due = true ∨ t.peer.ski = ski) := by
  simp only [refusePairing, List.getElem?_map, Option.map_eq_some_iff] at h
  obtain ⟨t, hentry, rfl⟩ := h
  refine ⟨t, hentry, ?_⟩
  split
  case isTrue hmarked =>
    simp only [Bool.and_eq_true, beq_iff_eq] at hmarked
    exact ⟨rfl, rfl, rfl, rfl, fun _ => .inr hmarked.1.2⟩
  case isFalse => exact ⟨rfl, rfl, rfl, rfl, .inl⟩

theorem mem_refusePairing {other : Ski} :
    other ∈ (n.refusePairing ski).refusals ↔ other = ski ∨ other ∈ n.refusals := by
  simp only [refusePairing]
  split
  case isTrue hheld =>
    have hmem : ski ∈ n.refusals := by simpa using hheld
    exact ⟨.inr, fun h => h.elim (fun heq => heq ▸ hmem) id⟩
  case isFalse => simp [or_comm]

theorem Sole.refusePairing {refused : Ski} {u : HandshakeTask}
    (hsole : n.Sole ski index t) (hentry : (n.refusePairing refused).tasks[index]? = some u)
    (hpeer : u.peer = t.peer) (hrunning : u.running = t.running) (hhandshake : u.handshake = t.handshake) :
    (n.refusePairing refused).Sole ski index u where
  entry := hentry
  running := hrunning ▸ hsole.running
  named := hpeer ▸ hsole.named
  awaits := hhandshake ▸ hsole.awaits
  untrusted := hpeer ▸ hsole.untrusted
  only j v hv hvrunning hvnamed := by
    obtain ⟨t', ht', hpeer', hrunning', -⟩ := refusePairing_entry hv
    exact hsole.only j t' ht' (hrunning' ▸ hvrunning) (hpeer' ▸ hvnamed)

theorem Sound.refusePairing (hs : n.Sound)
    (hsole : n.Sole ski index t) : (n.refusePairing ski).Sound := by
  have hmarked : (n.refusePairing ski).tasks[index]? = some { t with due := true } := by
    simp [NodeState.refusePairing, hsole.entry, hsole.running, hsole.named, hsole.awaits]
  refine ⟨?_, fun other hother => ?_, fun j u hu hrunning hdue => ?_, fun j u hu => ?_⟩
  · simp only [NodeState.refusePairing]
    split
    case isTrue => exact hs.nodup
    case isFalse hnew =>
      exact hs.nodup.append (List.nodup_singleton ski) (by simpa using hnew)
  · by_cases hsame : other = ski
    · subst hsame
      exact ⟨index, _, hsole.refusePairing hmarked rfl rfl rfl, rfl⟩
    · obtain ⟨index₀, t₀, hsole₀, hdue₀⟩ := hs.held other ((mem_refusePairing.mp hother).resolve_left hsame)
      have hkept : (n.refusePairing ski).tasks[index₀]? = some t₀ := by
        have hne : ¬ t₀.peer.ski = ski := fun heq => hsame (hsole₀.named.symm.trans heq)
        simp [NodeState.refusePairing, hsole₀.entry, hne]
      exact ⟨index₀, t₀, hsole₀.refusePairing hkept rfl rfl rfl, hdue₀⟩
  · obtain ⟨t', ht', hpeer, hruns, -, hseen, hold⟩ := refusePairing_entry hu
    rw [mem_refusePairing, hpeer, hseen]
    rcases hold hdue with hbefore | hnamed
    · obtain ⟨hmem, hlt⟩ := hs.due j t' ht' (hruns ▸ hrunning) hbefore
      exact ⟨.inr hmem, Nat.lt_succ_of_lt hlt⟩
    · exact ⟨.inl hnamed, Nat.lt_succ_of_le (hs.seen j t' ht')⟩
  · obtain ⟨t', ht', -, -, -, hseen, -⟩ := refusePairing_entry hu
    rw [hseen]
    exact Nat.le_succ_of_le (hs.seen j t' ht')

theorem Sound.sole (hs : n.Sound) (hentry : n.tasks[index]? = some t)
    (hrunning : t.running = true) (hrefused : t.peer.ski ∈ n.refusals) :
    n.Sole t.peer.ski index t ∧ t.due = true := by
  obtain ⟨index₀, t₀, hsole, hdue⟩ := hs.held t.peer.ski hrefused
  obtain rfl := hsole.only index t hentry hrunning rfl
  obtain rfl : t₀ = t := Option.some.inj (hsole.entry.symm.trans hentry)
  exact ⟨hsole, hdue⟩

theorem Sound.takeRefusal (hs : n.Sound)
    (hentry : n.tasks[index]? = some t) (hrunning : t.running = true)
    (hrefused : t.peer.ski ∈ n.refusals) (hpeer : t'.peer = t.peer) (hdue : t'.due = false)
    (hseen : t'.seen ≤ n.version) :
    (({ n with refusals := n.refusals.erase t.peer.ski } : NodeState).setTask index t').Sound where
  nodup := hs.nodup.erase _
  held ski hski := by
    obtain ⟨hne, hmem⟩ := (hs.nodup.mem_erase_iff).mp hski
    obtain ⟨index₀, t₀, hsole, hdue₀⟩ := hs.held ski hmem
    have hother : index₀ ≠ index := by
      rintro rfl
      obtain rfl : t₀ = t := Option.some.inj (hsole.entry.symm.trans hentry)
      exact hne hsole.named.symm
    have hkept := hsole.setTask_other hentry hpeer hrunning hother
    exact ⟨index₀, t₀, ⟨hkept.entry, hkept.running, hkept.named, hkept.awaits, hkept.untrusted,
      hkept.only⟩, hdue₀⟩
  due j u hu hurunning hudue := by
    rcases setTask_entry hu with ⟨-, rfl⟩ | ⟨hj, hold⟩
    · simp [hdue] at hudue
    · obtain ⟨hmem, hlt⟩ := hs.due j u hold hurunning hudue
      refine ⟨(hs.nodup.mem_erase_iff).mpr ⟨fun heq => hj ?_, hmem⟩, hlt⟩
      exact (hs.sole hentry hrunning hrefused).1.only j u hold hurunning heq
  seen j u hu := by
    rcases setTask_entry hu with ⟨-, rfl⟩ | ⟨-, hold⟩
    · exact hseen
    · exact hs.seen j u hold

theorem trustFor_same (peer : PeerIdentity) : (n.trustFor peer).1.tasks = n.tasks ∧
    (n.trustFor peer).1.refusals = n.refusals ∧ n.version ≤ (n.trustFor peer).1.version := by
  simp only [trustFor]
  split
  · exact ⟨rfl, rfl, le_rfl⟩
  · split
    · exact ⟨rfl, rfl, apply_version _⟩
    · exact ⟨rfl, rfl, le_rfl⟩

theorem decision_refused {peer : PeerIdentity} (h : peer.ski ∈ n.refusals) :
    n.decision peer = ({ n with refusals := n.refusals.erase peer.ski }, some .rejected) := by
  simp [decision, h]

theorem decision_unrefused {peer : PeerIdentity} (h : peer.ski ∉ n.refusals) :
    (n.decision peer).1 = (n.trustFor peer).1 ∧ (n.decision peer).2 ≠ some .rejected := by
  simp only [decision, List.contains_iff_mem, h, if_false]
  split <;> simp_all

theorem wake_entry (now : Nat) (hentry : n.tasks[index]? = some t)
    (hrunning : t.running = true) (hchanged : t.seen ≠ n.version) :
    ∃ t', n.wake index now = (n.decision t.peer).1.setTask index t' ∧ t'.peer = t.peer ∧
      t'.due = false ∧ t'.seen = n.version ∧
      ∀ trust, (n.decision t.peer).2 = some trust →
        t' = { t with seen := n.version, due := false }.take (t.handshake.setTrust trust now) := by
  have hgo : ¬ (!t.running || decide (t.seen = n.version)) = true := by simp [hrunning, hchanged]
  simp only [wake, hentry]
  rw [if_neg hgo]
  rcases n.decision t.peer with ⟨n', _ | trust⟩
  · exact ⟨{ t with seen := n.version, due := false }, rfl, rfl, rfl, rfl, nofun⟩
  · obtain ⟨hpeer, hdue, hseen⟩ := take_same { t with seen := n.version, due := false }
      (t.handshake.setTrust trust now)
    refine ⟨_, rfl, hpeer, hdue, hseen, ?_⟩
    rintro _ ⟨rfl⟩
    rfl

theorem Sound.wake (hs : n.Sound) (index now : Nat) : (n.wake index now).Sound := by
  cases hentry : n.tasks[index]? with
  | none => simpa [NodeState.wake, hentry] using hs
  | some t =>
    by_cases hwakes : t.running = true ∧ t.seen ≠ n.version
    · obtain ⟨hrunning, hchanged⟩ := hwakes
      obtain ⟨t', heq, hpeer, hdue, hseen, -⟩ := wake_entry now hentry hrunning hchanged
      rw [heq]
      by_cases hrefused : t.peer.ski ∈ n.refusals
      · rw [decision_refused hrefused]
        exact hs.takeRefusal hentry hrunning hrefused hpeer hdue hseen.le
      · obtain ⟨hsame, -⟩ := decision_unrefused hrefused
        obtain ⟨htasks, hrefusals, hversion⟩ := n.trustFor_same t.peer
        rw [hsame]
        refine (hs.trustFor hrefused).setTask (htasks ▸ hentry) hpeer hrunning (fun hmem => ?_)
          (fun hd => ?_) (hseen.trans_le hversion)
        · exact absurd (hrefusals ▸ hmem) hrefused
        · simp [hdue] at hd
    · have hkept : n.wake index now = n := by
        simp only [NodeState.wake, hentry]
        refine if_pos ?_
        simpa [Bool.or_eq_true, imp_iff_not_or] using hwakes
      rwa [hkept]

theorem Sound.perform (hs : n.Sound) {op : DecisionOp} (hsettled : n.Settled op) :
    (n.perform op).Sound := by
  cases op with
  | check peer => exact hs.trustFor hsettled
  | start peer role config trust => exact hs.start role config trust hsettled
  | task index input => exact hs.run hsettled
  | wake index now => exact hs.wake index now
  | refusePairing ski =>
    obtain ⟨index, t, hsole⟩ := hsettled
    exact hs.refusePairing hsole
  | store op => exact hs.apply hsettled

/-- A handshake that wakes is refused if it is due, which ends it; if it is refused it is due, and its
peer is not approved. -/
def RightlyDecided (n : NodeState) (index now : Nat) : Prop :=
  ∀ t, n.tasks[index]? = some t → t.running = true → t.seen ≠ n.version →
    (t.due = true → (n.decision t.peer).2 = some .rejected ∧
      ∃ t', (n.wake index now).tasks[index]? = some t' ∧ t'.handshake.phase = .aborted) ∧
    ((n.decision t.peer).2 = some .rejected → t.due = true ∧ n.Untrusted t.peer)

/-- A handshake that is due is going to wake. -/
def Woken (n : NodeState) : Prop := ∀ t ∈ n.tasks, t.running = true → t.due = true → t.seen ≠ n.version

theorem Sound.woken (hs : n.Sound) : n.Woken := by
  intro t ht hrunning hdue
  obtain ⟨index, hlt, heq⟩ := List.getElem_of_mem ht
  have hentry : n.tasks[index]? = some t := List.getElem?_eq_some_iff.mpr ⟨hlt, heq⟩
  exact (hs.due index t hentry hrunning hdue).2.ne

theorem Sound.rightlyDecided (hs : n.Sound) (index now : Nat) : n.RightlyDecided index now := by
  intro t hentry hrunning hchanged
  constructor
  · intro hdue
    obtain ⟨hrefused, -⟩ := hs.due index t hentry hrunning hdue
    obtain ⟨t', heq, -, -, -, htake⟩ := wake_entry now hentry hrunning hchanged
    have hdecide := decision_refused hrefused
    obtain ⟨hs', hset, hphase⟩ := Handshake.setTrust_rejected (hs.sole hentry hrunning hrefused).1.awaits now
    refine ⟨by rw [hdecide], t', ?_, ?_⟩
    · rw [heq, hdecide]
      exact setTask_self hentry
    · rw [htake .rejected (by rw [hdecide]), hset]
      exact hphase
  · intro hrejected
    have hrefused : t.peer.ski ∈ n.refusals := by
      by_contra hnot
      exact (decision_unrefused hnot).2 hrejected
    obtain ⟨hsole, hdue⟩ := hs.sole hentry hrunning hrefused
    exact ⟨hdue, hsole.untrusted⟩

theorem empty_sound (store : TrustStore) : (empty store).Sound where
  nodup := List.nodup_nil
  held := nofun
  due index t hentry := by simp [empty] at hentry
  seen index t hentry := by simp [empty] at hentry

/-- In every state reached, refusals decide the handshakes that were waiting for them, and no others. -/
def RefusedRightly (store : TrustStore) (ops : List DecisionOp) : Prop :=
  ∀ before, before <+: ops → (machine.run (empty store) before).Woken ∧
    ∀ index now, (machine.run (empty store) before).RightlyDecided index now

end NodeState

/-- Where a peer is refused while exactly one handshake of it runs, which waits and takes the refusal
before anything else happens to the peer, a refusal decides exactly the handshake that is waiting. -/
theorem refusal_decides_waiting (store : TrustStore) (ops : List DecisionOp)
    (hsettled : NodeState.machine.Admits NodeState.Settled (.empty store) ops) :
    NodeState.RefusedRightly store ops := by
  intro before hprefix
  have hbefore := NodeState.machine.admits_prefix hsettled hprefix
  have hs : (NodeState.machine.run (.empty store) before).Sound :=
    NodeState.machine.run_invariant _ NodeState.Sound (fun _ _ hs hok => hs.perform hok) before _
      (NodeState.empty_sound store) hbefore
  exact ⟨hs.woken, fun index now => hs.rightlyDecided index now⟩

/-- A handshake waits, is refused, and ends. -/
theorem refusal_decides_waiting_one :
    NodeState.RefusedRightly .empty [.check ⟨1, 1⟩, .start ⟨1, 1⟩ .server {} .pending,
      .task 0 (.message .cmi 0), .task 0 .pump, .refusePairing 1, .wake 0 0] := by
  refine refusal_decides_waiting .empty _
    ⟨(fun h => by cases h), (fun h => by cases h), ?_, ?_, ?_, trivial, trivial⟩
  · exact fun _ _ _ h => by cases h
  · exact fun _ _ _ h => by cases h
  · refine ⟨0, _, rfl, by rfl, by rfl, by rfl, ⟨by rfl, by rfl⟩, fun j t' ht' _ _ => ?_⟩
    have hlt := (List.getElem?_eq_some_iff.mp ht').choose
    exact Nat.lt_one_iff.mp hlt

/-- Two handshakes of a peer wait as it is refused: the second goes on waiting. -/
theorem refusal_overlooks_second :
    ¬ NodeState.RefusedRightly .empty [.check ⟨1, 1⟩, .start ⟨1, 1⟩ .server {} .pending,
      .check ⟨1, 1⟩, .start ⟨1, 1⟩ .server {} .pending, .task 0 (.message .cmi 0),
      .task 1 (.message .cmi 0), .refusePairing 1, .wake 0 0] := by
  intro h
  obtain ⟨hdue, -⟩ := (h _ (List.prefix_refl _)).2 1 0 _ rfl (by rfl) (by decide)
  cases (hdue (by rfl)).1

end Eebus.Runtime
