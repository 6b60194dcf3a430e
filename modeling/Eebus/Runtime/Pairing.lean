import Eebus.Library.Duration
import Eebus.Runtime.TrustStore

/-!
The hub's end of the SHIP Pairing Service. A control unit is trusted by its certificate, one at a time;
a unit that announces itself takes the place of the one before only when that one has been silent for
long enough. Whether an announcement is authentic, and whether a connection finds a slot, enter as the
inputs of the operations.
-/

namespace Eebus.Runtime

open Eebus.Library Eebus.Ship

/-- How long a control unit has to have been out of reach before another one is considered. -/
def replaceableAfter : Nat := fromSecs (15 * 60)

structure PairingRequest where
  forId : String
  forPar : Fingerprint
  trustId : String
  trustPar : Fingerprint
  trustCurve : String
  trustNonce : String
deriving DecidableEq

inductive PairingError
  | invalidHex
  | missing (field : String)
  | invalidField (field expected : String)
  | unsupported (field value : String)
  | notForThisNode
  | digestMismatch
  | replay
deriving DecidableEq

inductive PairingEvent
  | announced (instance_ : String) (verdict : Except PairingError PairingRequest)
  | withdrawn (instance_ : String)

def PairedUnit.fromRequest (request : PairingRequest) : PairedUnit :=
  ⟨request.trustId, request.trustPar, request.trustCurve, none, none⟩

structure Pairing where
  lastExchange : Option Nat

def Pairing.accepting (pairing : Pairing) (paired : Bool) (now : Nat) : Bool :=
  !paired || pairing.lastExchange.getD 0 + replaceableAfter ≤ now

/-- What a connection of the hub's table is known by, and the certificate its peer presented. -/
structure PairingLink where
  ski : Ski
  fingerprint : Fingerprint
deriving DecidableEq

inductive PairingHubEvent
  | paired (unit : PairedUnit) (displaced : Option PairedUnit)
  | pairingRefused (instance_ : String) (error : PairingError)
deriving DecidableEq

/-- A hub and the trust store of its node. For specifications only: when a message of which certificate
came in or a pairing with it was made, and which certificates were admitted under which SKI. -/
structure PairingHub where
  fingerprint : Fingerprint
  now : Nat
  store : TrustStore
  pairing : Option Pairing
  links : List PairingLink
  pending : List PairingHubEvent
  exchanges : List (Nat × Fingerprint)
  admitted : List (Ski × Fingerprint)

namespace PairingHub

def new (fingerprint : Fingerprint) (store : TrustStore) : PairingHub :=
  ⟨fingerprint, 0, store, none, [], [], [], []⟩

def emit (h : PairingHub) (event : PairingHubEvent) : PairingHub :=
  { h with pending := h.pending ++ [event] }

def acceptPairingRequests (h : PairingHub) : PairingHub := { h with pairing := some ⟨none⟩ }

def refusePairingRequests (h : PairingHub) : PairingHub := { h with pairing := none }

def closeLinksTo (h : PairingHub) (ski : Ski) : PairingHub :=
  { h with links := h.links.filter fun link => link.ski != ski }

def pair (h : PairingHub) (unit : PairedUnit) : PairingHub :=
  -- a unit that pairs again is not displaced by itself
  let displaced := (h.store.trustUnit unit).2.filter fun previous =>
    previous.fingerprint != unit.fingerprint
  let h := { h with
    store := (h.store.trustUnit unit).1
    pairing := some ⟨some h.now⟩
    exchanges := (h.now, unit.fingerprint) :: h.exchanges }
  let h :=
    match displaced.bind PairedUnit.ski with
    | some ski => h.closeLinksTo ski
    | none => h
  h.emit (.paired unit displaced)

def evaluatePairing (h : PairingHub) (event : PairingEvent) : PairingHub :=
  match event with
  | .withdrawn _ => h
  | .announced instance_ verdict =>
    match h.pairing with
    | none => h
    | some pairing =>
      if !pairing.accepting h.store.unit.isSome h.now then h
      else
        match verdict with
        | .error .notForThisNode => h
        | .error error => h.emit (.pairingRefused instance_ error)
        | .ok request =>
          if request.trustPar = h.fingerprint then h else h.pair (.fromRequest request)

def noteUnitExchange (h : PairingHub) (fingerprint : Fingerprint) : PairingHub :=
  let h := { h with exchanges := (h.now, fingerprint) :: h.exchanges }
  if h.pairing.isNone then h
  else if h.store.isCertificateTrusted fingerprint then { h with pairing := some ⟨some h.now⟩ }
  else h

def frame (h : PairingHub) (index : Nat) : PairingHub :=
  match h.links[index]? with
  | none => h
  | some link => h.noteUnitExchange link.fingerprint

def established (h : PairingHub) (link : PairingLink) (slot : Bool) : PairingHub :=
  let h := h.noteUnitExchange link.fingerprint
  if slot then { h with links := h.links ++ [link] } else h

/-- What a handshake is told of its peer: trusted by its SKI, or by its certificate, whose SKI is then
recorded. -/
def trustFor (h : PairingHub) (ski : Ski) (fingerprint : Fingerprint) : PairingHub × Trust :=
  match h.store.get ski with
  | some known => (h, .trusted known.trust)
  | none =>
    if h.store.isCertificateTrusted fingerprint then
      ({ h with
          store := h.store.observeUnitSki fingerprint ski
          admitted := (ski, fingerprint) :: h.admitted },
        .trusted (TrustLevel.commissioned commissioningTrust))
    else (h, .pending)

end PairingHub

inductive PairingOp
  | elapse (span : Nat)
  | acceptPairingRequests
  | refusePairingRequests
  | evaluatePairing (event : PairingEvent)
  | frame (index : Nat)
  | established (link : PairingLink) (slot : Bool)
  | trustFor (ski : Ski) (fingerprint : Fingerprint)
  | drop (index : Nat)

namespace PairingHub

def perform (h : PairingHub) : PairingOp → PairingHub
  | .elapse span => { h with now := h.now + span }
  | .acceptPairingRequests => h.acceptPairingRequests
  | .refusePairingRequests => h.refusePairingRequests
  | .evaluatePairing event => h.evaluatePairing event
  | .frame index => h.frame index
  | .established link slot => h.established link slot
  | .trustFor ski fingerprint => (h.trustFor ski fingerprint).1
  | .drop index => { h with links := h.links.eraseIdx index }

def machine : Machine PairingHub PairingOp Unit where
  step h op := (h.perform op, ())

def pairs (h : PairingHub) : PairingEvent → Option PairedUnit
  | .announced _ (.ok request) =>
    if h.pairing.any (·.accepting h.store.unit.isSome h.now) && request.trustPar != h.fingerprint then
      some (.fromRequest request)
    else none
  | _ => none

/-- The paired unit is replaced by one with another certificate. -/
def Displaces (h : PairingHub) (op : PairingOp) (previous : PairedUnit) : Prop :=
  h.store.unit = some previous ∧
    ∃ unit, (h.perform op).store.unit = some unit ∧ unit.fingerprint ≠ previous.fingerprint

end PairingHub

namespace TrustStore

variable {store : TrustStore}

theorem isCertificateTrusted_iff {fingerprint : Fingerprint} :
    store.isCertificateTrusted fingerprint = true ↔
      ∃ unit, store.unit = some unit ∧ unit.fingerprint = fingerprint := by
  simp [isCertificateTrusted, Option.any_eq_true]

theorem unit_trustUnit (unit : PairedUnit) : (store.trustUnit unit).1.unit = some unit := by
  simp only [trustUnit]
  cases unit.ski <;> cases store.unit.bind PairedUnit.ski <;> rfl

theorem unit_observeUnitSki (fingerprint : Fingerprint) (ski : Ski) :
    (store.observeUnitSki fingerprint ski).unit =
      store.unit.map fun unit =>
        if unit.fingerprint = fingerprint then { unit with ski := some ski } else unit := by
  simp only [observeUnitSki]
  cases hunit : store.unit with
  | none => simpa using hunit
  | some unit =>
    by_cases hmatch : unit.fingerprint = fingerprint
    · simp only [Option.filter_some, hmatch, beq_self_eq_true, if_true, Option.map_some]
      by_cases hknown : unit.ski = some ski
      · obtain ⟨shipId, _, curve, _, pairedAt⟩ := unit
        obtain rfl := hmatch
        obtain rfl := hknown
        simp [hunit]
      · rw [if_neg hknown, ← hmatch]
        cases unit.ski <;> rfl
    · have hnone : (some unit).filter (fun unit => unit.fingerprint == fingerprint) = none := by
        simp [hmatch]
      simp only [hnone, hunit, Option.map_some, if_neg hmatch]

theorem isCertificateTrusted_observeUnitSki (fingerprint other : Fingerprint) (ski : Ski) :
    (store.observeUnitSki fingerprint ski).isCertificateTrusted other =
      store.isCertificateTrusted other := by
  simp only [isCertificateTrusted, unit_observeUnitSki]
  cases store.unit with
  | none => rfl
  | some unit =>
    simp only [Option.map_some, Option.any_some]
    split <;> rfl

end TrustStore

namespace PairingHub

variable {h : PairingHub}

theorem evaluatePairing_pairs (event : PairingEvent) :
    (∃ unit, h.pairs event = some unit ∧ h.evaluatePairing event = h.pair unit) ∨
      ∃ pending, h.evaluatePairing event = { h with pending := pending } := by
  unfold evaluatePairing
  split
  case h_1 => exact .inr ⟨h.pending, rfl⟩
  case h_2 instance_ verdict =>
    split
    case h_1 => exact .inr ⟨h.pending, rfl⟩
    case h_2 pairing hpairing =>
      split
      case isTrue => exact .inr ⟨h.pending, rfl⟩
      case isFalse haccepting =>
        split
        · exact .inr ⟨h.pending, rfl⟩
        · exact .inr ⟨_, rfl⟩
        case h_3 request =>
          split
          case isTrue => exact .inr ⟨h.pending, rfl⟩
          case isFalse hother =>
            refine .inl ⟨.fromRequest request, ?_, rfl⟩
            simp only [Bool.not_eq_true, Bool.not_eq_false'] at haccepting
            simp [pairs, hpairing, haccepting, hother]

theorem pairs_some {event : PairingEvent} {unit : PairedUnit} (hpairs : h.pairs event = some unit) :
    unit.ski = none ∧
      ∃ pairing, h.pairing = some pairing ∧ pairing.accepting h.store.unit.isSome h.now = true := by
  unfold pairs at hpairs
  split at hpairs
  case h_1 =>
    split at hpairs
    case isTrue haccepting =>
      cases hpairs
      rw [Bool.and_eq_true, Option.any_eq_true] at haccepting
      exact ⟨rfl, haccepting.1⟩
    case isFalse => exact absurd hpairs nofun
  case h_2 => exact absurd hpairs nofun

theorem pair_store (unit : PairedUnit) : (h.pair unit).store = (h.store.trustUnit unit).1 := by
  simp only [pair]
  split <;> rfl

theorem pair_pairing (unit : PairedUnit) : (h.pair unit).pairing = some ⟨some h.now⟩ := by
  simp only [pair]
  split <;> rfl

theorem pair_now (unit : PairedUnit) : (h.pair unit).now = h.now := by
  simp only [pair]
  split <;> rfl

theorem pair_exchanges (unit : PairedUnit) :
    (h.pair unit).exchanges = (h.now, unit.fingerprint) :: h.exchanges := by
  simp only [pair]
  split <;> rfl

/-- What is held of the paired unit's exchanges: they are not after the instant noted, or long ago. -/
structure Noted (h : PairingHub) : Prop where
  past : ∀ e ∈ h.exchanges, e.1 ≤ h.now
  noted : ∀ pairing, h.pairing = some pairing → ∀ e ∈ h.exchanges,
    h.store.isCertificateTrusted e.2 = true →
      e.1 ≤ pairing.lastExchange.getD 0 ∨ e.1 + replaceableAfter ≤ h.now

/-- The processing of requests is switched on while the paired unit, if there is one, has been silent
for long enough. -/
def Quiet (h : PairingHub) : PairingOp → Prop
  | .acceptPairingRequests => ∀ e ∈ h.exchanges, h.store.isCertificateTrusted e.2 = true →
      e.1 ≤ h.now - replaceableAfter
  | _ => True

/-- No message of the unit, and no pairing with it, during the last while. -/
def Silent (h : PairingHub) (unit : PairedUnit) : Prop :=
  ∀ e ∈ h.exchanges, e.2 = unit.fingerprint → e.1 + replaceableAfter ≤ h.now

theorem Noted.noteUnitExchange (hn : h.Noted) (fingerprint : Fingerprint) :
    (h.noteUnitExchange fingerprint).Noted := by
  have hpast : ∀ e ∈ (h.now, fingerprint) :: h.exchanges, e.1 ≤ h.now := by
    intro e he
    rcases List.mem_cons.mp he with rfl | he
    · exact le_rfl
    · exact hn.past e he
  simp only [PairingHub.noteUnitExchange]
  split
  case isTrue hoff =>
    refine ⟨hpast, fun pairing hpairing => ?_⟩
    simp [Option.isNone_iff_eq_none.mp hoff] at hpairing
  case isFalse hon =>
    split
    case isTrue =>
      refine ⟨hpast, ?_⟩
      rintro pairing ⟨rfl⟩ e he -
      exact .inl (hpast e he)
    case isFalse hother =>
      refine ⟨hpast, fun pairing hpairing e he htrusted => ?_⟩
      rcases List.mem_cons.mp he with rfl | he
      · exact absurd htrusted hother
      · exact hn.noted pairing hpairing e he htrusted

theorem Noted.pair (hn : h.Noted) (unit : PairedUnit) : (h.pair unit).Noted := by
  have hpast : ∀ e ∈ (h.pair unit).exchanges, e.1 ≤ h.now := by
    intro e he
    rw [pair_exchanges] at he
    rcases List.mem_cons.mp he with rfl | he
    · exact le_rfl
    · exact hn.past e he
  refine ⟨fun e he => (hpast e he).trans (pair_now unit).ge, fun pairing hpairing e he _ => ?_⟩
  rw [pair_pairing] at hpairing
  cases hpairing
  exact .inl (hpast e he)

theorem Noted.perform (hn : h.Noted) {op : PairingOp} (hquiet : h.Quiet op) : (h.perform op).Noted := by
  cases op with
  | elapse span =>
    refine ⟨fun e he => Nat.le_add_right_of_le (hn.past e he), fun pairing hpairing e he htrusted => ?_⟩
    exact (hn.noted pairing hpairing e he htrusted).imp_right Nat.le_add_right_of_le
  | acceptPairingRequests =>
    refine ⟨hn.past, ?_⟩
    rintro pairing ⟨rfl⟩ e he htrusted
    have hle : e.1 ≤ h.now - replaceableAfter := hquiet e he htrusted
    simp only [Option.getD_none, PairingHub.perform, PairingHub.acceptPairingRequests]
    omega
  | refusePairingRequests => exact ⟨hn.past, nofun⟩
  | evaluatePairing event =>
    rcases evaluatePairing_pairs (h := h) event with ⟨unit, -, heq⟩ | ⟨pending, heq⟩
    · rw [PairingHub.perform, heq]
      exact hn.pair unit
    · rw [PairingHub.perform, heq]
      exact ⟨hn.past, hn.noted⟩
  | frame index =>
    simp only [PairingHub.perform, PairingHub.frame]
    split
    · exact hn
    · exact hn.noteUnitExchange _
  | established link slot =>
    have hnoted := hn.noteUnitExchange link.fingerprint
    simp only [PairingHub.perform, PairingHub.established]
    split
    · exact ⟨hnoted.past, hnoted.noted⟩
    · exact hnoted
  | trustFor ski fingerprint =>
    simp only [PairingHub.perform, PairingHub.trustFor]
    split
    · exact hn
    · split
      · refine ⟨hn.past, fun pairing hpairing e he htrusted => ?_⟩
        rw [TrustStore.isCertificateTrusted_observeUnitSki] at htrusted
        exact hn.noted pairing hpairing e he htrusted
      · exact hn
  | drop index => exact ⟨hn.past, hn.noted⟩

theorem noteUnitExchange_store (fingerprint : Fingerprint) :
    (h.noteUnitExchange fingerprint).store = h.store := by
  simp only [noteUnitExchange]
  split
  · rfl
  · split <;> rfl

theorem perform_certificate (op : PairingOp) :
    (∀ fingerprint, (h.perform op).store.isCertificateTrusted fingerprint =
        h.store.isCertificateTrusted fingerprint) ∨
      ∃ event unit, h.pairs event = some unit ∧ h.perform op = h.pair unit := by
  cases op with
  | evaluatePairing event =>
    rcases evaluatePairing_pairs (h := h) event with ⟨unit, hpairs, heq⟩ | ⟨pending, heq⟩
    · exact .inr ⟨event, unit, hpairs, heq⟩
    · exact .inl fun fingerprint => by rw [perform, heq]
  | elapse | acceptPairingRequests | refusePairingRequests | drop => exact .inl fun _ => rfl
  | frame index =>
    refine .inl fun fingerprint => ?_
    simp only [perform, frame]
    split
    · rfl
    · rw [noteUnitExchange_store]
  | established link slot =>
    refine .inl fun fingerprint => ?_
    have hstore : (h.established link slot).store = h.store := by
      simp only [established]
      split <;> exact noteUnitExchange_store _
    rw [perform, hstore]
  | trustFor ski certificate =>
    refine .inl fun fingerprint => ?_
    simp only [perform, trustFor]
    split
    · rfl
    · split
      · exact TrustStore.isCertificateTrusted_observeUnitSki _ _ _
      · rfl

theorem displaces_pairs {op : PairingOp} {previous : PairedUnit} (hd : h.Displaces op previous) :
    ∃ event unit, h.pairs event = some unit ∧ previous.fingerprint ≠ unit.fingerprint ∧
      h.perform op = h.pair unit := by
  obtain ⟨hprevious, unit, hunit, hother⟩ := hd
  rcases perform_certificate (h := h) op with hkept | ⟨event, paired, hpairs, heq⟩
  · have htrusted : (h.perform op).store.isCertificateTrusted previous.fingerprint = true := by
      rw [hkept, TrustStore.isCertificateTrusted_iff]
      exact ⟨previous, hprevious, rfl⟩
    obtain ⟨unit', hunit', hsame⟩ := TrustStore.isCertificateTrusted_iff.mp htrusted
    rw [hunit] at hunit'
    cases hunit'
    exact absurd hsame hother
  · refine ⟨event, paired, hpairs, ?_, heq⟩
    rw [heq, pair_store, TrustStore.unit_trustUnit] at hunit
    cases hunit
    exact hother.symm

theorem Noted.displaces (hn : h.Noted) {op : PairingOp} {previous : PairedUnit}
    (hd : h.Displaces op previous) : h.Silent previous := by
  intro e he hcertificate
  obtain ⟨event, unit, hpairs, -, -⟩ := displaces_pairs hd
  obtain ⟨-, pairing, hpairing, haccepting⟩ := pairs_some hpairs
  have htrusted : h.store.isCertificateTrusted e.2 = true :=
    TrustStore.isCertificateTrusted_iff.mpr ⟨previous, hd.1, hcertificate.symm⟩
  have hnoted := hn.noted pairing hpairing e he htrusted
  simp only [Pairing.accepting, hd.1, Option.isSome_some, Bool.not_true, Bool.false_or,
    decide_eq_true_eq] at haccepting
  omega

theorem new_noted (fingerprint : Fingerprint) (store : TrustStore) : (new fingerprint store).Noted :=
  ⟨nofun, nofun⟩

/-- A unit is displaced only after it has been silent for long enough. -/
def WorkingKept (fingerprint : Fingerprint) (store : TrustStore) (ops : List PairingOp) : Prop :=
  ∀ before op previous, before ++ [op] <+: ops →
    (machine.run (new fingerprint store) before).Displaces op previous →
      (machine.run (new fingerprint store) before).Silent previous

end PairingHub

/-- Where the processing of requests is not switched on shortly after an exchange with the paired unit,
a working pairing is not displaced. -/
theorem working_pairing_kept (fingerprint : Fingerprint) (store : TrustStore) (ops : List PairingOp)
    (hquiet : PairingHub.machine.Admits PairingHub.Quiet (.new fingerprint store) ops) :
    PairingHub.WorkingKept fingerprint store ops := by
  intro before op previous hprefix hdisplaces
  have hbefore := PairingHub.machine.admits_prefix hquiet ((List.prefix_append _ _).trans hprefix)
  have hnoted : (PairingHub.machine.run (.new fingerprint store) before).Noted :=
    PairingHub.machine.run_invariant _ PairingHub.Noted (fun _ _ hn hok => hn.perform hok) before _
      (PairingHub.new_noted fingerprint store) hbefore
  exact hnoted.displaces hdisplaces

/-- The announcement of a unit with a certificate, as it is verified. -/
def authentic (certificate : Fingerprint) : PairingOp :=
  .evaluatePairing (.announced "unit" (.ok ⟨"node", 1, "unit", certificate, "secp256r1", "nonce"⟩))

/-- A unit is paired, is heard of, falls silent, and is replaced. -/
theorem working_pairing_kept_replaced :
    PairingHub.WorkingKept 1 .empty [.acceptPairingRequests, authentic 5, .trustFor 50 5,
      .established ⟨50, 5⟩ true, .frame 0, .elapse replaceableAfter, authentic 6] :=
  working_pairing_kept 1 .empty _
    ⟨(fun _ h => by cases h), trivial, trivial, trivial, trivial, trivial, trivial, trivial⟩

/-- A unit is paired and heard of, the processing of requests is switched on again, and another unit
takes its place in the same instant. -/
theorem working_pairing_displaced :
    ¬ PairingHub.WorkingKept 1 .empty [.acceptPairingRequests, authentic 5, .trustFor 50 5,
      .established ⟨50, 5⟩ true, .elapse replaceableAfter, .frame 0, .acceptPairingRequests,
      authentic 6] := by
  intro h
  have hsilent := h [.acceptPairingRequests, authentic 5, .trustFor 50 5,
    .established ⟨50, 5⟩ true, .elapse replaceableAfter, .frame 0, .acceptPairingRequests]
    (authentic 6) ⟨"unit", 5, "secp256r1", some 50, none⟩ (List.prefix_refl _)
    ⟨by rfl, ⟨"unit", 6, "secp256r1", none, none⟩, by rfl, by decide⟩
  exact absurd (hsilent (replaceableAfter, 5) (by decide +kernel) rfl) (by decide +kernel)

end Eebus.Runtime
