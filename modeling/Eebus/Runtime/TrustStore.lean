import Eebus.Library.Machine
import Eebus.Ship.Keys
import Mathlib.Data.List.Nodup

/-! The peers a node is willing to exchange data with. -/

namespace Eebus.Runtime

open Eebus.Library Eebus.Ship

abbrev Fingerprint := Fin (2 ^ 256)

instance fingerprint_neZero : NeZero (2 ^ 256) := ⟨(Nat.two_pow_pos 256).ne'⟩

structure TrustedPeer where
  ski : Ski
  name : Option String
  shipId : Option String
  trustedAt : Option String
  fingerprint : Option Fingerprint
  trust : TrustLevel
deriving DecidableEq

def TrustedPeer.new (ski : Ski) : TrustedPeer :=
  ⟨ski, none, none, none, none, .userVerified⟩

structure PairedUnit where
  shipId : String
  fingerprint : Fingerprint
  curve : String
  ski : Option Ski
  pairedAt : Option String
deriving DecidableEq

def PairedUnit.record (unit : PairedUnit) (ski : Ski) : TrustedPeer :=
  { TrustedPeer.new ski with shipId := some unit.shipId, fingerprint := some unit.fingerprint }

structure TrustStore where
  peers : List TrustedPeer
  unit : Option PairedUnit

namespace TrustStore

def empty : TrustStore := ⟨[], none⟩

def get (store : TrustStore) (ski : Ski) : Option TrustedPeer :=
  store.peers.find? fun peer => peer.ski == ski

def isTrusted (store : TrustStore) (ski : Ski) : Bool := (store.get ski).isSome

def remember (store : TrustStore) (peer : TrustedPeer) : TrustStore :=
  { store with peers := peer :: store.peers.filter fun other => other.ski != peer.ski }

def trust (store : TrustStore) (ski : Ski) : TrustStore := store.remember (TrustedPeer.new ski)

def forget (store : TrustStore) (ski : Ski) : TrustStore where
  peers := store.peers.filter fun other => other.ski != ski
  unit := if store.unit.bind PairedUnit.ski = some ski then none else store.unit

def remove (store : TrustStore) (ski : Ski) : TrustStore :=
  { store with peers := store.peers.filter fun other => other.ski != ski }

/-- Trusts a control unit's certificate in the place of the unit trusted before, which is displaced
together with the SKI it was reached under. -/
def trustUnit (store : TrustStore) (unit : PairedUnit) : TrustStore × Option PairedUnit :=
  let previous := store.unit
  let store := { store with unit := some unit }
  let store :=
    match previous.bind PairedUnit.ski with
    | some ski => store.remove ski
    | none => store
  -- a unit restored from disk already knows the SKI it presents
  let store :=
    match unit.ski with
    | some ski => store.remember (unit.record ski)
    | none => store
  (store, previous)

def forgetUnit (store : TrustStore) : TrustStore × Option PairedUnit :=
  let unit := store.unit
  let store := { store with unit := none }
  let store :=
    match unit.bind PairedUnit.ski with
    | some ski => store.remove ski
    | none => store
  (store, unit)

def isCertificateTrusted (store : TrustStore) (fingerprint : Fingerprint) : Bool :=
  store.unit.any fun unit => unit.fingerprint == fingerprint

def observeUnitSki (store : TrustStore) (fingerprint : Fingerprint) (ski : Ski) : TrustStore :=
  match store.unit.filter fun unit => unit.fingerprint == fingerprint with
  | none => store
  | some unit =>
    if unit.ski = some ski then store
    else
      let store := { store with unit := some { unit with ski := some ski } }
      let store :=
        match unit.ski with
        | some previous => store.remove previous
        | none => store
      store.remember (unit.record ski)

def forgetAll (store : TrustStore) : TrustStore × Nat :=
  (empty, store.peers.length + if store.unit.isSome then 1 else 0)

def firstAwarded (store : TrustStore) : Bool :=
  store.peers.any fun peer => secondFactorPinFirst ≤ peer.trust.secondFactor

/-- Awards a peer the second factor for proving that it holds this node's PIN. A peer that is not in
the store gains nothing. -/
def awardPinTrust (store : TrustStore) (ski : Ski) : TrustStore × Option TrustLevel :=
  let awarded := if store.firstAwarded then secondFactorPinLater else secondFactorPinFirst
  match store.get ski with
  | none => (store, none)
  | some peer =>
    let level := peer.trust.merged { TrustLevel.untrusted with secondFactor := awarded }
    (store.remember { peer with trust := level }, some level)

theorem get_remember (store : TrustStore) (peer : TrustedPeer) (ski : Ski) :
    (store.remember peer).get ski = if ski = peer.ski then some peer else store.get ski := by
  by_cases h : ski = peer.ski
  · subst h
    simp [remember, get]
  · have hne : peer.ski ≠ ski := fun heq => h heq.symm
    rw [if_neg h]
    simp only [remember, get, List.find?_cons, beq_eq_false_iff_ne.mpr hne, List.find?_filter]
    congr 1
    funext other
    by_cases hp : other.ski = ski
    · simp [hp, h]
    · simp [hp]

theorem get_trust (store : TrustStore) (new ski : Ski) :
    (store.trust new).get ski = if ski = new then some (TrustedPeer.new ski) else store.get ski := by
  rw [trust, get_remember]
  by_cases h : ski = new
  · subst h
    simp [TrustedPeer.new]
  · simp [TrustedPeer.new, h]

theorem get_forget (store : TrustStore) (gone ski : Ski) :
    (store.forget gone).get ski = if ski = gone then none else store.get ski := by
  by_cases h : ski = gone
  · subst h
    simp [forget, get, List.find?_filter]
  · rw [if_neg h]
    simp only [forget, get, List.find?_filter]
    congr 1
    funext peer
    by_cases hp : peer.ski = ski
    · simp [hp, h]
    · simp [hp]

theorem get_foldl_trust (trusts : List Ski) (store : TrustStore) (ski : Ski) :
    (trusts.foldl trust store).get ski =
      if ski ∈ trusts then some (TrustedPeer.new ski) else store.get ski := by
  induction trusts generalizing store with
  | nil => simp
  | cons new rest ih =>
    rw [List.foldl_cons, ih, get_trust]
    by_cases hrest : ski ∈ rest
    · simp [hrest]
    · simp [hrest]

theorem get_foldl_forget (gone : List Ski) (store : TrustStore) (ski : Ski) :
    (gone.foldl forget store).get ski = if ski ∈ gone then none else store.get ski := by
  induction gone generalizing store with
  | nil => simp
  | cons first rest ih =>
    rw [List.foldl_cons, ih, get_forget]
    by_cases hrest : ski ∈ rest
    · simp [hrest]
    · simp [hrest]

end TrustStore

/-- One call on a trust store. -/
inductive TrustOp
  | trust (ski : Ski)
  | remember (peer : TrustedPeer)
  | trustUnit (unit : PairedUnit)
  | observeUnitSki (fingerprint : Fingerprint) (ski : Ski)
  | awardPinTrust (ski : Ski)
  | forget (ski : Ski)
  | forgetUnit
  | forgetAll
deriving DecidableEq

namespace TrustStore

def perform (store : TrustStore) : TrustOp → TrustStore
  | .trust ski => store.trust ski
  | .remember peer => store.remember peer
  | .trustUnit unit => (store.trustUnit unit).1
  | .observeUnitSki fingerprint ski => store.observeUnitSki fingerprint ski
  | .awardPinTrust ski => (store.awardPinTrust ski).1
  | .forget ski => store.forget ski
  | .forgetUnit => store.forgetUnit.1
  | .forgetAll => store.forgetAll.1

def machine : Machine TrustStore TrustOp Unit where
  step store op := (store.perform op, ())

def overwritten (store : TrustStore) : TrustOp → List Ski
  | .trust ski => [ski]
  | .remember peer => [peer.ski]
  | .trustUnit unit => (store.unit.bind PairedUnit.ski).toList ++ unit.ski.toList
  | .observeUnitSki fingerprint ski =>
    if store.isCertificateTrusted fingerprint && store.unit.bind PairedUnit.ski != some ski then
      (store.unit.bind PairedUnit.ski).toList ++ [ski]
    else []
  | .awardPinTrust _ => []
  | .forget ski => [ski]
  | .forgetUnit => (store.unit.bind PairedUnit.ski).toList
  | .forgetAll => store.peers.map TrustedPeer.ski

variable {store : TrustStore}

theorem mem_remember {peer other : TrustedPeer} :
    other ∈ (store.remember peer).peers ↔ other = peer ∨ other ∈ store.peers ∧ other.ski ≠ peer.ski := by
  simp [remember]

theorem mem_remove {peer : TrustedPeer} {ski : Ski} :
    peer ∈ (store.remove ski).peers ↔ peer ∈ store.peers ∧ peer.ski ≠ ski := by
  simp [remove]

theorem mem_removed {known : Option Ski} {peer : TrustedPeer} (h : peer ∈ store.peers)
    (hkept : peer.ski ∉ known.toList) :
    peer ∈ (match known with | some ski => store.remove ski | none => store).peers := by
  cases known with
  | none => exact h
  | some ski => exact mem_remove.mpr ⟨h, by simpa using hkept⟩

theorem mem_perform {op : TrustOp} {peer : TrustedPeer} (h : peer ∈ store.peers)
    (hkept : peer.ski ∉ store.overwritten op) (haward : op ≠ .awardPinTrust peer.ski) :
    peer ∈ (store.perform op).peers := by
  cases op with
  | trust ski => exact mem_remember.mpr (.inr ⟨h, by simpa [overwritten, TrustedPeer.new] using hkept⟩)
  | remember other => exact mem_remember.mpr (.inr ⟨h, by simpa [overwritten] using hkept⟩)
  | trustUnit unit =>
    simp only [overwritten, List.mem_append, not_or] at hkept
    have hremoved : peer ∈ (match store.unit.bind PairedUnit.ski with
        | some ski => ({ store with unit := some unit } : TrustStore).remove ski
        | none => { store with unit := some unit }).peers := mem_removed h hkept.1
    simp only [perform, trustUnit]
    cases hski : unit.ski with
    | none => exact hremoved
    | some ski =>
      refine mem_remember.mpr (.inr ⟨hremoved, ?_⟩)
      simpa [hski, PairedUnit.record, TrustedPeer.new] using hkept.2
  | observeUnitSki fingerprint ski =>
    simp only [perform, observeUnitSki]
    split
    case h_1 => exact h
    case h_2 unit hunit =>
      obtain ⟨hsome, hmatches⟩ := Option.filter_eq_some_iff.mp hunit
      split
      case isTrue => exact h
      case isFalse hnew =>
        have hnamed : peer.ski ∉ unit.ski.toList ++ [ski] := by
          simpa [overwritten, isCertificateTrusted, hsome, hmatches, hnew] using hkept
        rw [List.mem_append, not_or] at hnamed
        refine mem_remember.mpr (.inr ⟨mem_removed h hnamed.1, ?_⟩)
        simpa [PairedUnit.record, TrustedPeer.new] using hnamed.2
  | awardPinTrust ski =>
    simp only [perform, awardPinTrust]
    split
    case h_1 => exact h
    case h_2 other hother =>
      refine mem_remember.mpr (.inr ⟨h, fun heq => haward ?_⟩)
      have hski : other.ski = ski := by simpa using List.find?_some hother
      rw [heq]
      exact congrArg TrustOp.awardPinTrust hski.symm
  | forget ski => exact mem_remove.mpr ⟨h, by simpa [overwritten] using hkept⟩
  | forgetUnit =>
    simp only [perform, forgetUnit]
    exact mem_removed h hkept
  | forgetAll => exact absurd (List.mem_map_of_mem h) hkept

def Keyed (store : TrustStore) : Prop := (store.peers.map TrustedPeer.ski).Nodup

theorem Keyed.empty : TrustStore.empty.Keyed := List.nodup_nil

theorem Keyed.remember (h : store.Keyed) (peer : TrustedPeer) : (store.remember peer).Keyed := by
  have hrest := h.sublist (List.filter_sublist (p := fun other => other.ski != peer.ski).map _)
  refine List.nodup_cons.mpr ⟨?_, hrest⟩
  simp

theorem Keyed.remove (h : store.Keyed) (ski : Ski) : (store.remove ski).Keyed :=
  h.sublist (List.filter_sublist.map _)

theorem Keyed.removed (h : store.Keyed) (known : Option Ski) :
    (match known with | some ski => store.remove ski | none => store).Keyed := by
  cases known with
  | none => exact h
  | some ski => exact h.remove ski

theorem Keyed.perform (h : store.Keyed) (op : TrustOp) : (store.perform op).Keyed := by
  cases op with
  | trust ski => exact h.remember _
  | remember peer => exact h.remember peer
  | trustUnit unit =>
    have hunit : ({ store with unit := some unit } : TrustStore).Keyed := h
    have hremoved := hunit.removed (store.unit.bind PairedUnit.ski)
    simp only [TrustStore.perform, TrustStore.trustUnit]
    cases unit.ski with
    | none => exact hremoved
    | some ski => exact hremoved.remember _
  | observeUnitSki fingerprint ski =>
    simp only [TrustStore.perform, TrustStore.observeUnitSki]
    split
    case h_1 => exact h
    case h_2 unit hunit =>
      split
      case isTrue => exact h
      case isFalse =>
        have hunit : ({ store with unit := some { unit with ski := some ski } } : TrustStore).Keyed := h
        exact (hunit.removed unit.ski).remember _
  | awardPinTrust ski =>
    simp only [TrustStore.perform, TrustStore.awardPinTrust]
    split
    · exact h
    · exact h.remember _
  | forget ski => exact h.remove ski
  | forgetUnit =>
    have hunit : ({ store with unit := none } : TrustStore).Keyed := h
    exact hunit.removed _
  | forgetAll => exact List.nodup_nil

theorem Keyed.run (h : store.Keyed) (ops : List TrustOp) : (machine.run store ops).Keyed := by
  induction ops generalizing store with
  | nil => exact h
  | cons op ops ih => exact ih (h.perform op)

theorem Keyed.get_iff (h : store.Keyed) {ski : Ski} {peer : TrustedPeer} :
    store.get ski = some peer ↔ peer ∈ store.peers ∧ peer.ski = ski := by
  constructor
  · intro hget
    exact ⟨List.mem_of_find?_eq_some hget, by simpa using List.find?_some hget⟩
  · rintro ⟨hmem, rfl⟩
    cases hget : store.get peer.ski with
    | none => exact absurd hmem (by simpa using List.find?_eq_none.mp hget peer hmem)
    | some other =>
      have hother : other.ski = peer.ski := by simpa using List.find?_some hget
      rw [List.inj_on_of_nodup_map h (List.mem_of_find?_eq_some hget) hmem hother]

end TrustStore

end Eebus.Runtime
