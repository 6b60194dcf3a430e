import Eebus.Runtime.TrustStore

/-!
What of the trust store is written to disk, and what is read back at the next start. The records come
back as they were; the paired unit is trusted anew over them.
-/

namespace Eebus.Runtime

open Eebus.Library Eebus.Ship

structure StoredTrust where
  peers : List TrustedPeer
  unit : Option PairedUnit
deriving DecidableEq

namespace TrustStore

def records (store : TrustStore) : List TrustedPeer :=
  store.peers.mergeSort fun a b => !decide (b.ski < a.ski)

def restored (peers : List TrustedPeer) : TrustStore := peers.foldl remember empty

def toStored (store : TrustStore) : StoredTrust := ⟨store.records, store.unit⟩

def fromStored (stored : StoredTrust) : TrustStore :=
  let store := restored stored.peers
  match stored.unit with
  | some unit => (store.trustUnit unit).1
  | none => store

/-- The same records and the same paired unit. -/
def SameTrust (store other : TrustStore) : Prop :=
  (∀ ski, store.get ski = other.get ski) ∧ store.unit = other.unit

/-- The record under the paired unit's SKI is the one that trusting the unit makes. -/
def UnitRecorded (store : TrustStore) : Prop :=
  ∀ unit ski, store.unit = some unit → unit.ski = some ski → store.get ski = some (unit.record ski)

variable {store : TrustStore}

theorem get_foldl_remember (peers : List TrustedPeer) (hnodup : (peers.map TrustedPeer.ski).Nodup)
    (store : TrustStore) (ski : Ski) :
    (peers.foldl remember store).get ski =
      (peers.find? fun peer => peer.ski == ski).or (store.get ski) := by
  induction peers generalizing store with
  | nil => rfl
  | cons peer rest ih =>
    obtain ⟨hfresh, hrest⟩ := List.nodup_cons.mp hnodup
    rw [List.foldl_cons, ih hrest, get_remember]
    by_cases hski : peer.ski = ski
    · have hnone : rest.find? (fun other => other.ski == ski) = none := by
        refine List.find?_eq_none.mpr fun other hother => ?_
        rintro heq
        exact hfresh (List.mem_map.mpr ⟨other, hother, (by simpa using heq : other.ski = ski).trans hski.symm⟩)
      simp [hnone, hski]
    · have hne : ¬ ski = peer.ski := fun heq => hski heq.symm
      simp [hski, hne]

theorem unit_foldl_remember (peers : List TrustedPeer) (store : TrustStore) :
    (peers.foldl remember store).unit = store.unit := by
  induction peers generalizing store with
  | nil => rfl
  | cons peer rest ih => rw [List.foldl_cons, ih]; rfl

theorem mem_records {peer : TrustedPeer} : peer ∈ store.records ↔ peer ∈ store.peers :=
  (List.mergeSort_perm _ _).mem_iff

theorem get_restored (h : store.Keyed) (ski : Ski) : (restored store.records).get ski = store.get ski := by
  have hkeyed : (⟨store.records, none⟩ : TrustStore).Keyed :=
    ((List.mergeSort_perm _ _).map TrustedPeer.ski).nodup_iff.mpr h
  have hget : (restored store.records).get ski = (⟨store.records, none⟩ : TrustStore).get ski := by
    rw [restored, get_foldl_remember _ hkeyed]
    exact Option.or_none
  rw [hget]
  refine Option.ext fun peer => ?_
  rw [hkeyed.get_iff, h.get_iff, mem_records]

theorem get_fromStored (h : store.Keyed) (ski : Ski) :
    (fromStored store.toStored).get ski =
      match store.unit.bind fun unit => if unit.ski = some ski then some unit else none with
      | some unit => some (unit.record ski)
      | none => store.get ski := by
  have hunit : (restored store.records).unit = none := unit_foldl_remember _ _
  cases hpaired : store.unit with
  | none => simpa [fromStored, toStored, hpaired] using get_restored h ski
  | some unit =>
    simp only [fromStored, toStored, hpaired, trustUnit, hunit, Option.bind_none, Option.bind_some]
    cases hknown : unit.ski with
    | none => simpa [get] using get_restored h ski
    | some known =>
      by_cases hski : ski = known
      · subst hski
        simp [get_remember, PairedUnit.record, TrustedPeer.new]
      · have hne : ¬ known = ski := fun heq => hski heq.symm
        have hold := get_restored h ski
        simp only [get_remember, PairedUnit.record, TrustedPeer.new, hski, hne, if_false,
          Option.some.injEq]
        exact hold

theorem unit_fromStored : (fromStored store.toStored).unit = store.unit := by
  have hunit : (restored store.records).unit = none := unit_foldl_remember _ _
  cases hpaired : store.unit with
  | none => simpa [fromStored, toStored, hpaired] using hunit
  | some unit =>
    simp only [fromStored, toStored, hpaired, trustUnit, hunit, Option.bind_none]
    cases unit.ski with
    | none => rfl
    | some known => rfl

theorem fromStored_iff (h : store.Keyed) :
    (fromStored store.toStored).SameTrust store ↔ store.UnitRecorded := by
  constructor
  · rintro ⟨hget, -⟩ unit ski hunit hski
    rw [← hget ski, get_fromStored h, hunit]
    simp [hski]
  · intro hrecorded
    refine ⟨fun ski => ?_, unit_fromStored⟩
    rw [get_fromStored h]
    cases hpaired : store.unit with
    | none => rfl
    | some unit =>
      by_cases hski : unit.ski = some ski
      · simpa [hski] using (hrecorded unit ski hpaired hski).symm
      · simp [hski]

end TrustStore

/-- A store that any calls lead to is read back as it was written, where the record under the paired
unit's SKI, if one is known, is the one that trusting the unit makes, and nowhere else. -/
theorem restart_keeps_trust (ops : List TrustOp) :
    (TrustStore.fromStored (TrustStore.machine.run .empty ops).toStored).SameTrust
        (TrustStore.machine.run .empty ops) ↔
      (TrustStore.machine.run .empty ops).UnitRecorded :=
  TrustStore.fromStored_iff (TrustStore.Keyed.empty.run ops)

/-- The paired unit proves the PIN, and after the restart its second factor is gone. -/
theorem restart_drops_award : ¬ (TrustStore.fromStored (TrustStore.machine.run .empty
          [.trustUnit ⟨"unit", 7, "secp256r1", none, none⟩, .observeUnitSki 7 1,
            .awardPinTrust 1]).toStored).SameTrust (TrustStore.machine.run .empty
          [.trustUnit ⟨"unit", 7, "secp256r1", none, none⟩, .observeUnitSki 7 1,
            .awardPinTrust 1]) := by
  rw [TrustStore.fromStored_iff (TrustStore.Keyed.empty.run _)]
  intro h
  exact absurd (h ⟨"unit", 7, "secp256r1", some 1, none⟩ 1 (by decide +kernel) rfl) (by decide +kernel)

end Eebus.Runtime
