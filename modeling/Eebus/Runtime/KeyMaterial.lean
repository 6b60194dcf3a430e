import Eebus.Library.FirstMatch
import Eebus.Library.Machine
import Eebus.Runtime.TrustStore

/-! How the hub follows its peers' certificate updates: each announcement is compared with the
record kept under the SKI of the connection it came on, and the trust store takes up the
difference. -/

namespace Eebus.Runtime

open Eebus.Library Eebus.Ship

structure PeerKeysUpdated where
  ski : Ski
  trusted : List Ski
  untrusted : List Ski
deriving DecidableEq

/-- The hub's part in certificate updates: its records, the node's trust store and the events due. -/
structure KeyMaterial where
  peerKeys : List (Ski × PeerKeys)
  store : TrustStore
  pending : List PeerKeysUpdated

structure KeyLink where
  ski : Ski
  announced : List KeyMaterialState
  peerKeyCounter : Option Nat
  askedForKeys : Bool

namespace KeyMaterial

def keysFor (k : KeyMaterial) (ski : Ski) : PeerKeys :=
  ((k.peerKeys.find? fun p => p.1 == ski).map Prod.snd).getD PeerKeys.new

def setKeys (k : KeyMaterial) (ski : Ski) (keys : PeerKeys) : KeyMaterial :=
  { k with peerKeys :=
      if k.peerKeys.any fun p => p.1 == ski then
        modifyFirst (fun p => p.1 == ski) (fun p _ => (p.1, keys)) k.peerKeys
      else k.peerKeys ++ [(ski, keys)] }

def takeUp (k : KeyMaterial) (ski : Ski) (state : KeyMaterialState) : KeyMaterial :=
  match (k.keysFor ski).apply state curveSecp256r1 with
  | none => k.setKeys ski (k.keysFor ski)
  | some (keys, update) =>
    let k := k.setKeys ski keys
    if update.trust.isEmpty && update.untrust.isEmpty then k
    else
      { k with
        store := (update.untrust.filter fun gone => gone != ski).foldl TrustStore.forget
          (update.trust.foldl TrustStore.trust k.store)
        pending := k.pending ++ [⟨ski, update.trust, update.untrust⟩] }

def requestKeys (k : KeyMaterial) (link : KeyLink) : KeyMaterial × KeyLink × Option Nat :=
  match link.peerKeyCounter with
  | some announced =>
    if link.askedForKeys then (k, link, none)
    else
      let known := (k.keysFor link.ski).updateCounter
      let k := k.setKeys link.ski (k.keysFor link.ski)
      if announced > known then (k, { link with askedForKeys := true }, some known)
      else (k, link, none)
  | none => (k, link, none)

def followLink (k : KeyMaterial) (link : KeyLink) : KeyMaterial × KeyLink × Option Nat :=
  (link.announced.foldl (fun k state => k.takeUp link.ski state) k).requestKeys
    { link with announced := [] }

def followKeyMaterial : KeyMaterial → List KeyLink → KeyMaterial × List (KeyLink × Option Nat)
  | k, [] => (k, [])
  | k, link :: rest =>
    let (k, followed) := k.followLink link
    let (k, others) := k.followKeyMaterial rest
    (k, followed :: others)

/-- The hub under a peer's announcements, each with the SKI of its connection. -/
def machine : Machine KeyMaterial (Ski × KeyMaterialState) Unit where
  step k input := (k.takeUp input.1 input.2, ())

@[simp] theorem setKeys_store (k : KeyMaterial) (ski : Ski) (keys : PeerKeys) :
    (k.setKeys ski keys).store = k.store := rfl

theorem keysFor_setKeys (k : KeyMaterial) (ski other : Ski) (keys : PeerKeys) :
    (k.setKeys ski keys).keysFor other = if other = ski then keys else k.keysFor other := by
  simp only [setKeys, keysFor]
  split
  case isTrue hany =>
    obtain ⟨p, hp⟩ : ∃ p, k.peerKeys.find? (fun p => p.1 == ski) = some p :=
      Option.isSome_iff_exists.mp (by simpa [List.find?_isSome] using hany)
    by_cases h : other = ski
    · subst h
      rw [find?_modifyFirst hp fun ha => ha]
      simp
    · have hkeep : ∀ p : Ski × PeerKeys, (p.1 == ski) = true →
          (p.1 == other) = false ∧ (p.1 == other) = false := by
        intro p hp
        have hne : (p.1 == other) = false := by
          rw [beq_iff_eq.mp hp]
          exact beq_eq_false_iff_ne.mpr fun heq => h heq.symm
        exact ⟨hne, hne⟩
      have hfilter : (modifyFirst (fun p => p.1 == ski) (fun p _ => (p.1, keys)) k.peerKeys).filter
          (fun p => p.1 == other) = k.peerKeys.filter (fun p => p.1 == other) :=
        filter_modifyFirst k.peerKeys hkeep
      rw [if_neg h, ← List.head?_filter, hfilter, List.head?_filter]
  case isFalse hany =>
    have hnone : k.peerKeys.find? (fun p => p.1 == ski) = none := by
      rw [List.find?_eq_none]
      intro p hp hmatch
      exact hany (List.any_eq_true.mpr ⟨p, hp, hmatch⟩)
    by_cases h : other = ski
    · subst h
      simp [List.find?_append, hnone]
    · have hne : (ski == other) = false := beq_eq_false_iff_ne.mpr fun heq => h heq.symm
      simp [List.find?_append, hne, h]

theorem keysFor_setKeys_keysFor (k : KeyMaterial) (ski other : Ski) :
    (k.setKeys ski (k.keysFor ski)).keysFor other = k.keysFor other := by
  rw [keysFor_setKeys]
  by_cases h : other = ski
  · rw [if_pos h, h]
  · rw [if_neg h]

/-- The certificates an announcement puts forward on the curve in use. -/
def puts (state : KeyMaterialState) (ski : Ski) : Prop :=
  (curveSecp256r1, ski) ∈ state.keep curveSecp256r1

/-- Whether the record kept under `ski` holds `key`. -/
def holds (k : KeyMaterial) (ski key : Ski) : Prop :=
  (curveSecp256r1, key) ∈ (k.keysFor ski).trusted

instance (state : KeyMaterialState) : DecidablePred (puts state) :=
  fun ski => inferInstanceAs (Decidable ((curveSecp256r1, ski) ∈ state.keep curveSecp256r1))

instance (k : KeyMaterial) (ski : Ski) : DecidablePred (k.holds ski) :=
  fun key => inferInstanceAs (Decidable ((curveSecp256r1, key) ∈ (k.keysFor ski).trusted))

/-- Whether an announcement on a connection under `ski` is taken up. -/
def accepts (k : KeyMaterial) (ski : Ski) (state : KeyMaterialState) : Bool :=
  ((k.keysFor ski).apply state curveSecp256r1).isSome

theorem takeUp_refused {k : KeyMaterial} {ski : Ski} {state : KeyMaterialState}
    (h : k.accepts ski state = false) : k.takeUp ski state = k.setKeys ski (k.keysFor ski) := by
  have hnone : (k.keysFor ski).apply state curveSecp256r1 = none := by simpa [accepts] using h
  simp [takeUp, hnone]

/-- What an accepted announcement leaves in the trust store: the SKIs it names and the record did
not hold are trusted afresh, and those the record held and it leaves out are forgotten, the SKI of
the connection excepted. -/
theorem get_takeUp {k : KeyMaterial} {ski : Ski} {state : KeyMaterialState}
    (h : k.accepts ski state = true) (key : Ski) : (k.takeUp ski state).store.get key =
      if puts state key ∧ ¬ k.holds ski key then some (TrustedPeer.new key)
      else if k.holds ski key ∧ ¬ puts state key ∧ key ≠ ski then none
      else k.store.get key := by
  obtain ⟨⟨keys, update⟩, happly⟩ := Option.isSome_iff_exists.mp h
  have htrust : key ∈ update.trust ↔ puts state key ∧ ¬ k.holds ski key :=
    (PeerKeys.apply_spec happly key).2.1
  have huntrust : key ∈ update.untrust ↔ k.holds ski key ∧ ¬ puts state key :=
    (PeerKeys.apply_spec happly key).2.2
  have hstore : (k.takeUp ski state).store =
      (update.untrust.filter fun gone => gone != ski).foldl TrustStore.forget
        (update.trust.foldl TrustStore.trust k.store) := by
    simp only [takeUp, happly]
    split
    case isTrue hempty =>
      obtain ⟨ht, hu⟩ : update.trust = [] ∧ update.untrust = [] := by simpa using hempty
      simp [ht, hu]
    case isFalse => rfl
  rw [hstore, TrustStore.get_foldl_forget, TrustStore.get_foldl_trust]
  by_cases hput : puts state key
  · have hstay : ¬ key ∈ update.untrust.filter fun gone => gone != ski :=
      fun hmem => (huntrust.mp (List.mem_filter.mp hmem).1).2 hput
    by_cases hheld : k.holds ski key
    · simp [hstay, htrust, hput, hheld]
    · simp [hstay, htrust, hput, hheld]
  · by_cases hheld : k.holds ski key
    · simp [huntrust, htrust, hput, hheld]
    · simp [huntrust, htrust, hput, hheld]

theorem keysFor_takeUp {k : KeyMaterial} {ski : Ski} {state : KeyMaterialState}
    (h : k.accepts ski state = true) (key : Ski) :
    (k.takeUp ski state).holds ski key ↔ puts state key := by
  obtain ⟨⟨keys, update⟩, happly⟩ := Option.isSome_iff_exists.mp h
  have hkeys : (k.takeUp ski state).keysFor ski = keys := by
    have hset : (k.setKeys ski keys).keysFor ski = keys := by simp [keysFor_setKeys]
    simp only [takeUp, happly]
    split
    · exact hset
    · exact hset
  rw [holds, hkeys]
  exact (PeerKeys.apply_spec happly key).1

/-- The same trust, and the same record under every SKI. -/
structure Agrees (k k' : KeyMaterial) : Prop where
  store : k.store = k'.store
  keys : ∀ ski, k.keysFor ski = k'.keysFor ski

theorem Agrees.setKeys {k k' : KeyMaterial} (h : Agrees k k') (ski : Ski) (keys : PeerKeys) :
    Agrees (k.setKeys ski keys) (k'.setKeys ski keys) :=
  ⟨h.store, fun other => by rw [keysFor_setKeys, keysFor_setKeys, h.keys]⟩

theorem Agrees.takeUp {k k' : KeyMaterial} (h : Agrees k k') (ski : Ski) (state : KeyMaterialState) :
    Agrees (k.takeUp ski state) (k'.takeUp ski state) := by
  unfold KeyMaterial.takeUp
  rw [h.keys]
  cases (k'.keysFor ski).apply state curveSecp256r1 with
  | none => exact h.setKeys ski _
  | some applied =>
    have hset := h.setKeys ski applied.1
    dsimp only
    split
    · exact hset
    · refine ⟨?_, hset.keys⟩
      change List.foldl _ (List.foldl _ k.store _) _ = List.foldl _ (List.foldl _ k'.store _) _
      rw [h.store]

theorem Agrees.run {k k' : KeyMaterial} (h : Agrees k k') (inputs : List (Ski × KeyMaterialState)) :
    Agrees (machine.run k inputs) (machine.run k' inputs) := by
  induction inputs generalizing k k' with
  | nil => exact h
  | cons input rest ih => exact ih (h.takeUp input.1 input.2)

theorem requestKeys_agrees (k : KeyMaterial) (link : KeyLink) : Agrees (k.requestKeys link).1 k := by
  have hset : Agrees (k.setKeys link.ski (k.keysFor link.ski)) k :=
    ⟨rfl, keysFor_setKeys_keysFor k link.ski⟩
  unfold requestKeys
  split
  · split
    · exact ⟨rfl, fun _ => rfl⟩
    · dsimp only
      split
      · exact hset
      · exact hset
  · exact ⟨rfl, fun _ => rfl⟩

/-- A round does what the announcements waiting on its links do, one after the other. -/
theorem followKeyMaterial_agrees (links : List KeyLink) (k : KeyMaterial) :
    Agrees (k.followKeyMaterial links).1
      (machine.run k (links.flatMap fun link => link.announced.map fun state => (link.ski, state))) := by
  induction links generalizing k with
  | nil => exact ⟨rfl, fun _ => rfl⟩
  | cons link rest ih =>
    have htaken : link.announced.foldl (fun k state => k.takeUp link.ski state) k =
        machine.run k (link.announced.map fun state => (link.ski, state)) := by
      generalize link.announced = announced
      induction announced generalizing k with
      | nil => rfl
      | cons state states ih => exact ih _
    have hlink := requestKeys_agrees (machine.run k (link.announced.map fun state => (link.ski, state)))
      { link with announced := [] }
    have hrest := (ih (k.followLink link).1)
    rw [List.flatMap_cons, machine.run_append]
    have hfirst : Agrees (k.followLink link).1
        (machine.run k (link.announced.map fun state => (link.ski, state))) := by
      rw [followLink, htaken]
      exact hlink
    have hlater := hfirst.run (rest.flatMap fun link => link.announced.map fun state => (link.ski, state))
    exact ⟨hrest.store.trans hlater.store, fun ski => (hrest.keys ski).trans (hlater.keys ski)⟩

end KeyMaterial

end Eebus.Runtime
