import Eebus.Library.Ledger
import Eebus.Runtime.TrustStore

/-!
The trust store over whole runs, and the award that only the first peer to prove the PIN gets. What
the store knows of the award is the record of the peer that got it.
-/

namespace Eebus.Runtime

open Eebus.Library Eebus.Ship

namespace TrustStore

variable {store : TrustStore}

def secondFactor (store : TrustStore) (ski : Ski) : Nat :=
  (store.get ski).elim 0 fun peer => peer.trust.secondFactor

/-- The peers that a call grants the second factor of the first: what is reported for the peer named,
or kept for any, reaches it then, and what was kept before did not. -/
def granted (store : TrustStore) : TrustOp → List Ski
  | .awardPinTrust named =>
    let (store', level) := store.awardPinTrust named
    (named :: store'.peers.map TrustedPeer.ski).filter fun ski =>
      store.secondFactor ski < secondFactorPinFirst ∧
        ((ski = named ∧ level.any (fun level => secondFactorPinFirst ≤ level.secondFactor) = true) ∨
          secondFactorPinFirst ≤ store'.secondFactor ski)
  | _ => []

/-- A factory default aside, a call leaves a record with the award where there is one: it overwrites
none of them, or not all, or brings one of its own. -/
def Spares (store : TrustStore) (op : TrustOp) : Prop :=
  op ≠ .forgetAll → store.firstAwarded = true →
    (∃ peer ∈ store.peers, secondFactorPinFirst ≤ peer.trust.secondFactor ∧
        peer.ski ∉ store.overwritten op) ∨
      ∃ peer, op = .remember peer ∧ secondFactorPinFirst ≤ peer.trust.secondFactor

theorem firstAwarded_iff : store.firstAwarded = true ↔
    ∃ peer ∈ store.peers, secondFactorPinFirst ≤ peer.trust.secondFactor := by
  simp [firstAwarded]

theorem awardPinTrust_none {ski : Ski} (h : store.get ski = none) :
    store.awardPinTrust ski = (store, none) := by
  simp [awardPinTrust, h]

theorem awardPinTrust_some {ski : Ski} {peer : TrustedPeer} (h : store.get ski = some peer) :
    ∃ level, (store.awardPinTrust ski).2 = some level ∧
      (store.awardPinTrust ski).1.secondFactor ski = level.secondFactor ∧
      level.secondFactor = max peer.trust.secondFactor
        (if store.firstAwarded then secondFactorPinLater else secondFactorPinFirst) := by
  have hski : peer.ski = ski := by simpa using List.find?_some h
  refine ⟨peer.trust.merged { TrustLevel.untrusted with
      secondFactor := if store.firstAwarded then secondFactorPinLater else secondFactorPinFirst },
    by simp only [awardPinTrust, h], ?_, rfl⟩
  simp [awardPinTrust, h, secondFactor, get_remember, hski]

theorem awardPinTrust_other {named ski : Ski} (hother : ski ≠ named) :
    (store.awardPinTrust named).1.secondFactor ski = store.secondFactor ski := by
  cases hget : store.get named with
  | none => rw [awardPinTrust_none hget]
  | some peer =>
    have hski : peer.ski = named := by simpa using List.find?_some hget
    simp [awardPinTrust, hget, secondFactor, get_remember, hski, hother]

theorem of_granted {op : TrustOp} {ski : Ski} (h : ski ∈ store.granted op) :
    op = .awardPinTrust ski ∧ store.isTrusted ski = true ∧ store.firstAwarded = false := by
  unfold granted at h
  split at h
  case h_2 => cases h
  case h_1 named =>
    dsimp only at h
    obtain ⟨-, hgranted⟩ := List.mem_filter.mp h
    obtain ⟨hbefore, hafter⟩ := of_decide_eq_true hgranted
    obtain rfl : ski = named := by
      by_contra hother
      rcases hafter with ⟨hnamed, -⟩ | hkept
      · exact hother hnamed
      · rw [awardPinTrust_other hother] at hkept
        omega
    cases hget : store.get ski with
    | none =>
      rw [awardPinTrust_none hget] at hafter
      rcases hafter with ⟨-, hlevel⟩ | hkept
      · cases hlevel
      · exact absurd hbefore (Nat.not_lt.mpr hkept)
    | some peer =>
      obtain ⟨level, hlevel, hkept, hfactor⟩ := awardPinTrust_some hget
      have hpeer : peer.trust.secondFactor < secondFactorPinFirst := by
        simpa [secondFactor, hget] using hbefore
      have hreached : secondFactorPinFirst ≤ level.secondFactor := by
        rw [hlevel, hkept] at hafter
        simpa using hafter
      refine ⟨rfl, by simp [isTrusted, hget], Bool.eq_false_iff.mpr fun hfirst => ?_⟩
      -- a later award is too small to reach what the first gets
      rw [hfactor, if_pos hfirst] at hreached
      have hlater : secondFactorPinLater < secondFactorPinFirst := by decide
      omega

theorem firstAwarded_award (hkeyed : store.Keyed) (ski : Ski)
    (h : store.firstAwarded = true ∨ store.isTrusted ski = true) :
    (store.awardPinTrust ski).1.firstAwarded = true := by
  cases hget : store.get ski with
  | none =>
    have hfirst : store.firstAwarded = true := h.resolve_right (by simp [isTrusted, hget])
    simpa [awardPinTrust, hget] using hfirst
  | some peer =>
    obtain ⟨hpeer, hski⟩ := hkeyed.get_iff.mp hget
    simp only [awardPinTrust, hget]
    by_cases hfirst : store.firstAwarded = true
    · obtain ⟨holder, hholder, hfactor⟩ := firstAwarded_iff.mp hfirst
      by_cases hsame : holder.ski = peer.ski
      · -- the peer awarded is the holder itself, whose factor only grows
        have hholds : holder = peer := List.inj_on_of_nodup_map hkeyed hholder hpeer hsame
        refine firstAwarded_iff.mpr ⟨_, mem_remember.mpr (.inl rfl), ?_⟩
        rw [← hholds]
        exact le_trans hfactor (le_max_left _ _)
      · exact firstAwarded_iff.mpr ⟨holder, mem_remember.mpr (.inr ⟨hholder, hsame⟩), hfactor⟩
    · refine firstAwarded_iff.mpr ⟨_, mem_remember.mpr (.inl rfl), ?_⟩
      simp only [hfirst, TrustLevel.merged, Bool.false_eq_true, if_false]
      exact le_max_right _ _

theorem firstAwarded_perform {op : TrustOp} (hkeyed : store.Keyed) (hspares : store.Spares op) (hreset : op ≠ .forgetAll)
    (h : store.firstAwarded = true) : (store.perform op).firstAwarded = true := by
  rcases hspares hreset h with ⟨peer, hmem, hfactor, hkept⟩ | ⟨peer, rfl, hfactor⟩
  · by_cases haward : op = .awardPinTrust peer.ski
    · subst haward
      exact firstAwarded_award hkeyed peer.ski (.inl h)
    · exact firstAwarded_iff.mpr ⟨peer, mem_perform hmem hkept haward, hfactor⟩
  · exact firstAwarded_iff.mpr ⟨peer, mem_remember.mpr (.inl rfl), hfactor⟩

theorem granted_awarded (hkeyed : store.Keyed) (h : store.firstAwarded = true) (ops : List TrustOp)
    (hspares : machine.Admits Spares store ops) (hreset : ∀ op ∈ ops, op ≠ .forgetAll) :
    machine.collect granted store ops = [] := by
  induction ops generalizing store with
  | nil => rfl
  | cons op ops ih =>
    have hnext := firstAwarded_perform hkeyed hspares.1 (hreset op List.mem_cons_self) h
    have hnone : store.granted op = [] := by
      refine List.eq_nil_iff_forall_not_mem.mpr fun ski hski => ?_
      rw [(of_granted hski).2.2] at h
      cases h
    rw [Machine.collect, hnone, List.nil_append]
    exact ih (hkeyed.perform op) hnext hspares.2 fun o ho => hreset o (List.mem_cons_of_mem op ho)

theorem granted_once (hkeyed : store.Keyed) (ops : List TrustOp) (hspares : machine.Admits Spares store ops)
    (hreset : ∀ op ∈ ops, op ≠ .forgetAll) :
    ∀ a ∈ machine.collect granted store ops, ∀ b ∈ machine.collect granted store ops, a = b := by
  induction ops generalizing store with
  | nil => simp [Machine.collect]
  | cons op ops ih =>
    have hrest : ∀ o ∈ ops, o ≠ .forgetAll := fun o ho => hreset o (List.mem_cons_of_mem op ho)
    rw [Machine.collect]
    by_cases hgranted : store.granted op = []
    · rw [hgranted, List.nil_append]
      exact ih (hkeyed.perform op) hspares.2 hrest
    · obtain ⟨ski, hski⟩ := List.exists_mem_of_ne_nil _ hgranted
      obtain ⟨rfl, htrusted, -⟩ := of_granted hski
      have hawarded : (store.perform (.awardPinTrust ski)).firstAwarded = true :=
        firstAwarded_award hkeyed ski (.inr htrusted)
      have hnone : machine.collect granted (machine.next store (.awardPinTrust ski)) ops = [] :=
        granted_awarded (hkeyed.perform (.awardPinTrust ski)) hawarded ops hspares.2 hrest
      have hnamed : ∀ a ∈ store.granted (.awardPinTrust ski), a = ski := fun a ha =>
        (TrustOp.awardPinTrust.inj (of_granted ha).1).symm
      rw [hnone, List.append_nil]
      exact fun a ha b hb => (hnamed a ha).trans (hnamed b hb).symm

end TrustStore

/-- From an empty store on, no two SKIs are granted the second factor of the first between two
factory defaults. -/
def AwardedOnce (ops : List TrustOp) : Prop :=
  ∀ before segment, before ++ segment <+: ops → (∀ op ∈ segment, op ≠ .forgetAll) →
    ∀ a ∈ TrustStore.machine.collect TrustStore.granted (TrustStore.machine.run .empty before) segment,
    ∀ b ∈ TrustStore.machine.collect TrustStore.granted (TrustStore.machine.run .empty before) segment,
      a = b

/-- Where no call but a factory default takes the award off the record, it is made at most once. -/
theorem pin_trust_awarded_once (ops : List TrustOp)
    (hspares : TrustStore.machine.Admits TrustStore.Spares .empty ops) : AwardedOnce ops := by
  intro before segment hprefix hreset a ha b hb
  have hsegment : TrustStore.machine.Admits TrustStore.Spares
      (TrustStore.machine.run .empty before) segment :=
    ((TrustStore.machine.admits_append _ _ _).mp
      (TrustStore.machine.admits_prefix hspares hprefix)).2
  have hkeyed : (TrustStore.machine.run .empty before).Keyed := TrustStore.Keyed.empty.run before
  exact TrustStore.granted_once hkeyed segment hsegment hreset a ha b hb

/-- Two units are approved, prove the PIN, and prove it again. -/
theorem pin_trust_awarded_once_two :
    AwardedOnce [.trust 1, .trust 2, .awardPinTrust 1, .awardPinTrust 2, .awardPinTrust 1] :=
  pin_trust_awarded_once _ ⟨fun _ h => absurd h (by decide), fun _ h => absurd h (by decide),
    fun _ h => absurd h (by decide), fun _ _ => .inl (by decide +kernel),
    fun _ _ => .inl (by decide +kernel), trivial⟩

/-- A unit proves the PIN and is approved anew, then another proves it. -/
theorem pin_trust_awarded_twice :
    ¬ AwardedOnce [.trust 1, .trust 2, .awardPinTrust 1, .trust 1, .awardPinTrust 2] := by
  intro h
  have hboth := h [] _ (List.prefix_refl _) (by decide) 1 (by decide +kernel) 2 (by decide +kernel)
  exact absurd hboth (by decide)

end Eebus.Runtime
