import Eebus.Runtime.Pairing

/-!
What is left of a control unit that has been displaced. The unit is trusted by its certificate; its
connections and its record are found by the SKI that a connection proved, and that is forgotten when
the unit pairs again.
-/

namespace Eebus.Runtime

open Eebus.Library Eebus.Ship

namespace TrustStore

variable {store : TrustStore}

theorem isTrusted_remember (peer : TrustedPeer) (ski : Ski) :
    (store.remember peer).isTrusted ski = true ↔ ski = peer.ski ∨ store.isTrusted ski = true := by
  rw [isTrusted, get_remember]
  by_cases hski : ski = peer.ski
  · simp [hski]
  · simp [hski, isTrusted]

theorem isTrusted_remove (gone ski : Ski) :
    (store.remove gone).isTrusted ski = true ↔ store.isTrusted ski = true ∧ ski ≠ gone := by
  simp only [isTrusted, get, remove, List.find?_isSome, List.mem_filter]
  constructor
  · rintro ⟨peer, ⟨hpeer, hkept⟩, hski⟩
    simp only [bne_iff_ne, beq_iff_eq] at hkept hski
    exact ⟨⟨peer, hpeer, by simpa using hski⟩, hski ▸ hkept⟩
  · rintro ⟨⟨peer, hpeer, hski⟩, hkept⟩
    simp only [beq_iff_eq] at hski
    exact ⟨peer, ⟨hpeer, by simpa [hski] using hkept⟩, by simpa using hski⟩

theorem isTrusted_removed (store : TrustStore) (known : Option Ski) (ski : Ski) :
    (match known with | some gone => store.remove gone | none => store).isTrusted ski = true ↔
      store.isTrusted ski = true ∧ known ≠ some ski := by
  cases known with
  | none => simp
  | some gone =>
    rw [isTrusted_remove, ne_eq, ne_eq, Option.some.injEq, eq_comm (a := ski)]

theorem isTrusted_trustUnit (unit : PairedUnit) (ski : Ski) :
    (store.trustUnit unit).1.isTrusted ski = true ↔
      unit.ski = some ski ∨ store.isTrusted ski = true ∧ store.unit.bind PairedUnit.ski ≠ some ski := by
  have hremoved : _ ↔ store.isTrusted ski = true ∧ _ :=
    isTrusted_removed { store with unit := some unit } (store.unit.bind PairedUnit.ski) ski
  simp only [trustUnit]
  cases hknown : unit.ski with
  | none =>
    refine hremoved.trans ?_
    simp
  | some known =>
    rw [isTrusted_remember]
    refine or_congr ?_ hremoved
    simp [PairedUnit.record, TrustedPeer.new, eq_comm]

theorem isTrusted_observeUnitSki {unit : PairedUnit} (hunit : store.unit = some unit) {ski known : Ski}
    (h : (store.observeUnitSki unit.fingerprint known).isTrusted ski = true) :
    ski = known ∨ store.isTrusted ski = true ∧ unit.ski ≠ some ski := by
  simp only [observeUnitSki, hunit, Option.filter_some, beq_self_eq_true, if_true] at h
  split at h
  case isTrue hsame =>
    by_cases hski : ski = known
    · exact .inl hski
    · refine .inr ⟨h, fun heq => hski ?_⟩
      exact Option.some.inj (heq.symm.trans hsame)
  case isFalse =>
    rw [isTrusted_remember] at h
    refine h.imp id fun h => ?_
    exact (isTrusted_removed { store with unit := some { unit with ski := some known } }
      unit.ski ski).mp h

theorem observeUnitSki_other {fingerprint : Fingerprint}
    (h : store.isCertificateTrusted fingerprint = false) (ski : Ski) :
    store.observeUnitSki fingerprint ski = store := by
  have hnone : store.unit.filter (fun unit => unit.fingerprint == fingerprint) = none := by
    refine Option.filter_eq_none_iff.mpr fun unit hunit hmatch => ?_
    simp [isCertificateTrusted, hunit, hmatch] at h
  simp only [observeUnitSki, hnone]

theorem isTrusted_awardPinTrust (ski other : Ski) :
    (store.awardPinTrust ski).1.isTrusted other = store.isTrusted other := by
  simp only [awardPinTrust]
  split
  case h_1 => rfl
  case h_2 peer hpeer =>
    have hski : peer.ski = ski := by simpa using List.find?_some hpeer
    rw [isTrusted, get_remember, isTrusted]
    by_cases hother : other = peer.ski
    · rw [hother, hski]
      simp [hpeer]
    · rw [if_neg hother]

end TrustStore

namespace PairingHub

def siteMachine : Machine PairingHub (PairingOp ⊕ TrustOp) Unit where
  step h op :=
    (match op with
      | .inl op => h.perform op
      | .inr op => { h with store := h.store.perform op }, ())

/-- Nothing is held of a unit but under the SKI it comes with: no connection, and no trust that it does
not displace. -/
def Clean (h : PairingHub) (unit : PairedUnit) : Prop :=
  (∀ link ∈ h.links, link.fingerprint = unit.fingerprint → unit.ski = some link.ski) ∧
    ∀ e ∈ h.admitted, e.2 = unit.fingerprint → h.store.isTrusted e.1 = true →
      unit.ski = some e.1 ∨ h.store.unit.bind PairedUnit.ski = some e.1

/-- The paired unit's SKI is on record whenever something is held of the unit under it. -/
def Recorded (h : PairingHub) : PairingOp ⊕ TrustOp → Prop
  | .inl (.evaluatePairing event) => ∀ unit, h.pairs event = some unit → h.Clean unit
  | .inl (.established link slot) => slot = true → ∀ unit, h.store.unit = some unit →
      link.fingerprint = unit.fingerprint → unit.ski = some link.ski
  | .inl (.trustFor ski fingerprint) => h.store.isTrusted ski = false →
      h.store.isCertificateTrusted fingerprint = true →
        ∀ link ∈ h.links, link.fingerprint = fingerprint → link.ski = ski
  | .inr (.observeUnitSki fingerprint ski) => h.store.isCertificateTrusted fingerprint = true →
      ∀ link ∈ h.links, link.fingerprint = fingerprint → link.ski = ski
  | .inr (.trustUnit unit) => h.Clean unit
  | .inr (.trust ski) => ∀ unit, h.store.unit = some unit → (ski, unit.fingerprint) ∈ h.admitted →
      unit.ski = some ski
  | .inr (.remember peer) => ∀ unit, h.store.unit = some unit →
      (peer.ski, unit.fingerprint) ∈ h.admitted → unit.ski = some peer.ski
  | _ => True

/-- Whatever is held of the paired unit is held under the SKI on record. -/
structure Known (h : PairingHub) : Prop where
  links : ∀ unit, h.store.unit = some unit → ∀ link ∈ h.links,
    link.fingerprint = unit.fingerprint → unit.ski = some link.ski
  trusts : ∀ unit, h.store.unit = some unit → ∀ e ∈ h.admitted,
    e.2 = unit.fingerprint → h.store.isTrusted e.1 = true → unit.ski = some e.1

/-- Nothing is left of a unit. -/
def Severed (h : PairingHub) (unit : PairedUnit) : Prop :=
  (∀ link ∈ h.links, link.fingerprint ≠ unit.fingerprint) ∧
    ∀ e ∈ h.admitted, e.2 = unit.fingerprint → h.store.isTrusted e.1 = false

variable {h : PairingHub}

theorem pair_admitted (unit : PairedUnit) : (h.pair unit).admitted = h.admitted := by
  simp only [pair]
  split <;> rfl

theorem mem_pair_links {unit : PairedUnit} {link : PairingLink} (hlink : link ∈ (h.pair unit).links) :
    link ∈ h.links ∧ ∀ previous, h.store.unit = some previous →
      previous.fingerprint ≠ unit.fingerprint → previous.ski ≠ some link.ski := by
  have hprevious : (h.store.trustUnit unit).2 = h.store.unit := rfl
  simp only [pair, hprevious] at hlink
  split at hlink
  case h_1 ski hski =>
    obtain ⟨hmem, hkept⟩ := List.mem_filter.mp hlink
    refine ⟨hmem, fun previous hunit hother heq => ?_⟩
    simp only [hunit, Option.filter_some, bne_iff_ne.mpr hother, if_true, Option.bind_some, heq,
      Option.some.injEq] at hski
    simp [hski] at hkept
  case h_2 hnone =>
    refine ⟨hlink, fun previous hunit hother heq => ?_⟩
    simp [hunit, hother, heq] at hnone

theorem Clean.trustUnit {unit : PairedUnit} (hc : h.Clean unit) {e : Ski × Fingerprint}
    (he : e ∈ h.admitted) (hcertificate : e.2 = unit.fingerprint)
    (htrusted : (h.store.trustUnit unit).1.isTrusted e.1 = true) : unit.ski = some e.1 := by
  rcases (TrustStore.isTrusted_trustUnit unit e.1).mp htrusted with hown | ⟨hold, hkept⟩
  · exact hown
  · exact (hc.2 e he hcertificate hold).resolve_right hkept

theorem Known.pair {unit : PairedUnit} (hc : h.Clean unit) : (h.pair unit).Known := by
  have hunit : (h.pair unit).store.unit = some unit := by rw [pair_store, TrustStore.unit_trustUnit]
  constructor
  · intro unit' hunit' link hlink hcertificate
    rw [hunit] at hunit'
    cases hunit'
    exact hc.1 link (mem_pair_links hlink).1 hcertificate
  · intro unit' hunit' e he hcertificate htrusted
    rw [hunit] at hunit'
    cases hunit'
    rw [pair_admitted] at he
    rw [pair_store] at htrusted
    exact hc.trustUnit he hcertificate htrusted

theorem Known.observe (hk : h.Known) {fingerprint : Fingerprint} {ski : Ski}
    (hlinks : h.store.isCertificateTrusted fingerprint = true →
      ∀ link ∈ h.links, link.fingerprint = fingerprint → link.ski = ski)
    (admitted : List (Ski × Fingerprint))
    (hadmitted : ∀ e ∈ admitted, e ∈ h.admitted ∨ e = (ski, fingerprint)) :
    ({ h with store := h.store.observeUnitSki fingerprint ski, admitted := admitted } : PairingHub).Known := by
  cases hunit : h.store.unit with
  | none =>
    have hnone : (h.store.observeUnitSki fingerprint ski).unit = none := by
      rw [TrustStore.unit_observeUnitSki, hunit]
      rfl
    exact ⟨fun unit hsome => (by simp [hnone] at hsome), fun unit hsome => (by simp [hnone] at hsome)⟩
  | some unit =>
    by_cases hmatch : unit.fingerprint = fingerprint
    · subst hmatch
      have hnew : (h.store.observeUnitSki unit.fingerprint ski).unit = some { unit with ski := some ski } := by
        rw [TrustStore.unit_observeUnitSki, hunit]
        simp
      have htrusted : h.store.isCertificateTrusted unit.fingerprint = true :=
        TrustStore.isCertificateTrusted_iff.mpr ⟨unit, hunit, rfl⟩
      constructor
      · intro unit' hsome link hlink hcertificate
        simp only [hnew, Option.some.injEq] at hsome
        subst hsome
        exact congrArg some (hlinks htrusted link hlink hcertificate).symm
      · intro unit' hsome e he hcertificate hkept
        simp only [hnew, Option.some.injEq] at hsome
        subst hsome
        rcases TrustStore.isTrusted_observeUnitSki hunit hkept with hsame | ⟨hold, hother⟩
        · exact congrArg some hsame.symm
        · rcases hadmitted e he with hbefore | rfl
          · exact absurd (hk.trusts unit hunit e hbefore hcertificate hold) hother
          · rfl
    · rw [TrustStore.observeUnitSki_other (by simp [TrustStore.isCertificateTrusted, hunit, hmatch])]
      refine ⟨hk.links, fun unit' hsome e he hcertificate hkept => ?_⟩
      rcases hadmitted e he with hbefore | rfl
      · exact hk.trusts unit' hsome e hbefore hcertificate hkept
      · rw [hunit] at hsome
        cases hsome
        exact absurd hcertificate.symm hmatch

theorem Known.of_same {h' : PairingHub} (hk : h.Known) (hstore : h'.store = h.store)
    (hlinks : ∀ link ∈ h'.links, link ∈ h.links) (hadmitted : h'.admitted = h.admitted) : h'.Known := by
  constructor
  · intro unit hunit link hlink
    exact hk.links unit (hstore ▸ hunit) link (hlinks link hlink)
  · intro unit hunit e he hcertificate htrusted
    rw [hstore] at hunit htrusted
    exact hk.trusts unit hunit e (hadmitted ▸ he) hcertificate htrusted

theorem noteUnitExchange_same (fingerprint : Fingerprint) :
    (h.noteUnitExchange fingerprint).links = h.links ∧
      (h.noteUnitExchange fingerprint).admitted = h.admitted := by
  simp only [noteUnitExchange]
  split
  · exact ⟨rfl, rfl⟩
  · split <;> exact ⟨rfl, rfl⟩

theorem Known.remember (hk : h.Known) {peer : TrustedPeer}
    (hrecorded : ∀ unit, h.store.unit = some unit → (peer.ski, unit.fingerprint) ∈ h.admitted →
      unit.ski = some peer.ski) :
    ({ h with store := h.store.remember peer } : PairingHub).Known := by
  refine ⟨hk.links, fun unit hunit e he hcertificate htrusted => ?_⟩
  rcases (TrustStore.isTrusted_remember peer e.1).mp htrusted with hnew | hold
  · rw [hnew]
    exact hrecorded unit hunit (hnew ▸ hcertificate ▸ he)
  · exact hk.trusts unit hunit e he hcertificate hold

theorem Known.shrink (hk : h.Known) {store : TrustStore}
    (hunit : ∀ unit, store.unit = some unit → h.store.unit = some unit)
    (htrusts : ∀ ski, store.isTrusted ski = true → h.store.isTrusted ski = true) :
    ({ h with store := store } : PairingHub).Known :=
  ⟨fun unit hsome => hk.links unit (hunit unit hsome),
    fun unit hsome e he hcertificate htrusted =>
      hk.trusts unit (hunit unit hsome) e he hcertificate (htrusts e.1 htrusted)⟩

theorem Known.performStore (hk : h.Known) {op : TrustOp} (hrecorded : h.Recorded (.inr op)) :
    ({ h with store := h.store.perform op } : PairingHub).Known := by
  cases op with
  | trust ski => exact hk.remember hrecorded
  | remember peer => exact hk.remember hrecorded
  | trustUnit unit =>
    have hc : h.Clean unit := hrecorded
    have hunit : (h.store.trustUnit unit).1.unit = some unit := TrustStore.unit_trustUnit unit
    constructor
    · intro unit' hsome link hlink hcertificate
      obtain rfl : unit = unit' := Option.some.inj (hunit.symm.trans hsome)
      exact hc.1 link hlink hcertificate
    · intro unit' hsome e he hcertificate htrusted
      obtain rfl : unit = unit' := Option.some.inj (hunit.symm.trans hsome)
      exact hc.trustUnit he hcertificate htrusted
  | observeUnitSki fingerprint ski => exact hk.observe hrecorded h.admitted fun e he => .inl he
  | awardPinTrust ski =>
    refine hk.shrink (fun unit hunit => ?_) fun other htrusted => ?_
    · simp only [TrustStore.perform, TrustStore.awardPinTrust] at hunit
      split at hunit <;> exact hunit
    · rwa [TrustStore.perform, TrustStore.isTrusted_awardPinTrust] at htrusted
  | forget ski =>
    refine hk.shrink (fun unit hunit => ?_) fun other htrusted => ?_
    · simp only [TrustStore.perform, TrustStore.forget] at hunit
      split at hunit
      · exact absurd hunit (Option.some_ne_none unit).symm
      · exact hunit
    · exact ((TrustStore.isTrusted_remove ski other).mp htrusted).1
  | forgetUnit =>
    refine hk.shrink (fun unit hunit => ?_) fun other htrusted => ?_
    · simp only [TrustStore.perform, TrustStore.forgetUnit] at hunit
      split at hunit <;> exact absurd hunit (Option.some_ne_none unit).symm
    · exact ((TrustStore.isTrusted_removed { h.store with unit := none } _ other).mp htrusted).1
  | forgetAll => exact hk.shrink (fun _ h => by cases h) (fun _ h => by cases h)

theorem Known.perform (hk : h.Known) {op : PairingOp} (hrecorded : h.Recorded (.inl op)) :
    (h.perform op).Known := by
  cases op with
  | elapse | acceptPairingRequests | refusePairingRequests => exact hk.of_same rfl (fun _ hl => hl) rfl
  | evaluatePairing event =>
    rcases evaluatePairing_pairs (h := h) event with ⟨unit, hpairs, heq⟩ | ⟨pending, heq⟩
    · rw [PairingHub.perform, heq]
      exact .pair (hrecorded unit hpairs)
    · rw [PairingHub.perform, heq]
      exact hk.of_same rfl (fun _ hl => hl) rfl
  | frame index =>
    simp only [PairingHub.perform, frame]
    split
    case h_1 => exact hk
    case h_2 link hlink =>
      obtain ⟨hlinks, hadmitted⟩ := noteUnitExchange_same (h := h) link.fingerprint
      exact hk.of_same (noteUnitExchange_store _) (fun _ hl => hlinks ▸ hl) hadmitted
  | established link slot =>
    obtain ⟨hlinks, hadmitted⟩ := noteUnitExchange_same (h := h) link.fingerprint
    have hnoted : (h.noteUnitExchange link.fingerprint).Known :=
      hk.of_same (noteUnitExchange_store _) (fun _ hl => hlinks ▸ hl) hadmitted
    simp only [PairingHub.perform, established]
    split
    case isFalse => exact hnoted
    case isTrue hslot =>
      refine ⟨fun unit hunit other hother hcertificate => ?_, hnoted.trusts⟩
      rcases List.mem_append.mp hother with hold | hnew
      · exact hnoted.links unit hunit other hold hcertificate
      · rw [List.mem_singleton.mp hnew] at hcertificate ⊢
        exact hrecorded hslot unit (noteUnitExchange_store (h := h) link.fingerprint ▸ hunit) hcertificate
  | trustFor ski fingerprint =>
    simp only [PairingHub.perform, trustFor]
    split
    case h_1 => exact hk
    case h_2 hget =>
      split
      case isFalse => exact hk
      case isTrue =>
        refine hk.observe (hrecorded (by simp [TrustStore.isTrusted, hget])) _ fun e he => ?_
        exact (List.mem_cons.mp he).symm
  | drop index => exact hk.of_same rfl (fun _ hl => List.mem_of_mem_eraseIdx hl) rfl

theorem Known.severs (hk : h.Known) {op : PairingOp} {previous : PairedUnit}
    (hd : h.Displaces op previous) : (h.perform op).Severed previous := by
  obtain ⟨event, unit, hpairs, hother, heq⟩ := displaces_pairs hd
  obtain ⟨hnone, -⟩ := pairs_some hpairs
  rw [heq]
  constructor
  · intro link hlink hcertificate
    obtain ⟨hheld, hclosed⟩ := mem_pair_links hlink
    exact hclosed previous hd.1 hother (hk.links previous hd.1 link hheld hcertificate)
  · intro e he hcertificate
    rw [pair_admitted] at he
    rw [pair_store, ← Bool.not_eq_true, TrustStore.isTrusted_trustUnit]
    rintro (hown | ⟨hold, hkept⟩)
    · simp [hnone] at hown
    · rw [hd.1] at hkept
      exact hkept (hk.trusts previous hd.1 e he hcertificate hold)

/-- In every state that a displacement leads to, nothing is left of the unit displaced. -/
def DisplacedGone (fingerprint : Fingerprint) (store : TrustStore) (ops : List (PairingOp ⊕ TrustOp)) :
    Prop :=
  ∀ before op previous, before ++ [.inl op] <+: ops →
    (siteMachine.run (new fingerprint store) before).Displaces op previous →
      (siteMachine.run (new fingerprint store) (before ++ [.inl op])).Severed previous

end PairingHub

/-- Where whatever is held of the paired unit is held under the SKI on record, nothing is left of a unit
that is displaced. -/
theorem displaced_unit_gone (fingerprint : Fingerprint) (store : TrustStore)
    (ops : List (PairingOp ⊕ TrustOp))
    (hrecorded : PairingHub.siteMachine.Admits PairingHub.Recorded (.new fingerprint store) ops) :
    PairingHub.DisplacedGone fingerprint store ops := by
  intro before op previous hprefix hdisplaces
  have hbefore := PairingHub.siteMachine.admits_prefix hrecorded ((List.prefix_append _ _).trans hprefix)
  have hknown : (PairingHub.siteMachine.run (.new fingerprint store) before).Known := by
    refine PairingHub.siteMachine.run_invariant _ PairingHub.Known (fun h op hk hok => ?_) before _
      ⟨nofun, nofun⟩ hbefore
    cases op with
    | inl op => exact hk.perform hok
    | inr op => exact hk.performStore hok
  rw [Machine.run_append]
  exact hknown.severs hdisplaces

/-- A unit is paired, connects, and is replaced. -/
theorem displaced_unit_gone_connected :
    PairingHub.DisplacedGone 1 .empty [.inl .acceptPairingRequests, .inl (authentic 5),
      .inl (.trustFor 50 5), .inl (.established ⟨50, 5⟩ true), .inl (.elapse replaceableAfter),
      .inl (authentic 6)] := by
  refine displaced_unit_gone 1 .empty _ ⟨trivial, ?_, ?_, ?_, trivial, ?_, trivial⟩
  · exact fun unit _ => ⟨(fun _ h => by cases h), fun _ h => by cases h⟩
  · exact fun _ _ _ h => by cases h
  · intro _ unit hunit _
    cases (show some ⟨"unit", 5, "secp256r1", some 50, none⟩ = some unit from hunit)
    rfl
  · intro unit hpairs
    cases (show some ⟨"unit", 6, "secp256r1", none, none⟩ = some unit from hpairs)
    exact ⟨by decide +kernel, by decide +kernel⟩

/-- A unit is paired, connects, pairs again, and is replaced: its connection stays. -/
theorem displaced_unit_connected :
    ¬ PairingHub.DisplacedGone 1 .empty [.inl .acceptPairingRequests, .inl (authentic 5),
      .inl (.trustFor 50 5), .inl (.established ⟨50, 5⟩ true), .inl (.elapse replaceableAfter),
      .inl (authentic 5), .inl (.elapse replaceableAfter), .inl (authentic 6)] := by
  intro h
  have hsevered := h [.inl .acceptPairingRequests, .inl (authentic 5), .inl (.trustFor 50 5),
    .inl (.established ⟨50, 5⟩ true), .inl (.elapse replaceableAfter), .inl (authentic 5),
    .inl (.elapse replaceableAfter)] (authentic 6) ⟨"unit", 5, "secp256r1", none, none⟩
    (List.prefix_refl _) ⟨by rfl, ⟨"unit", 6, "secp256r1", none, none⟩, by rfl, by decide⟩
  exact absurd (hsevered.1 ⟨50, 5⟩ (by decide +kernel)) (by decide)

end Eebus.Runtime
