import Eebus.Runtime.KeyMaterial

/-! What a peer's announcements do to the trust store over whole runs: which retired keys lose their
trust, and which records of the store stay as they are. -/

namespace Eebus.Runtime

open Eebus.Library Eebus.Ship

namespace KeyMaterial

/-- An earlier accepted announcement put the key forward as current or successor. -/
def PutForward (past : List (Event KeyMaterial (Ski × KeyMaterialState) Unit)) (key : Ski) : Prop :=
  ∃ e ∈ past, e.before.accepts e.input.1 e.input.2 = true ∧ puts e.input.2 key

/-- The announcement does away with the key: it names it neither as current nor as successor, and
its own connection does not run on it. -/
def Retires (input : Ski × KeyMaterialState) (key : Ski) : Prop :=
  ¬ puts input.2 key ∧ key ≠ input.1

theorem isTrusted_takeUp_retired {k : KeyMaterial} {input : Ski × KeyMaterialState} {key : Ski}
    (h : k.accepts input.1 input.2 = true) (hretires : Retires input key) :
    (k.takeUp input.1 input.2).store.isTrusted key = true ↔
      k.store.isTrusted key = true ∧ ¬ k.holds input.1 key := by
  obtain ⟨hput, hown⟩ := hretires
  rw [TrustStore.isTrusted, get_takeUp h]
  by_cases hheld : k.holds input.1 key
  · simp [hput, hown, hheld]
  · simp [hput, hheld, TrustStore.isTrusted]

theorem holds_takeUp {k : KeyMaterial} {ski : Ski} {state : KeyMaterialState} (key : Ski) :
    (k.takeUp ski state).holds ski key ↔
      if k.accepts ski state then puts state key else k.holds ski key := by
  split
  case isTrue h => exact keysFor_takeUp h key
  case isFalse h =>
    rw [takeUp_refused (by simpa using h), holds, keysFor_setKeys_keysFor, holds]

/-- Under one SKI, a key that was put forward and is still trusted is in that SKI's record, or is
the SKI itself. -/
def Recorded (ski : Ski)
    (p : KeyMaterial × List (Event KeyMaterial (Ski × KeyMaterialState) Unit)) : Prop :=
  ∀ key, PutForward p.2 key → p.1.store.isTrusted key = true → p.1.holds ski key ∨ key = ski

theorem Recorded.next {ski : Ski}
    {p : KeyMaterial × List (Event KeyMaterial (Ski × KeyMaterialState) Unit)}
    (h : Recorded ski p) {input : Ski × KeyMaterialState} (hinput : input.1 = ski) :
    Recorded ski (machine.recorded.next p input) := by
  subst hinput
  intro key hforward htrusted
  change (p.1.takeUp input.1 input.2).store.isTrusted key = true at htrusted
  change (p.1.takeUp input.1 input.2).holds input.1 key ∨ key = input.1
  rw [holds_takeUp]
  by_cases hacc : p.1.accepts input.1 input.2 = true
  · rw [if_pos hacc]
    by_cases hput : puts input.2 key
    · exact .inl hput
    by_cases hown : key = input.1
    · exact .inr hown
    -- a key neither put forward now nor the connection's own was put forward before
    obtain ⟨e, he, heacc, heput⟩ := hforward
    have hpast : PutForward p.2 key := by
      rcases List.mem_cons.mp he with rfl | he
      · exact absurd heput hput
      · exact ⟨e, he, heacc, heput⟩
    obtain ⟨hbefore, hnot⟩ := (isTrusted_takeUp_retired hacc ⟨hput, hown⟩).mp htrusted
    exact absurd (h key hpast hbefore) (by simp [hnot, hown])
  · rw [if_neg hacc]
    have hpast : PutForward p.2 key := by
      obtain ⟨e, he, heacc, heput⟩ := hforward
      rcases List.mem_cons.mp he with rfl | he
      · exact absurd heacc hacc
      · exact ⟨e, he, heacc, heput⟩
    rw [takeUp_refused (by simpa using hacc), setKeys_store] at htrusted
    exact h key hpast htrusted

/-- At every accepted announcement of every run, the keys it retires lose their trust exactly when
those among them that are still trusted are in the record kept under the SKI of its connection; and
so they do when all announcements come under one SKI. -/
theorem retired_keys_lose_trust_iff (start : KeyMaterial) (inputs : List (Ski × KeyMaterialState)) :
    (∀ e past, e :: past <:+ (machine.recorded.run (start, []) inputs).2 →
      e.before.accepts e.input.1 e.input.2 = true →
      ((∀ key, PutForward past key → Retires e.input key → e.after.store.isTrusted key = false) ↔
        ∀ key, PutForward past key → Retires e.input key → e.before.store.isTrusted key = true →
          e.before.holds e.input.1 key)) ∧
    (∀ ski, (∀ input ∈ inputs, input.1 = ski) →
      ∀ e past, e :: past <:+ (machine.recorded.run (start, []) inputs).2 →
        e.before.accepts e.input.1 e.input.2 = true →
        ∀ key, PutForward past key → Retires e.input key → e.after.store.isTrusted key = false) := by
  constructor
  · have hall : ∀ (p : KeyMaterial × List (Event KeyMaterial (Ski × KeyMaterialState) Unit))
        (input : Ski × KeyMaterialState), True → True → True := fun _ _ _ _ => trivial
    refine machine.recorded_run_events hall (fun k past input _ _ hacc => ?_) trivial
      (machine.recorded.admits_of_forall (fun _ _ => trivial) inputs _)
    refine forall_congr' fun key => forall_congr' fun _ => forall_congr' fun hretires => ?_
    have hstep : (machine.next k input).store.isTrusted key = true ↔
        k.store.isTrusted key = true ∧ ¬ k.holds input.1 key :=
      isTrusted_takeUp_retired hacc hretires
    rw [← Bool.not_eq_true, hstep, not_and, not_not]
  · intro ski hski
    have hstep : ∀ p input, Recorded ski p → input.1 = ski →
        Recorded ski (machine.recorded.next p input) := fun p input hp hinput => hp.next hinput
    have hinit : Recorded ski (start, []) := by
      rintro key ⟨e, he, -⟩
      simp at he
    refine machine.recorded_run_events hstep (fun k past input hp hinput hacc key hforward hretires => ?_)
      hinit (machine.recorded.admits_of_forall_mem inputs _ hski)
    rw [← Bool.not_eq_true]
    intro htrusted
    obtain ⟨hbefore, hnot⟩ := (isTrusted_takeUp_retired hacc hretires).mp htrusted
    rcases hp key hforward hbefore with hheld | hown
    · exact hnot (hinput ▸ hheld)
    · exact hretires.2 (hown.trans hinput.symm)

def oldKey : String := "1111111111111111111111111111111111111111"

def newKey : String := "2222222222222222222222222222222222222222"

def keyEntry (state : KeyState) (ski : String) : KeyMaterialStateEntry :=
  ⟨some state, some curveSecp256r1, some ski, none⟩

def announcement (counter : Nat) (entries : List KeyMaterialStateEntry) : KeyMaterialState :=
  ⟨some counter, some entries⟩

def fresh (store : TrustStore) : KeyMaterial := ⟨[], store, []⟩

/-- A renewal over two connections: announced under the old SKI, completed under the new one. The
retired key stays trusted. -/
theorem completed_renewal_keeps_old_key :
    ∃ old new, parseSki oldKey = some old ∧ parseSki newKey = some new ∧
      ∃ e past, e :: past <:+ (machine.recorded.run (fresh (TrustStore.empty.trust old), [])
          [(old, announcement 2 [keyEntry .current oldKey, keyEntry .successor newKey]),
            (new, announcement 3 [keyEntry .current newKey, keyEntry .predecessor oldKey])]).2 ∧
        e.before.accepts e.input.1 e.input.2 = true ∧ PutForward past old ∧ Retires e.input old ∧
        e.after.store.isTrusted old = true := by
  refine ⟨(parseSki oldKey).get (by decide +kernel), (parseSki newKey).get (by decide +kernel),
    by simp, by simp, _, _, List.suffix_refl _, by decide +kernel, ?_, ⟨?_, ?_⟩, by decide +kernel⟩
  · exact ⟨_, List.mem_cons_self, by decide +kernel, by decide +kernel⟩
  · decide +kernel
  · decide +kernel

/-- The announcement leaves the record of `key` alone: if it names the key anew, the record was the
one a fresh decision makes; and if it drops the key, the connection runs on it. -/
def Spares (key : Ski) (k : KeyMaterial) (input : Ski × KeyMaterialState) : Prop :=
  k.accepts input.1 input.2 = true →
    (puts input.2 key → ¬ k.holds input.1 key → k.store.get key = some (TrustedPeer.new key)) ∧
    (¬ puts input.2 key → k.holds input.1 key → key = input.1)

instance (key : Ski) (k : KeyMaterial) (input : Ski × KeyMaterialState) :
    Decidable (Spares key k input) :=
  inferInstanceAs (Decidable (_ = true → (_ → ¬ _ → _ = _) ∧ (¬ _ → _ → _ = _)))

theorem get_takeUp_eq_iff {k : KeyMaterial} {key : Ski} {peer : TrustedPeer}
    (hget : k.store.get key = some peer) (input : Ski × KeyMaterialState) :
    (k.takeUp input.1 input.2).store.get key = some peer ↔ Spares key k input := by
  by_cases hacc : k.accepts input.1 input.2 = true
  · rw [get_takeUp hacc]
    by_cases hput : puts input.2 key
    · by_cases hheld : k.holds input.1 key
      · simp [Spares, hput, hheld, hget]
      · simp [Spares, hacc, hput, hheld, hget, eq_comm]
    · by_cases hheld : k.holds input.1 key
      · by_cases hown : key = input.1
        · have hstay : ¬ (k.holds input.1 key ∧ ¬ puts input.2 key ∧ key ≠ input.1) :=
            fun hn => hn.2.2 hown
          rw [if_neg fun hn => hput hn.1, if_neg hstay]
          exact ⟨fun _ _ => ⟨fun hn => absurd hn hput, fun _ _ => hown⟩, fun _ => hget⟩
        · simp [Spares, hacc, hput, hheld, hown]
      · simp [Spares, hput, hheld, hget]
  · rw [takeUp_refused (by simpa using hacc), setKeys_store, hget]
    simp [Spares, hacc]

/-- A record of the trust store stays as it is through a whole run of a peer's announcements exactly
when each of them spares it. -/
theorem record_unchanged_iff_spared (start : KeyMaterial) (inputs : List (Ski × KeyMaterialState))
    (key : Ski) (peer : TrustedPeer) (hget : start.store.get key = some peer) :
    (∀ taken, taken <+: inputs → (machine.run start taken).store.get key = some peer) ↔
      machine.Admits (Spares key) start inputs := by
  induction inputs generalizing start with
  | nil =>
    refine ⟨fun _ => trivial, fun _ taken htaken => ?_⟩
    rw [List.prefix_nil.mp htaken]
    exact hget
  | cons input rest ih =>
    constructor
    · intro hall
      have hnext : (machine.next start input).store.get key = some peer :=
        hall [input] (by simp)
      refine ⟨(get_takeUp_eq_iff hget input).mp hnext, (ih _ hnext).mp fun taken htaken => ?_⟩
      exact hall (input :: taken) (by simpa using htaken)
    · rintro ⟨hspared, hrest⟩ taken htaken
      have hnext : (machine.next start input).store.get key = some peer :=
        (get_takeUp_eq_iff hget input).mpr hspared
      cases taken with
      | nil => exact hget
      | cons first taken =>
        obtain ⟨rfl, hlater⟩ := List.cons_prefix_cons.mp htaken
        exact (ih _ hnext).mpr hrest taken hlater

/-- The record of a device the user has named, with the second factor its PIN earned. -/
def namedPeer (ski : Ski) : TrustedPeer :=
  ⟨ski, some "Wallbox", none, none, none, ⟨32, 0, 32⟩⟩

theorem record_unchanged_iff_spared_other :
    ∃ old new other, parseSki oldKey = some old ∧ parseSki newKey = some new ∧ other = 7 ∧
      ∀ taken, taken <+: [(old, announcement 1 [keyEntry .current oldKey]),
          (old, announcement 2 [keyEntry .current oldKey, keyEntry .successor newKey])] →
        (machine.run (fresh (TrustStore.empty.remember (namedPeer other))) taken).store.get other =
          some (namedPeer other) :=
  ⟨(parseSki oldKey).get (by decide +kernel), (parseSki newKey).get (by decide +kernel), _,
    by simp, by simp, rfl,
    (record_unchanged_iff_spared _ _ _ _ (by decide +kernel)).mpr (by decide +kernel)⟩

/-- A peer that lists another device's SKI wipes what the user knows of it, and dropping it from the
next announcement takes its trust away. -/
theorem announcement_takes_over_record :
    ∃ own other, parseSki oldKey = some own ∧ parseSki newKey = some other ∧
      let start := fresh (TrustStore.empty.remember (namedPeer other))
      let first := (own, announcement 1 [keyEntry .current oldKey, keyEntry .successor newKey])
      let second := (own, announcement 2 [keyEntry .current oldKey])
      ¬ start.holds own other ∧ start.store.get other = some (namedPeer other) ∧
      (machine.run start [first]).store.get other = some (TrustedPeer.new other) ∧
      (machine.run start [first, second]).store.get other = none :=
  ⟨(parseSki oldKey).get (by decide +kernel), (parseSki newKey).get (by decide +kernel),
    by simp, by simp, by decide +kernel, by decide +kernel, by decide +kernel, by decide +kernel⟩

end KeyMaterial

end Eebus.Runtime
