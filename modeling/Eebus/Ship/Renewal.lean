import Eebus.Library.Machine
import Eebus.Ship.Keys

/-!
A node's own key material, its renewal, and what a peer that hears some of its announcements knows of
it. One counter stands for the state of every curve, but an announcement is taken up for one of them.
-/

namespace Eebus.Ship

open Eebus.Library

inductive KeyError
  | updateInProgress
  | notAChange
  | unknownCurve
deriving DecidableEq

namespace OwnKeys

def forCurve (current : Ski) (curve : Nat) : OwnKeys := ⟨1, [⟨.current, curve, current⟩]⟩

def find (keys : OwnKeys) (state : KeyState) (curve : Nat) : Option KeyEntry :=
  keys.entries.find? fun e => e.state == state && e.curve == curve

def updateInProgress (keys : OwnKeys) : Bool := keys.entries.any fun e => e.state == .successor

def bump (keys : OwnKeys) : OwnKeys := { keys with updateCounter := min (keys.updateCounter + 1) 65535 }

def beginUpdateFor (keys : OwnKeys) (successor : Ski) (curve : Nat) : Except KeyError OwnKeys :=
  if keys.updateInProgress then .error .updateInProgress
  else
    match keys.find .current curve with
    | none => .error .unknownCurve
    | some current =>
      if current.ski = successor then .error .notAChange
      else .ok (bump { keys with entries := keys.entries ++ [⟨.successor, curve, successor⟩] })

def succeed (succeeded : List Nat) (e : KeyEntry) : KeyEntry :=
  if e.curve ∈ succeeded then
    match e.state with
    | .current => { e with state := .predecessor }
    | .successor => { e with state := .current }
    | .predecessor => e
  else e

def completeUpdate (keys : OwnKeys) : OwnKeys × Bool :=
  if !keys.updateInProgress then (keys, false)
  else
    let succeeded := (keys.entries.filter fun e => e.state == .successor).map KeyEntry.curve
    let entries := keys.entries.filter fun e => !(e.state == .predecessor && succeeded.contains e.curve)
    (bump { keys with entries := entries.map (succeed succeeded) }, true)

def addCurve (keys : OwnKeys) (ski : Ski) (curve : Nat) : Except KeyError OwnKeys :=
  if (keys.find .current curve).isSome then .error .updateInProgress
  else .ok (bump { keys with entries := keys.entries ++ [⟨.current, curve, ski⟩] })

def dropCurve (keys : OwnKeys) (curve : Nat) : OwnKeys × Bool :=
  let entries := keys.entries.filter fun e => e.curve != curve
  if entries.length = keys.entries.length then (keys, false)
  else (bump { keys with entries := entries }, true)

end OwnKeys

/-- One change of a node's own key material. -/
inductive KeyOp
  | beginUpdateFor (successor : Ski) (curve : Nat)
  | completeUpdate
  | addCurve (ski : Ski) (curve : Nat)
  | dropCurve (curve : Nat)

variable {curve : Nat}

namespace OwnKeys

def perform (keys : OwnKeys) : KeyOp → OwnKeys
  | .beginUpdateFor successor curve => (keys.beginUpdateFor successor curve).toOption.getD keys
  | .completeUpdate => keys.completeUpdate.1
  | .addCurve ski curve => (keys.addCurve ski curve).toOption.getD keys
  | .dropCurve curve => (keys.dropCurve curve).1

def held (keys : OwnKeys) (state : KeyState) (curve : Nat) : Nat :=
  keys.entries.countP fun e => e.state == state && e.curve == curve

/-- A curve is not in use, or has one current certificate, at most one successor and at most one
predecessor. -/
def Orderly (keys : OwnKeys) (curve : Nat) : Prop :=
  (∀ state, keys.held state curve = 0) ∨
    keys.held .current curve = 1 ∧ keys.held .successor curve ≤ 1 ∧ keys.held .predecessor curve ≤ 1

/-- The SKI is that of a current or successor certificate of the curve. -/
def Presents (keys : OwnKeys) (curve : Nat) (ski : Ski) : Prop :=
  ∃ e ∈ keys.entries, e.curve = curve ∧ e.ski = ski ∧ (e.state = .current ∨ e.state = .successor)

variable {keys : OwnKeys}

theorem mem_keep_toMessage {other : Nat} {ski : Ski} :
    (other, ski) ∈ keys.toMessage.keep curve ↔ other = curve ∧ keys.Presents curve ski := by
  have hkeeps : ∀ e : KeyEntry,
      KeyMaterialStateEntry.keeps ⟨some e.state, some e.curve, some e.ski.toTxtValue, none⟩ curve =
        if e.curve = curve ∧ (e.state = .current ∨ e.state = .successor) then some (e.curve, e.ski)
        else none := by
    rintro ⟨state, at_, own⟩
    by_cases hcurve : at_ = curve
    · cases state <;> simp [KeyMaterialStateEntry.keeps, parseSki_toTxtValue, hcurve]
    · simp [KeyMaterialStateEntry.keeps, parseSki_toTxtValue, hcurve]
  simp only [KeyMaterialState.keep, toMessage, Option.getD_some, List.mem_filterMap, List.mem_map,
    exists_exists_and_eq_and, hkeeps, Presents]
  constructor
  · rintro ⟨e, he, hsome⟩
    split at hsome
    case isTrue hpresented =>
      cases hsome
      exact ⟨hpresented.1, e, he, hpresented.1, rfl, hpresented.2⟩
    case isFalse => cases hsome
  · rintro ⟨rfl, e, he, rfl, rfl, hstate⟩
    exact ⟨e, he, if_pos ⟨rfl, hstate⟩⟩

theorem held_append (entry : KeyEntry) (state : KeyState) (curve : Nat) :
    (bump { keys with entries := keys.entries ++ [entry] }).held state curve =
      keys.held state curve + if entry.state == state && entry.curve == curve then 1 else 0 := by
  simp only [held, bump, List.countP_append, List.countP_singleton]

theorem held_pos {state : KeyState} :
    0 < keys.held state curve ↔ ∃ e ∈ keys.entries, e.state = state ∧ e.curve = curve := by
  simp [held, List.countP_pos_iff]

theorem held_successor (h : keys.updateInProgress = false) (curve : Nat) :
    keys.held .successor curve = 0 := by
  refine Nat.eq_zero_of_not_pos fun hpos => ?_
  obtain ⟨e, he, hstate, -⟩ := held_pos.mp hpos
  simp only [updateInProgress, List.any_eq_false] at h
  exact h e he (by simp [hstate])

theorem Orderly.beginUpdateFor {successor : Ski} {at_ : Nat} (h : ∀ curve, keys.Orderly curve)
    (hidle : keys.updateInProgress = false) (hcurrent : 0 < keys.held .current at_) :
    (bump { keys with entries := keys.entries ++ [⟨.successor, at_, successor⟩] }).Orderly curve := by
  have hnone := held_successor hidle curve
  unfold Orderly
  simp only [held_append]
  by_cases hcurve : at_ = curve
  · subst hcurve
    rcases h at_ with hzero | ⟨hone, -, hpred⟩
    · exact absurd (hzero .current) (by omega)
    · exact .inr ⟨by simpa using hone, by simp [hnone], by simpa using hpred⟩
  · simpa [hcurve, Orderly] using h curve

theorem Orderly.addCurve {ski : Ski} {at_ : Nat} (h : ∀ curve, keys.Orderly curve)
    (hfree : keys.held .current at_ = 0) :
    (bump { keys with entries := keys.entries ++ [⟨.current, at_, ski⟩] }).Orderly curve := by
  unfold Orderly
  simp only [held_append]
  by_cases hcurve : at_ = curve
  · subst hcurve
    rcases h at_ with hzero | ⟨hone, -, -⟩
    · exact .inr ⟨by simp [hzero], by simp [hzero], by simp [hzero]⟩
    · omega
  · simpa [hcurve, Orderly] using h curve

def succeeded (keys : OwnKeys) : List Nat :=
  (keys.entries.filter fun e => e.state == .successor).map KeyEntry.curve

theorem mem_succeeded : curve ∈ keys.succeeded ↔ 0 < keys.held .successor curve := by
  rw [held_pos]
  simp [succeeded, and_assoc]

theorem held_completed (hrunning : keys.updateInProgress = true) (state : KeyState) (curve : Nat) :
    keys.completeUpdate.1.held state curve =
      keys.entries.countP fun e =>
        ((succeed keys.succeeded e).state == state && e.curve == curve) &&
          !(e.state == .predecessor && keys.succeeded.contains e.curve) := by
  have hcurve : ∀ e, (succeed keys.succeeded e).curve = e.curve := by
    intro e
    unfold succeed
    split
    · split <;> rfl
    · rfl
  simp only [completeUpdate, hrunning, Bool.not_true, Bool.false_eq_true, if_false, held, bump,
    List.countP_map, List.countP_filter]
  refine List.countP_congr fun e _ => ?_
  simp only [Function.comp_apply, ← succeeded.eq_1, hcurve]

theorem held_completed_other (hrunning : keys.updateInProgress = true)
    (hnone : keys.held .successor curve = 0) (state : KeyState) :
    keys.completeUpdate.1.held state curve = keys.held state curve := by
  have hnot : curve ∉ keys.succeeded := fun hmem => absurd (mem_succeeded.mp hmem) (by omega)
  rw [held_completed hrunning, held]
  refine List.countP_congr fun e _ => ?_
  by_cases hcurve : e.curve = curve
  · subst hcurve
    simp [succeed, hnot]
  · simp [hcurve]

theorem held_completed_succeeded (hrunning : keys.updateInProgress = true)
    (hsome : 0 < keys.held .successor curve) :
    keys.completeUpdate.1.held .current curve = keys.held .successor curve ∧
      keys.completeUpdate.1.held .predecessor curve = keys.held .current curve ∧
      keys.completeUpdate.1.held .successor curve = 0 := by
  have hmem : curve ∈ keys.succeeded := mem_succeeded.mpr hsome
  have hstates : ∀ e : KeyEntry, e.curve = curve →
      (succeed keys.succeeded e).state =
        match e.state with | .current => .predecessor | .successor => .current | .predecessor => .predecessor := by
    rintro ⟨state, curve, ski⟩ rfl
    cases state <;> simp [succeed, hmem]
  simp only [held_completed hrunning]
  refine ⟨List.countP_congr fun e _ => ?_, List.countP_congr fun e _ => ?_, ?_⟩
  · by_cases hcurve : e.curve = curve
    · rw [hstates e hcurve, hcurve]
      cases e.state <;> simp [hmem]
    · simp [hcurve]
  · by_cases hcurve : e.curve = curve
    · rw [hstates e hcurve, hcurve]
      cases e.state <;> simp [hmem]
    · simp [hcurve]
  · refine List.countP_eq_zero.mpr fun e _ => ?_
    by_cases hcurve : e.curve = curve
    · rw [hstates e hcurve, hcurve]
      cases e.state <;> simp
    · simp [hcurve]

theorem Orderly.completeUpdate (h : keys.Orderly curve)
    (hrunning : keys.updateInProgress = true) : keys.completeUpdate.1.Orderly curve := by
  by_cases hnone : keys.held .successor curve = 0
  · simpa only [Orderly, held_completed_other hrunning hnone] using h
  · obtain ⟨hcurrent, hpredecessor, hsuccessor⟩ :=
      held_completed_succeeded hrunning (Nat.pos_of_ne_zero hnone)
    rcases h with hzero | ⟨hone, hsucc, -⟩
    · exact absurd (hzero .successor) hnone
    · exact .inr ⟨by omega, by omega, by omega⟩

theorem Orderly.dropCurve (h : keys.Orderly curve) (dropped : Nat) :
    (bump { keys with entries := keys.entries.filter fun e => e.curve != dropped }).Orderly curve := by
  have hheld : ∀ state, (bump { keys with entries := keys.entries.filter fun e => e.curve != dropped }).held
      state curve = if curve = dropped then 0 else keys.held state curve := by
    intro state
    simp only [held, bump, List.countP_filter]
    split
    case isTrue hcurve =>
      refine List.countP_eq_zero.mpr fun e _ => ?_
      simp [hcurve]
    case isFalse hcurve =>
      refine List.countP_congr fun e _ => ?_
      simp only [Bool.and_eq_true, beq_iff_eq, bne_iff_ne]
      exact ⟨And.left, fun he => ⟨he, fun heq => hcurve (he.2.symm.trans heq)⟩⟩
  unfold Orderly
  simp only [hheld]
  by_cases hcurve : curve = dropped
  · exact .inl fun _ => if_pos hcurve
  · simpa [hcurve, Orderly] using h

theorem Orderly.perform (h : ∀ curve, keys.Orderly curve) (op : KeyOp) (curve : Nat) :
    (keys.perform op).Orderly curve := by
  cases op with
  | beginUpdateFor successor at_ =>
    simp only [OwnKeys.perform, OwnKeys.beginUpdateFor]
    split
    case isTrue => exact h curve
    case isFalse hidle =>
      split
      case h_1 => exact h curve
      case h_2 current hfind =>
        split
        case isTrue => exact h curve
        case isFalse =>
          have hcurrent : 0 < keys.held .current at_ :=
            held_pos.mpr ⟨current, List.mem_of_find?_eq_some hfind,
              by simpa [and_comm] using List.find?_some hfind⟩
          exact Orderly.beginUpdateFor h (by simpa using hidle) hcurrent
  | completeUpdate =>
    by_cases hrunning : keys.updateInProgress = true
    · exact (h curve).completeUpdate hrunning
    · simpa [OwnKeys.perform, OwnKeys.completeUpdate, hrunning] using h curve
  | addCurve ski at_ =>
    simp only [OwnKeys.perform, OwnKeys.addCurve]
    split
    case isTrue => exact h curve
    case isFalse hnone =>
      have hfree : keys.held .current at_ = 0 := by
        refine Nat.eq_zero_of_not_pos fun hpos => hnone ?_
        obtain ⟨e, he, hstate, hcurve⟩ := held_pos.mp hpos
        exact List.find?_isSome.mpr ⟨e, he, by simp [hstate, hcurve]⟩
      exact Orderly.addCurve h hfree
  | dropCurve dropped =>
    simp only [OwnKeys.perform, OwnKeys.dropCurve]
    split
    · exact h curve
    · exact (h curve).dropCurve dropped

theorem Orderly.held_le (h : keys.Orderly curve) (state : KeyState) :
    keys.held state curve ≤ 1 := by
  rcases h with hzero | ⟨hcurrent, hsuccessor, hpredecessor⟩
  · rw [hzero]
    exact Nat.zero_le 1
  · cases state with
    | current => exact hcurrent.le
    | successor => exact hsuccessor
    | predecessor => exact hpredecessor

theorem perform_counts (op : KeyOp) :
    keys.perform op = keys ∨ (keys.perform op).updateCounter = min (keys.updateCounter + 1) 65535 := by
  cases op with
  | beginUpdateFor successor curve =>
    simp only [perform, beginUpdateFor]
    split
    · exact .inl rfl
    · split
      · exact .inl rfl
      · split
        · exact .inl rfl
        · exact .inr rfl
  | completeUpdate =>
    simp only [perform, completeUpdate]
    split
    · exact .inl rfl
    · exact .inr rfl
  | addCurve ski curve =>
    simp only [perform, addCurve]
    split
    · exact .inl rfl
    · exact .inr rfl
  | dropCurve curve =>
    simp only [perform, dropCurve]
    split
    · exact .inl rfl
    · exact .inr rfl

end OwnKeys

structure Announced where
  own : OwnKeys
  sent : List KeyMaterialState
  peer : PeerKeys
  /-- The curves the peer has applied an announcement for. -/
  applied : List Nat

inductive RenewalOp
  | renew (op : KeyOp)
  | announce
  | lose
  | deliver (curve : Nat)

namespace Announced

def fresh (current : Ski) (curve : Nat) : Announced := ⟨.forCurve current curve, [], .new, []⟩

def perform (s : Announced) : RenewalOp → Announced
  | .renew op => { s with own := s.own.perform op }
  | .announce => { s with sent := s.sent ++ [s.own.toMessage] }
  | .lose => { s with sent := s.sent.tail }
  | .deliver curve =>
    match s.sent with
    | [] => s
    | message :: rest =>
      match s.peer.apply message curve with
      | some (peer, _) => { s with sent := rest, peer := peer, applied := curve :: s.applied }
      | none => { s with sent := rest }

def machine : Machine Announced RenewalOp Unit where
  step s op := (s.perform op, ())

/-- A peer that is not outdated trusts, on each curve it has applied an announcement for, what the
node presents there. -/
def InSync (s : Announced) : Prop :=
  s.peer.isOutdatedBy s.own.updateCounter = false →
    ∀ curve ∈ s.applied, ∀ ski, (curve, ski) ∈ s.peer.trusted ↔ s.own.Presents curve ski

/-- An announcement that moves the counter on brings nothing new for a curve it is not taken up for. -/
def Whole (s : Announced) : RenewalOp → Prop
  | .deliver curve => ∀ message counter rest, s.sent = message :: rest →
      message.updateCounter = some counter → s.peer.isOutdatedBy counter = true →
        ∀ other ∈ s.applied, other ≠ curve → ∀ ski,
          (other, ski) ∈ s.peer.trusted ↔ (other, ski) ∈ message.keep other
  | _ => True

def Room (s : Announced) : RenewalOp → Prop
  | .renew _ => s.own.updateCounter < 65535
  | _ => True

def isRenew : RenewalOp → Bool
  | .renew _ => true
  | _ => false

/-- `entries` are the certificates held at each counter so far: what is under way announces them, and
what the peer trusts are those of the counter it holds. -/
structure Recalls (entries : Nat → List KeyEntry) (s : Announced) : Prop where
  own : s.own.entries = entries s.own.updateCounter
  sent : ∀ message ∈ s.sent, ∃ counter ≤ s.own.updateCounter,
    message = OwnKeys.toMessage ⟨counter, entries counter⟩
  peer : s.peer.updateCounter ≤ s.own.updateCounter
  trusted : ∀ curve ∈ s.applied, ∀ ski, (curve, ski) ∈ s.peer.trusted ↔
    OwnKeys.Presents ⟨s.peer.updateCounter, entries s.peer.updateCounter⟩ curve ski

variable {s : Announced} {entries : Nat → List KeyEntry}

theorem Recalls.inSync (h : Recalls entries s) : s.InSync := by
  intro hknown curve happlied ski
  have hcounter : s.peer.updateCounter = s.own.updateCounter := by
    have hle : s.own.updateCounter ≤ s.peer.updateCounter := by
      simpa [PeerKeys.isOutdatedBy] using hknown
    exact le_antisymm h.peer hle
  rw [h.trusted curve happlied ski, hcounter]
  simp only [OwnKeys.Presents, h.own]

theorem Recalls.renew (h : Recalls entries s) (hroom : s.own.updateCounter < 65535) (op : KeyOp) :
    ∃ entries', Recalls entries' (s.perform (.renew op)) := by
  rcases s.own.perform_counts op with hsame | hcounts
  · refine ⟨entries, ?_⟩
    simpa only [perform, hsame] using h
  · have hnext : (s.own.perform op).updateCounter = s.own.updateCounter + 1 := by omega
    refine ⟨Function.update entries (s.own.updateCounter + 1) (s.own.perform op).entries, ?_, ?_, ?_, ?_⟩
    · simp [perform, hnext]
    · intro message hmessage
      obtain ⟨counter, hle, rfl⟩ := h.sent message hmessage
      refine ⟨counter, hle.trans (by simp [perform, hnext]), ?_⟩
      rw [Function.update_of_ne (by omega)]
    · exact h.peer.trans (by simp [perform, hnext])
    · intro curve happlied ski
      have hpeer := h.peer
      simp only [perform]
      rw [Function.update_of_ne (by omega)]
      exact h.trusted curve happlied ski

theorem Recalls.deliver (h : Recalls entries s) (curve : Nat) (hwhole : s.Whole (.deliver curve)) :
    Recalls entries (s.perform (.deliver curve)) := by
  simp only [perform]
  split
  case h_1 => exact h
  case h_2 message rest hsent =>
    have hrest : ∀ m ∈ rest, ∃ counter ≤ s.own.updateCounter,
        m = OwnKeys.toMessage ⟨counter, entries counter⟩ :=
      fun m hm => h.sent m (hsent ▸ List.mem_cons_of_mem message hm)
    obtain ⟨counter, hle, hmessage⟩ := h.sent message (hsent ▸ List.mem_cons_self)
    split
    case h_2 => exact ⟨h.own, hrest, h.peer, h.trusted⟩
    case h_1 peer update happly =>
      obtain ⟨hcounter, hforward⟩ := PeerKeys.apply_counter happly
      obtain rfl : counter = peer.updateCounter := by
        rw [hmessage] at hcounter
        exact Option.some.inj hcounter
      have hpresents : ∀ other ski, (other, ski) ∈ message.keep other ↔
          OwnKeys.Presents ⟨peer.updateCounter, entries peer.updateCounter⟩ other ski := by
        intro other ski
        rw [hmessage, OwnKeys.mem_keep_toMessage]
        simp
      refine ⟨h.own, hrest, hle, fun other hother ski => ?_⟩
      by_cases hsame : other = curve
      · subst hsame
        rw [(PeerKeys.apply_spec happly ski).1, hpresents]
      · rw [PeerKeys.apply_other happly hsame]
        have happlied : other ∈ s.applied := (List.mem_cons.mp hother).resolve_left hsame
        by_cases hnew : s.peer.updateCounter < peer.updateCounter
        · rw [hwhole message peer.updateCounter rest hsent hcounter (by simpa [PeerKeys.isOutdatedBy])
            other happlied hsame ski, hpresents]
        · have hequal : peer.updateCounter = s.peer.updateCounter := by omega
          rw [h.trusted other happlied ski, hequal]

theorem Recalls.perform (h : ∃ entries, Recalls entries s) {op : RenewalOp} (hwhole : s.Whole op)
    (hroom : s.Room op) : ∃ entries, Recalls entries (s.perform op) := by
  obtain ⟨entries, h⟩ := h
  cases op with
  | renew op => exact h.renew hroom op
  | announce =>
    refine ⟨entries, h.own, fun message hmessage => ?_, h.peer, h.trusted⟩
    rcases List.mem_append.mp hmessage with hold | hnew
    · exact h.sent message hold
    · refine ⟨s.own.updateCounter, le_rfl, ?_⟩
      rw [List.mem_singleton.mp hnew, ← h.own]
  | lose => exact ⟨entries, h.own, fun m hm => h.sent m (List.mem_of_mem_tail hm), h.peer, h.trusted⟩
  | deliver curve => exact ⟨entries, h.deliver curve hwhole⟩

theorem own_perform {op : RenewalOp} (hop : ∀ change, op ≠ .renew change) :
    (s.perform op).own = s.own := by
  cases op with
  | renew change => exact absurd rfl (hop change)
  | announce | lose => rfl
  | deliver curve =>
    simp only [perform]
    split
    · rfl
    · split <;> rfl

theorem admits_room (ops : List RenewalOp) (hcount : s.own.updateCounter + ops.countP isRenew ≤ 65535) :
    machine.Admits Room s ops := by
  induction ops generalizing s with
  | nil => trivial
  | cons op ops ih =>
    rw [List.countP_cons] at hcount
    by_cases hop : ∃ change, op = .renew change
    · obtain ⟨change, rfl⟩ := hop
      simp only [isRenew, if_true] at hcount
      have hroom : s.own.updateCounter < 65535 := by omega
      have hnext : (s.own.perform change).updateCounter ≤ s.own.updateCounter + 1 := by
        rcases s.own.perform_counts change with hsame | hcounts
        · rw [hsame]
          exact Nat.le_succ _
        · omega
      exact ⟨hroom, ih (le_trans (Nat.add_le_add_right hnext _) (by omega))⟩
    · have hown : (s.perform op).own = s.own := own_perform fun change heq => hop ⟨change, heq⟩
      refine ⟨?_, ih ?_⟩
      · cases op with
        | renew change => exact absurd ⟨change, rfl⟩ hop
        | announce | lose | deliver => trivial
      · change (s.perform op).own.updateCounter + _ ≤ _
        rw [hown]
        omega

theorem orderly_run (ops : List RenewalOp) (h : ∀ curve, s.own.Orderly curve) (curve : Nat) :
    (machine.run s ops).own.Orderly curve := by
  induction ops generalizing s with
  | nil => exact h curve
  | cons op ops ih =>
    refine ih fun curve => ?_
    change (s.perform op).own.Orderly curve
    by_cases hop : ∃ change, op = .renew change
    · obtain ⟨change, rfl⟩ := hop
      exact OwnKeys.Orderly.perform h change curve
    · rw [own_perform fun change heq => hop ⟨change, heq⟩]
      exact h curve

theorem fresh_orderly (current : Ski) (own curve : Nat) : (fresh current own).own.Orderly curve := by
  by_cases hcurve : own = curve
  · exact .inr (by simp [fresh, OwnKeys.forCurve, OwnKeys.held, hcurve])
  · exact .inl (by simp [fresh, OwnKeys.forCurve, OwnKeys.held, hcurve])

theorem fresh_recalls (current : Ski) (curve : Nat) :
    Recalls (fun _ => [⟨.current, curve, current⟩]) (fresh current curve) where
  own := rfl
  sent := nofun
  peer := Nat.zero_le 1
  trusted := nofun

/-- In every state reached, a peer that is not outdated trusts what the node presents, and the node
holds at most one certificate of each curve in each state. -/
def Noticed (current : Ski) (curve : Nat) (ops : List RenewalOp) : Prop :=
  ∀ before, before <+: ops → (machine.run (fresh current curve) before).InSync ∧
    ∀ state other, (machine.run (fresh current curve) before).own.held state other ≤ 1

end Announced

/-- Where no announcement that moves the counter on brings news of a curve it is not taken up for,
staleness is always noticed. -/
theorem staleness_noticed (current : Ski) (curve : Nat) (ops : List RenewalOp)
    (hcount : ops.countP Announced.isRenew < 65535)
    (hwhole : Announced.machine.Admits Announced.Whole (.fresh current curve) ops) :
    Announced.Noticed current curve ops := by
  intro before hprefix
  have hroom : Announced.machine.Admits Announced.Room (.fresh current curve) ops :=
    Announced.admits_room ops (by simp only [Announced.fresh, OwnKeys.forCurve]; omega)
  have hadmits := Announced.machine.admits_prefix (Announced.machine.admits_and hwhole hroom) hprefix
  have hrecalls : ∃ entries, Announced.Recalls entries
      (Announced.machine.run (.fresh current curve) before) :=
    Announced.machine.run_invariant _ (fun s => ∃ entries, Announced.Recalls entries s)
      (fun _ _ h hok => Announced.Recalls.perform h hok.1 hok.2) before _
      ⟨_, Announced.fresh_recalls current curve⟩ hadmits
  obtain ⟨entries, h⟩ := hrecalls
  have horderly := Announced.orderly_run before (Announced.fresh_orderly current curve)
  exact ⟨h.inSync, fun state other => (horderly other).held_le state⟩

/-- A node renews its certificate, its peer hears of it, and the node retires the old one. -/
theorem staleness_noticed_renewal :
    Announced.Noticed 1 23 [.announce, .deliver 23, .renew (.beginUpdateFor 2 23), .announce,
      .deliver 23, .renew .completeUpdate] := by
  have hnone : ∀ other, other ∉ (Announced.machine.run (.fresh 1 23) [.announce]).applied := nofun
  have hone : ∀ other ∈ (Announced.machine.run (.fresh 1 23) [.announce, .deliver 23,
      .renew (.beginUpdateFor 2 23), .announce]).applied, other = 23 := by decide +kernel
  refine staleness_noticed 1 23 _ (by decide) ⟨trivial, ?_, trivial, trivial, ?_, trivial, trivial⟩
  · exact fun _ _ _ _ _ _ other happlied => absurd happlied (hnone other)
  · exact fun _ _ _ _ _ _ other happlied hne => absurd (hone other happlied) hne

/-- A node with certificates on two curves renews the one its peer hears nothing of. -/
theorem staleness_unnoticed :
    ¬ Announced.Noticed 1 23 [.renew (.addCurve 9 24), .announce, .deliver 23,
      .renew (.beginUpdateFor 2 23), .announce, .deliver 24] := by
  intro h
  obtain ⟨hsync, -⟩ := h _ (List.prefix_refl _)
  have htrusts := (hsync (by decide +kernel) 23 (by decide +kernel) 2).mpr
    ⟨⟨.successor, 23, 2⟩, List.mem_of_getElem? (i := 2) rfl, rfl, rfl, .inr rfl⟩
  exact absurd htrusts (by decide +kernel)

end Eebus.Ship
