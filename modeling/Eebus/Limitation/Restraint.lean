import Eebus.Library.Exactness
import Eebus.Limitation.Bookkeeping

/-!
The guard's restraint: what it has written it does not write again, while the requirement is the same and
the peer reports no other limit than it acknowledged.
-/

namespace Eebus.Limitation

open Eebus.Library Eebus.Model Eebus.Spine

variable {S : Schema}

/-- What is required now has been written, and the write neither refused nor left unanswered. -/
def written : List Entry → Bool
  | [] => false
  | entry :: earlier =>
    match entry.mark with
    | .wrote _ _ => true
    | .required _ | .refused | .unanswered => false
    | _ => written earlier

/-- A limit that can be told from itself: one that is active, of watts that are no number. -/
def LimitWrite.Strange (limit : LimitWrite) : Prop :=
  limit.isActive = true ∧ limit.watts.isFinite = false

theorem sameLimit_self {limit : LimitWrite} (h : ¬limit.Strange) : sameLimit limit limit = true := by
  unfold sameLimit
  cases hactive : limit.isActive with
  | false => simp
  | true =>
    have hfinite : limit.watts.isFinite = true := by
      by_contra hno
      exact h ⟨hactive, Bool.eq_false_iff.mpr hno⟩
    rw [F64.sub_self hfinite]
    simp only [beq_self_eq_true, Bool.true_and, Bool.not_true, Bool.false_or]
    decide +kernel

/-- What the record requires is on its way to the peer, or acknowledged by it. -/
structure Tracked.Satisfied (t : Tracked) : Prop where
  opened : t.openingWriteSent = true
  underWay : ∀ counter limit, t.outstanding = some (counter, limit) →
    limit = t.required.getD LimitWrite.deactivated
  acknowledged : t.outstanding = none → t.applied = some (t.required.getD LimitWrite.deactivated)

theorem Tracked.Satisfied.strange {t : Tracked} (h : t.Satisfied) {now : Nat}
    (hheld : t.holdsBack now = none) : (t.required.getD LimitWrite.deactivated).Strange := by
  by_contra hplain
  have hwants : t.wantsWrite = true ∧ t.outstanding = none := by
    unfold Tracked.holdsBack at hheld
    split at hheld
    case isTrue => cases hheld
    case isFalse hready =>
      split at hheld
      case isTrue => cases hheld
      case isFalse hwants => exact ⟨by simpa using hwants, by simp at hready; exact hready.2⟩
  have happlied := h.acknowledged hwants.2
  have hsame := sameLimit_self hplain
  have hunwanted : t.wantsWrite = false := by
    unfold Tracked.wantsWrite
    rw [h.opened, happlied]
    cases hrequired : t.required with
    | none =>
      rw [hrequired] at hsame
      simpa using hsame
    | some limit =>
      rw [hrequired] at hsame
      simpa using hsame
  rw [hunwanted] at hwants
  cases hwants.1

theorem satisfied_change {surprised attended : Prop} (hcalm : ¬surprised) {now : Nat} {t t' : Tracked}
    {past past' : List Entry} (hchange : Change surprised attended now t past t' past')
    (h : written past = true → t.Satisfied) : written past' = true → t'.Satisfied := by
  have hsame : ∀ {u : Tracked}, u.required = t.required → u.outstanding = t.outstanding →
      u.applied = t.applied → u.openingWriteSent = t.openingWriteSent → t.Satisfied → u.Satisfied := by
    intro u hrequired hout happlied hopened ht
    refine ⟨hopened.trans ht.opened, ?_, ?_⟩
    · rw [hout, hrequired]
      exact ht.underWay
    · rw [hout, hrequired, happlied]
      exact ht.acknowledged
  cases hchange with
  | unmoved hunmoved =>
    intro hwritten
    rw [hunmoved]
    exact hsame rfl rfl rfl rfl (h hwritten)
  | relearned ids reads hids => exact fun hwritten => hsame rfl rfl rfl rfl (h hwritten)
  | observed reported due hfree hsurprise =>
    intro hwritten
    refine absurd (hsurprise ?_) hcalm
    rw [(h hwritten).acknowledged hfree]
    rfl
  | learned | subscribed | boundLoadControl | boundConfiguration =>
    exact fun hwritten => hsame rfl rfl rfl rfl (h hwritten)
  | beat =>
    intro hwritten
    split
    · exact hsame rfl rfl rfl rfl (h hwritten)
    · exact h hwritten
  | wrote device counter limitId hheld =>
    refine fun _ => ⟨rfl, fun counter' limit hout => ?_, nofun⟩
    exact (Prod.mk.inj (Option.some.inj hout)).2.symm
  | @accepted _ device counter limit hout =>
    intro hwritten
    have hlimit := (h hwritten).underWay counter limit hout
    exact ⟨(h hwritten).opened, nofun, fun _ => congrArg some hlimit⟩
  | requirement | refused | unanswered => exact fun hwritten => nomatch hwritten

def restraint : Regime where
  Holds _ t past := written past = true → t.Satisfied
  Writes past _ _ limit := written past = true → limit.Strange
  within _ := True
  next _ _ := True
  surprised := False
  attended := False
  later _ h := h
  fresh _ _ := nofun
  deferred _ _ _ := nofun
  change _ hchange h := satisfied_change not_false hchange h
  heard hattended := hattended.elim
  write h hheld _ hwritten := (h hwritten).strange hheld

end Eebus.Limitation
