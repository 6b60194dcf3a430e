import Eebus.Limitation.EnergyGuard

/-!
The deadlines the guard keeps for one peer: what holds a limit write back and until when, and which of the
peer's records promise that the deadline is there.
-/

namespace Eebus.Limitation

open Eebus.Library Eebus.Model Eebus.Spine

variable {S : Schema}

namespace Tracked

def permitted (t : Tracked) : Nat :=
  max (if t.watchesHeartbeat then 0 else t.attachedAt + subscriptionGrace)
    (match t.retryAt, t.lastWrite with
    | some retryAt, _ => retryAt
    | none, some last => last + minWriteInterval
    | none, none => 0)

/-- The peer has not acknowledged the limit required of it, or with nothing required no limit at all. One
that was never written to has acknowledged nothing. -/
def Owed (t : Tracked) : Prop :=
  t.openingWriteSent = false ∨
    ∀ applied ∈ t.applied, ∃ limit ∈ t.required, applied ≠ limit ∧ sameLimit limit applied = false

instance (t : Tracked) : Decidable t.Owed :=
  inferInstanceAs (Decidable (_ ∨ ∀ applied ∈ t.applied, ∃ limit ∈ t.required, _ ∧ _))

variable {t t' : Tracked} {now at_ : Nat} {due : Option Nat}

theorem wantsWrite_of_unopened (h : t.openingWriteSent = false) : t.wantsWrite = true := by
  rw [wantsWrite, h]
  rfl

theorem Owed.wants (h : t.Owed) (hspoken : t.openingWriteSent = true → t.required = none → t.applied ≠ none) :
    t.wantsWrite = true := by
  cases hopened : t.openingWriteSent with
  | false => exact wantsWrite_of_unopened hopened
  | true =>
    obtain hunopened | howed := h
    · rw [hopened] at hunopened
      cases hunopened
    cases happlied : t.applied with
    | none =>
      cases hrequired : t.required with
      | none => exact absurd happlied (hspoken hopened hrequired)
      | some limit => simp [wantsWrite, hopened, hrequired, happlied]
    | some applied =>
      obtain ⟨limit, hrequired, -, hdiffers⟩ := howed applied happlied
      simp [wantsWrite, hopened, Option.mem_def.mp hrequired, happlied, hdiffers]

theorem le_permitted_of_retryAt (h : t.retryAt = some at_) : at_ ≤ t.permitted := by
  rw [permitted, h]
  exact Nat.le_max_right _ _

/-- A write that is held back without a deadline waits for an answer, or there is none to be sent. -/
inductive Held (t : Tracked) (now : Nat) : Option Nat → Prop
  | unready (h : t.isReady = false) : Held t now none
  | underWay (h : t.outstanding.isSome = true) : Held t now none
  | unwanted (h : t.wantsWrite = false) : Held t now none
  | until_ {due : Nat} (hready : t.isReady = true) (hfree : t.outstanding = none) (hlater : now < due)
      (hpermitted : due ≤ t.permitted)
      (hbackoff : t.watchesHeartbeat = false ∧ now < t.attachedAt + subscriptionGrace ∨
        ∀ retryAt ∈ t.retryAt, now < retryAt) : Held t now (some due)

theorem holdsBack_some (h : t.holdsBack now = some due) : t.Held now due := by
  unfold holdsBack at h
  split at h
  case isTrue hwaits =>
    cases h
    cases hready : t.isReady with
    | false => exact .unready hready
    | true =>
      rw [hready] at hwaits
      exact .underWay (by simpa using hwaits)
  case isFalse hidle =>
    simp only [Bool.or_eq_true, Bool.not_eq_true', not_or, Bool.not_eq_false, Bool.not_eq_true,
      Option.isSome_eq_false_iff, Option.isNone_iff_eq_none] at hidle
    split at h
    case isTrue hunwanted =>
      cases h
      exact .unwanted (by simpa using hunwanted)
    case isFalse =>
      split at h
      case isTrue hunheard =>
        cases h
        simp only [canBeHeard, Bool.not_eq_true', Bool.or_eq_false_iff, decide_eq_false_iff_not] at hunheard
        have hlater : now < t.attachedAt + subscriptionGrace := by omega
        refine .until_ hidle.1 hidle.2 hlater ?_ (.inl ⟨hunheard.1, hlater⟩)
        rw [permitted, hunheard.1]
        exact Nat.le_max_left _ _
      case isFalse =>
        split at h
        case h_1 retryAt hretry =>
          split at h
          case isTrue hlater =>
            cases h
            refine .until_ hidle.1 hidle.2 hlater (le_permitted_of_retryAt hretry) (.inr fun r hr => ?_)
            exact Option.some.inj (hretry.symm.trans hr) ▸ hlater
          case isFalse => cases h
        case h_2 last hretry hlast =>
          split at h
          case isTrue hlater =>
            cases h
            refine .until_ hidle.1 hidle.2 (by omega) ?_ (.inr fun r hr => by rw [hretry] at hr; cases hr)
            rw [permitted, hretry, hlast]
            exact Nat.le_max_right _ _
          case isFalse => cases h
        case h_3 => cases h

theorem holdsBack_none (h : t.holdsBack now = none) :
    t.isReady = true ∧ t.outstanding = none ∧ t.canBeHeard now = true := by
  unfold holdsBack at h
  split at h
  case isTrue => cases h
  case isFalse hidle =>
    simp only [Bool.or_eq_true, Bool.not_eq_true', not_or, Bool.not_eq_false, Bool.not_eq_true,
      Option.isSome_eq_false_iff, Option.isNone_iff_eq_none] at hidle
    split at h
    case isTrue => cases h
    case isFalse =>
      split at h
      case isTrue => cases h
      case isFalse hheard => exact ⟨hidle.1, hidle.2, by simpa using hheard⟩

inductive Turned (t : Tracked) (now : Nat) : Tracked → Prop
  | held {due : Option Nat} (h : t.Held now due) : Turned t now { t with writeDueAt := due }
  | wrote (seen : Option Nat) (counter : MsgCounter) (hready : t.isReady = true)
      (hheard : t.canBeHeard now = true) :
      Turned t now (({ t with beatSeenAt := seen } : Tracked).wrote counter
        (t.required.getD LimitWrite.deactivated) now)

/-- What holds of a record whether or not its limit has had its turn. -/
structure Sound (now : Nat) (t : Tracked) : Prop where
  /-- A write in flight has no backoff, and a deadline only where a requirement came after it. -/
  flying : t.outstanding.isSome = true →
    t.openingWriteSent = true ∧ t.isReady = true ∧ t.canBeHeard now = true ∧ t.retryAt = none ∧
      ∀ due ∈ t.writeDueAt, due ≤ now
  /-- A backoff runs for a write that is still wanted. -/
  backoff : ∀ retryAt ∈ t.retryAt, t.isReady = true ∧ t.wantsWrite = true ∧
    (t.watchesHeartbeat = true ∨ t.attachedAt + subscriptionGrace ≤ retryAt)
  spoken : t.openingWriteSent = true → t.outstanding = none → t.required = none → t.applied ≠ none
  reported : t.readyReported = true → t.isReady = true

structure Attended (now : Nat) (t : Tracked) : Prop extends Sound now t where
  timely : ∀ due ∈ t.writeDueAt, due ≤ max now t.permitted
  waiting : t.isReady = true → t.outstanding = none → t.Owed →
    t.writeDueAt.isSome = true ∨ t.retryAt.isSome = true

theorem canBeHeard_later {now' : Nat} (h : t.canBeHeard now = true) (hle : now ≤ now') :
    t.canBeHeard now' = true := by
  simp only [canBeHeard, Bool.or_eq_true, decide_eq_true_eq] at h ⊢
  exact h.imp_right fun hgrace => by omega

theorem Sound.later {now' : Nat} (h : t.Sound now) (hle : now ≤ now') : t.Sound now' where
  flying hout := by
    obtain ⟨hopened, hready, hheard, hretry, hdue⟩ := h.flying hout
    exact ⟨hopened, hready, canBeHeard_later hheard hle, hretry, fun due hat => (hdue due hat).trans hle⟩
  backoff := h.backoff
  spoken := h.spoken
  reported := h.reported

theorem Attended.later {now' : Nat} (h : t.Attended now) (hle : now ≤ now') : t.Attended now' where
  toSound := h.toSound.later hle
  timely due hdue := (h.timely due hdue).trans (max_le_max_right _ hle)
  waiting := h.waiting

theorem Sound.turned (h : t.Sound now) (hturn : t.Turned now t') : t'.Attended now := by
  cases hturn with
  | @held due hheld =>
    have hsound : ({ t with writeDueAt := due } : Tracked).Sound now := by
      refine ⟨fun hout => ?_, h.backoff, h.spoken, h.reported⟩
      obtain ⟨hopened, hready, hheard, hretry, -⟩ := h.flying hout
      refine ⟨hopened, hready, hheard, hretry, ?_⟩
      cases hheld with
      | until_ _ hfree => simp [hfree] at hout
      | _ => exact nofun
    cases hheld with
    | unready hunready => exact ⟨hsound, nofun, fun hready => Bool.noConfusion (hunready.symm.trans hready)⟩
    | underWay hout => exact ⟨hsound, nofun, fun _ hfree => by rw [hfree] at hout; cases hout⟩
    | unwanted hunwanted =>
      refine ⟨hsound, nofun, fun _ hfree howed => ?_⟩
      have hwants : t.wantsWrite = true := Owed.wants howed fun hopened => h.spoken hopened hfree
      rw [hunwanted] at hwants
      cases hwants
    | until_ _ _ _ hpermitted _ =>
      refine ⟨hsound, fun due hdue => ?_, fun _ _ _ => .inl rfl⟩
      cases hdue
      exact hpermitted.trans (Nat.le_max_right _ _)
  | wrote seen counter hready hheard =>
    exact ⟨⟨fun _ => ⟨rfl, hready, hheard, rfl, nofun⟩, nofun, nofun, h.reported⟩, nofun, nofun⟩

theorem Sound.turned_later (h : t.Sound now) (hturn : t.Turned at_ t') :
    (∀ due ∈ t'.writeDueAt, at_ < due) ∧ ∀ due ∈ t'.retryAt, at_ < due := by
  cases hturn with
  | @held due hheld =>
    cases hheld with
    | unready hunready =>
      refine ⟨nofun, fun retryAt hretry => ?_⟩
      rw [(h.backoff retryAt hretry).1] at hunready
      cases hunready
    | underWay hout =>
      refine ⟨nofun, fun retryAt hretry => ?_⟩
      rw [(h.flying hout).2.2.2.1] at hretry
      cases hretry
    | unwanted hunwanted =>
      refine ⟨nofun, fun retryAt hretry => ?_⟩
      rw [(h.backoff retryAt hretry).2.1] at hunwanted
      cases hunwanted
    | until_ _ _ hlater _ hbackoff =>
      refine ⟨fun due hdue => Option.some.inj hdue ▸ hlater, fun retryAt hretry => ?_⟩
      obtain ⟨hdeaf, hgrace⟩ | hahead := hbackoff
      · obtain hwatches | hle := (h.backoff retryAt hretry).2.2
        · rw [hdeaf] at hwatches
          cases hwatches
        · exact Nat.lt_of_lt_of_le hgrace hle
      · exact hahead retryAt hretry
  | wrote seen counter => exact ⟨nofun, nofun⟩

theorem Attended.new (peer : ControllableSystemPeer) (now : Nat) : (Tracked.new peer now).Attended now where
  flying := nofun
  backoff := nofun
  spoken := nofun
  reported := nofun
  timely := nofun
  waiting := nofun

theorem Attended.setRequired (h : t.Attended now) (limit : Option LimitWrite)
    (hspoken : limit = none → t.openingWriteSent = true → t.outstanding = none → t.applied ≠ none) :
    (t.setRequired limit now).Attended now where
  flying hout := by
    obtain ⟨hopened, hready, hheard, -⟩ := h.flying hout
    exact ⟨hopened, hready, hheard, rfl, fun due hdue => (Option.some.inj hdue).ge⟩
  backoff := nofun
  spoken hopened hfree hrequired := hspoken (Option.map_eq_none_iff.mp hrequired) hopened hfree
  reported := h.reported
  timely due hdue := (Option.some.inj hdue).ge.trans (Nat.le_max_left _ _)
  waiting _ _ _ := .inl rfl

theorem Sound.subscribed (h : t.Sound now) : ({ t with watchesHeartbeat := true } : Tracked).Sound now where
  flying hout := by
    obtain ⟨hopened, hready, -, hretry, hdue⟩ := h.flying hout
    exact ⟨hopened, hready, Bool.true_or _, hretry, hdue⟩
  backoff retryAt hretry := ⟨(h.backoff retryAt hretry).1, (h.backoff retryAt hretry).2.1, .inl rfl⟩
  spoken := h.spoken
  reported := h.reported

/-- The record of a peer that may have become ready just now: its limit is to have a turn, unless the peer
was reported ready before. -/
structure Primed (now : Nat) (t : Tracked) : Prop extends Sound now t where
  timely : ∀ due ∈ t.writeDueAt, due ≤ max now t.permitted
  waiting : t.readyReported = true → t.outstanding = none → t.Owed →
    t.writeDueAt.isSome = true ∨ t.retryAt.isSome = true

theorem Attended.primed (h : t.Attended now) : t.Primed now where
  toSound := h.toSound
  timely := h.timely
  waiting hreported := h.waiting (h.reported hreported)

theorem Primed.attended (h : t.Primed now) (hready : t.readyReported = true ∨ t.isReady = false) :
    t.Attended now where
  toSound := h.toSound
  timely := h.timely
  waiting hisReady hfree howed := by
    obtain hreported | hunready := hready
    · exact h.waiting hreported hfree howed
    · rw [hunready] at hisReady
      cases hisReady

theorem Primed.announced (h : t.Primed now) (hready : t.isReady = true) :
    ({ t with readyReported := true } : Tracked).Sound now :=
  { h.toSound with reported := fun _ => hready }

theorem Primed.readier (h : t.Primed now) {bound configured : Bool} {ids : PeerIds}
    (hready : t.isReady = true → (bound && configured && ids.canWriteLimit) = true)
    (reads : List (MsgCounter × FeatureAddress)) :
    ({ t with
        boundLoadControl := bound
        boundConfiguration := configured
        ids := ids
        pendingReads := reads } : Tracked).Primed now where
  flying hout := by
    obtain ⟨hopened, hisReady, hrest⟩ := h.flying hout
    exact ⟨hopened, hready hisReady, hrest⟩
  backoff retryAt hretry := by
    obtain ⟨hisReady, hrest⟩ := h.backoff retryAt hretry
    exact ⟨hready hisReady, hrest⟩
  spoken := h.spoken
  reported hreported := hready (h.reported hreported)
  timely := h.timely
  waiting := h.waiting

theorem Attended.relearned (h : t.Attended now) {ids : PeerIds} (hids : ids.limit = t.ids.limit)
    (reads : List (MsgCounter × FeatureAddress)) :
    ({ t with ids := ids, pendingReads := reads } : Tracked).Attended now := by
  have hready : (t.boundLoadControl && t.boundConfiguration && ids.canWriteLimit) = t.isReady := by
    rw [isReady, PeerIds.canWriteLimit, hids, PeerIds.canWriteLimit]
  have hprimed := h.primed.readier (fun hisReady => hready.trans hisReady) reads
  exact ⟨hprimed.toSound, hprimed.timely, fun hisReady => h.waiting (hready.symm.trans hisReady)⟩

/-- Nothing is on its way to the peer, and after its opening write it has acknowledged nothing. -/
def Unheard (t : Tracked) : Prop :=
  t.openingWriteSent = true ∧ t.outstanding = none ∧ t.applied = none

instance (t : Tracked) : Decidable t.Unheard := inferInstanceAs (Decidable (_ ∧ _ ∧ _))

/-- An acceptance of this limit leaves another one required, and no deadline for it. -/
def Overtaken (t : Tracked) (limit : LimitWrite) : Prop :=
  t.writeDueAt = none ∧ ∃ required ∈ t.required, limit ≠ required ∧ sameLimit required limit = false

instance (t : Tracked) (limit : LimitWrite) : Decidable (t.Overtaken limit) :=
  inferInstanceAs (Decidable (_ ∧ ∃ required ∈ t.required, _ ∧ _))

theorem Attended.accepted (h : t.Attended now) {counter : MsgCounter} {limit : LimitWrite}
    (hout : t.outstanding = some (counter, limit)) (hkept : ¬t.Overtaken limit) :
    ({ t with outstanding := none, applied := some limit, refusals := 0, retryAt := none } :
      Tracked).Attended now := by
  obtain ⟨hopened, -, -, -, hdue⟩ := h.flying (by rw [hout]; rfl)
  refine ⟨⟨nofun, nofun, fun _ _ _ => nofun, h.reported⟩,
    fun due hat => (hdue due hat).trans (Nat.le_max_left _ _), fun _ _ howed => .inl ?_⟩
  cases hdueAt : t.writeDueAt with
  | some due => rfl
  | none =>
    obtain hunopened | howed := howed
    · exact Bool.noConfusion (hopened.symm.trans hunopened)
    exact absurd ⟨hdueAt, howed limit rfl⟩ hkept

theorem Attended.refused (h : t.Attended now) (hout : t.outstanding.isSome = true) (hwants : t.wantsWrite = true)
    (refusals : Nat) {retryAt : Nat} (hlater : now ≤ retryAt) :
    ({ t with
        outstanding := none
        refusals := refusals
        retryAt := some retryAt
        writeDueAt := some retryAt } : Tracked).Attended now := by
  obtain ⟨hopened, hready, hheard, -⟩ := h.flying hout
  refine ⟨⟨nofun, fun due hdue => ?_, fun _ _ hrequired happlied => ?_, h.reported⟩,
    fun due hdue => ?_, fun _ _ _ => .inl rfl⟩
  · cases hdue
    refine ⟨hready, hwants, ?_⟩
    simp only [canBeHeard, Bool.or_eq_true, decide_eq_true_eq] at hheard
    exact hheard.imp_right fun hgrace => by
      have hpositive : 0 < subscriptionGrace := by decide
      change t.attachedAt + subscriptionGrace ≤ retryAt
      omega
  · dsimp only at hrequired happlied
    rw [wantsWrite, hopened, hrequired, happlied] at hwants
    cases hwants
  · cases hdue
    exact (le_permitted_of_retryAt rfl).trans (Nat.le_max_right _ _)

theorem Attended.unanswered (h : t.Attended now) (hout : t.outstanding.isSome = true)
    (hspoken : t.required = none → t.applied ≠ none) :
    ({ t with outstanding := none, writeDueAt := some now } : Tracked).Attended now := by
  obtain ⟨-, -, -, hretry, -⟩ := h.flying hout
  refine ⟨⟨nofun, fun due hdue => ?_, fun _ _ => hspoken, h.reported⟩,
    fun due hdue => ?_, fun _ _ _ => .inl rfl⟩
  · dsimp only at hdue
    rw [hretry] at hdue
    cases hdue
  · exact (Option.some.inj hdue).ge.trans (Nat.le_max_left _ _)

/-- The report leaves a backoff with nothing to retry. -/
def Settles (t : Tracked) (data : CmdData S) : Prop :=
  t.retryAt.isSome = true ∧ ∃ reported ∈ t.ids.limit.bind (readLimitWrite data),
    (t.applied.any fun applied => sameLimit applied reported) = false ∧
      ({ t with applied := some reported } : Tracked).wantsWrite = false

instance (t : Tracked) (data : CmdData S) : Decidable (t.Settles data) :=
  inferInstanceAs (Decidable (_ ∧ ∃ reported ∈ t.ids.limit.bind (readLimitWrite data), _ ∧ _))

theorem reads_of_settles {data : CmdData S} (h : t.Settles data) :
    ∃ limitId, (readLimitWrite data limitId).isSome = true := by
  obtain ⟨-, reported, hreported, -⟩ := h
  obtain ⟨limitId, -, hread⟩ := Option.bind_eq_some_iff.mp hreported
  exact ⟨limitId, by rw [hread]; rfl⟩

theorem Sound.observed (h : t.Sound now) (hfree : t.outstanding = none) (reported : LimitWrite)
    (due : Option Nat) (hwants : t.retryAt.isSome = true →
      ({ t with applied := some reported } : Tracked).wantsWrite = true) :
    ({ t with applied := some reported, writeDueAt := due } : Tracked).Sound now where
  flying hout := by
    dsimp only at hout
    rw [hfree] at hout
    cases hout
  backoff retryAt hretry := by
    obtain ⟨hready, -, hgrace⟩ := h.backoff retryAt hretry
    exact ⟨hready, hwants (Option.isSome_of_mem hretry), hgrace⟩
  spoken _ _ _ := nofun
  reported := h.reported

theorem Attended.observed (h : t.Attended now) (hfree : t.outstanding = none) (reported : LimitWrite)
    (hwants : t.retryAt.isSome = true → ({ t with applied := some reported } : Tracked).wantsWrite = true)
    (hunwanted : ({ t with applied := some reported } : Tracked).wantsWrite = false) :
    ({ t with applied := some reported } : Tracked).Attended now := by
  refine ⟨h.toSound.observed hfree reported t.writeDueAt hwants, h.timely, fun _ _ howed => ?_⟩
  exact Bool.noConfusion (hunwanted.symm.trans (howed.wants fun _ _ => nofun))

end Tracked

end Eebus.Limitation
