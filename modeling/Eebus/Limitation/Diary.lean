import Eebus.Limitation.EnergyGuard

/-!
The guard's diary, peer by peer: what has passed since it last attached to one of them, and the
discipline its limit writes are to keep.
-/

namespace Eebus.Limitation

open Eebus.Library Eebus.Model Eebus.Spine

def Entry.concerns (entry : Entry) (device : AddressDevice) : Bool := entry.device.all (· == device)

/-- What concerns one peer since the guard last attached to it, the latest first. -/
def since (device : AddressDevice) : List Entry → List Entry
  | [] => []
  | entry :: earlier =>
    if entry.concerns device then
      if entry.mark = .attached then [] else entry :: since device earlier
    else since device earlier

def underWay : List Entry → Bool
  | [] => false
  | entry :: earlier =>
    match entry.mark with
    | .wrote _ _ => true
    | .accepted | .refused | .unanswered => false
    | _ => underWay earlier

def writeTime (entry : Entry) : Option Nat :=
  match entry.mark with
  | .wrote _ _ => some entry.time
  | _ => none

def writeTimes (past : List Entry) : List Nat := past.filterMap writeTime

def refusedAt : List Entry → Option Nat
  | [] => none
  | entry :: earlier =>
    match entry.mark with
    | .refused => some entry.time
    | .wrote _ _ | .accepted | .unanswered | .required _ => none
    | _ => refusedAt earlier

def refusals : List Entry → Nat
  | [] => 0
  | entry :: earlier =>
    match entry.mark with
    | .refused => refusals earlier + 1
    | .accepted | .required _ => 0
    | _ => refusals earlier

def retries : List Entry → Bool
  | [] => false
  | entry :: earlier =>
    match entry.mark with
    | .refused | .unanswered => true
    | .wrote _ _ | .accepted | .required _ => false
    | _ => retries earlier

def learnedId : List Entry → Option Nat
  | [] => none
  | entry :: earlier =>
    match entry.mark with
    | .learned limitId => some limitId
    | _ => learnedId earlier

def marked (mark : Mark) (past : List Entry) : Bool := past.any fun entry => entry.mark == mark

def Mark.listeners : Mark → List AddressDevice
  | .beat listeners => listeners
  | _ => []

def HeardAt (device : AddressDevice) (past : List Entry) (time : Nat) : Prop :=
  ∃ entry ∈ past, entry.time = time ∧ device ∈ entry.mark.listeners

/-- The guard has attached to the peer, and not let go of it since. -/
def attachedTo (device : AddressDevice) : List Entry → Bool
  | [] => false
  | entry :: earlier =>
    if entry.device = some device ∧ entry.mark = .attached then true
    else if entry.device = some device ∧ entry.mark = .detached then false
    else attachedTo device earlier

/-- The entry requires something of the peer; what is required of all is required of those that are
attached. -/
def Entry.requires (entry : Entry) (device : AddressDevice) (earlier : List Entry) : Bool :=
  entry.device = some device || entry.device.isNone && attachedTo device earlier

def lastRequired (device : AddressDevice) : List Entry → Option (Option LimitWrite)
  | [] => none
  | entry :: earlier =>
    match entry.mark with
    | .required limit => if entry.requires device earlier then some limit else lastRequired device earlier
    | _ => lastRequired device earlier

/-- What was required last has not been dropped: the peer has not been let go of, nor attached to anew,
while it was attached. -/
def remembered (device : AddressDevice) : List Entry → Bool
  | [] => true
  | entry :: earlier =>
    match entry.mark with
    | .required _ => entry.requires device earlier || remembered device earlier
    | .attached | .detached =>
      if entry.device = some device ∧ attachedTo device earlier = true then false
      else remembered device earlier
    | _ => remembered device earlier

def memory (device : AddressDevice) (diary : List Entry) : Option (Option LimitWrite) :=
  if remembered device diary then lastRequired device diary else none

/-- The limit that says a requirement; nothing required is said as a deactivation. -/
def carried (required : Option LimitWrite) : LimitWrite :=
  (required.map normalise).getD LimitWrite.deactivated

/-- Every limit write in a diary carries what the guard goes by. -/
def Carried (diary : List Entry) : Prop :=
  ∀ later device time limitId limit earlier,
    diary = later ++ ⟨time, some device, .wrote limitId limit⟩ :: earlier →
      limit = carried ((memory device earlier).getD none)

/-- An activated limit has a duration, if it has one at all, and watts of no negative value. -/
def Sendable (limit : LimitWrite) : Prop :=
  limit.isActive = true → limit.duration ≠ some 0 ∧ limit.watts.isNegative = false

instance (limit : LimitWrite) : Decidable (Sendable limit) :=
  inferInstanceAs (Decidable (_ → _ ∧ _))

/-- A heartbeat went out to the device within the freshness before `time`. -/
def HeardLately (device : AddressDevice) (past : List Entry) (time : Nat) : Prop :=
  ∃ entry ∈ past, device ∈ entry.mark.listeners ∧ entry.time ≤ time ∧
    time < entry.time + heartbeatFreshness

instance (device : AddressDevice) (past : List Entry) (time : Nat) :
    Decidable (HeardLately device past time) :=
  inferInstanceAs (Decidable (∃ entry ∈ past, device ∈ entry.mark.listeners ∧ entry.time ≤ time ∧
    time < entry.time + heartbeatFreshness))

/-- What a limit write is to be, after what has passed since the guard attached to the peer. -/
structure Disciplined (past : List Entry) (time limitId : Nat) (limit : LimitWrite) : Prop where
  bound : marked .boundLoadControl past = true ∧ marked .boundConfiguration past = true
  known : learnedId past = some limitId
  free : underWay past = false
  paced : retries past = false → ∀ earlier ∈ (writeTimes past).dropLast, earlier + minWriteInterval ≤ time
  backedOff : ∀ refused, refusedAt past = some refused →
    refused + retryBackoffStep * refusals past ≤ time
  sendable : Sendable limit

theorem forall_wrote_cons {P : AddressDevice → Nat → Nat → LimitWrite → List Entry → Prop}
    {diary : List Entry} (h : ∀ later device time limitId limit earlier,
      diary = later ++ ⟨time, some device, .wrote limitId limit⟩ :: earlier → P device time limitId limit earlier)
    {entry : Entry}
    (hentry : ∀ device limitId limit, entry.device = some device → entry.mark = .wrote limitId limit →
      P device entry.time limitId limit diary) : ∀ later device time limitId limit earlier,
      entry :: diary = later ++ ⟨time, some device, .wrote limitId limit⟩ :: earlier →
        P device time limitId limit earlier := by
  intro later device time limitId limit earlier heq
  cases later with
  | nil =>
    obtain ⟨rfl, rfl⟩ := List.cons.inj heq
    exact hentry device limitId limit rfl rfl
  | cons first rest => exact h rest device time limitId limit earlier (List.cons.inj heq).2

structure Follows (now : Nat) (t : Tracked) (past : List Entry) : Prop where
  loadControl : t.boundLoadControl = marked .boundLoadControl past
  configuration : t.boundConfiguration = marked .boundConfiguration past
  limitId : t.ids.limit = learnedId past
  watches : t.watchesHeartbeat = marked .subscribed past
  opening : t.openingWriteSent = !(writeTimes past).isEmpty
  outstanding : t.outstanding.isSome = underWay past
  lastWrite : t.lastWrite = (writeTimes past).dropLast.head?
  retryAt : t.retryAt = (refusedAt past).map (· + retryBackoffStep * refusals past)
  refusals : t.refusals = refusals past
  /-- So many refusals take their time. -/
  spaced : fromSecs 30 * (t.refusals * (t.refusals + 1)) ≤ t.retryAt.getD now
  required : ∀ limit ∈ t.required, Sendable limit
  ordered : past.Pairwise fun later earlier => earlier.time ≤ later.time
  timely : ∀ entry ∈ past, entry.time ≤ now

section Marks

variable {past : List Entry} {time : Nat} {device : Option AddressDevice}

theorem retries_of_refusedAt (h : (refusedAt past).isSome = true) : retries past = true := by
  induction past with
  | nil => cases h
  | cons entry earlier ih =>
    unfold refusedAt at h
    unfold retries
    cases hmark : entry.mark <;> simp only [hmark] at h ⊢ <;> first | exact ih h | cases h

theorem refusedAt_of_underWay (h : underWay past = true) : refusedAt past = none := by
  induction past with
  | nil => rfl
  | cons entry earlier ih =>
    unfold underWay at h
    unfold refusedAt
    cases hmark : entry.mark <;> simp only [hmark] at h ⊢ <;> first | exact ih h | cases h

theorem HeardAt.cons (entry : Entry) {heard : Nat} {device : AddressDevice}
    (h : HeardAt device past heard) : HeardAt device (entry :: past) heard := by
  obtain ⟨beat, hmem, hbeat⟩ := h
  exact ⟨beat, List.mem_cons_of_mem entry hmem, hbeat⟩

theorem writeTimes_le_head (h : past.Pairwise fun later earlier => earlier.time ≤ later.time) :
    ∀ earlier ∈ (writeTimes past).dropLast, ∃ last, (writeTimes past).dropLast.head? = some last ∧
      earlier ≤ last := by
  have hsorted : (writeTimes past).Pairwise fun later earlier => earlier ≤ later := by
    refine List.Pairwise.filterMap writeTime (fun a b hab x hx y hy => ?_) h
    have htime : ∀ {e : Entry} {z : Nat}, z ∈ writeTime e → z = e.time := fun hz => by
      unfold writeTime at hz
      split at hz
      · exact (Option.mem_some_iff.mp hz).symm
      · cases hz
    rw [htime hx, htime hy]
    exact hab
  have hdropped := hsorted.sublist (List.dropLast_sublist _)
  intro earlier hearlier
  cases hlist : (writeTimes past).dropLast with
  | nil =>
    rw [hlist] at hearlier
    cases hearlier
  | cons last rest =>
    rw [hlist] at hearlier hdropped
    refine ⟨last, rfl, ?_⟩
    cases List.mem_cons.mp hearlier with
    | inl heq => exact heq.le
    | inr hmem => exact (List.pairwise_cons.mp hdropped).1 earlier hmem

end Marks

theorem sendable_of_nonneg {limit : LimitWrite} (h : limit.watts.isNegative = false) :
    Sendable (if limit.isActive ∧ limit.duration = some 0 then { limit with duration := none }
      else limit) := by
  split
  case isTrue => exact fun _ => ⟨nofun, h⟩
  case isFalse hnot => exact fun hactive => ⟨fun hzero => hnot ⟨hactive, hzero⟩, h⟩

theorem sendable_normalise (limit : LimitWrite) : Sendable (normalise limit) := by
  refine sendable_of_nonneg ?_
  split
  case isTrue => exact (by decide : F64.zero.isNegative = false)
  case isFalse hnonneg => exact Bool.eq_false_iff.mpr hnonneg

namespace Follows

variable {now now' : Nat} {t t' : Tracked} {past : List Entry}

theorem later (h : Follows now t past) (hle : now ≤ now') : Follows now' t past :=
  { h with
    spaced := h.spaced.trans (by cases t.retryAt <;> simp [hle])
    timely := fun entry hentry => (h.timely entry hentry).trans hle }

theorem timely_cons (h : Follows now t past) (device : Option AddressDevice) (mark : Mark) :
    ∀ entry ∈ (⟨now, device, mark⟩ : Entry) :: past, entry.time ≤ now :=
  List.forall_mem_cons.mpr ⟨le_refl now, h.timely⟩

theorem ordered_cons (h : Follows now t past) (device : Option AddressDevice) (mark : Mark) :
    ((⟨now, device, mark⟩ : Entry) :: past).Pairwise fun later earlier => earlier.time ≤ later.time :=
  .cons h.timely h.ordered

variable (device : Option AddressDevice)

section

variable (h : Follows now t past)

include h

theorem subscribed :
    Follows now { t with watchesHeartbeat := true } (⟨now, device, .subscribed⟩ :: past) :=
  { h with
    watches := rfl
    ordered := h.ordered_cons device _
    timely := h.timely_cons device _ }

theorem boundLoadControl :
    Follows now { t with boundLoadControl := true } (⟨now, device, .boundLoadControl⟩ :: past) :=
  { h with
    loadControl := rfl
    ordered := h.ordered_cons device _
    timely := h.timely_cons device _ }

theorem boundConfiguration :
    Follows now { t with boundConfiguration := true } (⟨now, device, .boundConfiguration⟩ :: past) :=
  { h with
    configuration := rfl
    ordered := h.ordered_cons device _
    timely := h.timely_cons device _ }

theorem learned {ids : PeerIds} {limitId : Nat} (hids : ids.limit = some limitId) :
    Follows now { t with ids := ids } (⟨now, device, .learned limitId⟩ :: past) :=
  { h with
    limitId := hids
    ordered := h.ordered_cons device _
    timely := h.timely_cons device _ }

theorem requirement (limit : Option LimitWrite) :
    Follows now (t.setRequired limit now) (⟨now, device, .required limit⟩ :: past) :=
  { h with
    retryAt := rfl
    refusals := rfl
    spaced := Nat.zero_le _
    required := fun limit' hlimit' => by
      obtain ⟨given, -, rfl⟩ := Option.map_eq_some_iff.mp hlimit'
      exact sendable_normalise given
    ordered := h.ordered_cons device _
    timely := h.timely_cons device _ }

theorem beat (listeners : List AddressDevice) :
    Follows now (if t.watchesHeartbeat then { t with beatSeenAt := some now } else t)
      (⟨now, device, .beat listeners⟩ :: past) := by
  have hsame : Follows now t (⟨now, device, .beat listeners⟩ :: past) :=
    { h with
      ordered := h.ordered_cons device _
      timely := h.timely_cons device _ }
  split
  · exact { hsame with }
  · exact hsame

theorem accepted (limit : LimitWrite) :
    Follows now { t with outstanding := none, applied := some limit, refusals := 0, retryAt := none }
      (⟨now, device, .accepted⟩ :: past) :=
  { h with
    outstanding := rfl
    retryAt := rfl
    refusals := rfl
    spaced := Nat.zero_le _
    ordered := h.ordered_cons device _
    timely := h.timely_cons device _ }

theorem retryAt_none (hout : t.outstanding.isSome = true) : t.retryAt = none := by
  rw [h.retryAt, refusedAt_of_underWay (h.outstanding ▸ hout)]
  rfl

theorem unanswered (hout : t.outstanding.isSome = true) (due : Option Nat) :
    Follows now { t with outstanding := none, writeDueAt := due }
      (⟨now, device, .unanswered⟩ :: past) :=
  { h with
    outstanding := rfl
    retryAt := h.retryAt_none hout
    ordered := h.ordered_cons device _
    timely := h.timely_cons device _ }

/-- A refusal doubles as the evidence that the refusals before it have waited their time: there is
never one too many to count. -/
theorem refused (hout : t.outstanding.isSome = true) (hnow : now ≤ durationMax)
    (due : Option Nat) :
    Follows now
      { t with
        outstanding := none
        refusals := min (t.refusals + 1) (2 ^ 32 - 1)
        retryAt := some (now + retryBackoffStep * min (t.refusals + 1) (2 ^ 32 - 1))
        writeDueAt := due }
      (⟨now, device, .refused⟩ :: past) := by
  have hspaced := h.spaced
  rw [h.retryAt_none hout, Option.getD_none] at hspaced
  have hcount : t.refusals + 1 ≤ 2 ^ 32 - 1 := by
    by_contra hmany
    have hlow : 2 ^ 32 - 1 ≤ t.refusals := by omega
    have hproduct : (2 ^ 32 - 1) * 2 ^ 32 ≤ t.refusals * (t.refusals + 1) :=
      Nat.mul_le_mul hlow (by omega)
    have hlong : durationMax < fromSecs 30 * ((2 ^ 32 - 1) * 2 ^ 32) := by decide
    have hall := Nat.mul_le_mul_left (fromSecs 30) hproduct
    omega
  rw [Nat.min_eq_left hcount]
  have hnext : fromSecs 30 * ((t.refusals + 1) * (t.refusals + 1 + 1)) =
      fromSecs 30 * (t.refusals * (t.refusals + 1)) + retryBackoffStep * (t.refusals + 1) := by
    rw [show retryBackoffStep = fromSecs 30 * 2 from rfl]
    ring
  exact { h with
    outstanding := rfl
    retryAt := by rw [h.refusals]; rfl
    refusals := by rw [h.refusals]; rfl
    spaced := by
      rw [hnext, Option.getD_some]
      exact Nat.add_le_add_right hspaced _
    ordered := h.ordered_cons device _
    timely := h.timely_cons device _ }

end

theorem released (hheld : t.holdsBack now = none) :
    t.isReady = true ∧ t.outstanding.isSome = false ∧ (∀ retryAt ∈ t.retryAt, retryAt ≤ now) ∧
      (t.retryAt = none → ∀ last ∈ t.lastWrite, minWriteInterval ≤ now - last) := by
  unfold Tracked.holdsBack at hheld
  split at hheld
  case isTrue => cases hheld
  case isFalse hready =>
    split at hheld
    case isTrue => cases hheld
    case isFalse =>
      split at hheld
      case isTrue => cases hheld
      case isFalse =>
        simp only [Bool.or_eq_true, not_or, Bool.not_eq_true, Bool.not_eq_false'] at hready
        refine ⟨by simpa using hready.1, hready.2, ?_, ?_⟩
        · intro retryAt hretry
          rw [Option.mem_def.mp hretry] at hheld
          dsimp only at hheld
          split at hheld
          · cases hheld
          · omega
        · intro hnone last hlast
          rw [hnone, Option.mem_def.mp hlast] at hheld
          dsimp only at hheld
          split at hheld
          · cases hheld
          · omega

theorem disciplined (h : Follows now t past) (hheld : t.holdsBack now = none) {limitId : Nat}
    (hid : t.ids.limit = some limitId) :
    Disciplined past now limitId (t.required.getD LimitWrite.deactivated) := by
  obtain ⟨hready, hfree, hretry, hpaced⟩ := released hheld
  simp only [Tracked.isReady, Bool.and_eq_true] at hready
  refine ⟨⟨h.loadControl ▸ hready.1.1, h.configuration ▸ hready.1.2⟩, h.limitId ▸ hid,
    h.outstanding ▸ hfree, fun hnew earlier hearlier => ?_, fun refused hrefused => ?_, ?_⟩
  · have hnone : t.retryAt = none := by
      cases hrefused : refusedAt past with
      | none => rw [h.retryAt, hrefused, Option.map_none]
      | some refused =>
        rw [retries_of_refusedAt (by rw [hrefused]; rfl)] at hnew
        cases hnew
    obtain ⟨last, hlast, hle⟩ := writeTimes_le_head h.ordered earlier hearlier
    have hwait := hpaced hnone last (h.lastWrite ▸ hlast)
    have hpositive : 0 < minWriteInterval := by decide
    omega
  · have hwait := hretry _ (Option.mem_def.mpr (by rw [h.retryAt, hrefused]; rfl))
    exact hwait
  · cases hrequired : t.required with
    | none => exact fun hactive => absurd hactive (by decide)
    | some limit => exact h.required limit hrequired

theorem wrote (h : Follows now t past) (hheld : t.holdsBack now = none) (counter : MsgCounter)
    (limitId : Nat) (limit : LimitWrite) :
    Follows now (t.wrote counter limit now) (⟨now, device, .wrote limitId limit⟩ :: past) := by
  obtain ⟨-, -, hretry, -⟩ := released hheld
  have hlast : (if t.openingWriteSent then some now else none) =
      (writeTimes (⟨now, device, .wrote limitId limit⟩ :: past)).dropLast.head? := by
    have hwrites : writeTimes (⟨now, device, .wrote limitId limit⟩ :: past) = now :: writeTimes past :=
      rfl
    rw [hwrites, h.opening]
    cases writeTimes past <;> rfl
  exact { h with
    opening := rfl
    outstanding := rfl
    lastWrite := hlast
    retryAt := rfl
    spaced := by
      have hspaced := h.spaced
      cases hat : t.retryAt with
      | none =>
        rw [hat] at hspaced
        exact hspaced
      | some retryAt =>
        rw [hat] at hspaced
        exact hspaced.trans (hretry retryAt hat)
    ordered := h.ordered_cons device _
    timely := h.timely_cons device _ }

theorem attached (peer : ControllableSystemPeer) : Follows now (Tracked.new peer now) [] where
  loadControl := rfl
  configuration := rfl
  limitId := rfl
  watches := rfl
  opening := rfl
  outstanding := rfl
  lastWrite := rfl
  retryAt := rfl
  refusals := rfl
  spaced := Nat.zero_le _
  required := fun _ hlimit => nomatch hlimit
  ordered := .nil
  timely := fun _ hentry => nomatch hentry

end Follows

end Eebus.Limitation
