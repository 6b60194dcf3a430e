import Eebus.Library.Deadlines
import Eebus.Limitation.Deadlines
import Eebus.Limitation.WriteDiscipline

/-!
A guard whose owner sleeps until `pollTimeout`: in which runs the owner neither spins on a deadline that
never passes nor sleeps through a limit that is owed.
-/

namespace Eebus.Limitation

open Eebus.Library Eebus.Model Eebus.Spine

variable {S : Schema}

def Tracked.Ahead (at_ : Nat) (t : Tracked) : Prop :=
  (∀ due ∈ t.writeDueAt, at_ < due) ∧ ∀ retryAt ∈ t.retryAt, at_ < retryAt

theorem Tracked.ahead_iff (t : Tracked) (at_ next : Nat) :
    at_ < t.retryAt.elim (t.writeDueAt.elim next (min next)) (min (t.writeDueAt.elim next (min next))) ↔
      at_ < next ∧ t.Ahead at_ := by
  cases hdue : t.writeDueAt <;> cases hretry : t.retryAt <;>
    simp [Ahead, hdue, hretry]

theorem EnergyGuardActor.lt_pollTimeout_iff (actor : EnergyGuardActor) (at_ : Nat) :
    at_ < actor.pollTimeout ↔ at_ < actor.heartbeat.next ∧ ∀ t ∈ actor.peers, t.Ahead at_ := by
  have hfold : ∀ (peers : List Tracked) (next : Nat),
      at_ < peers.foldl (fun next t =>
          let next := t.writeDueAt.elim next (min next)
          t.retryAt.elim next (min next)) next ↔ at_ < next ∧ ∀ t ∈ peers, t.Ahead at_ := by
    intro peers
    induction peers with
    | nil => simp
    | cons t rest ih =>
      intro next
      rw [List.foldl_cons, ih, t.ahead_iff, List.forall_mem_cons, and_assoc]
  exact hfold actor.peers actor.heartbeat.next

theorem EnergyGuardActor.pollTimeout_le {actor : EnergyGuardActor} {t : Tracked} (ht : t ∈ actor.peers)
    {at_ : Nat} (h : at_ ∈ t.writeDueAt ∨ at_ ∈ t.retryAt) : actor.pollTimeout ≤ at_ := by
  by_contra hlate
  obtain ⟨hdue, hretry⟩ := ((actor.lt_pollTimeout_iff at_).mp (Nat.lt_of_not_le hlate)).2 t ht
  obtain hat | hat := h
  · exact Nat.lt_irrefl at_ (hdue at_ hat)
  · exact Nat.lt_irrefl at_ (hretry at_ hat)

namespace Guarding

/-- The guard as its owner sleeps and wakes it. -/
def alarm : Alarm (Guarding S) := ⟨fun s => some s.actor.pollTimeout, fun s now => (s.handleTimeout now).1⟩

/-- The owner wakes in time for every limit that is owed and only waits to be permitted. -/
def Remembers (now : Nat) (s : Guarding S) : Prop :=
  ∀ t ∈ s.actor.peers, t.isReady = true → t.outstanding = none → t.Owed →
    s.actor.pollTimeout ≤ max now t.permitted

instance (now : Nat) (s : Guarding S) : Decidable (s.Remembers now) :=
  inferInstanceAs (Decidable (∀ t ∈ s.actor.peers, t.isReady = true → t.outstanding = none → t.Owed → _))

structure Attended (now : Nat) (s : Guarding S) : Prop where
  beats : 0 < s.actor.heartbeat.period
  peers : ∀ t ∈ s.actor.peers, t.Attended now

theorem Attended.remembers {now : Nat} {s : Guarding S} (h : s.Attended now) : s.Remembers now := by
  intro t ht hready hfree howed
  have hattended := h.peers t ht
  obtain hdue | hretry := hattended.waiting hready hfree howed
  · obtain ⟨due, hdue⟩ := Option.isSome_iff_exists.mp hdue
    exact (EnergyGuardActor.pollTimeout_le ht (.inl hdue)).trans (hattended.timely due hdue)
  · obtain ⟨retryAt, hretry⟩ := Option.isSome_iff_exists.mp hretry
    exact (EnergyGuardActor.pollTimeout_le ht (.inr hretry)).trans
      ((Tracked.le_permitted_of_retryAt hretry).trans (Nat.le_max_right _ _))

/-- The call lets a deadline lapse. It withdraws the requirement from a peer that after its opening write
has acknowledged nothing, or gives such a peer's write up. It accepts a limit that is no longer the required
one, after the deadline of the new one was cleared. Or it refuses a limit that is no longer wanted, or
reports one, so that a backoff is left with nothing to retry. -/
def Lapses (s : Guarding S) : GuardCall S → Prop
  | .require device none _ => ∃ t ∈ s.actor.peers, t.peer.device = device ∧ t.Unheard
  | .requireAll none _ => ∃ t ∈ s.actor.peers, t.Unheard
  | .handleEvent (.resultReceived request error) _ => ∃ t ∈ s.actor.peers, ∃ sent ∈ t.outstanding,
      sent.1 = request ∧ if error.isSuccess then t.Overtaken sent.2 else t.wantsWrite = false
  | .handleEvent (.requestTimedOut request _) _ => ∃ t ∈ s.actor.peers, ∃ sent ∈ t.outstanding,
      sent.1 = request ∧ t.required = none ∧ t.applied = none
  | .handleEvent (.dataNotified feature _ data) _ | .handleEvent (.replyReceived feature _ data) _ =>
      ∃ t ∈ s.actor.peers, t.peer.loadControl = feature ∧ t.Settles data
  | _ => False

instance (s : Guarding S) : (call : GuardCall S) → Decidable (s.Lapses call)
  | .require device none _ =>
    inferInstanceAs (Decidable (∃ t ∈ s.actor.peers, t.peer.device = device ∧ t.Unheard))
  | .requireAll none _ => inferInstanceAs (Decidable (∃ t ∈ s.actor.peers, t.Unheard))
  | .handleEvent (.resultReceived request error) _ =>
    inferInstanceAs (Decidable (∃ t ∈ s.actor.peers, ∃ sent ∈ t.outstanding,
      sent.1 = request ∧ if error.isSuccess then t.Overtaken sent.2 else t.wantsWrite = false))
  | .handleEvent (.requestTimedOut request _) _ =>
    inferInstanceAs (Decidable (∃ t ∈ s.actor.peers, ∃ sent ∈ t.outstanding,
      sent.1 = request ∧ t.required = none ∧ t.applied = none))
  | .handleEvent (.dataNotified feature _ data) _ | .handleEvent (.replyReceived feature _ data) _ =>
    inferInstanceAs (Decidable (∃ t ∈ s.actor.peers, t.peer.loadControl = feature ∧ t.Settles data))
  | .require _ (some _) _ | .requireAll (some _) _ | .attach _ _ | .detach _ | .writeFailsafeLimit _ _ _
  | .writeFailsafeDuration _ _ _ | .handleTimeout _ | .engine _ => .isFalse id
  | .handleEvent (.discoveryUpdated _) _ | .handleEvent (.useCasesUpdated _) _
  | .handleEvent (.writeAbandoned _ _ _) _ | .handleEvent (.dataWritten _ _ _) _
  | .handleEvent (.writeRequested _) _ | .handleEvent (.bindingGranted _ _) _
  | .handleEvent (.bindingReleased _ _) _ | .handleEvent (.subscriptionGranted _ _) _
  | .handleEvent (.subscriptionReleased _ _) _ | .handleEvent (.requestRetried _ _ _) _ => .isFalse id

section Turn

variable {s : Guarding S} {index now : Nat} {Q : Nat → Tracked → Prop}

theorem every_updateAt {f : Tracked → Tracked}
    (hothers : ∀ place t, s.actor.peers[place]? = some t → place ≠ index → Q place t)
    (hown : ∀ t, s.actor.peers[index]? = some t → Q index (f t)) :
    ∀ place t, (s.updateAt index f).actor.peers[place]? = some t → Q place t := by
  intro place t ht
  by_cases hplace : place = index
  · subst hplace
    rw [updateAt, List.getElem?_modify_eq] at ht
    obtain ⟨old, hold, rfl⟩ := Option.map_eq_some_iff.mp ht
    exact hown old hold
  · rw [updateAt, List.getElem?_modify_ne _ _ (Ne.symm hplace)] at ht
    exact hothers place t ht hplace

theorem every_beatNow (h : ∀ place t, s.actor.peers[place]? = some t →
      ∀ seen, Q place { t with beatSeenAt := seen }) :
    ∀ place t, (s.beatNow now).actor.peers[place]? = some t → Q place t := by
  intro place t ht
  have hpeers : (s.beatNow now).actor.peers = s.actor.peers.map fun t =>
      if t.watchesHeartbeat then { t with beatSeenAt := some now } else t := rfl
  rw [hpeers, List.getElem?_map] at ht
  obtain ⟨old, hold, rfl⟩ := Option.map_eq_some_iff.mp ht
  split
  · exact h place old hold _
  · exact h place old hold old.beatSeenAt

theorem every_writeLimitIfDue
    (hothers : ∀ place t, s.actor.peers[place]? = some t → place ≠ index →
      ∀ seen, Q place { t with beatSeenAt := seen })
    (hown : ∀ t t', s.actor.peers[index]? = some t → t.Turned now t' → Q index t') :
    ∀ place t, (s.writeLimitIfDue index now).actor.peers[place]? = some t → Q place t := by
  unfold writeLimitIfDue
  split
  case h_1 hnone =>
    intro place t ht
    refine hothers place t ht (fun hplace => ?_) t.beatSeenAt
    subst hplace
    rw [hnone] at ht
    cases ht
  case h_2 t hat =>
    split
    case h_1 due hheld =>
      refine every_updateAt (fun place other hother hne => hothers place other hother hne other.beatSeenAt)
        fun old hold => ?_
      obtain rfl := Option.some.inj (hat.symm.trans hold)
      exact hown t _ hat (.held (Tracked.holdsBack_some hheld))
    case h_2 hheld =>
      obtain ⟨hready, -, hheard⟩ := Tracked.holdsBack_none hheld
      -- The peers before the write: each as it was but for the heartbeat.
      have hsent : ∀ (s' : Guarding S) (limitId : Nat),
          (∀ (place : Nat) (other : Tracked), s'.actor.peers[place]? = some other →
            ∃ (old : Tracked) (seen : Option Nat), s.actor.peers[place]? = some old ∧
              other = { old with beatSeenAt := seen }) →
          ∀ place other, (s'.writeLimit index t limitId now).actor.peers[place]? = some other →
            Q place other := by
        intro s' limitId hs'
        refine every_updateAt (s := s') (fun place other hother hne => ?_) fun other hother => ?_
        · obtain ⟨old, seen, hold, rfl⟩ := hs' place other hother
          exact hothers place old hold hne seen
        · obtain ⟨old, seen, hold, rfl⟩ := hs' index other hother
          obtain rfl := Option.some.inj (hat.symm.trans hold)
          exact hown t _ hat (.wrote seen _ hready hheard)
      cases hid : t.ids.limit with
      | none =>
        rw [Tracked.isReady, PeerIds.canWriteLimit, hid] at hready
        simp at hready
      | some limitId =>
        dsimp only
        refine hsent _ limitId ?_
        split
        · exact every_beatNow fun place old hold seen => ⟨old, seen, hold, rfl⟩
        · exact fun place old hold => ⟨old, old.beatSeenAt, hold, rfl⟩

theorem heartbeat_writeLimitIfDue : (s.writeLimitIfDue index now).actor.heartbeat = s.actor.heartbeat ∨
    (s.writeLimitIfDue index now).actor.heartbeat = (s.actor.heartbeat.beat now).1 := by
  unfold writeLimitIfDue
  split
  · exact .inl rfl
  split
  · exact .inl rfl
  case h_2 t _ _ _ =>
    dsimp only
    by_cases hstale : (t.beatSeenAt.all fun at_ => heartbeatFreshness ≤ now - at_) = true
    · rw [if_pos hstale]
      split <;> exact .inr rfl
    · rw [if_neg hstale]
      split <;> exact .inl rfl

theorem period_writeLimitIfDue :
    (s.writeLimitIfDue index now).actor.heartbeat.period = s.actor.heartbeat.period := by
  obtain h | h := @heartbeat_writeLimitIfDue S s index now <;> rw [h]
  rfl

end Turn

/-- All records but one are attended, and of that one something else holds. -/
structure AttendedBut (index now : Nat) (P : Tracked → Prop) (s : Guarding S) : Prop where
  beats : 0 < s.actor.heartbeat.period
  others : ∀ place t, s.actor.peers[place]? = some t → place ≠ index → t.Attended now
  own : ∀ t, s.actor.peers[index]? = some t → P t

section Calls

variable {s : Guarding S} {index now : Nat} {P : Tracked → Prop}

theorem AttendedBut.attended (h : s.AttendedBut index now (Tracked.Attended now)) : s.Attended now where
  beats := h.beats
  peers t ht := by
    obtain ⟨place, hplace⟩ := List.mem_iff_getElem?.mp ht
    by_cases hne : place = index
    · exact h.own t (hne ▸ hplace)
    · exact h.others place t hplace hne

theorem Attended.but (h : s.Attended now) (index : Nat) : s.AttendedBut index now (Tracked.Attended now) where
  beats := h.beats
  others _ t ht _ := h.peers t (List.mem_of_getElem? ht)
  own t ht := h.peers t (List.mem_of_getElem? ht)

theorem AttendedBut.mono {P' : Tracked → Prop} (h : s.AttendedBut index now P) (himp : ∀ t, P t → P' t) :
    s.AttendedBut index now P' :=
  ⟨h.beats, h.others, fun t ht => himp t (h.own t ht)⟩

theorem Attended.later {now' : Nat} (h : s.Attended now) (hle : now ≤ now') : s.Attended now' where
  beats := h.beats
  peers t ht := (h.peers t ht).later hle

theorem Attended.of_same (h : s.Attended now) {s' : Guarding S} (hpeers : s'.actor.peers = s.actor.peers)
    (hbeat : s'.actor.heartbeat = s.actor.heartbeat) : s'.Attended now where
  beats := hbeat ▸ h.beats
  peers := hpeers ▸ h.peers

theorem Attended.update (h : s.Attended now) (index : Nat) {f : Tracked → Tracked}
    (hown : ∀ t, s.actor.peers[index]? = some t → t.Attended now → (f t).Attended now) :
    (s.updateAt index f).Attended now where
  beats := h.beats
  peers t ht := by
    obtain ⟨place, hplace⟩ := List.mem_iff_getElem?.mp ht
    exact every_updateAt (Q := fun _ t => t.Attended now)
      (fun _ other hother _ => h.peers other (List.mem_of_getElem? hother))
      (fun old hold => hown old hold (h.peers old (List.mem_of_getElem? hold))) place t hplace

theorem Attended.updateBut (h : s.Attended now) {f : Tracked → Tracked}
    (hown : ∀ t, s.actor.peers[index]? = some t → t.Attended now → P (f t)) :
    (s.updateAt index f).AttendedBut index now P where
  beats := h.beats
  others place t ht hne := by
    rw [updateAt, List.getElem?_modify_ne _ _ (Ne.symm hne)] at ht
    exact h.peers t (List.mem_of_getElem? ht)
  own t ht := by
    rw [updateAt, List.getElem?_modify_eq] at ht
    obtain ⟨old, hold, rfl⟩ := Option.map_eq_some_iff.mp ht
    exact hown old hold (h.peers old (List.mem_of_getElem? hold))

theorem AttendedBut.of_same (h : s.AttendedBut index now P) {s' : Guarding S}
    (hpeers : s'.actor.peers = s.actor.peers) (hbeat : s'.actor.heartbeat = s.actor.heartbeat) :
    s'.AttendedBut index now P where
  beats := hbeat ▸ h.beats
  others := hpeers ▸ h.others
  own := hpeers ▸ h.own

theorem Attended.beatNow (h : s.Attended now) (time : Nat) : (s.beatNow time).Attended now where
  beats := h.beats
  peers t ht := by
    obtain ⟨place, hplace⟩ := List.mem_iff_getElem?.mp ht
    exact every_beatNow (Q := fun _ t => t.Attended now)
      (fun _ other hother seen => { h.peers other (List.mem_of_getElem? hother) with }) place t hplace

theorem AttendedBut.writeLimitIfDue (h : s.AttendedBut index now (Tracked.Sound now)) :
    (s.writeLimitIfDue index now).Attended now where
  beats := period_writeLimitIfDue (s := s) ▸ h.beats
  peers t ht := by
    obtain ⟨place, hplace⟩ := List.mem_iff_getElem?.mp ht
    exact every_writeLimitIfDue (Q := fun _ t => t.Attended now)
      (fun place other hother hne seen => { h.others place other hother hne with })
      (fun old new hold hturn => (h.own old hold).turned hturn) place t hplace

theorem AttendedBut.becomeReady (h : s.AttendedBut index now (Tracked.Primed now)) :
    (s.becomeReady index now).1.Attended now := by
  unfold Guarding.becomeReady
  split
  case h_1 hnone =>
    refine AttendedBut.attended ⟨h.beats, h.others, fun t ht => ?_⟩
    rw [hnone] at ht
    cases ht
  case h_2 t hat =>
    have hprimed := h.own t hat
    split
    case isTrue hdone =>
      refine AttendedBut.attended ⟨h.beats, h.others, fun t' ht' => ?_⟩
      obtain rfl := Option.some.inj (hat.symm.trans ht')
      exact hprimed.attended (by simpa [or_comm] using hdone)
    case isFalse hfirst =>
      have hready : t.isReady = true := by
        cases hisReady : t.isReady with
        | true => rfl
        | false => simp [hisReady] at hfirst
      refine AttendedBut.writeLimitIfDue ⟨h.beats, fun place other hother hne => ?_, fun t' ht' => ?_⟩
      · rw [updateAt, List.getElem?_modify_ne _ _ (Ne.symm hne)] at hother
        exact h.others place other hother hne
      · rw [updateAt, List.getElem?_modify_eq, hat] at ht'
        cases ht'
        exact hprimed.announced hready

section

variable (h : s.Attended now)

include h

theorem Attended.attach (peer : ControllableSystemPeer) :
    (s.attach peer now).Attended now where
  beats := h.beats
  peers t ht := by
    have hnew : ∀ (old : Tracked), old.Attended now → (s.introduce old now).1.Attended now :=
      fun old hold => { hold with }
    obtain hother | hlast := List.mem_append.mp ht
    · exact h.peers t (List.mem_filter.mp hother).1
    · rw [List.mem_singleton.mp hlast]
      split
      · exact hnew _ ((Tracked.Attended.new peer now).setRequired _ fun _ => nofun)
      · exact hnew _ (Tracked.Attended.new peer now)

theorem Attended.detach (device : AddressDevice) : (s.detach device).Attended now where
  beats := h.beats
  peers t ht := h.peers t (List.mem_filter.mp ht).1

theorem Attended.require (device : AddressDevice) (limit : Option LimitWrite)
    (hkept : ¬s.Lapses (.require device limit now)) : (s.require device limit now).Attended now := by
  unfold Guarding.require
  dsimp only
  split
  · refine ⟨h.beats, forall_mem_modifyFirst h.peers fun t hdevice ht => ?_⟩
    refine (h.peers t ht).setRequired limit fun hnone hopened hfree happlied => hkept ?_
    subst hnone
    exact ⟨t, ht, beq_iff_eq.mp hdevice, hopened, hfree, happlied⟩
  · exact h.of_same rfl rfl

theorem Attended.requireAll (limit : Option LimitWrite)
    (hkept : ¬s.Lapses (.requireAll limit now)) : (s.requireAll limit now).Attended now where
  beats := h.beats
  peers t' ht' := by
    obtain ⟨t, ht, rfl⟩ := List.mem_map.mp ht'
    refine (h.peers t ht).setRequired limit fun hnone hopened hfree happlied => hkept ?_
    subst hnone
    exact ⟨t, ht, hopened, hfree, happlied⟩

theorem Attended.giveUp (request : MsgCounter) (destination : FeatureAddress)
    (hkept : ¬s.Lapses (.handleEvent (.requestTimedOut request destination) now)) :
    (s.giveUp request now).1.Attended now := by
  unfold Guarding.giveUp
  dsimp only
  split
  case h_1 => exact h
  case h_2 index _ =>
    split
    case h_1 => exact h
    case h_2 t hat =>
      split
      case h_1 counter limit hout =>
        obtain ⟨hout, hrequest⟩ := Option.filter_eq_some_iff.mp hout
        refine (h.update index fun old hold hattended => ?_).of_same rfl rfl
        obtain rfl := Option.some.inj (hat.symm.trans hold)
        refine hattended.unanswered (by rw [hout]; rfl) fun hrequired happlied => hkept ?_
        exact ⟨t, List.mem_of_getElem? hat, (counter, limit), hout, beq_iff_eq.mp hrequest, hrequired,
          happlied⟩
      case h_2 =>
        split
        · exact h.update _ fun _ _ hattended => { hattended with }
        · exact h.update _ fun _ _ hattended => { hattended with }

theorem Attended.observeApplied (index : Nat) (data : CmdData S)
    (hkept : ∀ t, s.actor.peers[index]? = some t → ¬t.Settles data) :
    (s.observeApplied index data now).Attended now := by
  unfold Guarding.observeApplied
  split
  case h_1 => exact h
  case h_2 t hat =>
    split
    case h_1 => exact h
    case h_2 reported hreported =>
      split
      case isTrue => exact h
      case isFalse hfree =>
        split
        case isTrue => exact h
        case isFalse hdiffers =>
          have hnone : t.outstanding = none := by simpa using hfree
          have hwants : t.retryAt.isSome = true →
              ({ t with applied := some reported } : Tracked).wantsWrite = true := by
            intro hretry
            by_contra hunwanted
            exact hkept t hat ⟨hretry, reported, hreported, Bool.eq_false_iff.mpr hdiffers,
              Bool.eq_false_iff.mpr hunwanted⟩
          dsimp only
          split
          · refine AttendedBut.writeLimitIfDue (h.updateBut fun old hold hattended => ?_)
            obtain rfl := Option.some.inj (hat.symm.trans hold)
            exact hattended.toSound.observed hnone reported _ hwants
          case isFalse hunwanted =>
            refine h.update _ fun old hold hattended => ?_
            obtain rfl := Option.some.inj (hat.symm.trans hold)
            exact hattended.observed hnone reported hwants (Bool.eq_false_iff.mpr hunwanted)

theorem Attended.resolveLimit (index : Nat) (request : MsgCounter) (error : ErrorNumber)
    (hrequest : ∀ t, s.actor.peers[index]? = some t → ∀ sent ∈ t.outstanding, sent.1 = request)
    (hkept : ¬s.Lapses (.handleEvent (.resultReceived request error) now)) :
    (s.resolveLimit index request error now).1.Attended now := by
  unfold Guarding.resolveLimit
  split
  case h_1 => exact h
  case h_2 t hat =>
    split
    case h_1 => exact h
    case h_2 counter limit hout =>
      have hlapses : ∀ {p : Prop}, (p → if error.isSuccess = true then t.Overtaken limit
          else t.wantsWrite = false) → ¬p := fun hp hlapse =>
        hkept ⟨t, List.mem_of_getElem? hat, (counter, limit), hout, hrequest t hat _ hout, hp hlapse⟩
      dsimp only
      split
      case isTrue hsuccess =>
        refine (h.update index fun old hold hattended => ?_).of_same rfl rfl
        obtain rfl := Option.some.inj (hat.symm.trans hold)
        exact hattended.accepted hout (hlapses fun hovertaken => by rwa [if_pos hsuccess])
      case isFalse hfailed =>
        refine (h.update index fun old hold hattended => ?_).of_same rfl rfl
        obtain rfl := Option.some.inj (hat.symm.trans hold)
        have hwants : t.wantsWrite = true := by
          by_contra hunwanted
          exact hlapses (fun hfalse => by rwa [if_neg hfailed]) (Bool.eq_false_iff.mpr hunwanted)
        exact hattended.refused (by rw [hout]; rfl) hwants _ (Nat.le_add_right _ _)

theorem Attended.resolveBinding (index : Nat) (request : MsgCounter)
    (error : ErrorNumber) : (s.resolveBinding index request error now).1.Attended now := by
  unfold Guarding.resolveBinding
  split
  case h_1 => exact h
  case h_2 feature _ =>
    have hquiet : (s.updateAt index fun t =>
        { t with pendingBindings := t.pendingBindings.eraseP fun p => p.1 == request }).Attended now :=
      h.update _ fun _ _ hattended => { hattended with }
    have hready : ∀ {bound configured : Bool} (t : Tracked), (t.boundLoadControl = true → bound = true) →
        (t.boundConfiguration = true → configured = true) → t.isReady = true →
          (bound && configured && t.ids.canWriteLimit) = true := by
      intro bound configured t hbound hconfigured hisReady
      simp only [Tracked.isReady, Bool.and_eq_true] at hisReady ⊢
      exact ⟨⟨hbound hisReady.1.1, hconfigured hisReady.1.2⟩, hisReady.2⟩
    dsimp only
    refine AttendedBut.becomeReady ?_
    split
    case h_1 => exact (hquiet.but index).mono fun _ => Tracked.Attended.primed
    case h_2 t hat =>
      have hbefore := (hquiet.but index).mono fun _ => Tracked.Attended.primed
      split
      · split
        · exact (hquiet.updateBut fun old _ hattended =>
            hattended.primed.readier (hready old (fun _ => rfl) id) _).of_same rfl rfl
        · split
          · exact (hquiet.updateBut fun old _ hattended =>
              hattended.primed.readier (hready old id fun _ => rfl) _).of_same rfl rfl
          · exact hbefore
      · exact hbefore

theorem Attended.resolve (request : MsgCounter) (error : ErrorNumber)
    (hkept : ¬s.Lapses (.handleEvent (.resultReceived request error) now)) :
    (s.resolve request error now).1.Attended now := by
  unfold Guarding.resolve
  split
  · exact h.resolveBinding _ request error
  · split
    case h_1 index hindex =>
      refine h.resolveLimit index request error (fun t hat sent hout => ?_) hkept
      obtain ⟨hlt, hwaits, -⟩ := List.findIdx?_eq_some_iff_getElem.mp hindex
      rw [List.getElem?_eq_getElem hlt] at hat
      rw [Option.some.inj hat, hout] at hwaits
      exact beq_iff_eq.mp hwaits
    · exact h

end

theorem learn_unchanged {ids : PeerIds} {data : CmdData S} {direction : Direction}
    (h : (ids.learn data direction).2 = false) : (ids.learn data direction).1.limit = ids.limit := by
  simp only [PeerIds.learn, PeerIds.take] at h ⊢
  split at h
  case isTrue => simp at h
  case isFalse hsame => rw [if_neg hsame]

section

variable (h : s.Attended now)

include h

theorem Attended.learnIds (index : Nat) (feature : FeatureAddress) (data : CmdData S) :
    (s.learnIds index feature data now).1.Attended now := by
  unfold Guarding.learnIds
  split
  case h_1 => exact h
  case h_2 t hat =>
    split
    case isTrue => exact h
    case isFalse =>
      rcases hlearned : t.ids.learn data s.actor.direction with ⟨ids, learned⟩
      have hlimit := Books.learn_limit t.ids data s.actor.direction
      have hunchanged := @learn_unchanged S t.ids data s.actor.direction
      rw [hlearned] at hlimit hunchanged
      dsimp only at hlimit hunchanged ⊢
      have hready : ∀ old : Tracked, old.ids = t.ids → old.isReady = true →
          (old.boundLoadControl && old.boundConfiguration && ids.canWriteLimit) = true := by
        intro old hold hisReady
        simp only [Tracked.isReady, PeerIds.canWriteLimit, Bool.and_eq_true] at hisReady ⊢
        refine ⟨hisReady.1, ?_⟩
        obtain hsame | ⟨limitId, hnew, -⟩ := hlimit
        · rw [hsame, ← hold]
          exact hisReady.2
        · rw [hnew]
          rfl
      have hupdated : (s.updateAt index fun t =>
          { t with
            ids := ids
            pendingReads := if learned then t.pendingReads.filter fun p => p.2 != feature
              else t.pendingReads }).AttendedBut index now fun t' =>
            t'.Primed now ∧ t'.ids = ids ∧ (learned = false → t'.Attended now) := by
        refine h.updateBut fun old hold hattended => ?_
        obtain rfl := Option.some.inj (hat.symm.trans hold)
        exact ⟨hattended.primed.readier (hready t rfl) _, rfl,
          fun hnothing => hattended.relearned (hunchanged hnothing) _⟩
      have hend : ∀ s' : Guarding S, (s'.AttendedBut index now fun t' =>
            t'.Primed now ∧ t'.ids = ids ∧ (learned = false → t'.Attended now)) →
          (if data.key = .loadControlLimitDescriptionListData ∧ ids.limit = none ∧
              t.reportedNoLimit = false then
            (s'.updateAt index fun t => { t with reportedNoLimit := true },
              some (GuardEvent.noLimitPublished t.peer.device))
          else if learned then s'.becomeReady index now else (s', none)).1.Attended now := by
        intro s' hs'
        split
        case isTrue hno =>
          refine (hs'.mono fun t' ht' => ht'.1.attended (.inr ?_)).attended.update _
            fun _ _ hattended => { hattended with }
          rw [Tracked.isReady, PeerIds.canWriteLimit, ht'.2.1, hno.2.1]
          exact Bool.and_false _
        · split
          · exact (hs'.mono fun _ ht' => ht'.1).becomeReady
          case isFalse hnothing =>
            exact (hs'.mono fun _ ht' => ht'.2.2 (Bool.eq_false_iff.mpr hnothing)).attended
      refine hend _ ?_
      split
      · split
        · exact hupdated
        · exact hupdated.of_same rfl rfl
      · exact hupdated

theorem Attended.onData (index : Nat) (feature : FeatureAddress) (data : CmdData S)
    (hkept : ∀ t, s.actor.peers[index]? = some t → t.peer.loadControl = feature → ¬t.Settles data) :
    (s.onData index feature data now).1.Attended now := by
  unfold Guarding.onData
  split
  case h_1 => exact h
  case h_2 t hat =>
    split
    case isTrue =>
      split
      · exact h
      · split
        · exact h
        · exact h.update _ fun _ _ hattended => { hattended with }
    case isFalse =>
      have hlearned := h.learnIds index feature data
      split
      case h_1 s' event heq =>
        rw [heq] at hlearned
        exact hlearned
      case h_2 s' heq =>
        rw [heq] at hlearned
        have hquiet : (s'.updateAt index fun t' =>
            { t' with monitor := (t.monitor.observeData data now).1 }).Attended now :=
          hlearned.update _ fun _ _ hattended => { hattended with }
        dsimp only
        split
        · exact hquiet
        · split
          case isTrue hfeature =>
            refine hquiet.observeApplied index data fun t' ht' hsettles => ?_
            obtain ⟨limitId, hread⟩ := Tracked.reads_of_settles hsettles
            have hpeers : s'.actor.peers = s.actor.peers :=
              (congrArg (·.1.actor.peers) heq).symm.trans (Books.learnIds_of_read now hat feature hread)
            rw [updateAt, List.getElem?_modify_eq, hpeers, hat] at ht'
            obtain rfl := Option.some.inj ht'
            exact hkept t hat hfeature.symm hsettles
          case isFalse => exact hquiet

theorem Attended.onSubscription (client server : FeatureAddress) :
    (s.onSubscription client server now).Attended now := by
  unfold Guarding.onSubscription
  split
  · exact h
  · split
    · exact h
    · split
      · exact h
      case h_2 index _ =>
        have hsubscribed : (s.updateAt index fun t => { t with watchesHeartbeat := true }).AttendedBut index now
            (Tracked.Sound now) := h.updateBut fun _ _ hattended => hattended.toSound.subscribed
        refine AttendedBut.writeLimitIfDue ?_
        exact hsubscribed.of_same rfl rfl

theorem Attended.onAnnouncement (device : AddressDevice) :
    (s.onAnnouncement device now).Attended now := by
  unfold Guarding.onAnnouncement
  split
  · exact h
  · split
    · exact h
    · exact h.attach _

theorem Attended.handleEvent (event : SpineEvent S)
    (hkept : ¬s.Lapses (.handleEvent event now)) : (s.handleEvent event now).1.Attended now := by
  have hdata : ∀ index feature data,
      (¬∃ t ∈ s.actor.peers, t.peer.loadControl = feature ∧ t.Settles data) →
      (s.onData index feature data now).1.Attended now :=
    fun index feature data hcalm => h.onData index feature data fun t ht hfeature hsettles =>
      hcalm ⟨t, List.mem_of_getElem? ht, hfeature, hsettles⟩
  unfold Guarding.handleEvent
  cases event with
  | discoveryUpdated device => exact h.onAnnouncement device
  | useCasesUpdated device => exact h.onAnnouncement device
  | dataNotified feature data resolved | replyReceived feature data resolved =>
    dsimp only
    split
    · exact h
    · exact hdata _ feature resolved hkept
  | subscriptionGranted client server => exact h.onSubscription client server
  | resultReceived request error => exact h.resolve request error hkept
  | requestTimedOut request destination => exact h.giveUp request destination hkept
  | _ => exact h

theorem Attended.serve (events : List GuardEvent) (index : Nat) :
    (Guarding.serve now (s, events) index).1.Attended now := by
  unfold Guarding.serve
  dsimp only
  split
  · exact h
  case h_2 t _ =>
    have hwatched : (s.updateAt index fun t' =>
        { t' with monitor := (t.monitor.handleTimeout now).1 }).AttendedBut index now (Tracked.Sound now) :=
      h.updateBut fun _ _ hattended => { hattended.toSound with }
    exact hwatched.writeLimitIfDue

theorem Attended.handleTimeout : (s.handleTimeout now).1.Attended now := by
  have hfold : ∀ (indices : List Nat) (acc : Guarding S × List GuardEvent), acc.1.Attended now →
      (indices.foldl (Guarding.serve now) acc).1.Attended now := by
    intro indices
    induction indices with
    | nil => exact fun _ hacc => hacc
    | cons index rest ih => exact fun acc hacc => ih _ (hacc.serve acc.2 index)
  unfold Guarding.handleTimeout
  refine hfold _ _ ?_
  split
  · exact h.beatNow now
  · exact h

theorem Attended.writeFailsafe (device : AddressDevice) (key : PeerIds → Option Nat)
    (value : DeviceConfigurationKeyValueValue) (time : Nat) :
    (s.writeFailsafe device key value time).1.Attended now := by
  unfold Guarding.writeFailsafe
  repeat' split
  all_goals first | exact h | exact h.of_same rfl rfl

theorem Attended.perform (call : GuardCall S)
    (htime : ∀ time ∈ call.time, now ≤ time) (hkept : ¬s.Lapses call) :
    (s.perform call).Attended (call.time.getD now) := by
  have hlater : ∀ time ∈ call.time, s.Attended time := fun time ht => h.later (htime time ht)
  cases call with
  | attach peer now => exact (hlater now rfl).attach peer
  | detach device => exact h.detach device
  | require device limit now => exact (hlater now rfl).require device limit hkept
  | requireAll limit now => exact (hlater now rfl).requireAll limit hkept
  | writeFailsafeLimit device watts now => exact (hlater now rfl).writeFailsafe device _ _ _
  | writeFailsafeDuration device duration now =>
    simp only [Guarding.perform, Guarding.writeFailsafeDuration]
    split
    · exact (hlater now rfl).writeFailsafe device _ _ _
    · exact hlater now rfl
  | handleTimeout now => exact (hlater now rfl).handleTimeout
  | handleEvent event now => exact (hlater now rfl).handleEvent event hkept
  | engine op => exact h.of_same rfl rfl

end

end Calls

section Waking

variable {s : Guarding S} {now at_ : Nat}

/-- Where the records stand as they have their turns one after the other: those in front are still to come,
and the deadlines of those behind lie ahead. -/
structure Waking (now at_ : Nat) (indices : List Nat) (s : Guarding S) : Prop where
  period : 0 < s.actor.heartbeat.period
  next : at_ < s.actor.heartbeat.next
  front : ∀ place t, s.actor.peers[place]? = some t → place ∈ indices → t.Sound now
  behind : ∀ place t, s.actor.peers[place]? = some t → place ∉ indices → t.Ahead at_

theorem Waking.writeLimitIfDue {index : Nat} {indices : List Nat} (h : s.Waking now at_ (index :: indices))
    (hnew : index ∉ indices) : (s.writeLimitIfDue index at_).Waking now at_ indices := by
  have hpeers := @every_writeLimitIfDue S s index at_
    (fun place t => (place ∈ indices → t.Sound now) ∧ (place ∉ indices → t.Ahead at_))
    (fun place t ht hne seen => ⟨fun hplace =>
        { h.front place t ht (List.mem_cons_of_mem index hplace) with },
      fun hplace => h.behind place t ht (List.not_mem_cons_of_ne_of_not_mem hne hplace)⟩)
    fun t t' ht hturn => ⟨fun hplace => absurd hplace hnew,
      fun _ => (h.front index t ht List.mem_cons_self).turned_later hturn⟩
  have hbeat : 0 < (s.writeLimitIfDue index at_).actor.heartbeat.period ∧
      at_ < (s.writeLimitIfDue index at_).actor.heartbeat.next := by
    obtain hsame | hbeaten := @heartbeat_writeLimitIfDue S s index at_
    · rw [hsame]
      exact ⟨h.period, h.next⟩
    · rw [hbeaten]
      exact ⟨h.period, Nat.lt_add_of_pos_right h.period⟩
  exact ⟨hbeat.1, hbeat.2, fun place t ht => (hpeers place t ht).1, fun place t ht => (hpeers place t ht).2⟩

theorem Waking.serve {index : Nat} {indices : List Nat} (h : s.Waking now at_ (index :: indices))
    (hnew : index ∉ indices) (events : List GuardEvent) :
    (Guarding.serve at_ (s, events) index).1.Waking now at_ indices := by
  unfold Guarding.serve
  dsimp only
  split
  case h_1 hnone =>
    refine ⟨h.period, h.next, fun place t ht hplace => h.front place t ht (List.mem_cons_of_mem _ hplace),
      fun place t ht hplace => h.behind place t ht (List.not_mem_cons_of_ne_of_not_mem ?_ hplace)⟩
    rintro rfl
    rw [hnone] at ht
    cases ht
  case h_2 t _ =>
    refine Waking.writeLimitIfDue ⟨h.period, h.next, ?_, ?_⟩ hnew
    · exact every_updateAt (Q := fun place t => place ∈ index :: indices → t.Sound now)
        (fun place other hother _ => h.front place other hother)
        fun other hother hplace => { h.front index other hother hplace with }
    · exact every_updateAt (Q := fun place t => place ∉ index :: indices → t.Ahead at_)
        (fun place other hother _ => h.behind place other hother)
        fun _ _ hplace => absurd List.mem_cons_self hplace

theorem Attended.advances (h : s.Attended now) : alarm.Advances s := by
  intro at_ hat next hnext
  obtain rfl := Option.some.inj hat
  obtain rfl := Option.some.inj hnext
  have hfold : ∀ (indices : List Nat) (acc : Guarding S × List GuardEvent), indices.Nodup →
      acc.1.Waking now s.actor.pollTimeout indices →
        (indices.foldl (Guarding.serve s.actor.pollTimeout) acc).1.Waking now s.actor.pollTimeout [] := by
    intro indices
    induction indices with
    | nil => exact fun _ _ hacc => hacc
    | cons index rest ih =>
      intro acc hdistinct hacc
      obtain ⟨hnew, hrest⟩ := List.nodup_cons.mp hdistinct
      exact ih _ hrest (hacc.serve hnew acc.2)
  have hbegin : ∀ s' : Guarding S, s'.Attended now → s.actor.pollTimeout < s'.actor.heartbeat.next →
      s'.Waking now s.actor.pollTimeout (List.range s'.actor.peers.length) := by
    intro s' hs' hnext
    refine ⟨hs'.beats, hnext, fun place t ht _ => (hs'.peers t (List.mem_of_getElem? ht)).toSound,
      fun place t ht hplace => absurd (List.mem_range.mpr ?_) hplace⟩
    exact (List.getElem?_eq_some_iff.mp ht).1
  have hwoken : ((s.handleTimeout s.actor.pollTimeout).1).Waking now s.actor.pollTimeout [] := by
    unfold Guarding.handleTimeout
    refine hfold _ _ List.nodup_range (hbegin _ ?_ ?_)
    · split
      · exact h.beatNow _
      · exact h
    · split
      · exact Nat.lt_add_of_pos_right h.beats
      · exact Nat.lt_of_not_le ‹_›
  refine (EnergyGuardActor.lt_pollTimeout_iff _ _).mpr ⟨hwoken.next, fun t ht => ?_⟩
  obtain ⟨place, hplace⟩ := List.mem_iff_getElem?.mp ht
  exact hwoken.behind place t hplace List.not_mem_nil

end Waking

def clock (start : Nat) (calls : List (GuardCall S)) : Nat :=
  calls.foldl (fun now call => call.time.getD now) start

theorem Attended.run {s : Guarding S} {now : Nat} (h : s.Attended now) (calls : List (GuardCall S))
    (hordered : (now :: calls.filterMap GuardCall.time).Pairwise (· ≤ ·))
    (hkept : machine.Admits (fun s call => ¬s.Lapses call) s calls) :
    (machine.run s calls).Attended (clock now calls) := by
  induction calls generalizing s now with
  | nil => exact h
  | cons call rest ih =>
    obtain ⟨hfirst, hrest⟩ := hkept
    cases htime : call.time with
    | none =>
      rw [List.filterMap_cons_none htime] at hordered
      have hnext := h.perform call (fun time ht => by rw [htime] at ht; cases ht) hfirst
      have hclock : clock now (call :: rest) = clock now rest := by
        rw [clock, List.foldl_cons, htime]
        rfl
      rw [htime] at hnext
      rw [hclock]
      exact ih hnext hordered hrest
    | some time =>
      rw [List.filterMap_cons_some htime] at hordered
      have hnext := h.perform call (fun time' ht => by
        rw [htime] at ht
        obtain rfl := Option.some.inj ht
        exact List.rel_of_pairwise_cons hordered List.mem_cons_self) hfirst
      have hclock : clock now (call :: rest) = clock time rest := by
        rw [clock, List.foldl_cons, htime]
        rfl
      rw [htime] at hnext
      rw [hclock]
      exact ih hnext (List.pairwise_cons.mp hordered).2 hrest

theorem Attended.start (direction : Direction) (client diagnosis : FeatureAddress) (e : Engine S)
    (now : Nat) : (Guarding.start direction client diagnosis e now).Attended now :=
  ⟨show 0 < defaultHeartbeatPeriod by decide, fun _ ht => absurd ht List.not_mem_nil⟩

end Guarding

/-- In every run whose calls let no deadline lapse, at times that do not run backwards: the guard that is
woken at its deadline names a later one, and no limit that is owed is slept through. -/
theorem guard_never_spins_nor_forgets (direction : Direction) (client diagnosis : FeatureAddress)
    (e : Engine S) (start : Nat) (calls : List (GuardCall S))
    (hordered : (start :: calls.filterMap GuardCall.time).Pairwise (· ≤ ·))
    (hkept : Guarding.machine.Admits (fun s call => ¬s.Lapses call)
      (.start direction client diagnosis e start) calls) :
    let s := Guarding.machine.run (.start direction client diagnosis e start) calls
    Guarding.alarm.Advances s ∧ s.Remembers (Guarding.clock start calls) := by
  have hattended := (Guarding.Attended.start direction client diagnosis e start).run calls hordered hkept
  exact ⟨hattended.advances, hattended.remembers⟩

namespace Scenario

def meeting : List (GuardCall Schema.limitsOnly) :=
  [.attach limited 0,
    .handleEvent (.resultReceived 1 .none) (fromSecs 1),
    .handleEvent (.resultReceived 2 .none) (fromSecs 1),
    .handleEvent (.subscriptionGranted features.deviceDiagnosisClient managerDiagnosis) (fromSecs 1),
    .handleEvent (.replyReceived features.loadControl (limitDescription .consumption)
      (limitDescription .consumption)) (fromSecs 2)]

/-- The opening write is accepted, a requirement is refused, and the owner sleeps to the end of the backoff. -/
def insisting : List (GuardCall Schema.limitsOnly) :=
  meeting ++
    [.handleEvent (.resultReceived 7 .none) (fromSecs 3),
      .require heatPump (some ⟨true, F64.ofInt 4200, none⟩) (fromSecs 3),
      .handleTimeout (fromSecs 3),
      .handleEvent (.resultReceived 8 .commandRejected) (fromSecs 4),
      .handleTimeout (fromSecs 62)]

theorem guard_never_spins_nor_forgets_insisting :
    (guarding insisting).actor.pollTimeout = fromSecs 64 ∧ Guarding.alarm.Advances (guarding insisting) ∧
      (guarding insisting).Remembers (fromSecs 62) :=
  ⟨by decide +kernel, guard_never_spins_nor_forgets .consumption managerClient managerDiagnosis
    (Engine.new guardDevice) 0 insisting (by decide) (by decide +kernel)⟩

/-- The opening write is refused although nothing is required. -/
def refusedOpening : List (GuardCall Schema.limitsOnly) :=
  meeting ++
    [.handleEvent (.resultReceived 7 .commandRejected) (fromSecs 3), .handleTimeout (fromSecs 62)]

/-- The opening write is given up although nothing is required, and the owner wakes the guard. -/
def unansweredOpening : List (GuardCall Schema.limitsOnly) :=
  meeting ++
    [.handleEvent (.requestTimedOut 7 features.loadControl) (fromSecs 1800), .handleTimeout (fromSecs 1800)]

/-- A limit comes to be required while the opening write is in flight, and the owner wakes the guard before
the write is accepted. -/
def overtakenOpening : List (GuardCall Schema.limitsOnly) :=
  meeting ++
    [.require heatPump (some ⟨true, F64.ofInt 4200, none⟩) (fromSecs 3), .handleTimeout (fromSecs 3),
      .handleEvent (.resultReceived 7 .none) (fromSecs 4)]

/-- The first of these leaves a deadline that waking does not move, the others none for what is owed. -/
theorem guard_spins_and_forgets : ¬Guarding.alarm.Advances (guarding refusedOpening) ∧
      ¬(guarding unansweredOpening).Remembers (fromSecs 1800) ∧
      ¬(guarding overtakenOpening).Remembers (fromSecs 4) := by
  refine ⟨fun hadvances => ?_, by decide +kernel, by decide +kernel⟩
  have hdue : Guarding.alarm.due (guarding refusedOpening) = some (fromSecs 63) := by decide +kernel
  have hstill : Guarding.alarm.due (Guarding.alarm.wake (guarding refusedOpening) (fromSecs 63)) =
      some (fromSecs 63) := by decide +kernel
  exact Nat.lt_irrefl _ (hadvances _ hdue _ hstill)

end Scenario

end Eebus.Limitation
