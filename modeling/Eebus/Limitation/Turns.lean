import Eebus.Limitation.Bookkeeping
import Eebus.Limitation.Outgoing

/-!
A turn of the guard, function by function: the books stay in order, what is said is noted and what is noted
is said, and nobody is written to who listens and has heard no heartbeat lately.
-/

namespace Eebus.Limitation

open Eebus.Library Eebus.Model Eebus.Spine

variable {S : Schema}

/-- What happens to the engine of a guard is no call on the guard. -/
def GuardCall.isOfEngine : GuardCall S → Bool
  | .engine _ => true
  | _ => false

def GuardCall.mayBeat : GuardCall S → Bool
  | .handleTimeout _ | .handleEvent _ _ => true
  | _ => false

def GuardCall.newcomer : GuardCall S → Option AddressDevice
  | .handleEvent (.subscriptionGranted client _) _ => client.device
  | _ => none

namespace Guarding

instance (s : Guarding S) (device : AddressDevice) : Decidable (s.Subscribed device) :=
  inferInstanceAs (Decidable (∃ client ∈ s.engine.relations.subscribersOf s.actor.diagnosis,
    client.device = some device))

instance (s : Guarding S) : Decidable s.HasHeartbeat :=
  inferInstanceAs (Decidable (∃ f ∈ s.engine.device.resolve s.actor.diagnosis,
    (f.function (.known .deviceDiagnosisHeartbeatData)).isSome))

/-- The guard has a heartbeat, and whomever it takes for a listener is one. -/
def Heeds (s : Guarding S) (newcomer : Option AddressDevice) : Prop :=
  s.HasHeartbeat ∧ ∀ t ∈ s.actor.peers,
    t.watchesHeartbeat = true ∨ newcomer = some t.peer.device → s.Subscribed t.peer.device

instance (s : Guarding S) (newcomer : Option AddressDevice) : Decidable (s.Heeds newcomer) :=
  inferInstanceAs (Decidable (_ ∧ ∀ t ∈ s.actor.peers, _ → _))

/-- Where a heartbeat may go out, the guard heeds who is subscribed to it. -/
def Heedful (s : Guarding S) (call : GuardCall S) : Prop :=
  call.mayBeat = true → s.Heeds call.newcomer

instance (s : Guarding S) (call : GuardCall S) : Decidable (s.Heedful call) :=
  inferInstanceAs (Decidable (_ → _))

structure Stands (base s : Guarding S) : Prop where
  records : (s.actor.peers.map fun t => (t.peer, t.required)) =
    base.actor.peers.map fun t => (t.peer, t.required)
  deferred : s.actor.deferred = base.actor.deferred
  client : s.actor.client = base.actor.client
  diagnosis : s.actor.diagnosis = base.actor.diagnosis
  relations : s.engine.relations = base.engine.relations
  heartbeat : base.HasHeartbeat → s.HasHeartbeat

namespace Stands

variable {base s s' : Guarding S}

theorem refl (s : Guarding S) : s.Stands s := ⟨rfl, rfl, rfl, rfl, rfl, id⟩

theorem trans (h : base.Stands s) (h' : s.Stands s') : base.Stands s' where
  records := h'.records.trans h.records
  deferred := h'.deferred.trans h.deferred
  client := h'.client.trans h.client
  diagnosis := h'.diagnosis.trans h.diagnosis
  relations := h'.relations.trans h.relations
  heartbeat := h'.heartbeat ∘ h.heartbeat

theorem updateAt (s : Guarding S) (index : Nat) {f : Tracked → Tracked}
    (hsame : ∀ t, (f t).peer = t.peer ∧ (f t).required = t.required) : s.Stands (s.updateAt index f) :=
  ⟨Books.map_modify index fun t => by rw [(hsame t).1, (hsame t).2], rfl, rfl, rfl, rfl, id⟩

theorem writeLimit (s : Guarding S) (index : Nat) (t : Tracked) (limitId now : Nat) :
    s.Stands (s.writeLimit index t limitId now) :=
  ⟨Books.map_modify index fun _ => rfl, rfl, rfl, rfl, rfl, id⟩

theorem beatNow (s : Guarding S) (now : Nat) : s.Stands (s.beatNow now) where
  records := by
    simp only [Guarding.beatNow, recordBeat, note, List.map_map]
    refine List.map_congr_left fun t _ => ?_
    simp only [Function.comp]
    split <;> rfl
  deferred := rfl
  client := rfl
  diagnosis := rfl
  relations := by
    have hoffered : ∀ data : CmdData S,
        (offerOne s.engine s.actor.diagnosis data).relations = s.engine.relations := fun data => by
      unfold offerOne
      split <;> rfl
    exact (Engine.sends_notify _ _ _).relations.trans (hoffered _)
  heartbeat := by
    rintro ⟨f, hf, hdeclared⟩
    obtain ⟨f', hf', hshape⟩ := offerOne_reshaped s.engine s.actor.diagnosis
      ⟨.deviceDiagnosisHeartbeatData, (s.actor.heartbeat.beat now).2⟩ _ f hf
    refine ⟨f', ?_, (hshape.isSome_function _).trans hdeclared⟩
    have hdevice : (s.beatNow now).engine.device = (offerOne s.engine s.actor.diagnosis
        ⟨.deviceDiagnosisHeartbeatData, (s.actor.heartbeat.beat now).2⟩).device :=
      (Engine.sends_notify _ _ _).device
    rw [hdevice]
    exact hf'

theorem mem_records (h : base.Stands s) {t : Tracked} (ht : t ∈ s.actor.peers) :
    ∃ t' ∈ base.actor.peers, t'.peer = t.peer ∧ t'.required = t.required := by
  have hmem : (t.peer, t.required) ∈ base.actor.peers.map fun t => (t.peer, t.required) := by
    rw [← h.records]
    exact List.mem_map_of_mem ht
  obtain ⟨t', ht', heq⟩ := List.mem_map.mp hmem
  exact ⟨t', ht', (Prod.mk.inj heq).1, (Prod.mk.inj heq).2⟩

theorem publishes (h : base.Stands s) {listeners : List AddressDevice} {beats : List (Datagram S)}
    (hbeats : s.Publishes listeners beats) : base.Publishes listeners beats where
  heartbeats d hd := h.diagnosis ▸ hbeats.heartbeats d hd
  listeners := hbeats.listeners
  reached hheartbeat := by
    rw [hbeats.reached (h.heartbeat hheartbeat), h.relations, h.diagnosis]

end Stands

end Guarding

/-- What is asked of a limit write in a turn that begins at `base`: whoever listens has heard lately. -/
def Regime.Hears (R : Regime) (base : Guarding S) (diary : List Entry) (device : AddressDevice)
    (time _limitId : Nat) (_limit : LimitWrite) : Prop :=
  R.attended → base.Subscribed device → HeardLately device (since device diary) time

structure Turn (R : Regime) (base : Guarding S) (now : Nat) (s : Guarding S) : Prop where
  books : Books R now s
  told : base.Says (R.Hears base) s
  stands : base.Stands s

structure Course (R : Regime) (base : Guarding S) (now : Nat) (s : Guarding S) : Prop
    extends Turn R base now s where
  heeds : R.attended → base.HasHeartbeat ∧
    ∀ t ∈ s.actor.peers, t.watchesHeartbeat = true → base.Subscribed t.peer.device

namespace Guarding.Says

variable {base s s' : Guarding S} {W : List Entry → AddressDevice → Nat → Nat → LimitWrite → Prop}

theorem note (h : base.Says W s) (hdiary : s'.diary = s.diary) (hengine : s'.engine = s.engine) :
    base.Says W s' := by
  unfold Guarding.Says
  rw [hdiary, hengine]
  exact h

theorem entry (h : base.Says W s) {entry : Entry} (hsilent : entry.mark.isSaid = false)
    (hdiary : s'.diary = entry :: s.diary) (hengine : s'.engine = s.engine) : base.Says W s' := by
  obtain ⟨entries, sent, hentries, hsent, hpending, htells⟩ := h
  exact ⟨entry :: entries, sent, by rw [hdiary, hentries]; rfl, by rw [hengine, hsent],
    by rwa [hengine], htells.noted entry hsilent⟩

theorem beat (h : base.Says W s) {time : Nat} {listeners : List AddressDevice} {beats : List (Datagram S)}
    (hbeats : base.Publishes listeners beats) (hdiary : s'.diary = ⟨time, none, .beat listeners⟩ :: s.diary)
    (houtbox : s'.engine.outbox = s.engine.outbox ++ beats)
    (hrecord : s'.engine.pending = s.engine.pending) : base.Says W s' := by
  obtain ⟨entries, sent, hentries, hsent, hpending, htells⟩ := h
  refine ⟨_ :: entries, sent ++ beats, by rw [hdiary, hentries]; rfl,
    by rw [houtbox, hsent, List.append_assoc], fun p hp => ?_, htells.beat time hbeats⟩
  exact (hpending p (hrecord ▸ hp)).imp_right (List.mem_append_left beats)

theorem wrote (h : base.Says W s) {t : Tracked} (ht : t ∈ base.actor.peers) {time limitId : Nat}
    {d : Datagram S}
    (hd : SaysLimit base.actor.client t.peer limitId (t.required.getD LimitWrite.deactivated) d)
    (hW : W s.diary t.peer.device time limitId (t.required.getD LimitWrite.deactivated))
    (hdiary : s'.diary = ⟨time, some t.peer.device,
      .wrote limitId (t.required.getD LimitWrite.deactivated)⟩ :: s.diary)
    (houtbox : s'.engine.outbox = s.engine.outbox ++ [d])
    (hrecord : ∀ p ∈ s'.engine.pending, p ∈ s.engine.pending ∨ p.datagram = d) : base.Says W s' := by
  obtain ⟨entries, sent, hentries, hsent, hpending, htells⟩ := h
  refine ⟨_ :: entries, sent ++ [d], by rw [hdiary, hentries]; rfl,
    by rw [houtbox, hsent, List.append_assoc], fun p hp => ?_,
    htells.wrote ht time limitId hd (hentries ▸ hW)⟩
  rcases hrecord p hp with hold | rfl
  · exact (hpending p hold).imp_right (List.mem_append_left _)
  · exact .inr (List.mem_append_right sent List.mem_cons_self)

end Guarding.Says

namespace Course

variable {R : Regime} {base : Guarding S} {now index : Nat} {s : Guarding S}

section

variable (h : Course R base now s)

include h

theorem quietAt (hnow : R.within now) {f : Tracked → Tracked}
    (hsame : ∀ t, (f t).peer = t.peer ∧ (f t).required = t.required ∧
      (f t).watchesHeartbeat = t.watchesHeartbeat)
    (hf : ∀ t, s.actor.peers[index]? = some t →
      Change R.surprised R.attended now t (since t.peer.device s.diary) (f t) (since t.peer.device s.diary)) :
    Course R base now (s.updateAt index f) where
  books := h.books.quietAt hnow (fun t => ⟨(hsame t).1, (hsame t).2.1⟩) hf
  told := h.told.note rfl rfl
  stands := h.stands.trans (.updateAt s index fun t => ⟨(hsame t).1, (hsame t).2.1⟩)
  heeds hattended := by
    refine ⟨(h.heeds hattended).1, fun t' ht' hwatches => ?_⟩
    rcases Books.mem_modify ht' with ⟨place, -, hplace⟩ | ⟨t, ht, rfl⟩
    · exact (h.heeds hattended).2 t' (List.mem_of_getElem? hplace) hwatches
    · rw [(hsame t).1]
      exact (h.heeds hattended).2 t (List.mem_of_getElem? ht) ((hsame t).2.2 ▸ hwatches)

theorem quiet (hnow : R.within now) (index : Nat) {f : Tracked → Tracked}
    (hsame : ∀ t, (f t).peer = t.peer ∧ (f t).required = t.required ∧
      (f t).watchesHeartbeat = t.watchesHeartbeat) (hf : ∀ t, Unmoved t (f t)) :
    Course R base now (s.updateAt index f) :=
  h.quietAt hnow hsame fun t _ => .unmoved (hf t)

theorem amend (hnow : R.within now) {t : Tracked}
    (ht : s.actor.peers[index]? = some t) {f : Tracked → Tracked}
    (hsame : ∀ t, (f t).peer = t.peer ∧ (f t).required = t.required)
    (hwatches : (f t).watchesHeartbeat = true →
      t.watchesHeartbeat = true ∨ (R.attended → base.Subscribed t.peer.device))
    {mark : Mark} (hmark : mark.isPlain = true) (hsilent : mark.isSaid = false)
    (hf : Change R.surprised R.attended now t (since t.peer.device s.diary) (f t)
      (⟨now, some t.peer.device, mark⟩ :: since t.peer.device s.diary)) :
    Course R base now ((s.updateAt index f).note now (some t.peer.device) mark) where
  books := h.books.amend hnow ht hsame hmark hf fun limitId limit heq => by
    rw [heq] at hsilent
    cases hsilent
  told := h.told.entry hsilent rfl rfl
  stands := h.stands.trans ((Guarding.Stands.updateAt s index hsame).trans ⟨rfl, rfl, rfl, rfl, rfl, id⟩)
  heeds hattended := by
    refine ⟨(h.heeds hattended).1, fun t' ht' hlistens => ?_⟩
    rcases Books.mem_modify ht' with ⟨place, -, hplace⟩ | ⟨same, hat, rfl⟩
    · exact (h.heeds hattended).2 t' (List.mem_of_getElem? hplace) hlistens
    · obtain rfl := Option.some.inj (ht.symm.trans hat)
      rw [(hsame t).1]
      rcases hwatches hlistens with hbefore | hnow
      · exact (h.heeds hattended).2 t (List.mem_of_getElem? ht) hbefore
      · exact hnow hattended

theorem log (record : LimitRecord) : Course R base now (s.log record) where
  books := h.books.of_same rfl rfl rfl
  told := h.told.note rfl rfl
  stands := h.stands.trans ⟨rfl, rfl, rfl, rfl, rfl, id⟩
  heeds := h.heeds

theorem beatNow (hnow : R.within now) : ∃ listeners, Course R base now (s.beatNow now) ∧
      (s.beatNow now).diary = ⟨now, none, .beat listeners⟩ :: s.diary ∧
      (R.attended → ∀ device, base.Subscribed device → device ∈ listeners) := by
  obtain ⟨listeners, beats, hdiary, houtbox, hbeats⟩ := s.publishes_beatNow now
  have hpublished := h.stands.publishes hbeats
  have hreached : R.attended → ∀ device, base.Subscribed device → device ∈ listeners :=
    fun hattended device hdevice => hpublished.mem_listeners (h.heeds hattended).1 hdevice
  refine ⟨listeners, ⟨⟨?_, h.told.beat hpublished hdiary houtbox (s.pending_beatNow now), h.stands.trans (.beatNow s now)⟩, ?_⟩,
    hdiary, hreached⟩
  · exact h.books.beatNow hnow hdiary fun hattended t ht hwatches =>
      hreached hattended _ ((h.heeds hattended).2 t ht hwatches)
  · refine fun hattended => ⟨(h.heeds hattended).1, fun t' ht' hwatches => ?_⟩
    obtain ⟨t, ht, rfl⟩ := List.mem_map.mp ht'
    have hsame : ∀ u : Tracked, u = (if t.watchesHeartbeat then { t with beatSeenAt := some now } else t) →
        u.peer = t.peer ∧ u.watchesHeartbeat = t.watchesHeartbeat := by
      rintro u rfl
      split <;> exact ⟨rfl, rfl⟩
    obtain ⟨hpeer, hlistens⟩ := hsame _ rfl
    rw [hpeer]
    exact (h.heeds hattended).2 t ht (hlistens ▸ hwatches)

theorem writeLimit (hnow : R.within now) {t t' : Tracked}
    (ht : s.actor.peers[index]? = some t') (hpeer : t'.peer = t.peer) (hrequired : t'.required = t.required)
    (hheld : t'.holdsBack now = none) {limitId : Nat} (hid : t'.ids.limit = some limitId)
    (hheard : R.attended → base.Subscribed t.peer.device →
      HeardLately t.peer.device (since t.peer.device s.diary) now) :
    Course R base now (s.writeLimit index t limitId now) := by
  obtain ⟨d, houtbox, htold⟩ := s.tells_writeLimit index t limitId now
  obtain ⟨known, hknown, hsame, hasked⟩ := h.stands.mem_records (List.mem_of_getElem? ht)
  rw [hpeer] at hsame
  rw [hrequired] at hasked
  refine ⟨⟨h.books.writeLimit hnow ht hpeer hrequired hheld hid, ?_,
    h.stands.trans (.writeLimit s index t limitId now)⟩, ?_⟩
  · rw [← hsame, ← hasked, h.stands.client] at htold
    rw [← hsame] at hheard
    refine h.told.wrote hknown htold hheard ?_ houtbox (s.pending_writeLimit index t limitId now houtbox)
    rw [hsame, hasked]
    rfl
  · refine fun hattended => ⟨(h.heeds hattended).1, fun u hu hwatches => ?_⟩
    rcases Books.mem_modify hu with ⟨place, -, hplace⟩ | ⟨u', hu', rfl⟩
    · exact (h.heeds hattended).2 u (List.mem_of_getElem? hplace) hwatches
    · exact (h.heeds hattended).2 u' (List.mem_of_getElem? hu') hwatches

theorem writeLimitIfDue (hnow : R.within now) (index : Nat) :
    Course R base now (s.writeLimitIfDue index now) := by
  unfold Guarding.writeLimitIfDue
  split
  case h_1 => exact h
  case h_2 t ht =>
    split
    case h_1 => exact h.quiet hnow index (fun _ => ⟨rfl, rfl, rfl⟩) fun _ => rfl
    case h_2 hheld =>
      dsimp only
      by_cases hstale : (t.beatSeenAt.all fun at_ => heartbeatFreshness ≤ now - at_) = true
      · rw [if_pos hstale]
        obtain ⟨listeners, hbeat, hdiary, hreached⟩ := h.beatNow hnow
        split
        case h_1 => exact hbeat
        case h_2 limitId hid =>
          have hrecord := Books.getElem?_beatNow now ht
          have hheard : R.attended → base.Subscribed t.peer.device →
              HeardLately t.peer.device (since t.peer.device (s.beatNow now).diary) now := by
            intro hattended hdevice
            rw [hdiary, since_all (show Mark.beat listeners ≠ .attached from nofun)]
            refine ⟨_, List.mem_cons_self, hreached hattended _ hdevice, le_refl now, ?_⟩
            exact Nat.lt_add_of_pos_right (by decide)
          by_cases hwatches : t.watchesHeartbeat = true
          · rw [if_pos hwatches] at hrecord
            exact hbeat.writeLimit hnow hrecord rfl rfl hheld hid hheard
          · rw [if_neg hwatches] at hrecord
            exact hbeat.writeLimit hnow hrecord rfl rfl hheld hid hheard
      · rw [if_neg hstale]
        split
        case h_1 => exact h
        case h_2 limitId hid =>
          refine h.writeLimit hnow ht rfl rfl hheld hid fun hattended _ => ?_
          cases hseen : t.beatSeenAt with
          | none => simp [hseen] at hstale
          | some heard =>
            obtain ⟨hpast, entry, hentry, rfl, hlistens⟩ := R.heard hattended
              (h.books.holds t (List.mem_of_getElem? ht)) heard (Option.mem_def.mpr hseen)
            have hlately : now - entry.time < heartbeatFreshness := by simpa [hseen] using hstale
            exact ⟨entry, hentry, hlistens, hpast, by omega⟩

theorem becomeReady (hnow : R.within now) (index : Nat) :
    Course R base now (s.becomeReady index now).1 := by
  unfold Guarding.becomeReady
  split
  case h_1 => exact h
  case h_2 =>
    split
    case isTrue => exact h
    case isFalse =>
      have hquiet := h.quiet hnow index (f := fun t => { t with readyReported := true }) (fun _ => ⟨rfl, rfl, rfl⟩)
        fun _ => rfl
      exact hquiet.writeLimitIfDue hnow index

theorem giveUp (hnow : R.within now) (request : MsgCounter) :
    Course R base now (s.giveUp request now).1 := by
  unfold Guarding.giveUp
  dsimp only
  split
  case h_1 => exact h
  case h_2 index _ =>
    split
    case h_1 => exact h
    case h_2 t ht =>
      split
      case h_1 outstanding hout =>
        have hwaits : t.outstanding.isSome = true := by
          rw [(Option.filter_eq_some_iff.mp hout).1]
          rfl
        exact (h.amend hnow ht (f := fun t => { t with outstanding := none, writeDueAt := some now })
          (fun _ => ⟨rfl, rfl⟩) .inl (rfl : Mark.unanswered.isPlain = true) rfl
          (.unanswered _ hwaits _)).log _
      case h_2 =>
        split
        · exact h.quiet hnow index (fun _ => ⟨rfl, rfl, rfl⟩) fun _ => rfl
        · exact h.quiet hnow index (fun _ => ⟨rfl, rfl, rfl⟩) fun _ => rfl

theorem learnIds (hnow : R.within now) (index : Nat) (feature : FeatureAddress)
    (data : CmdData S) : Course R base now (s.learnIds index feature data now).1 := by
  unfold Guarding.learnIds
  split
  case h_1 => exact h
  case h_2 t ht =>
    split
    case isTrue => exact h
    case isFalse =>
      rcases hlearned : t.ids.learn data s.actor.direction with ⟨ids, learned⟩
      have hlimit := Books.learn_limit t.ids data s.actor.direction
      rw [hlearned] at hlimit
      dsimp only at hlimit ⊢
      have hbooks : ∀ s' : Guarding S, Course R base now s' → Course R base now
          (if data.key = .loadControlLimitDescriptionListData ∧ ids.limit = none ∧
              t.reportedNoLimit = false then
            (s'.updateAt index fun t => { t with reportedNoLimit := true },
              some (GuardEvent.noLimitPublished t.peer.device))
          else if learned then s'.becomeReady index now else (s', none)).1 := by
        intro s' hs'
        split
        · exact hs'.quiet hnow index (fun _ => ⟨rfl, rfl, rfl⟩) fun _ => rfl
        · split
          · exact hs'.becomeReady hnow index
          · exact hs'
      rcases hlimit with hsame | ⟨limitId, hnew, hother⟩
      · refine hbooks _ ?_
        have hquiet : Course R base now (s.updateAt index fun t =>
            { t with
              ids := ids
              pendingReads := if learned then t.pendingReads.filter fun p => p.2 != feature
                else t.pendingReads }) := h.quietAt hnow (fun _ => ⟨rfl, rfl, rfl⟩) fun t' ht' => by
          obtain rfl := Option.some.inj (ht.symm.trans ht')
          exact .relearned ids _ hsame
        split
        case h_1 limitId hlimitId =>
          rw [if_pos (hsame.symm.trans hlimitId)]
          exact hquiet
        case h_2 => exact hquiet
      · refine hbooks _ ?_
        rw [hnew]
        dsimp only
        rw [if_neg hother]
        exact h.amend hnow ht (f := fun t =>
            { t with
              ids := ids
              pendingReads := if learned then t.pendingReads.filter fun p => p.2 != feature
                else t.pendingReads })
          (fun _ => ⟨rfl, rfl⟩) .inl (rfl : (Mark.learned limitId).isPlain = true) rfl
          (.learned _ ids _ hnew)

theorem observeApplied (hnow : R.within now) (index : Nat) (data : CmdData S)
    (hsurprise : ∀ t, s.actor.peers[index]? = some t → t.contradicts data = true → R.surprised) :
    Course R base now (s.observeApplied index data now) := by
  unfold Guarding.observeApplied
  split
  case h_1 => exact h
  case h_2 t ht =>
    split
    case h_1 => exact h
    case h_2 reported hreported =>
      split
      case isTrue => exact h
      case isFalse hfree =>
        split
        case isTrue => exact h
        case isFalse hdiffers =>
          have hnone : t.outstanding = none := by simpa using hfree
          have hseen : t.applied.isSome = true → R.surprised := fun happlied => by
            obtain ⟨applied, hat⟩ := Option.isSome_iff_exists.mp happlied
            refine hsurprise t ht ?_
            simp only [hat, Option.any_some, Bool.not_eq_true] at hdiffers
            simp [Tracked.contradicts, hnone, hreported, hat, hdiffers]
          have hobserved : ∀ due : Tracked → Option Nat, Course R base now (s.updateAt index fun t =>
              { t with applied := some reported, writeDueAt := due t }) := fun due =>
            h.quietAt hnow (fun _ => ⟨rfl, rfl, rfl⟩) fun t' ht' => by
              obtain rfl := Option.some.inj (ht.symm.trans ht')
              exact .observed reported _ hnone hseen
          dsimp only
          split
          · exact (hobserved fun _ => some now).writeLimitIfDue hnow index
          · exact hobserved fun t => t.writeDueAt

theorem resolveBinding (hnow : R.within now) (index : Nat) (request : MsgCounter)
    (error : ErrorNumber) : Course R base now (s.resolveBinding index request error now).1 := by
  unfold Guarding.resolveBinding
  split
  case h_1 => exact h
  case h_2 feature _ =>
    have hquiet := h.quiet hnow index (f := fun t =>
        { t with pendingBindings := t.pendingBindings.eraseP fun p => p.1 == request })
      (fun _ => ⟨rfl, rfl, rfl⟩) fun _ => rfl
    dsimp only
    refine becomeReady ?_ hnow index
    split
    case h_1 => exact hquiet
    case h_2 t ht =>
      split
      · split
        · exact hquiet.amend hnow ht (f := fun t => { t with boundLoadControl := true })
            (fun _ => ⟨rfl, rfl⟩) .inl (rfl : Mark.boundLoadControl.isPlain = true) rfl
            (.boundLoadControl _)
        · split
          · exact hquiet.amend hnow ht (f := fun t => { t with boundConfiguration := true })
              (fun _ => ⟨rfl, rfl⟩) .inl (rfl : Mark.boundConfiguration.isPlain = true) rfl
              (.boundConfiguration _)
          · exact hquiet
      · exact hquiet

theorem resolveLimit (hnow : R.within now) (index : Nat) (request : MsgCounter)
    (error : ErrorNumber) : Course R base now (s.resolveLimit index request error now).1 := by
  unfold Guarding.resolveLimit
  split
  case h_1 => exact h
  case h_2 t ht =>
    split
    case h_1 => exact h
    case h_2 counter limit hout =>
      have hwaits : t.outstanding.isSome = true := by
        rw [hout]
        rfl
      dsimp only
      split
      · exact (h.amend hnow ht
          (f := fun t =>
            { t with outstanding := none, applied := some limit, refusals := 0, retryAt := none })
          (fun _ => ⟨rfl, rfl⟩) .inl (rfl : Mark.accepted.isPlain = true) rfl
          (.accepted _ hout)).log _
      · exact (h.amend hnow ht
          (f := fun t' =>
            { t' with
              outstanding := none
              refusals := min (t.refusals + 1) (2 ^ 32 - 1)
              retryAt := some (now + retryBackoffStep * min (t.refusals + 1) (2 ^ 32 - 1))
              writeDueAt := some (now + retryBackoffStep * min (t.refusals + 1) (2 ^ 32 - 1)) })
          (fun _ => ⟨rfl, rfl⟩) .inl (rfl : Mark.refused.isPlain = true) rfl
          (.refused _ hwaits _)).log _

theorem resolve (hnow : R.within now) (request : MsgCounter) (error : ErrorNumber) :
    Course R base now (s.resolve request error now).1 := by
  unfold Guarding.resolve
  split
  · exact h.resolveBinding hnow _ request error
  · split
    · exact h.resolveLimit hnow _ request error
    · exact h

theorem onData (hnow : R.within now) (index : Nat) (feature : FeatureAddress)
    (data : CmdData S) (hsurprise : ∀ t, s.actor.peers[index]? = some t → t.peer.loadControl = feature →
      t.contradicts data = true → R.surprised) :
    Course R base now (s.onData index feature data now).1 := by
  unfold Guarding.onData
  split
  case h_1 => exact h
  case h_2 t ht =>
    split
    case isTrue =>
      split
      · exact h
      · split
        · exact h
        · exact h.quiet hnow index (fun _ => ⟨rfl, rfl, rfl⟩) fun _ => rfl
    case isFalse =>
      have hlearned := h.learnIds hnow index feature data
      split
      case h_1 s' event heq =>
        rw [heq] at hlearned
        exact hlearned
      case h_2 s' heq =>
        rw [heq] at hlearned
        have hquiet := hlearned.quiet hnow index
          (f := fun t' => { t' with monitor := (t.monitor.observeData data now).1 })
          (fun _ => ⟨rfl, rfl, rfl⟩) fun _ => rfl
        dsimp only
        split
        · exact hquiet
        · split
          case isTrue hfeature =>
            refine hquiet.observeApplied hnow index data fun t' ht' hcontradicts => ?_
            obtain ⟨limitId, hread⟩ := Books.reads_of_contradicts hcontradicts
            have hpeers : s'.actor.peers = s.actor.peers :=
              (congrArg (·.1.actor.peers) heq).symm.trans (Books.learnIds_of_read now ht feature hread)
            simp only [Guarding.updateAt, hpeers] at ht'
            rw [List.getElem?_modify_eq, ht] at ht'
            obtain rfl := Option.some.inj ht'
            exact hsurprise t ht hfeature.symm hcontradicts
          case isFalse => exact hquiet

theorem onSubscription (hnow : R.within now) (client server : FeatureAddress)
    (hgranted : R.attended → ∀ t ∈ s.actor.peers, client.device = some t.peer.device →
      base.Subscribed t.peer.device) : Course R base now (s.onSubscription client server now) := by
  unfold Guarding.onSubscription
  split
  · exact h
  · split
    case h_1 => exact h
    case h_2 device hclient =>
      split
      case h_1 => exact h
      case h_2 index hindex =>
        obtain ⟨hlt, hdevice, -⟩ := List.findIdx?_eq_some_iff_getElem.mp hindex
        have ht : s.actor.peers[index]? = some s.actor.peers[index] := List.getElem?_eq_getElem hlt
        obtain rfl := beq_iff_eq.mp hdevice
        exact (h.amend hnow ht (f := fun t => { t with watchesHeartbeat := true }) (fun _ => ⟨rfl, rfl⟩)
          (fun _ => .inr fun hattended => hgranted hattended _ (List.mem_of_getElem? ht) hclient)
          (rfl : Mark.subscribed.isPlain = true) rfl (.subscribed _)).writeLimitIfDue hnow index

theorem handleEvent (hnow : R.within now) (event : SpineEvent S)
    (hsurprise : s.Surprised (.handleEvent event now) → R.surprised)
    (hgranted : ∀ client server, event = .subscriptionGranted client server → R.attended →
      ∀ t ∈ s.actor.peers, client.device = some t.peer.device → base.Subscribed t.peer.device) :
    Course R base now (s.handleEvent event now).1 ∨
      ∃ device, (s.handleEvent event now).1 = s.onAnnouncement device now := by
  have hdata : ∀ index feature data, ((∃ t ∈ s.actor.peers, t.peer.loadControl = feature ∧
      t.contradicts data = true) → R.surprised) → Course R base now (s.onData index feature data now).1 :=
    fun index feature data hseen => h.onData hnow index feature data fun t ht hfeature hcontradicts =>
      hseen ⟨t, List.mem_of_getElem? ht, hfeature, hcontradicts⟩
  unfold Guarding.handleEvent
  cases event with
  | discoveryUpdated device => exact .inr ⟨device, rfl⟩
  | useCasesUpdated device => exact .inr ⟨device, rfl⟩
  | dataNotified feature data resolved | replyReceived feature data resolved =>
    dsimp only
    split
    · exact .inl h
    · exact .inl (hdata _ feature resolved hsurprise)
  | subscriptionGranted client server => exact .inl (h.onSubscription hnow client server (hgranted client server rfl))
  | resultReceived request error => exact .inl (h.resolve hnow request error)
  | requestTimedOut request => exact .inl (h.giveUp hnow request)
  | _ => exact .inl h

theorem serve (hnow : R.within now) (events : List GuardEvent) (index : Nat) :
    Course R base now (Guarding.serve now (s, events) index).1 := by
  unfold Guarding.serve
  dsimp only
  split
  case h_1 => exact h
  case h_2 t _ =>
    have hquiet := h.quiet hnow index (f := fun t' => { t' with monitor := (t.monitor.handleTimeout now).1 })
      (fun _ => ⟨rfl, rfl, rfl⟩) fun _ => rfl
    exact hquiet.writeLimitIfDue hnow index

theorem handleTimeout (hnow : R.within now) : Course R base now (s.handleTimeout now).1 := by
  have hfold : ∀ (indices : List Nat) (acc : Guarding S × List GuardEvent), Course R base now acc.1 →
      Course R base now (indices.foldl (Guarding.serve now) acc).1 := by
    intro indices
    induction indices with
    | nil => exact fun _ hacc => hacc
    | cons index rest ih => exact fun acc hacc => ih _ (hacc.serve hnow acc.2 index)
  unfold Guarding.handleTimeout
  refine hfold _ _ ?_
  split
  · obtain ⟨-, hbeat, -⟩ := h.beatNow hnow
    exact hbeat
  · exact h

end

end Course

def GuardCall.time : GuardCall S → Option Nat
  | .attach _ now | .require _ _ now | .requireAll _ now | .writeFailsafeLimit _ _ now
  | .writeFailsafeDuration _ _ now | .handleTimeout now | .handleEvent _ now => some now
  | .detach _ | .engine _ => none

def GuardCall.decision : GuardCall S → Option (Option LimitWrite)
  | .require _ limit _ | .requireAll limit _ => some limit
  | _ => none

/-- Whom the guard knows has changed, or what is required of whom. -/
inductive Guarding.Shifts (s : Guarding S) : Option (Option LimitWrite) → Guarding S → Prop
  | attach (peer : ControllableSystemPeer) (now : Nat) : Shifts s none (s.attach peer now)
  | detach (device : AddressDevice) : Shifts s none (s.detach device)
  | require (device : AddressDevice) (limit : Option LimitWrite) (now : Nat) :
      Shifts s (some limit) (s.require device limit now)
  | requireAll (limit : Option LimitWrite) (now : Nat) : Shifts s (some limit) (s.requireAll limit now)

def Guarding.queued (s : Guarding S) (call : GuardCall S) : List (Datagram S) :=
  (s.perform call).engine.outbox.drop s.engine.outbox.length

def Regime.Allows (R : Regime) (s : Guarding S) (call : GuardCall S) : Prop :=
  (s.Surprised call → R.surprised) ∧ (R.attended → s.Heedful call)

structure Performs (R : Regime) (s : Guarding S) (now : Nat) (decision : Option (Option LimitWrite))
    (s' : Guarding S) : Prop where
  books : Books R now s'
  told : s.Says (R.Hears s) s'
  moved : s.Stands s' ∨ s.Shifts decision s'

theorem Performs.of_queued {R : Regime} {s : Guarding S} {now : Nat} {call : GuardCall S}
    {decision : Option (Option LimitWrite)} (h : Performs R s now decision (s.perform call)) {d : Datagram S} (hd : d ∈ s.queued call)
    (hlimit : isLimitWrite d = true) : ∃ t ∈ s.actor.peers, ∃ limitId,
      SaysLimit s.actor.client t.peer limitId (t.required.getD LimitWrite.deactivated) d := by
  obtain ⟨entries, sent, -, hsent, -, htold⟩ := h.told
  rw [Guarding.queued, hsent, List.drop_left] at hd
  obtain ⟨t, ht, -, -, limitId, -, -, hlimit, -⟩ := htold.noted_of_mem hd hlimit
  exact ⟨t, ht, limitId, hlimit⟩

theorem Performs.writes {R : Regime} {s s' : Guarding S} {now : Nat}
    {decision : Option (Option LimitWrite)} (h : Performs R s now decision s') :
    s.Says (fun diary device time limitId limit => R.Writes (since device diary) time limitId limit ∧
      R.Hears s diary device time limitId limit) s' := by
  obtain ⟨entries, sent, hdiary, hsent, hpending, htold⟩ := h.told
  refine ⟨entries, sent, hdiary, hsent, hpending, htold.mono fun newer older device time limitId limit heq hears =>
    ⟨?_, hears⟩⟩
  refine h.books.keeps newer device time limitId limit (older ++ s.diary) ?_
  rw [hdiary, heq, List.append_assoc, List.cons_append]

namespace Books

variable {R : Regime} {now : Nat} {s : Guarding S}

section

variable (h : Books R now s)

include h

theorem turn : Turn R s now s := ⟨h, .refl s, .refl s⟩

theorem performs : Performs R s now none s := ⟨h, .refl s, .inl (.refl s)⟩

theorem performs_attach (hnow : R.within now) (peer : ControllableSystemPeer) :
    Performs R s now none (s.attach peer now) :=
  ⟨h.attach hnow peer, .attach s peer now, .inr (.attach peer now)⟩

theorem performs_onAnnouncement (hnow : R.within now) (device : AddressDevice) :
    Performs R s now none (s.onAnnouncement device now) := by
  unfold Guarding.onAnnouncement
  split
  · exact h.performs
  · split
    · exact h.performs
    · exact h.performs_attach hnow _

theorem performs_writeFailsafe (device : AddressDevice) (key : PeerIds → Option Nat)
    (value : DeviceConfigurationKeyValueValue) :
    Performs R s now none (s.writeFailsafe device key value now).1 := by
  refine ⟨?_, .writeFailsafe s device key value now, .inl ?_⟩
  · unfold Guarding.writeFailsafe
    repeat' split
    all_goals first | exact h | exact h.of_same rfl rfl rfl
  · unfold Guarding.writeFailsafe
    repeat' split
    all_goals exact ⟨rfl, rfl, rfl, rfl, rfl, id⟩

theorem course {newcomer : Option AddressDevice}
    (hheeds : R.attended → s.Heeds newcomer) : Course R s now s :=
  ⟨h.turn, fun hattended => ⟨(hheeds hattended).1, fun t ht hwatches =>
    (hheeds hattended).2 t ht (.inl hwatches)⟩⟩

theorem performs_handleEvent (hnow : R.within now) (event : SpineEvent S)
    (hallowed : R.Allows s (.handleEvent event now)) :
    Performs R s now none (s.handleEvent event now).1 := by
  have hheeds : R.attended → s.Heeds (GuardCall.newcomer (.handleEvent event now)) := fun hattended =>
    hallowed.2 hattended rfl
  have hgranted : ∀ client server, event = .subscriptionGranted client server → R.attended →
      ∀ t ∈ s.actor.peers, client.device = some t.peer.device → s.Subscribed t.peer.device := by
    rintro client server rfl hattended t ht hclient
    exact (hheeds hattended).2 t ht (.inr hclient)
  rcases (h.course hheeds).handleEvent hnow event hallowed.1 hgranted with hturn | ⟨device, heq⟩
  · exact ⟨hturn.books, hturn.told, .inl hturn.stands⟩
  · rw [heq]
    exact h.performs_onAnnouncement hnow device

theorem performs_call (call : GuardCall S) (hop : call.isOfEngine = false)
    (hcall : ∀ time ∈ call.time, R.next now time ∧ R.within time) (hallowed : R.Allows s call) :
    Performs R s (call.time.getD now) call.decision (s.perform call) := by
  have hlater : ∀ time ∈ call.time, Books R time s := fun time htime => h.later (hcall time htime).1
  cases call with
  | attach peer now => exact (hlater now rfl).performs_attach (hcall now rfl).2 peer
  | detach device => exact ⟨h.detach device, .detach s device, .inr (.detach device)⟩
  | require device limit now =>
    exact ⟨(hlater now rfl).require (hcall now rfl).2 device limit, .require s device limit now,
      .inr (.require device limit now)⟩
  | requireAll limit now =>
    exact ⟨(hlater now rfl).requireAll (hcall now rfl).2 limit, .requireAll s limit now,
      .inr (.requireAll limit now)⟩
  | writeFailsafeLimit device watts now => exact (hlater now rfl).performs_writeFailsafe device _ _
  | writeFailsafeDuration device duration now =>
    simp only [Guarding.perform, Guarding.writeFailsafeDuration, GuardCall.decision]
    split
    · exact (hlater now rfl).performs_writeFailsafe device _ _
    · exact (hlater now rfl).performs
  | handleTimeout now =>
    have hturn := ((hlater now rfl).course fun h => hallowed.2 h rfl).handleTimeout (hcall now rfl).2
    exact ⟨hturn.books, hturn.told, .inl hturn.stands⟩
  | handleEvent event now => exact (hlater now rfl).performs_handleEvent (hcall now rfl).2 event hallowed
  | engine op => cases hop

theorem perform (call : GuardCall S)
    (hcall : ∀ time ∈ call.time, R.next now time ∧ R.within time) (hallowed : R.Allows s call) :
    Books R (call.time.getD now) (s.perform call) := by
  cases hop : call.isOfEngine with
  | false => exact (h.performs_call call hop hcall hallowed).books
  | true =>
    cases call with
    | engine op => exact h.of_same rfl rfl rfl
    | _ => cases hop

theorem run (calls : List (GuardCall S))
    (hordered : (now :: calls.filterMap GuardCall.time).Pairwise R.next)
    (hwithin : ∀ time ∈ calls.filterMap GuardCall.time, R.within time)
    (hallowed : Guarding.machine.Admits R.Allows s calls) :
    ∃ last ∈ now :: calls.filterMap GuardCall.time, Books R last (Guarding.machine.run s calls) := by
  induction calls generalizing s now with
  | nil => exact ⟨now, List.mem_cons_self, h⟩
  | cons call rest ih =>
    obtain ⟨hfirst, hrest⟩ := hallowed
    cases htime : call.time with
    | none =>
      rw [List.filterMap_cons_none htime] at hordered hwithin ⊢
      have hnext := h.perform call (fun time ht => by rw [htime] at ht; cases ht) hfirst
      rw [htime] at hnext
      exact ih hnext hordered hwithin hrest
    | some time =>
      rw [List.filterMap_cons_some htime] at hordered hwithin ⊢
      have hnext := h.perform call (fun time' ht => by
        rw [htime] at ht
        obtain rfl := Option.some.inj ht
        exact ⟨List.rel_of_pairwise_cons hordered List.mem_cons_self, hwithin time List.mem_cons_self⟩) hfirst
      rw [htime] at hnext
      obtain ⟨last, hlast, hbooks⟩ := ih hnext (List.pairwise_cons.mp hordered).2
        (fun time' ht => hwithin time' (List.mem_cons_of_mem _ ht)) hrest
      exact ⟨last, List.mem_cons_of_mem now hlast, hbooks⟩

end

theorem start (R : Regime) (direction : Direction) (client diagnosis : FeatureAddress) (e : Engine S)
    (now : Nat) : Books R now (Guarding.start direction client diagnosis e now) :=
  ⟨List.nodup_nil, fun _ ht => absurd ht List.not_mem_nil, Memory.nil, Regime.Keeps.nil⟩

theorem performs_run (direction : Direction) (client diagnosis : FeatureAddress) (e : Engine S)
    {start : Nat} {calls : List (GuardCall S)}
    (hordered : (start :: calls.filterMap GuardCall.time).Pairwise R.next)
    (hwithin : ∀ time ∈ calls.filterMap GuardCall.time, R.within time)
    (hallowed : Guarding.machine.Admits R.Allows (.start direction client diagnosis e start) calls)
    {before : List (GuardCall S)} {call : GuardCall S} (hbefore : before ++ [call] <+: calls)
    (hop : call.isOfEngine = false) :
    let s := Guarding.machine.run (.start direction client diagnosis e start) before
    ∃ time, Performs R s time call.decision (s.perform call) := by
  obtain ⟨rest, rfl⟩ := hbefore
  obtain ⟨hbefore, hlast, -⟩ := (Guarding.machine.admits_append _ before (call :: rest)).mp
    (by rwa [List.append_assoc] at hallowed)
  rw [List.append_assoc, List.singleton_append, List.filterMap_append] at hordered hwithin
  have hinit := Books.start R direction client diagnosis e start
  obtain ⟨last, hmem, hbooks⟩ := hinit.run before
    (hordered.sublist (List.Sublist.cons_cons start (List.sublist_append_left _ _)))
    (fun time htime => hwithin time (List.mem_append_left _ htime)) hbefore
  refine ⟨_, hbooks.performs_call call hop (fun time htime => ?_) hlast⟩
  have hthen : time ∈ (call :: rest).filterMap GuardCall.time :=
    List.mem_filterMap.mpr ⟨call, List.mem_cons_self, htime⟩
  refine ⟨?_, hwithin time (List.mem_append_right _ hthen)⟩
  rw [← List.cons_append] at hordered
  exact (List.pairwise_append.mp hordered).2.2 last hmem time hthen

end Books

end Eebus.Limitation
