import Eebus.Library.Upsert
import Eebus.Limitation.Memory

/-!
What a call on the guard can do to its record of a peer, together with what its diary then says of the
peer. Whatever holds of a record as the guard attaches to the peer, and survives each of these changes,
holds in every run.
-/

namespace Eebus.Limitation

open Eebus.Library Eebus.Model Eebus.Spine

variable {S : Schema}

section Since

variable {device other : AddressDevice} {time : Nat} {mark : Mark} {diary : List Entry}

theorem since_own (hmark : mark ≠ .attached) :
    since device (⟨time, some device, mark⟩ :: diary) =
      ⟨time, some device, mark⟩ :: since device diary := by
  simp [since, Entry.concerns, hmark]

theorem since_other (h : other ≠ device) :
    since device (⟨time, some other, mark⟩ :: diary) = since device diary := by
  simp [since, Entry.concerns, h]

theorem since_all (hmark : mark ≠ .attached) :
    since device (⟨time, none, mark⟩ :: diary) = ⟨time, none, mark⟩ :: since device diary := by
  simp [since, Entry.concerns, hmark]

theorem since_attached : since device (⟨time, some device, .attached⟩ :: diary) = [] := by
  simp [since, Entry.concerns]

end Since

/-- The record says the same of the limit: what is due, reported and pending apart. -/
def Unmoved (t t' : Tracked) : Prop :=
  t' = { t with
    readyReported := t'.readyReported
    reportedNoLimit := t'.reportedNoLimit
    writeDueAt := t'.writeDueAt
    monitor := t'.monitor
    pendingBindings := t'.pendingBindings
    pendingReads := t'.pendingReads
    nominalMax := t'.nominalMax }

/-- What can become of a record and of the peer's part of the diary. A peer that reports another limit
than it acknowledged is a surprise; where the guard is `attended`, a heartbeat reaches every peer that the
guard takes for a listener. -/
inductive Change (surprised attended : Prop) (now : Nat) :
    Tracked → List Entry → Tracked → List Entry → Prop
  | unmoved {t t' : Tracked} {past : List Entry} (h : Unmoved t t') : Change surprised attended now t past t' past
  | relearned {t : Tracked} {past : List Entry} (ids : PeerIds)
      (reads : List (MsgCounter × FeatureAddress)) (hids : ids.limit = t.ids.limit) :
      Change surprised attended now t past { t with ids := ids, pendingReads := reads } past
  | observed {t : Tracked} {past : List Entry} (reported : LimitWrite) (due : Option Nat)
      (hfree : t.outstanding = none) (hsurprise : t.applied.isSome = true → surprised) :
      Change surprised attended now t past { t with applied := some reported, writeDueAt := due } past
  | learned {t : Tracked} {past : List Entry} (device : Option AddressDevice) (ids : PeerIds)
      (reads : List (MsgCounter × FeatureAddress)) {limitId : Nat} (hids : ids.limit = some limitId) :
      Change surprised attended now t past { t with ids := ids, pendingReads := reads }
        (⟨now, device, .learned limitId⟩ :: past)
  | subscribed {t : Tracked} {past : List Entry} (device : Option AddressDevice) :
      Change surprised attended now t past { t with watchesHeartbeat := true } (⟨now, device, .subscribed⟩ :: past)
  | boundLoadControl {t : Tracked} {past : List Entry} (device : Option AddressDevice) :
      Change surprised attended now t past { t with boundLoadControl := true }
        (⟨now, device, .boundLoadControl⟩ :: past)
  | boundConfiguration {t : Tracked} {past : List Entry} (device : Option AddressDevice) :
      Change surprised attended now t past { t with boundConfiguration := true }
        (⟨now, device, .boundConfiguration⟩ :: past)
  | requirement {t : Tracked} {past : List Entry} (device : Option AddressDevice)
      (limit : Option LimitWrite) :
      Change surprised attended now t past (t.setRequired limit now) (⟨now, device, .required limit⟩ :: past)
  | beat {t : Tracked} {past : List Entry} (device : Option AddressDevice)
      {listeners : List AddressDevice}
      (hheard : attended → t.watchesHeartbeat = true → t.peer.device ∈ listeners) :
      Change surprised attended now t past
        (if t.watchesHeartbeat then { t with beatSeenAt := some now } else t)
        (⟨now, device, .beat listeners⟩ :: past)
  | wrote {t : Tracked} {past : List Entry} (device : Option AddressDevice) (counter : MsgCounter)
      (limitId : Nat) (hheld : t.holdsBack now = none) :
      Change surprised attended now t past (t.wrote counter (t.required.getD LimitWrite.deactivated) now)
        (⟨now, device, .wrote limitId (t.required.getD LimitWrite.deactivated)⟩ :: past)
  | accepted {t : Tracked} {past : List Entry} (device : Option AddressDevice) {counter : MsgCounter}
      {limit : LimitWrite} (hout : t.outstanding = some (counter, limit)) :
      Change surprised attended now t past
        { t with outstanding := none, applied := some limit, refusals := 0, retryAt := none }
        (⟨now, device, .accepted⟩ :: past)
  | refused {t : Tracked} {past : List Entry} (device : Option AddressDevice)
      (hout : t.outstanding.isSome = true) (due : Option Nat) :
      Change surprised attended now t past
        { t with
          outstanding := none
          refusals := min (t.refusals + 1) (2 ^ 32 - 1)
          retryAt := some (now + retryBackoffStep * min (t.refusals + 1) (2 ^ 32 - 1))
          writeDueAt := due }
        (⟨now, device, .refused⟩ :: past)
  | unanswered {t : Tracked} {past : List Entry} (device : Option AddressDevice)
      (hout : t.outstanding.isSome = true) (due : Option Nat) :
      Change surprised attended now t past { t with outstanding := none, writeDueAt := due }
        (⟨now, device, .unanswered⟩ :: past)

/-- Something that holds of a record and its diary throughout, and what follows from it where a limit is
written. The times of calls are `within` what they may be, and one comes `next` after another. -/
structure Regime where
  Holds : Nat → Tracked → List Entry → Prop
  Writes : List Entry → Nat → Nat → LimitWrite → Prop
  within : Nat → Prop
  next : Nat → Nat → Prop
  surprised : Prop
  attended : Prop
  later : ∀ {now now' : Nat} {t : Tracked} {past : List Entry}, next now now' →
    Holds now t past → Holds now' t past
  fresh : ∀ {now : Nat} (peer : ControllableSystemPeer), within now → Holds now (Tracked.new peer now) []
  deferred : ∀ {now : Nat} (peer : ControllableSystemPeer) (limit : Option LimitWrite), within now →
    Holds now ((Tracked.new peer now).setRequired limit now) []
  change : ∀ {now : Nat} {t t' : Tracked} {past past' : List Entry}, within now →
    Change surprised attended now t past t' past' → Holds now t past → Holds now t' past'
  heard : ∀ {now : Nat} {t : Tracked} {past : List Entry}, attended → Holds now t past →
    ∀ heard ∈ t.beatSeenAt, heard ≤ now ∧ HeardAt t.peer.device past heard
  write : ∀ {now : Nat} {t : Tracked} {past : List Entry} {limitId : Nat}, Holds now t past →
    t.holdsBack now = none → t.ids.limit = some limitId →
    Writes past now limitId (t.required.getD LimitWrite.deactivated)

def Regime.Keeps (R : Regime) (diary : List Entry) : Prop :=
  ∀ later device time limitId limit earlier,
    diary = later ++ ⟨time, some device, .wrote limitId limit⟩ :: earlier →
      R.Writes (since device earlier) time limitId limit

theorem Regime.Keeps.nil {R : Regime} : R.Keeps [] := fun later _ _ _ _ _ h => by
  cases later <;> cases h

theorem Regime.Keeps.cons {R : Regime} {diary : List Entry} (h : R.Keeps diary) {entry : Entry}
    (hentry : ∀ device limitId limit, entry.device = some device → entry.mark = .wrote limitId limit →
      R.Writes (since device diary) entry.time limitId limit) : R.Keeps (entry :: diary) :=
  forall_wrote_cons h hentry

def Tracked.contradicts (t : Tracked) (data : CmdData S) : Bool :=
  t.outstanding.isNone && (t.ids.limit.bind (readLimitWrite data)).any fun reported =>
    t.applied.any fun applied => !sameLimit applied reported

/-- The call hands the guard such a report. -/
def Guarding.Surprised (s : Guarding S) : GuardCall S → Prop
  | .handleEvent (.dataNotified feature _ data) _ | .handleEvent (.replyReceived feature _ data) _ =>
    ∃ t ∈ s.actor.peers, t.peer.loadControl = feature ∧ t.contradicts data = true
  | _ => False

instance (s : Guarding S) : (call : GuardCall S) → Decidable (s.Surprised call)
  | .handleEvent (.dataNotified feature _ data) _ | .handleEvent (.replyReceived feature _ data) _ =>
    inferInstanceAs (Decidable (∃ t ∈ s.actor.peers, t.peer.loadControl = feature ∧
      t.contradicts data = true))
  | .attach _ _ | .detach _ | .require _ _ _ | .requireAll _ _ | .writeFailsafeLimit _ _ _
  | .writeFailsafeDuration _ _ _ | .handleTimeout _ | .engine _ => .isFalse id
  | .handleEvent (.discoveryUpdated _) _ | .handleEvent (.useCasesUpdated _) _
  | .handleEvent (.writeAbandoned _ _ _) _ | .handleEvent (.dataWritten _ _ _) _
  | .handleEvent (.writeRequested _) _ | .handleEvent (.resultReceived _ _) _
  | .handleEvent (.bindingGranted _ _) _ | .handleEvent (.bindingReleased _ _) _
  | .handleEvent (.subscriptionGranted _ _) _ | .handleEvent (.subscriptionReleased _ _) _
  | .handleEvent (.requestRetried _ _ _) _ | .handleEvent (.requestTimedOut _ _) _ => .isFalse id

def known (peers : List Tracked) : List (AddressDevice × Option LimitWrite) :=
  peers.map fun t => (t.peer.device, t.required)

/-- No peer has two records, what was required is where it is to be, and the regime holds of every record
and every limit write. -/
structure Books (R : Regime) (now : Nat) (s : Guarding S) : Prop where
  distinct : (s.actor.peers.map fun t => t.peer.device).Nodup
  holds : ∀ t ∈ s.actor.peers, R.Holds now t (since t.peer.device s.diary)
  memory : Memory (known s.actor.peers) s.actor.deferred s.diary
  keeps : R.Keeps s.diary

variable {t : Tracked} {f : Tracked → Tracked}

namespace Books

variable {R : Regime} {now now' index : Nat} {s : Guarding S}

theorem later (h : Books R now s) (hnext : R.next now now') : Books R now' s :=
  { h with holds := fun t ht => R.later hnext (h.holds t ht) }

theorem of_same (h : Books R now s) {s' : Guarding S} (hpeers : s'.actor.peers = s.actor.peers)
    (hdeferred : s'.actor.deferred = s.actor.deferred) (hdiary : s'.diary = s.diary) : Books R now s' := by
  refine ⟨hpeers ▸ h.distinct, fun t ht => ?_, ?_, hdiary ▸ h.keeps⟩
  · rw [hdiary]
    exact h.holds t (hpeers ▸ ht)
  · rw [hpeers, hdeferred, hdiary]
    exact h.memory

theorem map_modify {β : Type*} {peers : List Tracked} (index : Nat)
    {g : Tracked → β} (hg : ∀ t, g (f t) = g t) : (peers.modify index f).map g = peers.map g := by
  refine List.ext_getElem? fun place => ?_
  rw [List.getElem?_map, List.getElem?_map]
  by_cases heq : index = place
  · subst heq
    rw [List.getElem?_modify_eq]
    cases peers[index]? with
    | none => rfl
    | some t => simp [hg]
  · rw [List.getElem?_modify_ne f peers heq]

theorem mem_modify {peers : List Tracked} {t' : Tracked} (h : t' ∈ peers.modify index f) :
    (∃ other, other ≠ index ∧ peers[other]? = some t') ∨ ∃ t, peers[index]? = some t ∧ t' = f t := by
  obtain ⟨other, hother⟩ := List.mem_iff_getElem?.mp h
  by_cases heq : index = other
  · subst heq
    rw [List.getElem?_modify_eq] at hother
    obtain ⟨t, ht, rfl⟩ := Option.map_eq_some_iff.mp hother
    exact .inr ⟨t, ht, rfl⟩
  · rw [List.getElem?_modify_ne f peers heq] at hother
    exact .inl ⟨other, Ne.symm heq, hother⟩

theorem device_ne (h : Books R now s) {other : Tracked} {place : Nat}
    (ht : s.actor.peers[index]? = some t) (hother : s.actor.peers[place]? = some other)
    (hne : place ≠ index) : t.peer.device ≠ other.peer.device := fun heq => by
  obtain ⟨hp, -⟩ := List.getElem?_eq_some_iff.mp hother
  have hplace : place < (s.actor.peers.map fun t => t.peer.device).length := by simpa using hp
  have hsame : (s.actor.peers.map fun t => t.peer.device)[place]? =
      (s.actor.peers.map fun t => t.peer.device)[index]? := by
    simp [ht, hother, heq]
  exact hne ((List.getElem?_inj hplace h.distinct).mp hsame)

theorem devices_modify (index : Nat)
    (hsame : ∀ t, (f t).peer = t.peer ∧ (f t).required = t.required) :
    ((s.actor.peers.modify index f).map fun t => t.peer.device) =
        s.actor.peers.map (fun t => t.peer.device) ∧
      known (s.actor.peers.modify index f) = known s.actor.peers :=
  ⟨map_modify index fun t => by rw [(hsame t).1],
    map_modify index fun t => by rw [(hsame t).1, (hsame t).2]⟩

theorem quietAt (h : Books R now s) (hnow : R.within now)
    (hsame : ∀ t, (f t).peer = t.peer ∧ (f t).required = t.required)
    (hf : ∀ t, s.actor.peers[index]? = some t →
      Change R.surprised R.attended now t (since t.peer.device s.diary) (f t) (since t.peer.device s.diary)) :
    Books R now (s.updateAt index f) := by
  obtain ⟨hdevices, hknown⟩ := devices_modify (s := s) index hsame
  refine ⟨?_, fun t' ht' => ?_, ?_, h.keeps⟩
  · dsimp only [Guarding.updateAt]
    rw [hdevices]
    exact h.distinct
  · rcases mem_modify ht' with ⟨place, -, hplace⟩ | ⟨t, ht, rfl⟩
    · exact h.holds t' (List.mem_of_getElem? hplace)
    · rw [(hsame t).1]
      exact R.change hnow (hf t ht) (h.holds t (List.mem_of_getElem? ht))
  · dsimp only [Guarding.updateAt]
    rw [hknown]
    exact h.memory

theorem amend (h : Books R now s) (hnow : R.within now) (ht : s.actor.peers[index]? = some t)
    (hsame : ∀ t, (f t).peer = t.peer ∧ (f t).required = t.required)
    {mark : Mark} (hmark : mark.isPlain = true)
    (hf : Change R.surprised R.attended now t (since t.peer.device s.diary) (f t)
      (⟨now, some t.peer.device, mark⟩ :: since t.peer.device s.diary))
    (hwrote : ∀ limitId limit, mark = .wrote limitId limit →
      R.Writes (since t.peer.device s.diary) now limitId limit ∧
        limit = carried ((Limitation.memory t.peer.device s.diary).getD none)) :
    Books R now ((s.updateAt index f).note now (some t.peer.device) mark) := by
  obtain ⟨hdevices, hknown⟩ := devices_modify (s := s) index hsame
  refine ⟨?_, fun t' ht' => ?_, ?_, ?_⟩
  · dsimp only [Guarding.note, Guarding.updateAt]
    rw [hdevices]
    exact h.distinct
  · rcases mem_modify ht' with ⟨place, hne, hplace⟩ | ⟨same, hat, rfl⟩
    · rw [Guarding.note, since_other (h.device_ne ht hplace hne)]
      exact h.holds t' (List.mem_of_getElem? hplace)
    · obtain rfl := Option.some.inj (ht.symm.trans hat)
      rw [Guarding.note, (hsame t).1, since_own fun heq => by rw [heq] at hmark; cases hmark]
      exact R.change hnow hf (h.holds t (List.mem_of_getElem? ht))
  · dsimp only [Guarding.note, Guarding.updateAt]
    rw [hknown]
    refine h.memory.plain hmark fun device limitId limit hdevice hlimit => ?_
    obtain rfl := Option.some.inj hdevice
    exact (hwrote limitId limit hlimit).2
  · refine h.keeps.cons fun device limitId limit hdevice hlimit => ?_
    obtain rfl := Option.some.inj hdevice
    exact (hwrote limitId limit hlimit).1

theorem amendAll (h : Books R now s) (hnow : R.within now)
    (hpeer : ∀ t, (f t).peer = t.peer) {mark : Mark} (hmark : mark ≠ .attached)
    (hf : ∀ t ∈ s.actor.peers, ∀ past,
      Change R.surprised R.attended now t past (f t) (⟨now, none, mark⟩ :: past))
    {s' : Guarding S} (hpeers : s'.actor.peers = s.actor.peers.map f)
    (hdiary : s'.diary = ⟨now, none, mark⟩ :: s.diary)
    (hmemory : Memory (known s'.actor.peers) s'.actor.deferred s'.diary) : Books R now s' := by
  refine ⟨?_, fun t' ht' => ?_, hmemory, ?_⟩
  · rw [hpeers, List.map_map]
    have hdevices : (fun t : Tracked => t.peer.device) ∘ f = fun t => t.peer.device :=
      funext fun t => by simp [hpeer]
    rw [hdevices]
    exact h.distinct
  · rw [hpeers] at ht'
    obtain ⟨t, ht, rfl⟩ := List.mem_map.mp ht'
    rw [hdiary, hpeer, since_all hmark]
    exact R.change hnow (hf t ht _) (h.holds t ht)
  · rw [hdiary]
    exact h.keeps.cons fun device limitId limit hdevice => nomatch hdevice

theorem beatNow (h : Books R now s) (hnow : R.within now) {listeners : List AddressDevice}
    (hdiary : (s.beatNow now).diary = ⟨now, none, .beat listeners⟩ :: s.diary)
    (hheard : R.attended → ∀ t ∈ s.actor.peers, t.watchesHeartbeat = true → t.peer.device ∈ listeners) :
    Books R now (s.beatNow now) := by
  have hknown : known (s.beatNow now).actor.peers = known s.actor.peers := by
    simp only [known, Guarding.beatNow, Guarding.recordBeat, Guarding.note, List.map_map]
    refine List.map_congr_left fun t _ => ?_
    simp only [Function.comp]
    split <;> rfl
  refine h.amendAll hnow (f := fun t => if t.watchesHeartbeat then { t with beatSeenAt := some now } else t)
    (fun t => by split <;> rfl) (show Mark.beat listeners ≠ .attached from nofun)
    (fun t ht _ => .beat none fun hattended => hheard hattended t ht) rfl hdiary ?_
  rw [hknown, hdiary]
  exact h.memory.plain (show (Mark.beat listeners).isPlain = true from rfl)
    fun _ _ _ hdevice => nomatch hdevice

theorem requireAll (h : Books R now s) (hnow : R.within now) (limit : Option LimitWrite) :
    Books R now (s.requireAll limit now) := by
  have hknown : known (s.requireAll limit now).actor.peers =
      (known s.actor.peers).map fun p => (p.1, limit.map normalise) := by
    simp only [known, Guarding.requireAll, Guarding.note, List.map_map]
    rfl
  refine h.amendAll hnow (f := fun t => t.setRequired limit now) (fun _ => rfl)
    (show Mark.required limit ≠ .attached from nofun) (fun _ _ _ => .requirement none limit) rfl rfl ?_
  rw [hknown]
  exact h.memory.requireAll limit

theorem require (h : Books R now s) (hnow : R.within now) (device : AddressDevice)
    (limit : Option LimitWrite) : Books R now (s.require device limit now) := by
  have hkept : R.Keeps (⟨now, some device, .required limit⟩ :: s.diary) :=
    h.keeps.cons fun _ _ _ _ hlimit => nomatch hlimit
  have hdevices : (known s.actor.peers).map Prod.fst = s.actor.peers.map fun t => t.peer.device := by
    rw [known, List.map_map]
    rfl
  unfold Guarding.require
  dsimp only
  split
  case isTrue hany =>
    have hpeers : modifyFirst (fun t : Tracked => t.peer.device == device)
        (fun t _ => t.setRequired limit now) s.actor.peers =
          s.actor.peers.map fun t => if t.peer.device = device then t.setRequired limit now else t :=
      modifyFirst_eq_map (fun t => by simp) h.distinct _
    refine ⟨?_, fun t' ht' => ?_, ?_, hkept⟩
    · dsimp only [Guarding.note]
      rw [hpeers, List.map_map]
      have hsame : ((fun t : Tracked => t.peer.device) ∘
          fun t => if t.peer.device = device then t.setRequired limit now else t) =
            fun t => t.peer.device := funext fun t => by
        simp only [Function.comp]
        split <;> rfl
      rw [hsame]
      exact h.distinct
    · dsimp only [Guarding.note] at ht' ⊢
      rw [hpeers] at ht'
      obtain ⟨t, ht, rfl⟩ := List.mem_map.mp ht'
      split
      case isTrue heq =>
        subst heq
        have hown : since (t.setRequired limit now).peer.device
            (⟨now, some t.peer.device, .required limit⟩ :: s.diary) =
              ⟨now, some t.peer.device, .required limit⟩ :: since t.peer.device s.diary :=
          since_own nofun
        rw [hown]
        exact R.change hnow (.requirement _ limit) (h.holds t ht)
      case isFalse hne =>
        rw [since_other (Ne.symm hne)]
        exact h.holds t ht
    · dsimp only [Guarding.note]
      have hmem : device ∈ (known s.actor.peers).map Prod.fst := by
        obtain ⟨t, ht, heq⟩ := List.any_eq_true.mp hany
        rw [hdevices]
        exact List.mem_map.mpr ⟨t, ht, beq_iff_eq.mp heq⟩
      have hknown : known (s.actor.peers.map fun t =>
          if t.peer.device = device then t.setRequired limit now else t) =
            (known s.actor.peers).map fun p => if p.1 = device then (p.1, limit.map normalise) else p := by
        simp only [known, List.map_map]
        refine List.map_congr_left fun t _ => ?_
        simp only [Function.comp]
        split <;> rfl
      rw [hpeers, hknown]
      exact h.memory.require_known hmem limit
  case isFalse hnone =>
    have hne : ∀ t ∈ s.actor.peers, device ≠ t.peer.device := fun t ht heq =>
      hnone (List.any_eq_true.mpr ⟨t, ht, by simp [heq]⟩)
    refine ⟨h.distinct, fun t ht => ?_, ?_, hkept⟩
    · dsimp only [Guarding.note]
      rw [since_other (hne t ht)]
      exact h.holds t ht
    · refine h.memory.require_unknown (fun hmem => ?_) limit
      rw [hdevices] at hmem
      obtain ⟨t, ht, heq⟩ := List.mem_map.mp hmem
      exact hne t ht heq.symm

theorem without (h : Books R now s) (device : AddressDevice) (mark : Mark) (time : Nat) :
    ((s.actor.peers.filter fun t => t.peer.device != device).map fun t => t.peer.device).Nodup ∧
      ∀ t ∈ s.actor.peers.filter fun t => t.peer.device != device,
        R.Holds now t (since t.peer.device (⟨time, some device, mark⟩ :: s.diary)) := by
  refine ⟨h.distinct.sublist (List.filter_sublist.map _), fun t ht => ?_⟩
  obtain ⟨hmem, hne⟩ := List.mem_filter.mp ht
  rw [since_other (Ne.symm (bne_iff_ne.mp hne))]
  exact h.holds t hmem

theorem known_filter (peers : List Tracked) (device : AddressDevice) :
    known (peers.filter fun t => t.peer.device != device) =
      (known peers).filter fun p => p.1 != device := by
  rw [known, known, List.filter_map]
  rfl

theorem detach (h : Books R now s) (device : AddressDevice) : Books R now (s.detach device) := by
  obtain ⟨hdistinct, hothers⟩ := h.without device .detached 0
  refine ⟨hdistinct, hothers, ?_, h.keeps.cons fun _ _ _ _ hlimit => nomatch hlimit⟩
  dsimp only [Guarding.detach, Guarding.note]
  rw [known_filter]
  exact h.memory.detach device

theorem attach_record (R : Regime) (s : Guarding S) (peer : ControllableSystemPeer) {now : Nat}
    (hnow : R.within now) :
    ∃ t : Tracked, t.peer = peer ∧ R.Holds now t [] ∧
      t.required = (((s.actor.deferred.find? fun entry => entry.1 == peer.device).map Prod.snd).getD
        none).map normalise ∧
      (s.attach peer now).actor.peers =
        (s.actor.peers.filter fun t => t.peer.device != peer.device) ++ [t] ∧
      (s.attach peer now).actor.deferred =
        s.actor.deferred.eraseP (fun entry => entry.1 == peer.device) ∧
      (s.attach peer now).diary = ⟨now, some peer.device, .attached⟩ :: s.diary := by
  have hintroduced : ∀ t, R.Holds now t [] → R.Holds now (s.introduce t now).1 [] := fun t ht =>
    R.change hnow (.unmoved rfl) ht
  cases hfound : s.actor.deferred.find? fun entry => entry.1 == peer.device with
  | none =>
    refine ⟨(s.introduce (.new peer now) now).1, rfl, hintroduced _ (R.fresh peer hnow), rfl, ?_, rfl,
      rfl⟩
    simp only [Guarding.attach, Guarding.note, hfound]
  | some entry =>
    refine ⟨(s.introduce ((Tracked.new peer now).setRequired entry.2 now) now).1, rfl,
      hintroduced _ (R.deferred peer entry.2 hnow), rfl, ?_, rfl, rfl⟩
    simp only [Guarding.attach, Guarding.note, hfound]

theorem attach (h : Books R now s) (hnow : R.within now) (peer : ControllableSystemPeer) :
    Books R now (s.attach peer now) := by
  obtain ⟨hdistinct, hothers⟩ := h.without peer.device .attached now
  obtain ⟨t, rfl, hrecord, hrequired, hpeers, hdeferred, hdiary⟩ := attach_record R s peer hnow
  refine ⟨?_, fun t' ht' => ?_, ?_, ?_⟩
  · rw [hpeers, List.map_append, List.nodup_append]
    refine ⟨hdistinct, List.nodup_singleton _, fun a ha b hb heq => ?_⟩
    obtain ⟨other, hother, rfl⟩ := List.mem_map.mp ha
    have hne := (List.mem_filter.mp hother).2
    rw [heq, List.mem_singleton.mp hb, bne_self_eq_false] at hne
    cases hne
  · rw [hpeers] at ht'
    rw [hdiary]
    cases List.mem_append.mp ht' with
    | inl hother => exact hothers t' hother
    | inr hlast =>
      obtain rfl := List.mem_singleton.mp hlast
      rw [since_attached]
      exact hrecord
  · have hknown : known ((s.actor.peers.filter fun other => other.peer.device != t.peer.device) ++ [t]) =
        ((known s.actor.peers).filter fun p => p.1 != t.peer.device) ++
          [(t.peer.device, t.required)] := by
      rw [known, List.map_append, ← known_filter]
      rfl
    rw [hpeers, hknown, hrequired, hdeferred, hdiary]
    exact h.memory.attach t.peer.device
  · rw [hdiary]
    exact h.keeps.cons fun _ _ _ _ hlimit => nomatch hlimit

theorem getElem?_beatNow (now : Nat) (ht : s.actor.peers[index]? = some t) :
    (s.beatNow now).actor.peers[index]? =
      some (if t.watchesHeartbeat then { t with beatSeenAt := some now } else t) := by
  have hpeers : (s.beatNow now).actor.peers = s.actor.peers.map fun t =>
      if t.watchesHeartbeat then { t with beatSeenAt := some now } else t := rfl
  rw [hpeers, List.getElem?_map, ht]
  rfl

theorem writeLimit (h : Books R now s) (hnow : R.within now) {t' : Tracked}
    (ht : s.actor.peers[index]? = some t') (hpeer : t'.peer = t.peer) (hrequired : t'.required = t.required)
    (hheld : t'.holdsBack now = none) {limitId : Nat} (hid : t'.ids.limit = some limitId) :
    Books R now (s.writeLimit index t limitId now) := by
  have hwrites := R.write (h.holds t' (List.mem_of_getElem? ht)) hheld hid
  unfold Guarding.writeLimit
  dsimp only
  rw [← hpeer, ← hrequired]
  obtain ⟨e, counter⟩ := s.engine.writeFiltered t'.peer.loadControl s.actor.client
    (limitPayload (t'.required.getD LimitWrite.deactivated) limitId)
    (limitFilters (t'.required.getD LimitWrite.deactivated) limitId) now
  have hbooks : Books R now { s with engine := e } := h.of_same rfl rfl rfl
  have hmem : (t'.peer.device, t'.required) ∈ known s.actor.peers :=
    List.mem_map.mpr ⟨t', List.mem_of_getElem? ht, rfl⟩
  refine hbooks.amend hnow ht (f := (·.wrote counter (t'.required.getD LimitWrite.deactivated) now))
    (fun _ => ⟨rfl, rfl⟩)
    (show (Mark.wrote limitId (t'.required.getD LimitWrite.deactivated)).isPlain = true from rfl)
    (.wrote _ counter limitId hheld) fun limitId' limit' heq => ?_
  obtain ⟨rfl, rfl⟩ := Mark.wrote.inj heq
  exact ⟨hwrites, congrArg (Option.getD · LimitWrite.deactivated) (h.memory.required _ hmem)⟩

theorem learn_limit (ids : PeerIds) (data : CmdData S) (direction : Direction) :
    (ids.learn data direction).1.limit = ids.limit ∨
      ∃ limitId, (ids.learn data direction).1.limit = some limitId ∧ ids.limit ≠ some limitId := by
  simp only [PeerIds.learn, PeerIds.take]
  split
  case isTrue hnew =>
    simp only [Bool.and_eq_true, Option.isSome_iff_exists, bne_iff_ne] at hnew
    obtain ⟨⟨limitId, hfound⟩, hne⟩ := hnew
    exact .inr ⟨limitId, hfound, hfound ▸ hne⟩
  case isFalse => exact .inl rfl

theorem reads_of_contradicts {data : CmdData S} (h : t.contradicts data = true) :
    ∃ limitId, (readLimitWrite data limitId).isSome = true := by
  simp only [Tracked.contradicts, Bool.and_eq_true, Option.any_eq_true] at h
  obtain ⟨-, reported, hreported, -⟩ := h
  obtain ⟨limitId, -, hread⟩ := Option.bind_eq_some_iff.mp hreported
  exact ⟨limitId, by rw [hread]; rfl⟩

theorem learnIds_of_read (now : Nat) (ht : s.actor.peers[index]? = some t)
    (feature : FeatureAddress) {data : CmdData S} {limitId : Nat} (hread : (readLimitWrite data limitId).isSome = true) :
    (s.learnIds index feature data now).1.actor.peers = s.actor.peers := by
  have hlearn : t.ids.learn data s.actor.direction = (t.ids, false) := by
    obtain ⟨key, value⟩ := data
    cases key <;> first | rfl | cases hread
  have hkey : data.key ≠ .loadControlLimitDescriptionListData := by
    obtain ⟨key, value⟩ := data
    rintro rfl
    cases hread
  unfold Guarding.learnIds
  rw [ht]
  dsimp only
  split
  · rfl
  · rw [hlearn]
    simp only [hkey, false_and, if_false, Bool.false_eq_true]
    have hsame : s.actor.peers.modify index (fun t' => { t' with ids := t.ids }) = s.actor.peers := by
      refine List.ext_getElem? fun place => ?_
      by_cases hplace : index = place
      · subst hplace
        rw [List.getElem?_modify_eq, ht]
        rfl
      · rw [List.getElem?_modify_ne _ _ hplace]
    split
    · split <;> exact hsame
    · exact hsame

end Books

end Eebus.Limitation
