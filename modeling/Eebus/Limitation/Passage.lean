import Eebus.Limitation.Expiry
import Eebus.Limitation.Restraint
import Eebus.Limitation.Turns

/-!
The passage of a limit from what is required of the guard to what a Controllable System accepts: the guard
writes nothing else, its engine sends nothing else again, and what is read of it is what was written.
-/

namespace Eebus.Limitation

open Eebus.Library Eebus.Model Eebus.Spine

variable {S : Schema} {D : LimitWrite → Prop}

def WritesOnly (D : LimitWrite → Prop) (d : Datagram S) : Prop :=
  isLimitWrite d = true → ∃ limit, D limit ∧ ∃ limitId, d.commands = [limitCommand limit limitId]

theorem writesOnly_messageUnder (p : Pending S) (counter : MsgCounter) :
    WritesOnly D (p.messageUnder counter) ↔ WritesOnly D p.datagram := by
  unfold WritesOnly
  rw [writeKind_isLimitWrite.counter]
  rfl

theorem bears_engine {s : Guarding S} (h : s.engine.Bears (WritesOnly D)) (op : EngineOp S)
    (hop : op.writes = false) : (s.perform (.engine op)).engine.Bears (WritesOnly D) :=
  h.perform (fun d hno hlimit => by rw [isLimitWrite_of_not_write hno] at hlimit; cases hlimit)
    writesOnly_messageUnder hop

namespace Guarding

/-- What the guard would write is one of these limits: to whom it is attached, and to whom it may be. -/
structure Requires (D : LimitWrite → Prop) (s : Guarding S) : Prop where
  nothing : D LimitWrite.deactivated
  records : ∀ t ∈ s.actor.peers, D (t.required.getD LimitWrite.deactivated)
  waiting : ∀ entry ∈ s.actor.deferred, D (carried entry.2)

namespace Requires

variable {s s' : Guarding S}

theorem of_stands (h : s.Requires D) (hstands : s.Stands s') : s'.Requires D where
  nothing := h.nothing
  records t ht := by
    obtain ⟨t', ht', -, hsame⟩ := hstands.mem_records ht
    rw [← hsame]
    exact h.records t' ht'
  waiting := by
    rw [hstands.deferred]
    exact h.waiting

theorem attach (h : s.Requires D) (peer : ControllableSystemPeer) (now : Nat) :
    (s.attach peer now).Requires D := by
  obtain ⟨t, -, -, hrequired, hpeers, hdeferred, -⟩ := Books.attach_record restraint s peer (show restraint.within now from trivial)
  refine ⟨h.nothing, fun t' ht' => ?_, fun entry hentry => ?_⟩
  · rw [hpeers] at ht'
    rcases List.mem_append.mp ht' with hother | hnew
    · exact h.records t' (List.mem_filter.mp hother).1
    · rw [List.mem_singleton.mp hnew, hrequired]
      cases hfound : s.actor.deferred.find? fun entry => entry.1 == peer.device with
      | none => exact h.nothing
      | some entry => exact h.waiting entry (List.mem_of_find?_eq_some hfound)
  · rw [hdeferred] at hentry
    exact h.waiting entry (List.mem_of_mem_eraseP hentry)

theorem detach (h : s.Requires D) (device : AddressDevice) : (s.detach device).Requires D :=
  ⟨h.nothing, fun t ht => h.records t (List.mem_filter.mp ht).1, h.waiting⟩

theorem require (h : s.Requires D) (device : AddressDevice) {limit : Option LimitWrite}
    (hlimit : D (carried limit)) (now : Nat) : (s.require device limit now).Requires D := by
  unfold Guarding.require
  dsimp only
  split
  · refine ⟨h.nothing, ?_, h.waiting⟩
    exact forall_mem_modifyFirst h.records fun _ _ _ => hlimit
  · refine ⟨h.nothing, h.records, fun entry hentry => ?_⟩
    rcases List.mem_append.mp hentry with hother | hnew
    · exact h.waiting entry (List.mem_filter.mp hother).1
    · rw [List.mem_singleton.mp hnew]
      exact hlimit

theorem requireAll (h : s.Requires D) {limit : Option LimitWrite} (hlimit : D (carried limit)) (now : Nat) :
    (s.requireAll limit now).Requires D := by
  refine ⟨h.nothing, fun t ht => ?_, h.waiting⟩
  obtain ⟨t', -, rfl⟩ := List.mem_map.mp ht
  exact hlimit

theorem engine (h : s.Requires D) (op : EngineOp S) : (s.perform (.engine op)).Requires D :=
  ⟨h.nothing, h.records, h.waiting⟩

theorem moved (h : s.Requires D) {decision : Option (Option LimitWrite)}
    (hdecision : ∀ limit ∈ decision, D (carried limit)) (hmoved : s.Stands s' ∨ s.Shifts decision s') :
    s'.Requires D := by
  rcases hmoved with hstands | hshifts
  · exact h.of_stands hstands
  · cases hshifts with
    | attach peer now => exact h.attach peer now
    | detach device => exact h.detach device
    | require device limit now => exact h.require device (hdecision limit rfl) now
    | requireAll limit now => exact h.requireAll (hdecision limit rfl) now

end Requires

namespace Says

variable {s s' : Guarding S} {W : List Entry → AddressDevice → Nat → Nat → LimitWrite → Prop}

theorem bears (h : s.Says W s') (hrequires : s.Requires D) (hbears : s.engine.Bears (WritesOnly D)) :
    s'.engine.Bears (WritesOnly D) := by
  obtain ⟨entries, sent, -, hsent, hpending, htold⟩ := h
  have hnew : ∀ d ∈ sent, WritesOnly D d := fun d hd hlimit => by
    obtain ⟨t, ht, -, -, limitId, -, -, hsaid, -⟩ := htold.noted_of_mem hd hlimit
    exact ⟨_, hrequires.records t ht, limitId, hsaid.command⟩
  refine ⟨fun d hd => ?_, fun p hp => ?_⟩
  · rw [hsent] at hd
    exact (List.mem_append.mp hd).elim (hbears.outbox d) (hnew d)
  · exact (hpending p hp).elim (hbears.pending p) (hnew p.datagram)

theorem of_required (h : s.Says W s') (hrequires : s.Requires D) :
    s.Says (fun diary device time limitId limit => W diary device time limitId limit ∧ D limit) s' := by
  obtain ⟨entries, sent, hdiary, hsent, hpending, htold⟩ := h
  refine ⟨entries, sent, hdiary, hsent, hpending, htold.mono fun newer older device time limitId limit heq hW =>
    ⟨hW, ?_⟩⟩
  obtain ⟨t, ht, rfl⟩ := htold.required_of_wrote heq
  exact hrequires.records t ht

end Says

end Guarding

/-- A limit write that is put to the system asks for one of these limits. -/
def AsksFor (D : LimitWrite → Prop) (write : WriteRequest S) : Prop :=
  write.data.key = .loadControlLimitListData → ∃ limit, D limit ∧ ∃ limitId stored,
    write.data = limitPayload limit limitId ∧
      write.resolved = resolveWrite stored (limitPayload limit limitId) (WriteOps.of (limitCommand limit limitId))

/-- A limit was taken for one of these, at the watts a scaled number carries. -/
def TakenAs (D : LimitWrite → Prop) (taken : LimitWrite) : Prop :=
  ∃ limit, D limit ∧ ∃ watts, (ScaledNumber.fromF64 limit.watts 0).toF64 = some watts ∧
    taken = ⟨limit.isActive, watts, limit.duration⟩

theorem limitPayload_read {limit : LimitWrite} {writtenId id : Nat}
    (h : (readLimitWrite (limitPayload limit writtenId : CmdData S) id).isSome = true) : writtenId = id := by
  by_contra hother
  have hnone : [limitEntryOf limit writtenId].find? (fun e => e.limitId == some id) = none := by
    simpa [limitEntryOf] using hother
  have hread : readLimitWrite (limitPayload limit writtenId : CmdData S) id = none :=
    congrArg (fun found => Option.bind found readLimitEntry) hnone
  rw [hread] at h
  cases h

theorem AsksFor.taken {write : WriteRequest S} (h : AsksFor D write)
    (hlasts : ∀ limit, D limit → ∀ d ∈ limit.duration, d ≤ durationMax)
    (haddressed : (readLimitWrite write.data limitId).isSome = true) {taken : LimitWrite}
    (hread : readLimitWrite write.resolved limitId = some taken) : TakenAs D taken := by
  obtain ⟨limit, hlimit, id, stored, hdata, hresolved⟩ := h (readLimitWrite_key haddressed)
  rw [hdata] at haddressed
  obtain rfl := limitPayload_read haddressed
  rw [hresolved, resolveWrite_read stored limit _ (hlasts limit hlimit)] at hread
  obtain ⟨watts, hwatts, rfl⟩ := Option.map_eq_some_iff.mp hread
  exact ⟨limit, hlimit, watts, hwatts, rfl⟩

theorem asksFor_handleDatagram {e : Engine S} (h : ∀ write ∈ requestsIn e.events, AsksFor D write)
    {datagram : Datagram S} (hdatagram : WritesOnly D datagram) (now : Nat) :
    ∀ write ∈ requestsIn (e.handleDatagram datagram now).1.events, AsksFor D write := by
  obtain ⟨reported, ⟨new, hevents, -, -⟩, -⟩ := e.accounts_handleDatagram datagram now
  have hput := putBetween_of_append hevents
  intro write hwrite
  rw [hevents, requestsIn_append, ← hput] at hwrite
  rcases List.mem_append.mp hwrite with hold | hnew
  · exact h write hold
  · rcases e.handleDatagram_puts datagram now with ⟨hnone, -⟩ | ⟨w, put, queued, hdeferral⟩
    · rw [hnone] at hnew
      cases hnew
    · rw [hdeferral.told] at hnew
      obtain rfl := List.mem_singleton.mp hnew
      intro hkey
      obtain ⟨limit, hlimit, limitId, hcommands⟩ := hdatagram (isLimitWrite_of_put hdeferral hkey)
      have hcmd : w.cmd = limitCommand limit limitId :=
        (List.cons.inj (hdeferral.admitted.command.symm.trans hcommands)).1
      have hdata : w.data = limitPayload limit limitId := by
        have hpayload := hdeferral.admitted.payload
        rw [hcmd, limitCommand_data] at hpayload
        exact (Option.some.inj hpayload).symm
      refine ⟨limit, hlimit, limitId, w.feature.data w.data.function, hdeferral.payload.trans hdata, ?_⟩
      rw [hdeferral.preview, DatagramWrite.ops, hcmd, hdata]

end Eebus.Limitation
