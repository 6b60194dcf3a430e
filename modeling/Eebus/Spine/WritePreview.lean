import Eebus.Model.Merging
import Eebus.Spine.Dispatch

/-! A write the application decides on is reported with the document it would leave behind. That
preview is computed on a copy, the commit runs on the feature: the two agree except where the
function holds nothing yet. -/

namespace Eebus.Spine

open Eebus.Library Eebus.Model

variable {S : Schema}

section Feature

variable {f : LocalFeature S} {ops : WriteOps S} {data stored : CmdData S}

theorem holds_of_stored {entry : FunctionEntry S} (hwriteable : f.writeableFunction data = .ok entry)
    (hstored : f.data data.function = some stored) : f.Holds data entry stored := by
  have hfound := (LocalFeature.writeableFunction_eq_ok.mp hwriteable).1
  exact ⟨hwriteable, by simpa [LocalFeature.data, hfound] using hstored⟩

theorem asks_nothing_of_ok {error : FeatureError S} (hrefused : f.writeableFunction data = .error error)
    (hok : (ops.applyTo f data).2 = .ok ()) : ops.deletes = [] ∧ ops.stores = false := by
  cases hdeletes : ops.deletes with
  | cons filter rest =>
    simp [WriteOps.applyTo, hdeletes, WriteOps.applyDeletes, LocalFeature.deleteFiltered,
      hrefused] at hok
  | nil =>
    refine ⟨rfl, ?_⟩
    cases hstores : ops.stores with
    | false => rfl
    | true =>
      have happly : ∀ f', f.apply data ops.isPartial ≠ .ok f' := by
        intro f' happly
        have hnone : ∀ entry, f.writeableFunction data ≠ .ok entry := by simp [hrefused]
        simp only [ne_eq, LocalFeature.writeableFunction_eq_ok, not_and] at hnone
        simp only [LocalFeature.apply] at happly
        repeat' split at happly
        all_goals simp_all
      simp only [WriteOps.applyTo, hdeletes, WriteOps.applyDeletes, hstores, if_true] at hok
      split at hok
      case h_1 f' hf' => exact absurd hf' (happly f')
      case h_2 => simp at hok

theorem applyTo_stored (hstored : f.data data.function = some stored)
    (hok : (ops.applyTo f data).2 = .ok ()) :
    ∃ resolved, ops.resolve stored data = .ok resolved ∧
      (ops.applyTo f data).1.data data.function = some resolved := by
  cases hwriteable : f.writeableFunction data with
  | error error =>
    obtain ⟨hdeletes, hstores⟩ := asks_nothing_of_ok hwriteable hok
    refine ⟨stored, ?_, ?_⟩
    · simp [WriteOps.resolve, WriteOps.deleteSteps, hdeletes, runSteps, hstores]
    · simpa [WriteOps.applyTo, hdeletes, WriteOps.applyDeletes, hstores] using hstored
  | ok entry =>
    have h := holds_of_stored hwriteable hstored
    have hfunction := runDeletes_function h.function_eq ops.deleteSteps
    rw [WriteOps.applyTo_holds ops h] at hok ⊢
    simp only [WriteOps.resolve]
    rcases hrun : runSteps (deleteStep data) ops.deleteSteps stored with ⟨deleted, result⟩
    rw [hrun] at hok hfunction
    cases result with
    | error error => simp at hok
    | ok _ =>
      cases hstores : ops.stores with
      | false => exact ⟨deleted, by simp, by simpa using h.data_store hfunction⟩
      | true =>
        obtain ⟨merged, hmerged, hmfunction⟩ := apply_sameFunction hfunction ops.isPartial
        cases hrefusal : WriteOps.updateRefusal entry (some deleted) data ops.isPartial with
        | some error => simp [hstores, hrefusal] at hok
        | none =>
          refine ⟨merged, by simp [hmerged], ?_⟩
          simpa [hmerged] using h.data_store (hmfunction.trans hfunction)

theorem applyTo_nothing (hnone : f.data data.function = none)
    (hok : (ops.applyTo f data).2 = .ok ()) :
    (ops.applyTo f data).1.data data.function = (if ops.stores then some data else none) ∧
      (ops.stores = true → data.entryCount ≤ maxListEntries) := by
  cases hwriteable : f.writeableFunction data with
  | error error =>
    obtain ⟨hdeletes, hstores⟩ := asks_nothing_of_ok hwriteable hok
    simpa [WriteOps.applyTo, hdeletes, WriteOps.applyDeletes, hstores] using hnone
  | ok entry =>
    obtain ⟨hfound, -, -⟩ := LocalFeature.writeableFunction_eq_ok.mp hwriteable
    have hdata : entry.data = none := by simpa [LocalFeature.data, hfound] using hnone
    simp only [WriteOps.applyTo, WriteOps.applyDeletes_nothing ops.deletes hwriteable hdata] at hok ⊢
    cases hstores : ops.stores with
    | false => simpa using hnone
    | true =>
      simp only [hstores, if_true, WriteOps.apply_of_writeable hwriteable, hdata] at hok ⊢
      cases hrefusal : WriteOps.updateRefusal entry none data ops.isPartial with
      | some error => simp [hrefusal] at hok
      | none =>
        refine ⟨by simpa using f.data_store hfound, fun _ => ?_⟩
        simp only [WriteOps.updateRefusal] at hrefusal
        split at hrefusal
        · simp at hrefusal
        · split at hrefusal
          case isTrue => simp at hrefusal
          case isFalse hbound => simpa [LocalFeature.wouldHold] using hbound

theorem applyTo_nothing_ok (hnone : f.data data.function = none)
    (hchecked : f.checkWrite data (ops.isPartial || !ops.deletes.isEmpty) = .ok ())
    (hbound : ops.stores = true → data.entryCount ≤ maxListEntries) :
    (ops.applyTo f data).2 = .ok () := by
  obtain ⟨entry, hwriteable, hrestricted⟩ := LocalFeature.checkWrite_eq_ok hchecked
  have hfound := (LocalFeature.writeableFunction_eq_ok.mp hwriteable).1
  have hdata : entry.data = none := by simpa [LocalFeature.data, hfound] using hnone
  have hmerged : (ops.isPartial && !entry.operations.writePartial) = false := by
    cases hpart : ops.isPartial with
    | false => rfl
    | true => simpa [hpart] using hrestricted
  simp only [WriteOps.applyTo, WriteOps.applyDeletes_nothing ops.deletes hwriteable hdata]
  cases hstores : ops.stores with
  | false => rfl
  | true =>
    have hrefusal : WriteOps.updateRefusal entry none data ops.isPartial = none := by
      simp only [WriteOps.updateRefusal, hmerged, LocalFeature.wouldHold]
      simp [hbound hstores]
    simp only [if_true, WriteOps.apply_of_writeable hwriteable, hdata, hrefusal]

end Feature

/-- Where the preview is exact: on a function that holds something it always is. On one that holds
nothing, the write must store its payload, and a partial one must not name an entry twice (unless
one of its deletions cannot be served, or it is too long to be stored at all). -/
def PreviewExact (stored : Option (CmdData S)) (ops : WriteOps S) (data : CmdData S) : Prop :=
  stored.isSome = true ∨ ops.stores = true ∧
    (maxListEntries < data.entryCount ∨
      (ops.isPartial = true → data.identifiersDistinct ∨
        ∃ step ∈ ops.deleteSteps, servableStep data.key step = false))

theorem resolveWrite_none_eq_iff {ops : WriteOps S} (hstores : ops.stores = true)
    (data : CmdData S) : resolveWrite none data ops = data ↔
      (ops.isPartial = true → data.identifiersDistinct ∨
        ∃ step ∈ ops.deleteSteps, servableStep data.key step = false) := by
  have hshrink := deleteStep_shrinking data
  have hok := hshrink.run_ok_iff ops.deleteSteps data.blank rfl
  obtain ⟨hkey, hsize⟩ := hshrink.run_size_le ops.deleteSteps data.blank rfl
  have hblank := CmdData.eq_blank_of_size_le hkey hsize
  simp only [resolveWrite, CmdData.empty_function, Option.none_or, WriteOps.resolve]
  rcases hrun : runSteps (deleteStep data) ops.deleteSteps data.blank with ⟨deleted, result⟩
  rw [hrun] at hok hblank
  cases result with
  | error error =>
    have hstep : ∃ step ∈ ops.deleteSteps, servableStep data.key step = false := by simpa using hok
    simp [hstep]
  | ok _ =>
    have hservable := hok.mp rfl
    have hnone : ¬∃ step ∈ ops.deleteSteps, servableStep data.key step = false := by
      rintro ⟨step, hmem, hstep⟩
      simp [hservable step hmem] at hstep
    simp only at hblank
    subst hblank
    have hdefault := (S.type data.key).apply_default_eq_iff data.value ops.isPartial
    simp only [hstores, if_true, CmdData.apply_blank, hnone, or_false]
    rw [CmdData.identifiersDistinct, ← hdefault]
    constructor
    · intro h
      have hvalue := (CmdData.sameValue_iff _ _).mpr h
      exact hvalue.2
    · intro h
      rw [h]

/-- What was reported is what is stored, and what the subscribers are told. NodeManagement answers
its subscribers with documents it computes for each of them. -/
structure Keeps (request : WriteRequest S) (e e' : Engine S) : Prop where
  stored : e'.device.data request.feature request.data.function = some request.resolved
  notified : isNodeManagement request.feature = false →
    ∀ d ∈ e'.outbox.drop e.outbox.length, Datagram.isOf .notify d →
      d.commands = [Cmd.withData request.resolved]

/-- The datagram is a write that the engine puts to the application. -/
structure Defers (e : Engine S) (datagram : Datagram S) (w : DatagramWrite S) : Prop where
  admitted : Admitted e datagram w
  deferred : w.feature.approval = .deferred
  room : (w.filed e).1.deferred.length < maxDeferredWrites

variable {write : DeferredWrite S} {e : Engine S}

namespace Engine

theorem sends_notify_data {feature : FeatureAddress} {function : Function S.Other} {data : CmdData S}
    (hnode : isNodeManagement feature = false) (e : Engine S)
    (hdata : e.device.data feature function = some data) :
    Sends (fun d => d.commands = [Cmd.withData data]) e (e.notify feature function) := by
  have hloop : ∀ (subscribers : List FeatureAddress) (e : Engine S),
      e.device.data feature function = some data →
      Sends (fun d => d.commands = [Cmd.withData data]) e
        (subscribers.foldl (notifySubscriber feature function) e) := by
    intro subscribers
    induction subscribers with
    | nil => exact fun e _ => Sends.refl _ e
    | cons subscriber rest ih =>
      intro e hdata
      have hnotification : e.notification feature function subscriber = some data := by
        simp [notification, hnode, hdata]
      have hfirst : Sends (fun d => d.commands = [Cmd.withData data]) e
          (notifySubscriber feature function e subscriber) := by
        simp only [notifySubscriber, hnotification]
        exact e.sends_sendCmd _ _ _ _ _ rfl
      exact hfirst.trans (ih _ (by rw [hfirst.device]; exact hdata))
  simp only [notify]
  split
  · exact Sends.refl _ e
  · exact hloop _ e hdata

theorem acceptWrite_ok {token : Nat}
    (hfind : e.findDeferred token = some write) (hok : (e.acceptWrite token).2 = .ok ()) :
    ∃ feature, e.device.resolve write.feature = some feature ∧
      (write.ops.applyTo feature write.data).2 = .ok () ∧
      (e.acceptWrite token).1 = (((e.dropDeferred token).storeFeature write.feature
          (write.ops.applyTo feature write.data).1).reportWritten write.feature write.peer
            write.data.function).answerDeferred write .none := by
  have hresolve : (e.dropDeferred token).device.resolve write.feature =
      e.device.resolve write.feature := rfl
  simp only [acceptWrite, finishWrite, hfind, hresolve] at hok ⊢
  cases hfeature : e.device.resolve write.feature with
  | none => simp [hfeature] at hok
  | some feature =>
    simp only [hfeature, commit] at hok ⊢
    rcases happly : write.ops.applyTo feature write.data with ⟨feature', result⟩
    cases result with
    | error error => simp [happly] at hok
    | ok _ => exact ⟨feature, rfl, by rw [happly], by rw [happly]⟩

end Engine

namespace Defers

variable {e : Engine S} {datagram : Datagram S} {w : DatagramWrite S}

theorem handleDatagram_eq (h : Defers e datagram w) (now : Nat) :
    (e.handleDatagram datagram now).1 = (w.filed e).1.deferWrite w.feature w.data w.ops w.source
      w.destination w.counter w.ackRequest now := by
  have hroom := h.room
  rw [h.admitted.handleDatagram_eq now, Engine.decideWrite, if_pos h.deferred, if_neg (by omega)]
  rfl

theorem stored_eq (h : Defers e datagram w) :
    e.device.data w.destination w.data.function = w.feature.data w.data.function := by
  simp [LocalDevice.data, h.admitted.resolved]

end Defers

theorem acceptWrite_applied {token : Nat}
    (hfind : e.findDeferred token = some write) (function : Function S.Other) :
    (e.acceptWrite token).1.device.data write.feature function =
      (e.device.resolve write.feature).bind fun feature =>
        (write.ops.applyTo feature write.data).1.data function := by
  have hresolve : (e.dropDeferred token).device.resolve write.feature =
      e.device.resolve write.feature := rfl
  simp only [Engine.acceptWrite, Engine.finishWrite, hfind, hresolve]
  cases hfeature : e.device.resolve write.feature with
  | none =>
    dsimp only
    rw [(Engine.sends_answerDeferred _ _ _).device, LocalDevice.data, hresolve, hfeature]
    rfl
  | some feature =>
    have haddress := (SameShape.applyTo write.ops feature write.data).address
    have hstores := Engine.storeFeature_data (hresolve.trans hfeature) haddress function
    simp only [Engine.commit, Option.bind_some]
    rcases happly : write.ops.applyTo feature write.data with ⟨feature', result⟩
    rw [happly] at hstores
    cases result with
    | error error => rw [(Engine.sends_answerDeferred _ _ _).device, hstores]
    | ok _ =>
      rw [(Engine.sends_answerDeferred _ _ _).device, Engine.reportWritten,
        (Engine.sends_notify _ _ _).device, Engine.emit, hstores]

theorem acceptWrite_data {token : Nat}
    (hfind : e.findDeferred token = some write) (hok : (e.acceptWrite token).2 = .ok ()) :
    (e.acceptWrite token).1.device.data write.feature write.data.function =
      match e.device.data write.feature write.data.function with
      | some stored => some (resolveWrite (some stored) write.data write.ops)
      | none => if write.ops.stores then some write.data else none := by
  obtain ⟨feature, hfeature, happly, -⟩ := Engine.acceptWrite_ok hfind hok
  have hdata : e.device.data write.feature write.data.function =
      feature.data write.data.function := by simp [LocalDevice.data, hfeature]
  rw [acceptWrite_applied hfind, hfeature, Option.bind_some, hdata]
  cases hstored : feature.data write.data.function with
  | some stored =>
    obtain ⟨resolved, hresolved, hkept⟩ := applyTo_stored hstored happly
    simp only [resolveWrite, Option.some_or, hresolved, hkept]
  | none => exact (applyTo_nothing hstored happly).1

theorem acceptWrite_notified {token : Nat} {data : CmdData S}
    (hfind : e.findDeferred token = some write) (hok : (e.acceptWrite token).2 = .ok ())
    (hdata : (e.acceptWrite token).1.device.data write.feature write.data.function = some data)
    (hnode : isNodeManagement write.feature = false) :
    ∀ d ∈ (e.acceptWrite token).1.outbox.drop e.outbox.length, Datagram.isOf .notify d →
      d.commands = [Cmd.withData data] := by
  obtain ⟨feature, -, -, hend⟩ := Engine.acceptWrite_ok hfind hok
  rw [hend] at hdata ⊢
  have hanswer := Engine.sends_answerDeferred
    (((e.dropDeferred token).storeFeature write.feature
      (write.ops.applyTo feature write.data).1).reportWritten write.feature write.peer
        write.data.function) write .none
  rw [hanswer.device, Engine.reportWritten, (Engine.sends_notify _ _ _).device] at hdata
  obtain ⟨notified, hnotified, hcarries⟩ := (Engine.sends_notify_data hnode _ hdata).sent
  obtain ⟨answered, hanswered, hreports⟩ := hanswer.sent
  intro d hd hnotify
  rw [hanswered, Engine.reportWritten, hnotified] at hd
  have hd : d ∈ notified ++ answered := by
    simpa [Engine.emit, Engine.storeFeature, Engine.dropDeferred] using hd
  cases List.mem_append.mp hd with
  | inl hd => exact hcarries d hd
  | inr hd =>
    have hresult := (hreports d hd).1
    rw [show d.header.bind Header.cmdClassifier = some .notify from hnotify] at hresult
    simp at hresult

theorem acceptWrite_keeps {request : WriteRequest S}
    (hfeature : request.feature = write.feature) (hpayload : request.data = write.data)
    (hresolved : request.resolved =
      resolveWrite (e.device.data write.feature write.data.function) write.data write.ops)
    (hexact : PreviewExact (e.device.data write.feature write.data.function) write.ops write.data)
    (hfind : e.findDeferred request.token = some write)
    (hok : (e.acceptWrite request.token).2 = .ok ()) :
    Keeps request e (e.acceptWrite request.token).1 := by
  have hdata := acceptWrite_data hfind hok
  have hstored : (e.acceptWrite request.token).1.device.data write.feature write.data.function =
      some request.resolved := by
    cases hbefore : e.device.data write.feature write.data.function with
    | some stored =>
      rw [hbefore] at hdata hresolved
      rw [hdata, hresolved]
    | none =>
      rw [hbefore] at hdata hresolved hexact
      obtain ⟨hstores, hlong | hdistinct⟩ := hexact.resolve_left (by simp)
      · obtain ⟨feature, hresolve, happly, -⟩ := Engine.acceptWrite_ok hfind hok
        have hnone : feature.data write.data.function = none := by
          simpa [LocalDevice.data, hresolve] using hbefore
        have hbound := (applyTo_nothing hnone happly).2 hstores
        omega
      · rw [hdata, hresolved, (resolveWrite_none_eq_iff hstores write.data).mpr hdistinct]
        simp [hstores]
  refine ⟨by rw [hfeature, hpayload, hstored], fun hnode => ?_⟩
  rw [hfeature] at hnode
  exact acceptWrite_notified hfind hok hstored hnode

theorem previewExact_of_keeps {request : WriteRequest S}
    {feature : LocalFeature S} (hfeature : request.feature = write.feature)
    (hpayload : request.data = write.data) (hresolved : request.resolved =
      resolveWrite (e.device.data write.feature write.data.function) write.data write.ops)
    (hresolve : e.device.resolve write.feature = some feature)
    (hchecked : feature.checkWrite write.data
      (write.ops.isPartial || !write.ops.deletes.isEmpty) = .ok ())
    (hfind : e.findDeferred request.token = some write)
    (hkeeps : (e.acceptWrite request.token).2 = .ok () →
      Keeps request e (e.acceptWrite request.token).1) :
    PreviewExact (e.device.data write.feature write.data.function) write.ops write.data := by
  have hdata : e.device.data write.feature write.data.function =
      feature.data write.data.function := by simp [LocalDevice.data, hresolve]
  cases hbefore : e.device.data write.feature write.data.function with
  | some stored => exact .inl rfl
  | none =>
    have hnone : feature.data write.data.function = none := by rw [← hdata, hbefore]
    by_cases hlong : write.ops.stores = true ∧ maxListEntries < write.data.entryCount
    · exact .inr ⟨hlong.1, .inl hlong.2⟩
    · have happly := applyTo_nothing_ok hnone hchecked fun hstores => by
        by_contra hbound
        exact hlong ⟨hstores, by omega⟩
      have hok : (e.acceptWrite request.token).2 = .ok () := by
        have hresolve' : (e.dropDeferred request.token).device.resolve write.feature =
            some feature := hresolve
        rcases heq : write.ops.applyTo feature write.data with ⟨feature', result⟩
        rw [heq] at happly
        simp only at happly
        subst happly
        simp only [Engine.acceptWrite, Engine.finishWrite, hfind, hresolve', Engine.commit, heq]
      have hstored := (hkeeps hok).stored
      rw [hfeature, hpayload, acceptWrite_data hfind hok, hbefore, hresolved, hbefore] at hstored
      have hstores : write.ops.stores = true := by
        by_contra hstores
        simp [hstores] at hstored
      simp only [hstores, if_true, Option.some.injEq] at hstored
      exact .inr ⟨hstores, .inr ((resolveWrite_none_eq_iff hstores write.data).mp hstored.symm)⟩

/-- A deferred write is reported with the document that accepting it stores, as long as the
function has not changed in between, if and only if its preview is exact. -/
theorem deferred_preview_stored_iff {e : Engine S} {datagram : Datagram S} {w : DatagramWrite S}
    (h : Defers e datagram w) (now : Nat) : ∃ write request,
      (e.handleDatagram datagram now).1.deferred = (w.filed e).1.deferred ++ [write] ∧
      (e.handleDatagram datagram now).1.events =
        (w.filed e).1.events ++ [.writeRequested request] ∧
      ((∀ e' : Engine S, e'.findDeferred request.token = some write →
          e'.device.data w.destination w.data.function =
            e.device.data w.destination w.data.function →
          (e'.acceptWrite request.token).2 = .ok () →
          Keeps request e' (e'.acceptWrite request.token).1) ↔
        PreviewExact (e.device.data w.destination w.data.function) w.ops w.data) := by
  rw [h.handleDatagram_eq now]
  refine ⟨_, _, rfl, rfl, ?_, ?_⟩
  · intro hkeeps
    -- The engine that has just deferred the write, with no other write waiting.
    let write : DeferredWrite S :=
      { token := (w.filed e).1.nextToken
        feature := w.destination
        peer := w.source
        data := w.data
        ops := w.ops
        reference := w.counter
        ackRequest := w.ackRequest
        deadline := now + w.feature.maxResponseDelay.getD (w.filed e).1.maxResponseDelay }
    have hdevice : (w.filed e).1.device = e.device := Engine.observeSource_device e _ _
    have hstored : w.feature.data w.data.function =
        (w.filed e).1.device.data w.destination w.data.function := by rw [hdevice, h.stored_eq]
    have hfind : ({ (w.filed e).1 with deferred := [write] } : Engine S).findDeferred write.token =
        some write := by simp [Engine.findDeferred]
    have hexact := previewExact_of_keeps (e := { (w.filed e).1 with deferred := [write] })
      rfl rfl (congrArg (resolveWrite · w.data w.ops) hstored)
      h.admitted.resolved_filed h.admitted.checked hfind
      (hkeeps _ hfind (by simp only [hdevice]))
    simpa only [hdevice] using hexact
  · intro hexact e' hfind hsame hok
    refine acceptWrite_keeps rfl rfl ?_ ?_ hfind hok
    · simp only [hsame, h.stored_eq]
    · simpa only [hsame] using hexact

/-- A load control feature that puts what any peer writes to the application, and holds nothing. -/
def askingLoadControl : LocalFeature Schema.limitsOnly :=
  ((LocalFeature.new 1 .loadControl .server).withUnboundWrites.withDeferredWrites).withFunction
    (.known .loadControlLimitListData) .readWrite

def limitWrite (limits : List LoadControlLimitData) : Datagram Schema.limitsOnly :=
  Datagram.carrying (featureAddress "d:_i:2_Guard" [1] 1) (featureAddress "d:_i:1_HeatPump" [1] 1)
    .write 1 ((Cmd.withData ⟨.loadControlLimitListData, ⟨some limits⟩⟩).withFilter
      Filter.partialUpdate)

/-- Limits of different numbers are reported as they are then stored. -/
theorem deferred_preview_stored_several :
    let e := Engine.new (LocalDevice.withFeature "d:_i:1_HeatPump" askingLoadControl)
    let limits : List LoadControlLimitData :=
      [⟨some 2, some true, some true, none, some ⟨some 4200, some 0⟩⟩,
       ⟨some 1, some true, some false, some ⟨none, some "PT1H"⟩, none⟩,
       ⟨some 7, none, none, none, some ⟨some 16, some 0⟩⟩]
    ∃ write request,
      (e.handleDatagram (limitWrite limits) 0).1.deferred = [write] ∧
      (e.handleDatagram (limitWrite limits) 0).1.events = [.writeRequested request] ∧
      ∀ e' : Engine Schema.limitsOnly, e'.findDeferred request.token = some write →
        e'.device.data (featureAddress "d:_i:1_HeatPump" [1] 1) (.known .loadControlLimitListData) =
          none →
        (e'.acceptWrite request.token).2 = .ok () →
        Keeps request e' (e'.acceptWrite request.token).1 := by
  intro e limits
  let w : DatagramWrite Schema.limitsOnly :=
    { source := featureAddress "d:_i:2_Guard" [1] 1
      destination := featureAddress "d:_i:1_HeatPump" [1] 1
      classifier := .write
      counter := 1
      reference := none
      ackRequest := true
      feature := askingLoadControl
      cmd := (Cmd.withData ⟨.loadControlLimitListData, ⟨some limits⟩⟩).withFilter
        Filter.partialUpdate
      data := ⟨.loadControlLimitListData, ⟨some limits⟩⟩ }
  have htaken : TakenUp e (limitWrite limits) w.toEnvelope :=
    ⟨⟨_, rfl, rfl, rfl, rfl, rfl, rfl, rfl, by decide⟩, by decide, by decide, by decide⟩
  have hdefers : Defers e (limitWrite limits) w :=
    ⟨⟨htaken, rfl, rfl, rfl, rfl, by decide, rfl⟩, rfl, by decide⟩
  obtain ⟨write, request, hdeferred, hevents, hiff⟩ := deferred_preview_stored_iff hdefers 0
  refine ⟨write, request, hdeferred, hevents, hiff.mpr (.inr ⟨rfl, .inr fun _ => .inl fun _ => ?_⟩)⟩
  change List.Pairwise _ [_, _, _]
  decide

/-- A partial write that names limit 1 twice is reported with one entry, and stored with two. -/
theorem repeated_limit_stored_twice :
    let e := Engine.new (LocalDevice.withFeature "d:_i:1_HeatPump" askingLoadControl)
    let deferred := (e.handleDatagram (limitWrite
      [⟨some 1, some true, some true, none, some ⟨some 4200, some 0⟩⟩,
       ⟨some 1, some true, some false, none, none⟩]) 0).1
    ∃ request, deferred.events = [.writeRequested request] ∧
      (deferred.acceptWrite request.token).2 = .ok () ∧
      (deferred.acceptWrite request.token).1.device.data request.feature request.data.function ≠
        some request.resolved := by
  intro e deferred
  refine ⟨_, rfl, rfl, ?_⟩
  decide

end Eebus.Spine
