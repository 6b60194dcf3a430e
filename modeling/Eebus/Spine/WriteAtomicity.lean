import Eebus.Spine.Dispatch

/-! A write that is answered with an error should leave the stored data alone. It does, unless it
is cut off: a deletion has already changed what is stored when a later deletion, or the update, is
refused. -/

namespace Eebus.Spine

open Eebus.Library Eebus.Model

variable {S : Schema}

/-- The deletion or the update at which a write is refused, and a deletion made before it. -/
structure CutOff (f : LocalFeature S) (ops : WriteOps S) (data : CmdData S)
    (entry : FunctionEntry S) (stored : CmdData S) : Prop where
  holds : f.Holds data entry stored
  deleted : ∃ step ∈ ops.deleteSteps.takeWhile (servableStep data.key),
    deleteStep data step stored ≠ .ok stored
  refused : (∃ step ∈ ops.deleteSteps, servableStep data.key step = false) ∨
    ops.stores = true ∧ (WriteOps.updateRefusal entry
      (some (runSteps (deleteStep data) ops.deleteSteps stored).1) data ops.isPartial).isSome = true

/-- The write is cut off after it has deleted something. -/
def Interrupted (f : LocalFeature S) (ops : WriteOps S) (data : CmdData S) : Prop :=
  ∃ entry stored, CutOff f ops data entry stored

section Feature

variable {f : LocalFeature S} {ops : WriteOps S} {data stored : CmdData S}
  {entry : FunctionEntry S}

theorem applyTo_fails_iff (h : f.Holds data entry stored) :
    (∃ e, (ops.applyTo f data).2 = .error e) ↔
      (∃ step ∈ ops.deleteSteps, servableStep data.key step = false) ∨
        ops.stores = true ∧ (WriteOps.updateRefusal entry
          (some (runSteps (deleteStep data) ops.deleteSteps stored).1) data
            ops.isPartial).isSome = true := by
  have hshrink := deleteStep_shrinking data
  have hkey := key_eq_of_function h.function_eq
  have hok := hshrink.run_ok_iff ops.deleteSteps stored hkey
  have hfunction := runDeletes_function h.function_eq ops.deleteSteps
  rw [WriteOps.applyTo_holds ops h]
  rcases hrun : runSteps (deleteStep data) ops.deleteSteps stored with ⟨deleted, result⟩
  rw [hrun] at hok hfunction
  cases result with
  | error e =>
    have hstep : ∃ step ∈ ops.deleteSteps, servableStep data.key step = false := by simpa using hok
    simp [hstep]
  | ok _ =>
    have hservable := hok.mp rfl
    have hnone : ¬∃ step ∈ ops.deleteSteps, servableStep data.key step = false := by
      rintro ⟨step, hmem, hstep⟩
      simp [hservable step hmem] at hstep
    obtain ⟨merged, hmerged, -⟩ := apply_sameFunction hfunction ops.isPartial
    cases hstores : ops.stores with
    | false => simp [hnone]
    | true =>
      cases hrefusal : WriteOps.updateRefusal entry (some deleted) data ops.isPartial with
      | some e => simp
      | none => simp [hmerged, hnone]

theorem applyTo_fst_of_error (h : f.Holds data entry stored) {e : FeatureError S}
    (herr : (ops.applyTo f data).2 = .error e) :
    (ops.applyTo f data).1 = f.store (runSteps (deleteStep data) ops.deleteSteps stored).1 := by
  have hfunction := runDeletes_function h.function_eq ops.deleteSteps
  rw [WriteOps.applyTo_holds ops h] at herr ⊢
  rcases hrun : runSteps (deleteStep data) ops.deleteSteps stored with ⟨deleted, result⟩
  rw [hrun] at herr hfunction
  cases result with
  | error e => rfl
  | ok _ =>
    obtain ⟨merged, hmerged, -⟩ := apply_sameFunction hfunction ops.isPartial
    cases hstores : ops.stores with
    | false => simp [hstores] at herr
    | true =>
      cases hrefusal : WriteOps.updateRefusal entry (some deleted) data ops.isPartial with
      | some e => simp
      | none => simp [hstores, hrefusal, hmerged] at herr

theorem deletions_idle_iff (h : f.Holds data entry stored) :
    (runSteps (deleteStep data) ops.deleteSteps stored).1 = stored ↔
      ∀ step ∈ ops.deleteSteps.takeWhile (servableStep data.key),
        deleteStep data step stored = .ok stored :=
  (deleteStep_shrinking data).run_unchanged_iff ops.deleteSteps stored
    (key_eq_of_function h.function_eq)

theorem applyTo_eq_self (hint : ¬Interrupted f ops data) {e : FeatureError S}
    (herr : (ops.applyTo f data).2 = .error e) : (ops.applyTo f data).1 = f := by
  by_cases hholds : ∃ entry stored, f.Holds data entry stored
  · obtain ⟨entry, stored, h⟩ := hholds
    have hrefused := (applyTo_fails_iff h).mp ⟨e, herr⟩
    have hidle : (runSteps (deleteStep data) ops.deleteSteps stored).1 = stored := by
      rw [deletions_idle_iff h]
      intro step hstep
      by_contra hne
      exact hint ⟨entry, stored, h, ⟨step, hstep, hne⟩, hrefused⟩
    rw [applyTo_fst_of_error h herr, hidle]
    exact (h.store_eq_self_iff h.function_eq).mpr rfl
  · push Not at hholds
    exact WriteOps.applyTo_error_of_not_holds ops (fun entry stored h => hholds entry stored h) herr

theorem applyTo_of_interrupted (hint : Interrupted f ops data) :
    (∃ e, (ops.applyTo f data).2 = .error e) ∧
      (ops.applyTo f data).1.data data.function ≠ f.data data.function := by
  obtain ⟨entry, stored, hcut⟩ := hint
  have h := hcut.holds
  obtain ⟨e, herr⟩ := (applyTo_fails_iff h).mpr hcut.refused
  refine ⟨⟨e, herr⟩, ?_⟩
  rw [applyTo_fst_of_error h herr, h.data_store (runDeletes_function h.function_eq _), h.data_eq]
  intro hsame
  obtain ⟨step, hstep, hne⟩ := hcut.deleted
  exact hne ((deletions_idle_iff h).mp (Option.some.inj hsame) step hstep)

end Feature

/-- The stored data of every function of every local feature is the same. -/
def StoredAlike (e e' : Engine S) : Prop :=
  ∀ address function, e'.device.data address function = e.device.data address function

/-- What was sent on the way from one state to the other contains an error answer. -/
def AnsweredWithError (e e' : Engine S) : Prop :=
  ∃ d ∈ e'.outbox.drop e.outbox.length, ∃ reference error,
    Datagram.reports reference error d ∧ error.isSuccess = false

/-- The datagram is a write that the engine applies at once: the feature leaves the decision to
the engine. -/
structure AppliesAtOnce (e : Engine S) (datagram : Datagram S) (w : DatagramWrite S) : Prop where
  admitted : Admitted e datagram w
  automatic : w.feature.approval = .automatic

namespace AppliesAtOnce

variable {e : Engine S} {datagram : Datagram S} {w : DatagramWrite S}

theorem handleDatagram_eq (h : AppliesAtOnce e datagram w) (now : Nat) :
    (e.handleDatagram datagram now).1 =
      let served := (w.filed e).1.applyWrite w.feature w.data w.ops w.source w.destination
      served.1.acknowledge w.source w.destination w.counter .write w.ackRequest served.2 := by
  rw [h.admitted.handleDatagram_eq now, Engine.decideWrite, if_neg (by simp [h.automatic])]

end AppliesAtOnce

theorem handleDatagram_device_of_not_applies {e : Engine S} {datagram : Datagram S} {now : Nat}
    (h : ¬∃ w, AppliesAtOnce e datagram w) :
    (e.handleDatagram datagram now).1.device = e.device := by
  by_cases hw : ∃ w, Admitted e datagram w
  · obtain ⟨w, hw⟩ := hw
    cases happroval : w.feature.approval with
    | automatic => exact absurd ⟨w, hw, happroval⟩ h
    | deferred =>
      rw [hw.handleDatagram_eq now, (Engine.sends_acknowledge _ _ _ _ _ _ _).device,
        Engine.decideWrite_device_of_deferred _ w now happroval]
      exact Engine.observeSource_device e _ _
  · exact Engine.handleDatagram_device hw

theorem answeredWithError_iff {e e' : Engine S} (sent : List (Datagram S))
    (h : e'.outbox = e.outbox ++ sent) : AnsweredWithError e e' ↔
      ∃ d ∈ sent, ∃ reference error, Datagram.reports reference error d ∧ error.isSuccess = false := by
  simp [AnsweredWithError, h]

theorem reports_unique {reference reference' : MsgCounter} {error error' : ErrorNumber}
    {d : Datagram S} (h : Datagram.reports reference error d)
    (h' : Datagram.reports reference' error' d) : error = error' := by
  obtain ⟨-, -, cmd, hcmd, herror⟩ := h
  obtain ⟨-, -, cmd', hcmd', herror'⟩ := h'
  rw [hcmd] at hcmd'
  cases hcmd'
  exact herror.symm.trans herror'

theorem not_reports_of_notify {reference : MsgCounter} {error : ErrorNumber} {d : Datagram S}
    (h : Datagram.isOf .notify d) : ¬Datagram.reports reference error d := by
  intro hreports
  have hclassifier := hreports.1
  rw [show d.header.bind Header.cmdClassifier = some .notify from h] at hclassifier
  simp at hclassifier

theorem not_answeredWithError_of_stored {e : Engine S} {datagram : Datagram S} {w : DatagramWrite S}
    (hw : AppliesAtOnce e datagram w) (now : Nat)
    (hok : (w.ops.applyTo w.feature w.data).2 = .ok ()) :
    ¬AnsweredWithError e (e.handleDatagram datagram now).1 := by
  rcases happly : w.ops.applyTo w.feature w.data with ⟨feature', result⟩
  rw [happly] at hok
  simp only at hok
  subst hok
  have hnotify := Engine.sends_notify
    (((w.filed e).1.storeFeature w.destination feature').emit
      (.dataWritten w.destination w.source w.data.function)) w.destination w.data.function
  have hack := Engine.sends_acknowledge
    (((w.filed e).1.storeFeature w.destination feature').reportWritten w.destination w.source
      w.data.function) w.source w.destination w.counter .write w.ackRequest (.answer .none)
  obtain ⟨notified, hnotified, hisNotify⟩ := hnotify.sent
  obtain ⟨acked, hacked, hreports⟩ := hack.sent
  rw [hw.handleDatagram_eq now]
  simp only [Engine.applyWrite, happly]
  rw [answeredWithError_iff (notified ++ acked)]
  · rintro ⟨d, hd, reference, error, hreport, herror⟩
    cases List.mem_append.mp hd with
    | inl hd => exact not_reports_of_notify (hisNotify d hd) hreport
    | inr hd =>
      obtain ⟨error', houtcome, hreport'⟩ := hreports d hd
      have herror' : error' = .none := by simpa using houtcome.symm
      rw [reports_unique hreport hreport', herror'] at herror
      simp [ErrorNumber.isSuccess] at herror
  · rw [hacked]
    simp only [Engine.reportWritten]
    rw [hnotified]
    simp [Engine.emit, Engine.storeFeature, Envelope.filed, Engine.observeSource_outbox]

/-- A datagram answered with an error leaves the stored data alone exactly when it is not a write
that is cut off. -/
theorem datagram_atomic_iff (e : Engine S) (datagram : Datagram S) (now : Nat) :
    (AnsweredWithError e (e.handleDatagram datagram now).1 →
        StoredAlike e (e.handleDatagram datagram now).1) ↔
      ¬∃ w, AppliesAtOnce e datagram w ∧ Interrupted w.feature w.ops w.data := by
  constructor
  · rintro hatomic ⟨w, hw, hint⟩
    obtain ⟨⟨error, herror⟩, hlost⟩ := applyTo_of_interrupted hint
    rcases happly : w.ops.applyTo w.feature w.data with ⟨feature', result⟩
    have haddress := (SameShape.applyTo w.ops w.feature w.data).address
    rw [happly] at herror hlost haddress
    simp only at herror
    subst herror
    rw [hw.handleDatagram_eq now] at hatomic
    simp only [Engine.applyWrite, happly, Engine.acknowledge,
      owesAck_write_error w.ackRequest error.errorNumber_ne_none, if_true] at hatomic
    have hsends := ((w.filed e).1.storeFeature w.destination feature').sends_sendResult w.source
      w.destination w.counter error.errorNumber
    have hanswered : AnsweredWithError e
        (((w.filed e).1.storeFeature w.destination feature').sendResult w.source w.destination
          w.counter error.errorNumber) := by
      obtain ⟨d, hsent, hreports⟩ := ((w.filed e).1.storeFeature w.destination feature').sendResult_sent
        w.source w.destination w.counter error.errorNumber
      have hfiled : (w.filed e).1.outbox = e.outbox := Engine.observeSource_outbox e _ _
      rw [answeredWithError_iff [d] (by rw [hsent, ← hfiled]; rfl)]
      exact ⟨d, List.mem_singleton.mpr rfl, w.counter, error.errorNumber, hreports,
        error.errorNumber_ne_none⟩
    have hsame := hatomic hanswered w.destination w.data.function
    have hresolved := hw.admitted.resolved_filed
    rw [hsends.device, Engine.storeFeature_data hresolved haddress] at hsame
    refine hlost (hsame.trans ?_)
    simp [LocalDevice.data, hw.admitted.resolved]
  · intro hwhole hanswered
    have hdevice : (e.handleDatagram datagram now).1.device = e.device := by
      by_cases happlies : ∃ w, AppliesAtOnce e datagram w
      · obtain ⟨w, hw⟩ := happlies
        rcases happly : w.ops.applyTo w.feature w.data with ⟨feature', result⟩
        cases result with
        | ok _ =>
          exact absurd hanswered (not_answeredWithError_of_stored hw now (by rw [happly]))
        | error error =>
          have hself := applyTo_eq_self (fun hint => hwhole ⟨w, hw, hint⟩)
            (show (w.ops.applyTo w.feature w.data).2 = .error error by rw [happly])
          rw [happly] at hself
          simp only at hself
          subst hself
          have hresolved := hw.admitted.resolved_filed
          rw [hw.handleDatagram_eq now]
          simp only [Engine.applyWrite, happly]
          rw [(Engine.sends_acknowledge _ _ _ _ _ _ _).device, Engine.storeFeature_self hresolved]
          exact Engine.observeSource_device e _ _
      · exact handleDatagram_device_of_not_applies happlies
    intro address function
    rw [hdevice]

/-- The deferred write a token names, cut off when it is committed as it arrived. -/
def CommitInterrupted (e : Engine S) (token : Nat) (replacement : Option (CmdData S)) : Prop :=
  ∃ write feature, e.findDeferred token = some write ∧
    e.device.resolve write.feature = some feature ∧ replacement = none ∧
    Interrupted feature write.ops write.data

theorem commit_eq_self {write : DeferredWrite S} {replacement : Option (CmdData S)}
    {feature feature' : LocalFeature S} {error : FeatureError S}
    (hwhole : ¬(replacement = none ∧ Interrupted feature write.ops write.data))
    (hcommit : Engine.commit write replacement feature = (feature', .error error)) :
    feature' = feature := by
  cases replacement with
  | none =>
    rw [Engine.commit] at hcommit
    have hself := applyTo_eq_self (fun hint => hwhole ⟨rfl, hint⟩)
      (show (write.ops.applyTo feature write.data).2 = .error error by rw [hcommit])
    rwa [hcommit] at hself
  | some data =>
    simp only [Engine.commit] at hcommit
    split at hcommit
    · split at hcommit
      · simp at hcommit
      · exact (Prod.mk.inj hcommit).1.symm
    · exact (Prod.mk.inj hcommit).1.symm

theorem commit_atomic_iff (e : Engine S) (token : Nat) (replacement : Option (CmdData S)) :
    ((∃ error, (e.finishWrite token replacement).2 = .error (.notStored error)) →
        StoredAlike e (e.finishWrite token replacement).1) ↔
      ¬CommitInterrupted e token replacement := by
  cases hwrite : e.findDeferred token with
  | none => simp [Engine.finishWrite, hwrite, CommitInterrupted]
  | some write =>
    cases hfeature : e.device.resolve write.feature with
    | none =>
      have hresolve : (e.dropDeferred token).device.resolve write.feature = none := hfeature
      simp only [Engine.finishWrite, hwrite, hresolve, CommitInterrupted]
      refine iff_of_true (fun _ address function => ?_) ?_
      · rw [(Engine.sends_answerDeferred _ _ _).device]
        rfl
      · rintro ⟨write', feature, hwrite', hfeature', -⟩
        cases hwrite'
        rw [hfeature] at hfeature'
        simp at hfeature'
    | some feature =>
      have hresolve : (e.dropDeferred token).device.resolve write.feature = some feature := hfeature
      have hinterrupted : CommitInterrupted e token replacement ↔
          replacement = none ∧ Interrupted feature write.ops write.data := by
        constructor
        · rintro ⟨write', feature', hwrite', hfeature', hnone, hint⟩
          rw [hwrite] at hwrite'
          cases hwrite'
          rw [hfeature] at hfeature'
          cases hfeature'
          exact ⟨hnone, hint⟩
        · rintro ⟨hnone, hint⟩
          exact ⟨write, feature, hwrite, hfeature, hnone, hint⟩
      rw [hinterrupted]
      rcases hcommit : Engine.commit write replacement feature with ⟨feature', result⟩
      cases result with
      | ok _ =>
        refine iff_of_true ?_ ?_
        · rintro ⟨error, herror⟩
          simp [Engine.finishWrite, hwrite, hresolve, hcommit] at herror
        · rintro ⟨hnone, hint⟩
          obtain ⟨⟨error, herror⟩, -⟩ := applyTo_of_interrupted hint
          subst hnone
          rw [Engine.commit] at hcommit
          rw [hcommit] at herror
          simp at herror
      | error error =>
        have hend : ∀ address function, (e.finishWrite token replacement).1.device.data address
            function = ((e.dropDeferred token).storeFeature write.feature feature').device.data
              address function := by
          intro address function
          simp only [Engine.finishWrite, hwrite, hresolve, hcommit]
          rw [(Engine.sends_answerDeferred _ _ _).device]
        have herror : ∃ error, (e.finishWrite token replacement).2 = .error (.notStored error) :=
          ⟨error, by simp [Engine.finishWrite, hwrite, hresolve, hcommit]⟩
        constructor
        · rintro hatomic ⟨hnone, hint⟩
          subst hnone
          obtain ⟨-, hlost⟩ := applyTo_of_interrupted hint
          have haddress := (SameShape.applyTo write.ops feature write.data).address
          rw [Engine.commit] at hcommit
          rw [hcommit] at hlost haddress
          have hsame := hatomic herror write.feature write.data.function
          rw [hend, Engine.storeFeature_data hresolve haddress] at hsame
          refine hlost (hsame.trans ?_)
          simp [LocalDevice.data, hfeature]
        · intro hwhole _ address function
          have hself : feature' = feature := commit_eq_self hwhole hcommit
          rw [hend, hself, Engine.storeFeature_self hresolve]
          rfl

/-- Writes are atomic exactly where they are not cut off: a datagram answered with an error, and an
accepted write that could not be stored, leave the stored data of every function alone if and only
if no deletion made before the refused step has changed it. -/
theorem write_atomic_iff_not_cut_off : (∀ (e : Engine S) (datagram : Datagram S) (now : Nat),
      (AnsweredWithError e (e.handleDatagram datagram now).1 →
          StoredAlike e (e.handleDatagram datagram now).1) ↔
        ¬∃ w, AppliesAtOnce e datagram w ∧ Interrupted w.feature w.ops w.data) ∧
    (∀ (e : Engine S) (token : Nat) (replacement : Option (CmdData S)),
      ((∃ error, (e.finishWrite token replacement).2 = .error (.notStored error)) →
          StoredAlike e (e.finishWrite token replacement).1) ↔
        ¬CommitInterrupted e token replacement) :=
  ⟨datagram_atomic_iff, commit_atomic_iff⟩

def oneLimit : CmdData Schema.limitsOnly :=
  ⟨.loadControlLimitListData, ⟨some [⟨some 1, some true, some true, none, some ⟨some 4200, some 0⟩⟩]⟩⟩

/-- A load control feature that stores what any peer writes, and holds one limit. -/
def openLoadControl : LocalFeature Schema.limitsOnly :=
  (((LocalFeature.new 1 .loadControl .server).withUnboundWrites).withFunction
    (.known .loadControlLimitListData) .readWrite).store oneLimit

/-- Withdraws limit 1, and then names the elements of another function. -/
def cutOffWrite : Datagram Schema.limitsOnly :=
  Datagram.carrying (featureAddress "d:_i:2_Guard" [1] 1) (featureAddress "d:_i:1_HeatPump" [1] 1)
    .write 1
    { function := some (.known .loadControlLimitListData)
      filter := some
        [⟨some ⟨true, false⟩, some [⟨.loadControlLimitListData, ⟨some 1⟩⟩], none⟩,
         ⟨some ⟨true, false⟩, none, some ⟨.nodeManagementDetailedDiscoveryData, ()⟩⟩]
      data := some ⟨.loadControlLimitListData, ⟨none⟩⟩ }

/-- The write is answered with an error, and the limit it named is gone. -/
theorem cut_off_write_loses_limit :
    let e := Engine.new (LocalDevice.withFeature "d:_i:1_HeatPump" openLoadControl)
    AnsweredWithError e (e.handleDatagram cutOffWrite 0).1 ∧
      ¬StoredAlike e (e.handleDatagram cutOffWrite 0).1 := by
  intro e
  refine ⟨⟨_, List.Mem.head _, 1, .restrictedExchangeNotSupported, ⟨rfl, rfl, _, rfl, rfl⟩, rfl⟩, ?_⟩
  intro h
  have hsame := h (featureAddress "d:_i:1_HeatPump" [1] 1) (.known .loadControlLimitListData)
  revert hsame
  decide

end Eebus.Spine
