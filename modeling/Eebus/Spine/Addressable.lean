import Eebus.Model.Addressable
import Eebus.Spine.Stored
import Eebus.Spine.WriteAtomicity
import Eebus.Spine.WritePreview

/-! A peer's write keeps the lists of the local device addressable, unless it names an entry twice
and is stored as it comes. -/

namespace Eebus.Spine

open Eebus.Library Eebus.Model

variable {S : Schema}

/-- What is stored for the function can be addressed entry by entry. -/
def LocalFeature.Addressable (f : LocalFeature S) (function : Function S.Other) : Prop :=
  ∀ d, f.data function = some d → d.Addressable

/-- The write names an entry twice, passes every check of the code, and is stored as it comes: what
it replaces is not merged with it, or there is nothing to merge it with. -/
structure StoresRepeated (f : LocalFeature S) (ops : WriteOps S) (data : CmdData S) : Prop where
  repeats : ¬data.identifiersDistinct
  stores : ops.stores = true
  checked : f.checkWrite data ops.isPartial = .ok ()
  fits : data.entryCount ≤ maxListEntries
  whole : f.data data.function = none ∨
    ops.isPartial = false ∧ ∀ step ∈ ops.deleteSteps, servableStep data.key step = true

section Feature

variable {f : LocalFeature S} {ops : WriteOps S} {data stored : CmdData S}
  {entry : FunctionEntry S}

theorem checkWrite_iff {isPartial : Bool} : f.checkWrite data isPartial = .ok () ↔
      ∃ entry, f.writeableFunction data = .ok entry ∧
        (isPartial && !entry.operations.writePartial) = false := by
  refine ⟨LocalFeature.checkWrite_eq_ok, ?_⟩
  rintro ⟨entry, hentry, hmerged⟩
  obtain ⟨hfound, hwrite, hident⟩ := LocalFeature.writeableFunction_eq_ok.mp hentry
  simp [LocalFeature.checkWrite, hfound, hwrite, hmerged, hident]

theorem addressable_store (hfound : f.function data.function = some entry) {d : CmdData S}
    (hd : d.function = data.function) :
    (f.store d).Addressable data.function ↔ d.Addressable := by
  have hdata : (f.store d).data data.function = some d := by
    rw [← hd]
    exact f.data_store (by rw [hd]; exact hfound)
  simp [LocalFeature.Addressable, hdata]

theorem applyTo_refused {error : FeatureError S} (h : f.writeableFunction data = .error error) :
    (ops.applyTo f data).1 = f := by
  cases hok : (ops.applyTo f data).2 with
  | error e =>
    refine WriteOps.applyTo_error_of_not_holds ops (fun entry stored hholds => ?_) hok
    have hwriteable := hholds.writeable
    rw [h] at hwriteable
    simp at hwriteable
  | ok _ =>
    obtain ⟨hdeletes, hstores⟩ := asks_nothing_of_ok h hok
    simp [WriteOps.applyTo, hdeletes, WriteOps.applyDeletes, hstores]

theorem updateRefusal_whole_iff (hwriteable : f.writeableFunction data = .ok entry)
    (held : Option (CmdData S)) (isPartial : Bool) (hwhole : held = none ∨ isPartial = false) :
    WriteOps.updateRefusal entry held data isPartial = none ↔
      f.checkWrite data isPartial = .ok () ∧ data.entryCount ≤ maxListEntries := by
  have hroom : LocalFeature.wouldHold held data isPartial = data.entryCount := by
    rcases hwhole with rfl | rfl
    · simp [LocalFeature.wouldHold]
    · rfl
  have hchecked : f.checkWrite data isPartial = .ok () ↔
      (isPartial && !entry.operations.writePartial) = false := by
    rw [checkWrite_iff]
    constructor
    · rintro ⟨entry', hentry', hmerged⟩
      cases hwriteable.symm.trans hentry'
      exact hmerged
    · exact fun hmerged => ⟨entry, hwriteable, hmerged⟩
  rw [hchecked, WriteOps.updateRefusal, hroom]
  cases isPartial && !entry.operations.writePartial <;> simp

theorem addressable_first_iff (hwriteable : f.writeableFunction data = .ok entry)
    (hnone : entry.data = none) :
    (ops.applyTo f data).1.Addressable data.function ↔ ¬StoresRepeated f ops data := by
  obtain ⟨hfound, -, hident⟩ := LocalFeature.writeableFunction_eq_ok.mp hwriteable
  have hdata : f.data data.function = none := by simp [LocalFeature.data, hfound, hnone]
  have hself : f.Addressable data.function := by simp [LocalFeature.Addressable, hdata]
  have hwhole := updateRefusal_whole_iff hwriteable none ops.isPartial (.inl rfl)
  simp only [WriteOps.applyTo, WriteOps.applyDeletes_nothing ops.deletes hwriteable hnone]
  cases hstores : ops.stores with
  | false => exact iff_of_true hself fun h => by simp [h.stores] at hstores
  | true =>
    simp only [if_true, WriteOps.apply_of_writeable hwriteable, hnone]
    cases hrefusal : WriteOps.updateRefusal entry none data ops.isPartial with
    | some e =>
      refine iff_of_true hself fun h => ?_
      rw [hwhole.mpr ⟨h.checked, h.fits⟩] at hrefusal
      simp at hrefusal
    | none =>
      obtain ⟨hchecked, hfits⟩ := hwhole.mp hrefusal
      simp only [addressable_store hfound rfl]
      constructor
      · exact fun h hrepeated => hrepeated.repeats h.distinct
      · intro h
        refine ⟨hident, ?_⟩
        by_contra hrepeats
        exact h ⟨hrepeats, hstores, hchecked, hfits, .inl hdata⟩

theorem runDeletes_addressable (hkeeps : S.KeepsIdentity) (h : stored.Addressable) (data : CmdData S)
    (steps : List (Option (FilterSelectors S) × Option (FilterElements S))) :
    (runSteps (deleteStep data) steps stored).1.Addressable :=
  runSteps_preserves (R := fun s s' => s.Addressable → s'.Addressable) (fun _ hs => hs)
    (fun _ _ _ h h' hs => h' (h hs)) (fun _ _ _ hstep hs => hs.deleteRestricted hkeeps hstep)
    steps stored h

theorem addressable_next_iff (hkeeps : S.KeepsIdentity) (hholds : f.Holds data entry stored)
    (h : stored.Addressable) :
    (ops.applyTo f data).1.Addressable data.function ↔ ¬StoresRepeated f ops data := by
  have hident := (LocalFeature.writeableFunction_eq_ok.mp hholds.writeable).2.2
  have hdeleted := runDeletes_addressable hkeeps h data ops.deleteSteps
  have hfunction := runDeletes_function hholds.function_eq ops.deleteSteps
  have hserved := (deleteStep_shrinking data).run_ok_iff ops.deleteSteps stored
    (key_eq_of_function hholds.function_eq)
  have hdata : f.data data.function ≠ none := by simp [hholds.data_eq]
  rw [WriteOps.applyTo_holds ops hholds]
  rcases hrun : runSteps (deleteStep data) ops.deleteSteps stored with ⟨deleted, result⟩
  rw [hrun] at hdeleted hfunction hserved
  have hself : (f.store deleted).Addressable data.function :=
    (addressable_store hholds.found hfunction).mpr hdeleted
  cases result with
  | error e =>
    refine iff_of_true hself fun hrepeated => ?_
    have hok := hserved.mpr (hrepeated.whole.resolve_left hdata).2
    simp at hok
  | ok _ =>
    cases hstores : ops.stores with
    | false => exact iff_of_true hself fun hrepeated => by simp [hrepeated.stores] at hstores
    | true =>
      simp only [if_true]
      cases hrefusal : WriteOps.updateRefusal entry (some deleted) data ops.isPartial with
      | some e =>
        refine iff_of_true hself fun hrepeated => ?_
        have hfull := (hrepeated.whole.resolve_left hdata).1
        rw [(updateRefusal_whole_iff hholds.writeable _ _ (.inr hfull)).mpr
          ⟨hrepeated.checked, hrepeated.fits⟩] at hrefusal
        simp at hrefusal
      | none =>
        obtain ⟨merged, hmerged, hkey⟩ := apply_sameFunction hfunction ops.isPartial
        simp only [hmerged, addressable_store hholds.found (hkey.trans hfunction),
          CmdData.addressable_apply_iff hkeeps hdeleted hident hmerged]
        constructor
        · intro hdistinct hrepeated
          exact hrepeated.repeats (hdistinct (hrepeated.whole.resolve_left hdata).1)
        · intro hrepeated hfull
          by_contra hrepeats
          obtain ⟨hchecked, hfits⟩ :=
            (updateRefusal_whole_iff hholds.writeable _ _ (.inr hfull)).mp hrefusal
          exact hrepeated ⟨hrepeats, hstores, hchecked, hfits, .inr ⟨hfull, hserved.mp rfl⟩⟩

theorem addressable_applyTo_iff (hkeeps : S.KeepsIdentity) (h : f.Addressable data.function) :
    (ops.applyTo f data).1.Addressable data.function ↔ ¬StoresRepeated f ops data := by
  cases hwriteable : f.writeableFunction data with
  | error e =>
    rw [applyTo_refused hwriteable]
    refine iff_of_true h fun hrepeated => ?_
    obtain ⟨entry, hentry, -⟩ := checkWrite_iff.mp hrepeated.checked
    rw [hwriteable] at hentry
    simp at hentry
  | ok entry =>
    cases hstored : entry.data with
    | none => exact addressable_first_iff hwriteable hstored
    | some stored =>
      have hholds : f.Holds data entry stored := ⟨hwriteable, hstored⟩
      exact addressable_next_iff hkeeps hholds (h stored hholds.data_eq)

end Feature

/-- The device puts data of its own into its features, or takes features away. -/
def EngineOp.ownData : EngineOp S → Bool
  | .finishWrite _ replacement => replacement.isSome
  | .addEntity _ | .removeEntity _ | .configure _ => true
  | _ => false

/-- A write of `data` to `destination` is one to the function at `address`. -/
structure WritesTo (address : FeatureAddress) (function : Function S.Other)
    (destination : FeatureAddress) (data : CmdData S) : Prop where
  entity : entityPath address = entityPath destination
  feature : address.feature = destination.feature
  function : data.function = function

/-- A write that is made to the function at `address`, when it arrives or when it is accepted, does
not store an entry twice. -/
def StoresOnce (address : FeatureAddress) (function : Function S.Other) (e : Engine S) :
    EngineOp S → Prop
  | .handleDatagram datagram _ => ∀ w, AppliesAtOnce e datagram w →
    WritesTo address function w.destination w.data → ¬StoresRepeated w.feature w.ops w.data
  | .finishWrite token none => ∀ write feature, e.findDeferred token = some write →
    e.device.resolve write.feature = some feature →
    WritesTo address function write.feature write.data →
    ¬StoresRepeated feature write.ops write.data
  | _ => True

namespace Engine

/-- What is stored for the function at `address` can be addressed entry by entry. -/
def Addressable (e : Engine S) (address : FeatureAddress) (function : Function S.Other) : Prop :=
  ∀ d, e.device.data address function = some d → d.Addressable

variable {e e' : Engine S} {address : FeatureAddress} {function : Function S.Other}

theorem Addressable.of_device (h : e.Addressable address function) (hdevice : e'.device = e.device) :
    e'.Addressable address function := by
  unfold Addressable
  rw [hdevice]
  exact h

theorem Addressable.write (hkeeps : S.KeepsIdentity) (h : e.Addressable address function)
    (ops : WriteOps S) (data : CmdData S) {destination : FeatureAddress} {f : LocalFeature S}
    (hf : e.device.resolve destination = some f)
    (honce : WritesTo address function destination data → ¬StoresRepeated f ops data) :
    (e.storeFeature destination (ops.applyTo f data).1).Addressable address function := by
  have haddress := (SameShape.applyTo ops f data).address
  by_cases hsame : entityPath address = entityPath destination ∧
      address.feature = destination.feature
  · rcases resolve_storeFeature hf haddress address with hkept | ⟨hseen, hseen'⟩
    · unfold Addressable LocalDevice.data
      rw [hkept]
      exact h
    have hfeature : f.Addressable function := by
      intro d hd
      exact h d (by simp [LocalDevice.data, hseen, hd])
    have hwritten : (ops.applyTo f data).1.Addressable function := by
      by_cases hfunction : data.function = function
      · subst hfunction
        exact (addressable_applyTo_iff hkeeps hfeature).mpr (honce ⟨hsame.1, hsame.2, rfl⟩)
      · unfold LocalFeature.Addressable
        rw [StoresOnly.applyTo ops f data function hfunction]
        exact hfeature
    intro d hd
    exact hwritten d (by simpa [LocalDevice.data, hseen'] using hd)
  · have hnumber : destination.feature = some (ops.applyTo f data).1.address := by
      rw [haddress, LocalDevice.resolve_number hf]
    unfold Addressable LocalDevice.data
    rw [storeFeature_elsewhere e hnumber hsame]
    exact h

theorem addressable_handleDatagram (hkeeps : S.KeepsIdentity) (h : e.Addressable address function)
    (datagram : Datagram S) (now : Nat)
    (honce : StoresOnce address function e (.handleDatagram datagram now)) :
    (e.handleDatagram datagram now).1.Addressable address function := by
  by_cases happlies : ∃ w, AppliesAtOnce e datagram w
  · obtain ⟨w, hw⟩ := happlies
    have hfiled : (w.filed e).1.Addressable address function :=
      h.of_device (observeSource_device e _ _)
    have hwritten := hfiled.write hkeeps w.ops w.data
      hw.admitted.resolved_filed (honce w hw)
    rw [hw.handleDatagram_eq now]
    refine Addressable.of_device ?_ (sends_acknowledge _ _ _ _ _ _ _).device
    exact hwritten.of_device (applyWrite_device _ _ _ _ _ _)
  · exact h.of_device (handleDatagram_device_of_not_applies happlies)

theorem addressable_acceptWrite (hkeeps : S.KeepsIdentity) (h : e.Addressable address function)
    (token : Nat) (honce : StoresOnce address function e (.finishWrite token none)) :
    (e.finishWrite token none).1.Addressable address function := by
  rcases e.finishWrite_device token none with hsame | ⟨write, feature, hwrite, hfeature, hstored⟩
  · exact h.of_device hsame
  · exact (h.write hkeeps write.ops write.data hfeature (honce write feature hwrite hfeature)).of_device
      hstored

theorem addressable_perform (hkeeps : S.KeepsIdentity) (h : e.Addressable address function)
    {op : EngineOp S} (hown : op.ownData = false) (honce : StoresOnce address function e op) :
    (e.perform op).Addressable address function := by
  cases op with
  | handleDatagram datagram now => exact addressable_handleDatagram hkeeps h datagram now honce
  | handleTimeout now => exact h.of_device (handleTimeout_device e now)
  | finishWrite token replacement =>
    cases replacement with
    | none => exact addressable_acceptWrite hkeeps h token honce
    | some data => simp [EngineOp.ownData] at hown
  | rejectWrite token error => exact h.of_device (rejectWrite_device e token error)
  | notify feature function => exact h.of_device (sends_notify e feature function).device
  | modifyEntity path => exact h.of_device (e.modifyEntity_device path)
  | addEntity | removeEntity | configure => simp [EngineOp.ownData] at hown
  | _ => exact h

/-- In every run in which the device leaves its data to its peers and no write stores an entry
twice, a list that can be addressed entry by entry stays so. -/
theorem stored_lists_addressable (hkeeps : S.KeepsIdentity) (e : Engine S)
    (address : FeatureAddress) (function : Function S.Other) (h : e.Addressable address function)
    (ops : List (EngineOp S))
    (hrun : machine.Admits (fun e op => op.ownData = false ∧ StoresOnce address function e op)
      e ops) :
    ∀ before, before <+: ops → (machine.run e before).Addressable address function := by
  intro before hprefix
  exact machine.run_invariant (fun e op => op.ownData = false ∧ StoresOnce address function e op)
    (fun e => e.Addressable address function)
    (fun _ _ h hop => addressable_perform hkeeps h hop.1 hop.2) before e h
    (machine.admits_prefix hrun hprefix)

end Engine

def fullLimitWrite (limits : List LoadControlLimitData) : Datagram Schema.limitsOnly :=
  Datagram.carrying (featureAddress "d:_i:2_Guard" [1] 1) (featureAddress "d:_i:1_HeatPump" [1] 1)
    .write 1 (Cmd.withData ⟨.loadControlLimitListData, ⟨some limits⟩⟩)

def openHeatPump : Engine Schema.limitsOnly :=
  Engine.new (LocalDevice.withFeature "d:_i:1_HeatPump" openLoadControl)

theorem addressable_openHeatPump : openHeatPump.Addressable
    (featureAddress "d:_i:1_HeatPump" [1] 1) (.known .loadControlLimitListData) := by
  intro d hd
  have hstored : openHeatPump.device.data (featureAddress "d:_i:1_HeatPump" [1] 1)
      (.known .loadControlLimitListData) = some oneLimit := rfl
  rw [hstored] at hd
  cases hd
  exact ⟨by decide, fun _ => List.pairwise_singleton _ _⟩

theorem storesOnce_fullLimitWrite (e : Engine Schema.limitsOnly) (address : FeatureAddress)
    {limits : List LoadControlLimitData}
    (hdistinct : (⟨.loadControlLimitListData, ⟨some limits⟩⟩ : CmdData Schema.limitsOnly).identifiersDistinct)
    (now : Nat) :
    StoresOnce address (.known .loadControlLimitListData) e (.handleDatagram (fullLimitWrite limits) now) := by
  intro w hw _ hrepeated
  have hcommand : _ = w.cmd := List.singleton_inj.mp hw.admitted.command
  have hpayload := hw.admitted.payload
  rw [← hcommand] at hpayload
  refine hrepeated.repeats ?_
  rw [← Option.some.inj hpayload]
  exact hdistinct

/-- Several limits, and then others in their place: some that were there, one that was not. -/
theorem stored_lists_addressable_replaced :
    let ops := [EngineOp.handleDatagram (fullLimitWrite
        [⟨some 2, some true, some true, none, some ⟨some 3000, some 0⟩⟩,
         ⟨some 1, some true, some false, some ⟨none, some "PT1H"⟩, none⟩]) 0,
      EngineOp.handleDatagram (fullLimitWrite
        [⟨some 1, some true, some true, none, some ⟨some 4200, some 0⟩⟩,
         ⟨some 5, none, none, none, some ⟨some 16, some 0⟩⟩,
         ⟨some 2, some true, some false, none, none⟩]) 1]
    Engine.machine.Admits (fun e op => op.ownData = false ∧
      StoresOnce (featureAddress "d:_i:1_HeatPump" [1] 1) (.known .loadControlLimitListData) e op)
        openHeatPump ops ∧
      (Engine.machine.run openHeatPump ops).Addressable (featureAddress "d:_i:1_HeatPump" [1] 1)
        (.known .loadControlLimitListData) := by
  intro ops
  have hadmits : Engine.machine.Admits (fun e op => op.ownData = false ∧
      StoresOnce (featureAddress "d:_i:1_HeatPump" [1] 1) (.known .loadControlLimitListData) e op)
        openHeatPump ops :=
    ⟨⟨rfl, storesOnce_fullLimitWrite _ _ (fun _ => by change List.Pairwise _ [_, _]; decide) 0⟩,
      ⟨rfl, storesOnce_fullLimitWrite _ _ (fun _ => by change List.Pairwise _ [_, _, _]; decide) 1⟩, trivial⟩
  exact ⟨hadmits, Engine.stored_lists_addressable Schema.keepsIdentity_limitsOnly openHeatPump _ _
    addressable_openHeatPump ops hadmits ops (List.prefix_refl ops)⟩

/-- A full write that names limit 1 twice is stored with both. -/
theorem repeated_limit_unaddressable :
    openHeatPump.Addressable (featureAddress "d:_i:1_HeatPump" [1] 1)
        (.known .loadControlLimitListData) ∧
      ¬(Engine.machine.run openHeatPump [.handleDatagram (fullLimitWrite
        [⟨some 1, some true, some true, none, some ⟨some 4200, some 0⟩⟩,
         ⟨some 1, some true, some false, none, none⟩]) 0]).Addressable
        (featureAddress "d:_i:1_HeatPump" [1] 1) (.known .loadControlLimitListData) := by
  refine ⟨addressable_openHeatPump, fun h => ?_⟩
  have hdistinct := (h _ rfl).distinct rfl
  revert hdistinct
  decide

end Eebus.Spine
