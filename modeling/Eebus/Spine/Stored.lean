import Eebus.Spine.Operations

/-! What is stored, as it is seen from every address: storing changes what one function of one
feature holds, and neither where features are nor what they declare. -/

namespace Eebus.Spine

open Eebus.Library Eebus.Model

variable {S : Schema}

/-- The features of `e'` are those of `e`, with other data in them. -/
def Reshaped (e e' : Engine S) : Prop :=
  ∀ address f, e.device.resolve address = some f →
    ∃ f', e'.device.resolve address = some f' ∧ SameShape f f'

/-- What is stored for `function` is the same, whatever address it is looked up by. -/
def KeepsData (function : Function S.Other) (e e' : Engine S) : Prop :=
  ∀ address, e'.device.data address function = e.device.data address function

variable {address : FeatureAddress} {f : LocalFeature S}

section Storing

variable {e e' e'' : Engine S} {function : Function S.Other}

theorem Reshaped.of_device (h : e'.device = e.device) : Reshaped e e' :=
  fun _ f hf => ⟨f, h ▸ hf, SameShape.refl f⟩

theorem Reshaped.trans (h : Reshaped e e') (h' : Reshaped e' e'') : Reshaped e e'' := by
  intro address f hf
  obtain ⟨f', hf', hshape⟩ := h address f hf
  obtain ⟨f'', hf'', hshape'⟩ := h' address f' hf'
  exact ⟨f'', hf'', hshape.trans hshape'⟩

theorem KeepsData.of_device (h : e'.device = e.device) : KeepsData function e e' :=
  fun address => by rw [h]

theorem KeepsData.trans (h : KeepsData function e e') (h' : KeepsData function e' e'') :
    KeepsData function e e'' :=
  fun address => (h' address).trans (h address)

theorem resolve_storeFeature {f' : LocalFeature S}
    (hf : e.device.resolve address = some f) (haddress : f'.address = f.address)
    (other : FeatureAddress) :
    (e.storeFeature address f').device.resolve other = e.device.resolve other ∨
      e.device.resolve other = some f ∧
        (e.storeFeature address f').device.resolve other = some f' := by
  have hnumber := LocalDevice.resolve_number hf
  have hkeep : ∀ g : LocalFeature S, address.feature = some g.address → f'.address = g.address := by
    intro g hg
    rw [haddress, ← Option.some.inj (hnumber.symm.trans hg)]
  rcases e.device.resolve_update_cases address other (g := fun _ => f') hkeep with
    hsame | ⟨f₀, hf₀, hother, hseen⟩
  · exact .inl hsame
  · rw [hf] at hf₀
    cases hf₀
    exact .inr ⟨hother, hseen⟩

theorem Reshaped.storeFeature {f' : LocalFeature S}
    (hf : e.device.resolve address = some f) (hshape : SameShape f f') :
    Reshaped e (e.storeFeature address f') := by
  intro other g hg
  rcases resolve_storeFeature hf hshape.address other with hsame | ⟨hother, hseen⟩
  · exact ⟨g, hsame.trans hg, SameShape.refl g⟩
  · rw [hother] at hg
    cases hg
    exact ⟨f', hseen, hshape⟩

theorem KeepsData.storeFeature {f' : LocalFeature S}
    (hf : e.device.resolve address = some f) (haddress : f'.address = f.address)
    (hdata : f'.data function = f.data function) : KeepsData function e (e.storeFeature address f') := by
  intro other
  rcases resolve_storeFeature hf haddress other with hsame | ⟨hother, hseen⟩
  · simp only [LocalDevice.data, hsame]
  · simp only [LocalDevice.data, hseen, hother, Option.bind_some, hdata]

end Storing

theorem data_store_of_ne (f : LocalFeature S) {d : CmdData S} {function : Function S.Other}
    (h : d.function ≠ function) : (f.store d).data function = f.data function := by
  simp only [LocalFeature.data, LocalFeature.function, LocalFeature.store]
  rw [find?_modifyFirst_of_disjoint]
  intro entry hentry
  have hentry : entry.function = d.function := by simpa [LocalFeature.names] using hentry
  simp [LocalFeature.names, FunctionEntry.store, hentry, h]

theorem name_of_found {function : Function S.Other} {entry : FunctionEntry S}
    (h : f.function function = some entry) : entry.function = function := by
  have hnames : LocalFeature.names function entry = true := List.find?_some h
  exact of_decide_eq_true hnames

def StoresOnly (function : Function S.Other) (f f' : LocalFeature S) : Prop :=
  ∀ other, function ≠ other → f'.data other = f.data other

namespace StoresOnly

variable {function : Function S.Other} {f f' f'' : LocalFeature S}

theorem refl (function : Function S.Other) (f : LocalFeature S) : StoresOnly function f f :=
  fun _ _ => rfl

theorem trans (h : StoresOnly function f f') (h' : StoresOnly function f' f'') :
    StoresOnly function f f'' :=
  fun other hother => (h' other hother).trans (h other hother)

theorem store (f : LocalFeature S) {d : CmdData S} (h : d.function = function) :
    StoresOnly function f (f.store d) :=
  fun _ hother => data_store_of_ne f (h ▸ hother)

theorem setData {d : CmdData S} {changed : Bool} (h : f.setData d = .ok (f', changed)) :
    StoresOnly d.function f f' := by
  unfold LocalFeature.setData at h
  repeat' split at h
  · cases h
  · cases h
    exact refl d.function f
  · cases h
    exact store f rfl

theorem apply {d : CmdData S} {isPartial : Bool} (h : f.apply d isPartial = .ok f') :
    StoresOnly d.function f f' := by
  unfold LocalFeature.apply at h
  split at h
  · cases h
  case h_2 entry hentry =>
    have hname : entry.function = d.function := name_of_found hentry
    repeat' split at h
    all_goals cases h
    case h_1.refl hstored _ merged hmerged =>
      have hfunction := (entry.keyed _ hstored).trans hname
      obtain ⟨merged', hmerged', hkept⟩ := apply_sameFunction hfunction isPartial
      rw [hmerged] at hmerged'
      cases hmerged'
      exact store f (hkept.trans hfunction)
    case h_2.refl => exact store f rfl

theorem deleteFiltered (f : LocalFeature S) (d : CmdData S) (filter : Filter S) :
    StoresOnly d.function f (f.deleteFiltered d filter).1 := by
  unfold LocalFeature.deleteFiltered
  split
  · exact refl d.function f
  case h_2 entry hentry =>
    obtain ⟨hfound, -⟩ := LocalFeature.writeableFunction_eq_ok.mp hentry
    have hname : entry.function = d.function := name_of_found hfound
    split
    · exact refl d.function f
    case h_2 stored hstored =>
      have hkeyed : stored.function = d.function := (entry.keyed stored hstored).trans hname
      have hdeleted := runDeletes_function hkeyed (addressedBy filter)
      split
      all_goals
        rename_i hrun
        rw [hrun] at hdeleted
        exact store f hdeleted

theorem applyTo (ops : WriteOps S) (f : LocalFeature S) (d : CmdData S) :
    StoresOnly d.function f (ops.applyTo f d).1 :=
  WriteOps.applyTo_keeps (P := StoresOnly d.function f)
    (fun f' filter h => h.trans (deleteFiltered f' d filter)) (fun h hok => h.trans (apply hok))
    (refl d.function f)

theorem commit (write : DeferredWrite S) (replacement : Option (CmdData S)) (f : LocalFeature S) :
    StoresOnly write.data.function f (Engine.commit write replacement f).1 := by
  unfold Engine.commit
  split
  case h_1 d =>
    split
    case isTrue hkey =>
      split
      case h_1 f' changed heq =>
        have hfunction : d.function = write.data.function := congrArg Function.known hkey
        exact hfunction ▸ setData heq
      case h_2 => exact refl _ f
    case isFalse => exact refl _ f
  · exact applyTo write.ops f write.data

end StoresOnly

namespace Engine

theorem storeFeature_elsewhere (e : Engine S) {other : FeatureAddress}
    (haddress : address.feature = some f.address)
    (h : ¬(entityPath other = entityPath address ∧ other.feature = address.feature)) :
    (e.storeFeature address f).device.resolve other = e.device.resolve other := by
  rw [storeFeature, LocalDevice.resolve_update_eq e.device address other
    fun g hg => Option.some.inj (haddress.symm.trans hg), if_neg fun hseen => h hseen.2]

theorem finishWrite_reshaped (e : Engine S) (token : Nat) (replacement : Option (CmdData S)) :
    Reshaped e (e.finishWrite token replacement).1 := by
  rcases e.finishWrite_device token replacement with hsame | ⟨write, feature, -, hfeature, hstored⟩
  · exact .of_device hsame
  · exact (Reshaped.storeFeature hfeature (SameShape.commit write replacement feature)).trans
      (.of_device hstored)

theorem handleTimeout_device (e : Engine S) (now : Nat) : (e.handleTimeout now).device = e.device :=
  (e.handleTimeout_frame now).2.2.2

theorem handleDatagram_stored {e : Engine S}
    (hf : e.device.resolve address = some f) (datagram : Datagram S) (now : Nat) :
    (e.handleDatagram datagram now).1.device.resolve address = some f ∨
      ∃ w, Admitted e datagram w ∧ w.feature = f ∧ f.approval ≠ .deferred ∧
        entityPath address = entityPath w.destination ∧ address.feature = w.destination.feature := by
  by_cases hadmitted : ∃ w, Admitted e datagram w
  · obtain ⟨w, hw⟩ := hadmitted
    have hfiled : (w.filed e).1.device = e.device := observeSource_device e _ _
    rw [hw.handleDatagram_eq now, (sends_acknowledge _ _ _ _ _ _ _).device]
    by_cases happroval : w.feature.approval = .deferred
    · exact .inl (by rw [decideWrite_device_of_deferred _ w now happroval, hfiled, hf])
    · have hshape := SameShape.applyTo w.ops w.feature w.data
      have hstored : ∀ f', f' = (w.ops.applyTo w.feature w.data).1 →
          ((w.filed e).1.storeFeature w.destination f').device.resolve address = some f ∨
            ∃ w, Admitted e datagram w ∧ w.feature = f ∧ f.approval ≠ .deferred ∧
              entityPath address = entityPath w.destination ∧
                address.feature = w.destination.feature := by
        rintro f' rfl
        by_cases hplace : entityPath address = entityPath w.destination ∧
          address.feature = w.destination.feature
        · rcases resolve_storeFeature hw.resolved_filed hshape.address address with
            hsame | ⟨hother, -⟩
          · exact .inl (by rw [hsame, hfiled, hf])
          · rw [hfiled, hf] at hother
            cases hother
            exact .inr ⟨w, hw, rfl, happroval, hplace⟩
        · have hnumber := LocalDevice.resolve_number hw.resolved
          refine .inl ?_
          rw [storeFeature_elsewhere _ (by rw [hnumber, hshape.address]) hplace, hfiled, hf]
      simp only [decideWrite, happroval, if_false, applyWrite]
      split
      case h_1 f' heq =>
        rw [(sends_reportWritten _ _ _ _).device]
        exact hstored f' (by rw [heq])
      case h_2 f' error heq => exact hstored f' (by rw [heq])
  · exact .inl (by rw [handleDatagram_device hadmitted, hf])

theorem handleDatagram_resolve {e : Engine S}
    (hf : e.device.resolve address = some f) (hdeferred : f.approval = .deferred)
    (datagram : Datagram S) (now : Nat) :
    (e.handleDatagram datagram now).1.device.resolve address = some f := by
  rcases handleDatagram_stored hf datagram now with hsame | ⟨w, -, -, hdecides, -⟩
  · exact hsame
  · exact absurd hdeferred hdecides

end Engine

end Eebus.Spine
