import Eebus.Spine.Announcements
import Eebus.Spine.WritePreview

/-!
Everything that can happen to a server, as a client of one of its features hears of it. What the
operation sends is numbered on and leaves the client knowing what is stored; what comes to be
stored is told.
-/

namespace Eebus.Spine

open Eebus.Library Eebus.Model

variable {S : Schema} {client : AddressDevice} {feature : FeatureAddress}

def readsBack (client : AddressDevice) (feature : FeatureAddress) (e : Engine S) (d : Datagram S) :
    Bool :=
  match d.header.bind Header.cmdClassifier, d.header.bind Header.addressSource,
    d.header.bind Header.addressDestination, d.commands with
  | some .read, some source, some destination, [cmd] => putsBack client feature e cmd source destination
  | _, _, _, _ => true

theorem putsBack_congr {e e' : Engine S} (hnode : isNodeManagement feature = false)
    (hdevice : e'.device = e.device) {cmd : Cmd S} {source destination : FeatureAddress}
    (h : putsBack client feature e cmd source destination = true) :
    putsBack client feature e' cmd source destination = true := by
  unfold putsBack at h ⊢
  cases hsame : sameFeature destination feature with
  | false =>
    split
    · simp
    · rfl
  | true =>
    have hother : isNodeManagement destination = false := by
      simp only [sameFeature, Bool.and_eq_true, beq_iff_eq] at hsame
      rw [isNodeManagement, hsame.1.2, hsame.2]
      exact hnode
    have hanswer : e'.readAnswer cmd source destination = e.readAnswer cmd source destination := by
      simp only [Engine.readAnswer, hother, hdevice, Bool.false_eq_true, if_false]
    rw [hanswer, hdevice]
    rwa [hsame] at h

namespace Engine

variable {e : Engine S} {d : Datagram S}

theorem handleDatagram_discarded (h : ¬∃ v, TakenUp e d v) (now : Nat) :
    ∃ e', Mute e e' ∧ e'.device = e.device ∧
      ((e.handleDatagram d now).1 = e' ∨ ∃ source destination counter error,
        (e.handleDatagram d now).1 = e'.sendResult source destination counter error) := by
  simp only [handleDatagram]
  split
  case h_1 => exact ⟨e, .refl e, rfl, .inl rfl⟩
  case h_2 header hheader =>
    split
    case h_2 => exact ⟨e, .refl e, rfl, .inl rfl⟩
    case h_1 counter classifier source destination hcounter hclassifier hsource hdestination =>
      split
      case isTrue => exact ⟨e, .refl e, rfl, .inl rfl⟩
      case isFalse htrusted =>
        split
        case isTrue =>
          refine ⟨e, .refl e, rfl, ?_⟩
          dsimp only
          split
          · exact .inr ⟨_, _, _, _, rfl⟩
          · exact .inl rfl
        case isFalse hversion =>
          have hmute := hearing_mute.observeSource e source counter
          have hdevice := e.observeSource_device source counter
          split
          case isTrue =>
            refine ⟨_, hmute, hdevice, ?_⟩
            dsimp only
            split
            · exact .inr ⟨_, _, _, _, rfl⟩
            · exact .inl rfl
          case isFalse haddressed =>
            split
            case isTrue => exact ⟨_, hmute, hdevice, .inl rfl⟩
            case isFalse hfresh =>
              refine absurd ⟨⟨source, destination, classifier, counter, header.msgCounterReference,
                header.ackRequest.getD false⟩, ?_, by simpa using htrusted, ?_, ?_⟩ h
              · exact ⟨header, hheader, hcounter, hclassifier, hsource, hdestination, rfl, rfl,
                  by simpa using hversion⟩
              · simpa using haddressed
              · simpa [Envelope.filed] using hfresh

theorem honest_applyWrite (hfeature : feature.device = some e.device.address)
    (hnode : isNodeManagement feature = false) {f : LocalFeature S} {data : CmdData S}
    {ops : WriteOps S} {source destination : FeatureAddress}
    (hdestination : destination.device = some e.device.address) :
    Speaks (Honest client feature (e.applyWrite f data ops source destination).1.device) e
      (e.applyWrite f data ops source destination).1 := by
  unfold applyWrite
  split
  case h_1 f' _ =>
    let stored := (e.storeFeature destination f').emit (.dataWritten destination source data.function)
    have haddress : stored.device.address = e.device.address := by simp [stored, emit, storeFeature]
    have hreported : ((e.storeFeature destination f').reportWritten destination source
        data.function).device = stored.device := (sends_reportWritten _ _ _ _).device
    rw [hreported]
    have hmute : Mute e stored := ⟨rfl, rfl⟩
    exact hmute.speaks.trans (honest_notify (e := stored) (haddress.symm ▸ hfeature) hnode
      (haddress.symm ▸ hdestination) data.function)
  case h_2 f' error _ =>
    have hmute : Mute e (e.storeFeature destination f') := ⟨rfl, rfl⟩
    exact hmute.speaks

theorem named_of_resolve {a : FeatureAddress} {f : LocalFeature S}
    (h : e.device.resolve a = some f) (ha : a.device.isSome = true) :
    a.device = some e.device.address := by
  have hown := (LocalDevice.resolve_eq_some.mp h).1
  obtain ⟨x, hx⟩ := Option.isSome_iff_exists.mp ha
  rw [hx] at hown ⊢
  simpa using hown

section

variable (hfeature : feature.device = some e.device.address)

include hfeature

theorem honest_handleCommands
    (hnode : isNodeManagement feature = false) (hback : readsBack client feature e d = true)
    (hnamed : ∀ w, AppliesAtOnce e d w → w.destination.device.isSome = true) {v : Envelope}
    (hv : TakenUp e d v) (now : Nat) :
    let e' := ((v.filed e).1.handleCommands d.commands v.source v.destination v.classifier v.counter
      v.reference v.ackRequest now).1
    Speaks (Honest client feature e'.device) e e' := by
  intro e'
  have hfiled : Mute e (v.filed e).1 := hearing_mute.observeSource e v.source v.counter
  have hdevice : (v.filed e).1.device = e.device := e.observeSource_device v.source v.counter
  have hmute : ∀ e'' : Engine S, Mute (v.filed e).1 e'' →
      Speaks (Honest client feature e''.device) e e'' := fun e'' h => (hfiled.trans h).speaks
  match hcommands : d.commands with
  | [] =>
    refine hmute e' ?_
    simp only [e', hcommands, handleCommands]
    split <;> exact .refl _
  | _ :: _ :: _ =>
    refine hmute e' ?_
    simp only [e', hcommands, handleCommands]
    exact .refl _
  | [cmd] =>
    simp only [e', hcommands, handleCommands]
    cases hclassifier : v.classifier with
    | read =>
      obtain ⟨header, hheader, -, hread, hsource, hdestination, -⟩ := hv.header
      have hback : putsBack client feature (v.filed e).1 cmd v.source v.destination = true := by
        refine putsBack_congr hnode hdevice ?_
        simpa [readsBack, hheader, hread, hclassifier, hsource, hdestination, hcommands] using hback
      have hdevice' : ((v.filed e).1.handleRead cmd v.source v.destination v.counter).1.device =
          (v.filed e).1.device := handleRead_device _ _ _ _ _
      simp only [handleCmd]
      rw [hdevice']
      exact hfiled.speaks.trans (honest_handleRead (by rw [hdevice]; exact hfeature) hnode hback v.counter)
    | write =>
      simp only [handleCmd]
      rcases handleWrite_cases hv hclassifier hcommands now with ⟨w, rfl, rfl, hw⟩ | hsame
      · rw [hw.handleWrite_eq now, decideWrite]
        split
        case isTrue =>
          refine hmute _ ?_
          split <;> exact ⟨rfl, rfl⟩
        case isFalse happroval =>
          have hautomatic : w.feature.approval = .automatic := by
            cases hcases : w.feature.approval with
            | automatic => rfl
            | deferred => exact absurd hcases happroval
          have hdestination := named_of_resolve hw.resolved (hnamed w ⟨hw, hautomatic⟩)
          refine hfiled.speaks.trans (honest_applyWrite ?_ hnode ?_)
          · rw [hdevice]
            exact hfeature
          · rw [hdevice]
            exact hdestination
      · rw [hsame]
        exact hmute _ (.refl _)
    | call => exact hmute _ (mute_handleCall _ _ _)
    | reply => exact hmute _ (hearing_mute.informed _ _ _ _ _)
    | notify => exact hmute _ (hearing_mute.informed _ _ _ _ _)
    | result => exact hmute _ (hearing_mute.handleResult _ _ _ _)

theorem honest_handleDatagram
    (hnode : isNodeManagement feature = false) (hback : readsBack client feature e d = true)
    (hnamed : ∀ w, AppliesAtOnce e d w → w.destination.device.isSome = true) (now : Nat) :
    Speaks (Honest client feature (e.handleDatagram d now).1.device) e (e.handleDatagram d now).1 := by
  by_cases hv : ∃ v, TakenUp e d v
  · obtain ⟨v, hv⟩ := hv
    rw [handleDatagram_of_takenUp hv now, serve]
    have hsends := sends_acknowledge ((v.filed e).1.handleCommands d.commands v.source v.destination
      v.classifier v.counter v.reference v.ackRequest now).1 v.source v.destination v.counter
      v.classifier v.ackRequest ((v.filed e).1.handleCommands d.commands v.source v.destination
      v.classifier v.counter v.reference v.ackRequest now).2
    rw [hsends.device]
    exact (honest_handleCommands hfeature hnode hback hnamed hv now).trans
      (honest_acknowledge _ _ _ _ _ _ _)
  · obtain ⟨e', hmute, hdevice, hend | ⟨source, destination, counter, error, hend⟩⟩ :=
      handleDatagram_discarded hv now
    · rw [hend]
      exact hmute.speaks
    · rw [hend, (sends_sendResult e' source destination counter error).device]
      exact hmute.speaks.trans (e'.honest_sendResult _ _ _ _)

theorem tells_handleDatagram (hnode : isNodeManagement feature = false) (now : Nat)
    (hsubscribed : Subscribed client feature (e.handleDatagram d now).1.relations)
    (hwhole : ∀ w, AppliesAtOnce e d w →
      w.destination.device.isSome = true ∧ ¬Interrupted w.feature w.ops w.data) :
    TellsChanges client feature e (e.handleDatagram d now).1 := by
  by_cases happlies : ∃ w, AppliesAtOnce e d w
  · obtain ⟨w, hw⟩ := happlies
    obtain ⟨hnamed, hwhole⟩ := hwhole w hw
    have hdevice : (w.filed e).1.device = e.device := e.observeSource_device w.source w.counter
    have houtbox : (w.filed e).1.outbox = e.outbox := e.observeSource_outbox w.source w.counter
    have hresolve := hw.admitted.resolved_filed
    rw [hw.handleDatagram_eq now] at hsubscribed ⊢
    dsimp only at hsubscribed ⊢
    rw [(sends_acknowledge _ _ _ _ _ _ _).relations] at hsubscribed
    refine TellsChanges.sends ?_ (sends_acknowledge _ _ _ _ _ _ _)
    refine TellsChanges.after hdevice houtbox ?_
    unfold applyWrite at hsubscribed ⊢
    have hshape := SameShape.applyTo w.ops w.feature w.data
    have honly := StoresOnly.applyTo w.ops w.feature w.data
    split
    case h_1 f' happly =>
      rw [happly] at hsubscribed hshape honly
      dsimp only at hsubscribed ⊢
      rw [(sends_reportWritten _ _ _ _).relations] at hsubscribed
      refine reportWritten_tells (by rw [hdevice]; exact hfeature) hnode hresolve hnamed hshape honly
        (fun value hvalue => ?_) hsubscribed
      obtain ⟨resolved, -, hresolved⟩ := applyTo_stored hvalue (by rw [happly])
      rw [happly] at hresolved
      rw [hresolved]
      rfl
    case h_2 f' error happly =>
      have hself := applyTo_eq_self hwhole
        (show (w.ops.applyTo w.feature w.data).2 = .error error by rw [happly])
      rw [happly] at hself
      obtain rfl : f' = w.feature := hself
      exact .of_device (storeFeature_self hresolve)
  · exact .of_device (handleDatagram_device_of_not_applies happlies)

theorem honest_finishWrite (hnode : isNodeManagement feature = false) {token : Nat}
    (hnamed : ∀ write, e.findDeferred token = some write → write.feature.device.isSome = true)
    (replacement : Option (CmdData S)) :
    Speaks (Honest client feature (e.finishWrite token replacement).1.device) e
      (e.finishWrite token replacement).1 := by
  unfold finishWrite
  split
  · exact .refl e
  case h_2 write hwrite =>
    have hdropped : Mute e (e.dropDeferred token) := ⟨rfl, rfl⟩
    dsimp only
    split
    · rw [(sends_answerDeferred _ write _).device]
      exact hdropped.speaks.trans (honest_answerDeferred _ write _)
    case h_2 f hf =>
      have hdestination := named_of_resolve hf (hnamed write hwrite)
      split
      case h_1 f' _ =>
        let stored := ((e.dropDeferred token).storeFeature write.feature f').emit
          (.dataWritten write.feature write.peer write.data.function)
        have haddress : stored.device.address = e.device.address := by
          simp [stored, emit, storeFeature, dropDeferred]
        have hmute : Mute e stored := ⟨rfl, rfl⟩
        have hreported : (((e.dropDeferred token).storeFeature write.feature f').reportWritten
            write.feature write.peer write.data.function).device = stored.device :=
          (sends_reportWritten _ _ _ _).device
        rw [(sends_answerDeferred _ write _).device]
        refine Speaks.trans ?_ (honest_answerDeferred _ write _)
        rw [hreported]
        exact hmute.speaks.trans (honest_notify (e := stored) (haddress.symm ▸ hfeature) hnode
          (haddress.symm ▸ hdestination) write.data.function)
      case h_2 f' error _ =>
        have hmute : Mute e ((e.dropDeferred token).storeFeature write.feature f') := ⟨rfl, rfl⟩
        rw [(sends_answerDeferred _ write _).device]
        exact hmute.speaks.trans (honest_answerDeferred _ write _)

end

theorem commit_isSome {write : DeferredWrite S} {replacement : Option (CmdData S)}
    {f f' : LocalFeature S} (h : commit write replacement f = (f', .ok ())) {value : CmdData S}
    (hvalue : f.data write.data.function = some value) :
    (f'.data write.data.function).isSome = true := by
  cases replacement with
  | none =>
    rw [commit] at h
    obtain ⟨resolved, -, hresolved⟩ := applyTo_stored hvalue (by rw [h])
    rw [h] at hresolved
    rw [hresolved]
    rfl
  | some data =>
    simp only [commit] at h
    split at h
    case isFalse => cases h
    case isTrue hkey =>
      have hfunction : data.function = write.data.function := congrArg Function.known hkey
      split at h
      case h_2 => cases h
      case h_1 f'' changed hset =>
        cases h
        unfold LocalFeature.setData at hset
        split at hset
        · cases hset
        case h_2 entry hentry =>
          split at hset
          · cases hset
            rw [hvalue]
            rfl
          · cases hset
            rw [← hfunction, f.data_store hentry]
            rfl

theorem tells_finishWrite (hfeature : feature.device = some e.device.address)
    (hnode : isNodeManagement feature = false) {token : Nat} {replacement : Option (CmdData S)}
    (hsubscribed : Subscribed client feature (e.finishWrite token replacement).1.relations)
    (hnamed : ∀ write, e.findDeferred token = some write → write.feature.device.isSome = true)
    (hwhole : ¬CommitInterrupted e token replacement) :
    TellsChanges client feature e (e.finishWrite token replacement).1 := by
  rw [finishWrite_relations] at hsubscribed
  unfold finishWrite
  split
  · exact .of_device rfl
  case h_2 write hwrite =>
    dsimp only
    split
    · exact .of_device (sends_answerDeferred _ write _).device
    case h_2 f hf =>
      have hshape := SameShape.commit write replacement f
      have honly := StoresOnly.commit write replacement f
      let dropped := e.dropDeferred token
      have hdropped : dropped.device = e.device := rfl
      have hf : dropped.device.resolve write.feature = some f := hf
      have hfeature : feature.device = some dropped.device.address := hfeature
      have hsubscribed : Subscribed client feature dropped.relations := hsubscribed
      split
      case h_1 f' hcommit =>
        rw [hcommit] at hshape honly
        have htells : TellsChanges client feature dropped
            ((dropped.storeFeature write.feature f').reportWritten write.feature write.peer _) :=
          reportWritten_tells hfeature hnode hf (hnamed write hwrite) hshape honly
            (fun value hvalue => commit_isSome hcommit hvalue) hsubscribed
        exact (TellsChanges.after hdropped rfl htells).sends (sends_answerDeferred _ write .none)
      case h_2 f' error hcommit =>
        have hself : f' = f := commit_eq_self
          (fun hcut => hwhole ⟨write, f, hwrite, hf, hcut.1, hcut.2⟩) hcommit
        subst hself
        have hkept : (dropped.storeFeature write.feature f').device = e.device :=
          (storeFeature_self hf).trans hdropped
        exact (TellsChanges.of_device hkept).sends (sends_answerDeferred _ write _)

end Engine

def Datagram.Asks (device : AddressDevice) (d : Datagram S) : Prop :=
  ∃ source destination counter classifier ackRequest cmd, source.device = some device ∧
    (classifier ≠ .reply ∧ classifier ≠ .notify) ∧
    d = ⟨some (Engine.header source destination counter classifier ackRequest none),
      some ⟨some [cmd]⟩⟩

variable {device device' : LocalDevice S}

namespace Engine

variable {e : Engine S}

def AsksItself (e : Engine S) : Prop :=
  ∀ p ∈ e.pending, Datagram.Asks e.device.address p.datagram

theorem honest_handleTimeout (h : e.AsksItself) (now : Nat) :
    Speaks (Honest client feature e.device) e (e.handleTimeout now) ∧
      (e.handleTimeout now).AsksItself := by
  have hagain : ∀ p ∈ e.pending, ∀ counter,
      Datagram.Asks e.device.address (p.messageUnder counter) := by
    intro p hp counter
    obtain ⟨source, destination, _, classifier, ackRequest, cmd, hsource, hclassifier, hd⟩ := h p hp
    rw [Pending.messageUnder, hd]
    exact ⟨source, destination, counter, classifier, ackRequest, cmd, hsource, hclassifier, rfl⟩
  refine ⟨e.handleTimeout_speaks now fun p hp => ⟨?_, fun counter => ?_⟩, fun p hp => ?_⟩
  · obtain ⟨_, _, _, _, _, _, -, -, hd⟩ := h p hp
    rw [hd]
    rfl
  · obtain ⟨source, destination, _, classifier, ackRequest, cmd, hsource, hclassifier, hd⟩ :=
      hagain p hp counter
    rw [hd]
    exact honest_silent hsource hclassifier
  · rw [handleTimeout_device]
    obtain ⟨q, hq, -, -, hsame | ⟨counter, hsame⟩⟩ := e.handleTimeout_kept now p hp
    · exact hsame ▸ h q hq
    · exact hsame ▸ hagain q hq counter

/-- What the operation sends is sent under the server's own address; it applies no write that lacks
the device or is cut off; and what it reads out to the client merges back. -/
def Proper (client : AddressDevice) (feature : FeatureAddress) (e : Engine S) : EngineOp S → Prop
  | .handleDatagram d _ => readsBack client feature e d = true ∧ ∀ w, AppliesAtOnce e d w →
      w.destination.device.isSome = true ∧ ¬Interrupted w.feature w.ops w.data
  | .finishWrite token replacement => (∀ write, e.findDeferred token = some write →
      write.feature.device.isSome = true) ∧ ¬CommitInterrupted e token replacement
  | .notify a _ => a.device = some e.device.address
  | .readFiltered _ source _ _ _ => source.device = some e.device.address
  | .writeFiltered _ source _ _ _ => source.device = some e.device.address
  | .configure g => (g e.device).address = e.device.address
  | .pollTransmit => False
  | _ => True

/-- The application leaves the function, and the entity it is on, alone. -/
def Undisturbed (feature : FeatureAddress) (key : Key S.Other) (e : Engine S) : EngineOp S → Prop
  | .configure g => (g e.device).data feature (.known key) = e.device.data feature (.known key)
  | .removeEntity path => path.isPrefixOf (entityPath feature) = false
  | _ => True

theorem removeEntity_address {path : List Nat}
    {removed : List (LocalEntity S)} (h : device.removeEntity path = .ok (device', removed)) :
    device'.address = device.address := by
  unfold LocalDevice.removeEntity at h
  split at h
  · cases h
  split at h
  · cases h
  cases h
  rfl

theorem honest_perform (hfeature : feature.device = some e.device.address)
    (hnode : isNodeManagement feature = false) (hasks : e.AsksItself) {op : EngineOp S}
    (hproper : Proper client feature e op) :
    Speaks (Honest client feature (e.perform op).device) e (e.perform op) := by
  have hmute : ∀ {e' : Engine S}, Mute e e' → Speaks (Honest client feature e'.device) e e' :=
    fun h => h.speaks
  cases op with
  | handleDatagram d now =>
    exact honest_handleDatagram hfeature hnode hproper.1 (fun w hw => (hproper.2 w hw).1) now
  | handleTimeout now =>
    simp only [perform, handleTimeout_device]
    exact (honest_handleTimeout hasks now).1
  | finishWrite token replacement => exact honest_finishWrite hfeature hnode hproper.1 replacement
  | rejectWrite token error =>
    simp only [perform, rejectWrite_device]
    simp only [rejectWrite]
    split
    · exact .refl e
    case h_2 write _ =>
      have hdropped : Mute e (e.dropDeferred token) := ⟨rfl, rfl⟩
      exact hdropped.speaks.trans (honest_answerDeferred _ write _)
  | readFiltered destination source function filters now =>
    exact e.honest_request hproper ⟨by simp, by simp⟩
  | writeFiltered destination source data filters now =>
    exact e.honest_request hproper ⟨by simp, by simp⟩
  | requestBinding c s now => exact e.honest_request rfl ⟨by simp, by simp⟩
  | requestSubscription c s now => exact e.honest_request rfl ⟨by simp, by simp⟩
  | notify a function =>
    simp only [perform, (sends_notify e a function).device]
    exact honest_notify hfeature hnode hproper function
  | addEntity entity =>
    simp only [perform, addEntity]
    split
    · exact .refl e
    · rw [(sends_notifyDiscoveryChange _ _).device]
      exact honest_notifyDiscoveryChange hnode _
  | modifyEntity path =>
    simp only [perform, modifyEntity]
    split
    · exact .refl e
    · rw [(sends_notifyDiscoveryChange _ _).device]
      exact honest_notifyDiscoveryChange hnode _
  | removeEntity path =>
    simp only [perform, removeEntity]
    split
    · exact .refl e
    case h_2 device removed hremoved =>
      have haddress := removeEntity_address hremoved
      let left : Engine S := { e with
        device := device
        relations := e.relations.removeLocalEntity device.address path
        useCases := e.useCases.filter fun announced => !path.isPrefixOf announced.entity }
      let told := left.notifyDiscoveryChange (entitiesRemoved removed)
      have hleft : Mute e left := ⟨rfl, rfl⟩
      have hdevice : told.device = device := (left.sends_notifyDiscoveryChange _).device
      have htold : Speaks (Honest client feature device) e told :=
        hleft.speaks.trans (honest_notifyDiscoveryChange (e := left) hnode _)
      dsimp only
      split
      · have hnotify : Speaks (Honest client feature told.device) told
            (told.notify (nodeManagement device.address) (.known .nodeManagementUseCaseData)) :=
          honest_notify (by rw [hdevice, haddress]; exact hfeature) hnode (by rw [hdevice]; rfl) _
        rw [hdevice] at hnotify
        rw [(sends_notify told _ _).device, hdevice]
        exact htold.trans hnotify
      · rw [hdevice]
        exact htold
  | pollTransmit => exact hproper.elim
  | _ => exact hmute ⟨rfl, rfl⟩

theorem addEntity_resolve {entity : LocalEntity S}
    (h : device.addEntity entity = .ok device') {a : FeatureAddress} {f : LocalFeature S}
    (hf : device.resolve a = some f) : device'.resolve a = some f := by
  unfold LocalDevice.addEntity at h
  split at h
  · cases h
  cases h
  obtain ⟨hdevice, number, entity', hnumber, hentity, hfound⟩ := LocalDevice.resolve_eq_some.mp hf
  refine LocalDevice.resolve_eq_some.mpr ⟨hdevice, number, entity', hnumber, ?_, hfound⟩
  rw [List.find?_append, hentity, Option.some_or]

theorem removeEntity_resolve {path : List Nat}
    {removed : List (LocalEntity S)} (h : device.removeEntity path = .ok (device', removed))
    {a : FeatureAddress} (ha : path.isPrefixOf (entityPath a) = false) :
    device'.resolve a = device.resolve a := by
  unfold LocalDevice.removeEntity at h
  split at h
  · cases h
  split at h
  · cases h
  cases h
  simp only [LocalDevice.resolve, LocalDevice.entity]
  have hsame : (device.entities.filter fun e => !path.isPrefixOf e.address).find?
      (LocalDevice.atPath (entityPath a)) = device.entities.find? (LocalDevice.atPath (entityPath a)) := by
    rw [List.find?_filter]
    congr 1
    funext e
    cases hat : LocalDevice.atPath (entityPath a) e with
    | false => simp
    | true =>
      have heq : e.address = entityPath a := by simpa [LocalDevice.atPath] using hat
      simp [heq, ha]
  rw [hsame]

theorem tells_perform (hfeature : feature.device = some e.device.address)
    (hnode : isNodeManagement feature = false) {op : EngineOp S} {key : Key S.Other}
    (hproper : Proper client feature e op) (hundisturbed : Undisturbed feature key e op)
    (hsubscribed : Subscribed client feature (e.perform op).relations) {value : CmdData S}
    (hvalue : e.device.data feature (.known key) = some value) :
    ∃ value', (e.perform op).device.data feature (.known key) = some value' ∧
      (value' = value ∨ (value'.entryCount ≤ maxListEntries →
        Announces client feature key value' e (e.perform op))) := by
  have hsame : ∀ {e' : Engine S}, e'.device.data feature (.known key) =
      e.device.data feature (.known key) → ∃ value', e'.device.data feature (.known key) = some value' ∧
        (value' = value ∨ (value'.entryCount ≤ maxListEntries →
          Announces client feature key value' e e')) :=
    fun h => ⟨value, h.trans hvalue, .inl rfl⟩
  have hdevice : ∀ {e' : Engine S}, e'.device = e.device → e'.device.data feature (.known key) =
      e.device.data feature (.known key) := fun h => by rw [h]
  cases op with
  | handleDatagram d now =>
    exact tells_handleDatagram hfeature hnode now hsubscribed hproper.2 key value hvalue
  | handleTimeout now => exact hsame (hdevice (handleTimeout_device e now))
  | finishWrite token replacement =>
    exact tells_finishWrite hfeature hnode hsubscribed hproper.1 hproper.2 key value hvalue
  | rejectWrite token error => exact hsame (hdevice (rejectWrite_device e token error))
  | notify a function => exact hsame (hdevice (sends_notify e a function).device)
  | configure g => exact hsame hundisturbed
  | addEntity entity =>
    rcases e.addEntity_device entity with heq | ⟨device, hadded, heq⟩
    · exact hsame (hdevice heq)
    · obtain ⟨f, hf, -⟩ := Option.bind_eq_some_iff.mp hvalue
      refine hsame ?_
      rw [perform, heq, LocalDevice.data, addEntity_resolve hadded hf, LocalDevice.data, hf]
  | modifyEntity path => exact hsame (hdevice (e.modifyEntity_device path))
  | removeEntity path =>
    rcases e.removeEntity_device path with heq | ⟨device, removed, hremoved, heq⟩
    · exact hsame (hdevice heq)
    · refine hsame ?_
      rw [perform, heq, LocalDevice.data, removeEntity_resolve hremoved hundisturbed, LocalDevice.data]
  | _ => exact hsame (hdevice rfl)

theorem storeFeature_address (e : Engine S) (a : FeatureAddress) (f : LocalFeature S) :
    (e.storeFeature a f).device.address = e.device.address :=
  LocalDevice.update_address _ _ _

theorem handleDatagram_address (e : Engine S) (d : Datagram S) (now : Nat) :
    (e.handleDatagram d now).1.device.address = e.device.address := by
  by_cases happlies : ∃ w, AppliesAtOnce e d w
  · obtain ⟨w, hw⟩ := happlies
    have hfiled : (w.filed e).1.device = e.device := e.observeSource_device w.source w.counter
    rw [hw.handleDatagram_eq now]
    dsimp only
    rw [(sends_acknowledge _ _ _ _ _ _ _).device]
    rw [applyWrite_device, storeFeature_address, hfiled]
  · rw [handleDatagram_device_of_not_applies happlies]

theorem finishWrite_address (e : Engine S) (token : Nat) (replacement : Option (CmdData S)) :
    (e.finishWrite token replacement).1.device.address = e.device.address := by
  rcases e.finishWrite_device token replacement with hsame | ⟨write, feature, -, -, hstored⟩
  · rw [hsame]
  · rw [hstored, storeFeature_address]

theorem addEntity_address {entity : LocalEntity S}
    (h : device.addEntity entity = .ok device') : device'.address = device.address := by
  unfold LocalDevice.addEntity at h
  split at h
  · cases h
  · cases h
    rfl

theorem perform_address {op : EngineOp S}
    (h : ∀ g, op = .configure g → (g e.device).address = e.device.address) :
    (e.perform op).device.address = e.device.address := by
  cases op with
  | handleDatagram d now => exact handleDatagram_address e d now
  | handleTimeout now => rw [perform, handleTimeout_device]
  | finishWrite token replacement => exact finishWrite_address e token replacement
  | rejectWrite token error => rw [perform, rejectWrite_device]
  | notify a function => rw [perform, (sends_notify e a function).device]
  | configure g => exact h g rfl
  | addEntity entity =>
    rcases e.addEntity_device entity with hsame | ⟨device, hadded, heq⟩
    · rw [perform, hsame]
    · rw [perform, heq, addEntity_address hadded]
  | modifyEntity path => rw [perform, modifyEntity_device]
  | removeEntity path =>
    rcases e.removeEntity_device path with hsame | ⟨device, removed, hremoved, heq⟩
    · rw [perform, hsame]
    · rw [perform, heq, removeEntity_address hremoved]
  | _ => rfl

theorem asks_request (hasks : e.AsksItself) {source destination : FeatureAddress}
    {classifier : CmdClassifier} {ackRequest : Bool} {cmd : Cmd S} {now : Nat}
    (hsource : source.device = some e.device.address)
    (hclassifier : classifier ≠ .reply ∧ classifier ≠ .notify) :
    (e.request source destination classifier ackRequest cmd now).1.AsksItself := by
  intro p hp
  cases List.mem_append.mp hp with
  | inl hmem => exact hasks p (List.mem_of_mem_drop hmem)
  | inr hmem =>
    rw [List.mem_singleton.mp hmem]
    exact ⟨source, destination, e.counters, classifier, ackRequest, cmd, hsource, hclassifier, rfl⟩

theorem AsksItself.of_subset (h : e.AsksItself) {e' : Engine S}
    (haddress : e'.device.address = e.device.address) (hpending : ∀ p ∈ e'.pending, p ∈ e.pending) :
    e'.AsksItself :=
  fun p hp => haddress.symm ▸ h p (hpending p hp)

theorem asks_perform (hasks : e.AsksItself) {op : EngineOp S} (hproper : Proper client feature e op) :
    (e.perform op).AsksItself := by
  have haddress : (e.perform op).device.address = e.device.address := perform_address fun g hg => by
    subst hg
    exact hproper
  cases op with
  | handleTimeout now =>
    obtain ⟨-, hasks⟩ : Speaks (Honest client feature e.device) _ _ ∧ _ := honest_handleTimeout hasks now
    exact hasks
  | readFiltered destination source function filters now =>
    exact asks_request hasks hproper ⟨by simp, by simp⟩
  | writeFiltered destination source data filters now =>
    exact asks_request hasks hproper ⟨by simp, by simp⟩
  | requestBinding c s now => exact asks_request hasks rfl ⟨by simp, by simp⟩
  | requestSubscription c s now => exact asks_request hasks rfl ⟨by simp, by simp⟩
  | pollTransmit => exact hproper.elim
  | _ => exact hasks.of_subset haddress fun p hp => List.Sublist.subset (e.perform_pending rfl) hp

end Engine

end Eebus.Spine
