import Eebus.Spine.Frames
import Eebus.Spine.WriteSteps

/-! The way of a datagram through the engine, case by case: what it takes to be served, and, for a
write, what it takes to reach the feature. -/

namespace Eebus.Spine

open Eebus.Library Eebus.Model

variable {S : Schema}

/-- What a header says about the datagram it heads. -/
structure Envelope where
  source : FeatureAddress
  destination : FeatureAddress
  classifier : CmdClassifier
  counter : MsgCounter
  reference : Option MsgCounter
  ackRequest : Bool

/-- The engine once it has filed the datagram's counter, and whether the counter was fresh. -/
def Envelope.filed (v : Envelope) (e : Engine S) : Engine S × Bool :=
  e.observeSource v.source v.counter

/-- The engine serves the datagram: its header is complete, its source can be trusted, it is meant
for this device, and it has not been seen before. -/
structure TakenUp (e : Engine S) (datagram : Datagram S) (v : Envelope) : Prop where
  header : ∃ h, datagram.header = some h ∧ h.msgCounter = some v.counter ∧
    h.cmdClassifier = some v.classifier ∧ h.addressSource = some v.source ∧
    h.addressDestination = some v.destination ∧ h.msgCounterReference = v.reference ∧
    h.ackRequest.getD false = v.ackRequest ∧ versionAcceptable h.specificationVersion = true
  trusted : e.sourceTrusted v.source = true
  addressed : v.destination.device.any (· != e.device.address) = false
  fresh : (v.filed e).2 = true

namespace TakenUp

variable {e : Engine S} {datagram : Datagram S} {v : Envelope}

theorem origin (h : TakenUp e datagram v) : datagram.header.bind Header.addressSource = some v.source := by
  obtain ⟨header, hheader, -, -, hsource, -⟩ := h.header
  rw [hheader, Option.bind_some, hsource]

theorem target (h : TakenUp e datagram v) :
    datagram.header.bind Header.addressDestination = some v.destination := by
  obtain ⟨header, hheader, -, -, -, hdestination, -⟩ := h.header
  rw [hheader, Option.bind_some, hdestination]

end TakenUp

/-- A datagram that is not served is at most filed under its source, and answered. -/
inductive Discarded (e : Engine S) (datagram : Datagram S) (e' : Engine S) : Prop
  | unread (h : Sends (fun _ => True) e e')
  | filed (source : FeatureAddress) (counter : MsgCounter)
      (origin : datagram.header.bind Header.addressSource = some source)
      (trusted : e.sourceTrusted source = true)
      (h : Sends (fun _ => True) (e.observeSource source counter).1 e')

variable {datagram : Datagram S} {e : Engine S}

namespace Engine

theorem handleDatagram_of_takenUp {v : Envelope} (h : TakenUp e datagram v) (now : Nat) :
    (e.handleDatagram datagram now).1 = (v.filed e).1.serve datagram v.source v.destination
      v.classifier v.counter v.reference v.ackRequest now := by
  obtain ⟨header, hheader, hcounter, hclassifier, hsource, hdestination, hreference, hack,
    hversion⟩ := h.header
  have hfresh : (e.observeSource v.source v.counter).2 = true := h.fresh
  simp only [handleDatagram, hheader, hcounter, hclassifier, hsource, hdestination, h.trusted,
    hversion, h.addressed, hfresh, hreference, hack, Envelope.filed]
  rfl

theorem handleDatagram_isServed {v : Envelope}
    (h : TakenUp e datagram v) (now : Nat) : (e.handleDatagram datagram now).2 = true := by
  obtain ⟨header, hheader, hcounter, hclassifier, hsource, hdestination, -, -, hversion⟩ := h.header
  have hfresh : (e.observeSource v.source v.counter).2 = true := h.fresh
  simp [handleDatagram, hheader, hcounter, hclassifier, hsource, hdestination, h.trusted, hversion,
    h.addressed, hfresh]

theorem handleDatagram_cases (e : Engine S) (datagram : Datagram S) (now : Nat) :
    (∃ v, TakenUp e datagram v) ∨
      Discarded e datagram (e.handleDatagram datagram now).1 ∧
        (e.handleDatagram datagram now).2 = false := by
  have hunread : Discarded e datagram e := .unread (Sends.refl _ e)
  simp only [handleDatagram]
  split
  case h_1 => exact .inr ⟨hunread, rfl⟩
  case h_2 header hheader =>
    split
    case h_2 => exact .inr ⟨hunread, rfl⟩
    case h_1 counter classifier source destination hcounter hclassifier hsource hdestination =>
      have horigin : datagram.header.bind Header.addressSource = some source := by
        simp [hheader, hsource]
      split
      case isTrue => exact .inr ⟨hunread, rfl⟩
      case isFalse htrusted =>
        have htrusted : e.sourceTrusted source = true := by simpa using htrusted
        split
        case isTrue =>
          refine .inr ⟨.unread ?_, rfl⟩
          dsimp only
          split
          · exact (e.sends_sendResult _ _ _ _).mono fun _ _ => trivial
          · exact Sends.refl _ e
        case isFalse hversion =>
          split
          case isTrue =>
            refine .inr ⟨.filed source counter horigin htrusted ?_, rfl⟩
            dsimp only
            split
            · exact (sends_sendResult _ _ _ _ _).mono fun _ _ => trivial
            · exact Sends.refl _ _
          case isFalse haddressed =>
            split
            case isTrue =>
              exact .inr ⟨.filed source counter horigin htrusted (Sends.refl _ _), rfl⟩
            case isFalse hfresh =>
              refine .inl ⟨⟨source, destination, classifier, counter, header.msgCounterReference,
                header.ackRequest.getD false⟩, ?_, htrusted, ?_, ?_⟩
              · exact ⟨header, hheader, hcounter, hclassifier, hsource, hdestination, rfl, rfl,
                  by simpa using hversion⟩
              · simpa using haddressed
              · simpa [Envelope.filed] using hfresh

end Engine

/-- A write, once its payload and its target have been looked up. -/
structure DatagramWrite (S : Schema) extends Envelope where
  feature : LocalFeature S
  cmd : Cmd S
  data : CmdData S

namespace DatagramWrite

def ops (w : DatagramWrite S) : WriteOps S := WriteOps.of w.cmd

def isRestricted (w : DatagramWrite S) : Bool := w.ops.isPartial || !w.ops.deletes.isEmpty

end DatagramWrite

/-- The datagram is a write that passes every check before its feature decides on it. -/
structure Admitted (e : Engine S) (datagram : Datagram S) (w : DatagramWrite S) : Prop where
  takenUp : TakenUp e datagram w.toEnvelope
  isWrite : w.classifier = .write
  command : datagram.commands = [w.cmd]
  payload : w.cmd.data = some w.data
  resolved : e.device.resolve w.destination = some w.feature
  permitted : (w.filed e).1.writePermitted w.feature w.source w.destination = true
  checked : w.feature.checkWrite w.data w.isRestricted = .ok ()

theorem SameShape.commit (write : DeferredWrite S) (replacement : Option (CmdData S))
    (f : LocalFeature S) : SameShape f (Engine.commit write replacement f).1 := by
  unfold Engine.commit
  split
  · split
    · split
      case h_1 f' changed heq => exact SameShape.setData heq
      case h_2 => exact SameShape.refl f
    · exact SameShape.refl f
  · exact SameShape.applyTo write.ops f write.data

namespace Engine

theorem storeFeature_data {address : FeatureAddress} {f f' : LocalFeature S}
    (h : e.device.resolve address = some f) (haddress : f'.address = f.address)
    (function : Function S.Other) :
    (e.storeFeature address f').device.data address function = f'.data function := by
  simp [storeFeature, LocalDevice.data, LocalDevice.resolve_update h (fun _ => f') haddress]

theorem storeFeature_self {address : FeatureAddress} {f : LocalFeature S}
    (h : e.device.resolve address = some f) : (e.storeFeature address f).device = e.device :=
  LocalDevice.update_eq_self h rfl

def decideWrite (e : Engine S) (w : DatagramWrite S) (now : Nat) : Engine S × CmdOutcome :=
  if w.feature.approval = .deferred then
    if maxDeferredWrites ≤ e.deferred.length then (e, .answer .overload)
    else
      (e.deferWrite w.feature w.data w.ops w.source w.destination w.counter w.ackRequest now,
        .deferred)
  else e.applyWrite w.feature w.data w.ops w.source w.destination

end Engine

namespace Admitted

variable {e : Engine S} {datagram : Datagram S} {w : DatagramWrite S}

theorem resolved_filed (h : Admitted e datagram w) :
    (w.filed e).1.device.resolve w.destination = some w.feature := by
  rw [Envelope.filed, Engine.observeSource_device]
  exact h.resolved

theorem handleWrite_eq (h : Admitted e datagram w) (now : Nat) :
    (w.filed e).1.handleWrite w.cmd w.source w.destination w.counter w.ackRequest now =
      (w.filed e).1.decideWrite w now := by
  have hchecked : w.feature.checkWrite w.data
      ((WriteOps.of w.cmd).isPartial || !(WriteOps.of w.cmd).deletes.isEmpty) = .ok () := h.checked
  simp only [Engine.handleWrite, h.payload, h.resolved_filed, h.permitted, hchecked]
  rfl

theorem handleDatagram_eq (h : Admitted e datagram w) (now : Nat) :
    (e.handleDatagram datagram now).1 =
      ((w.filed e).1.decideWrite w now).1.acknowledge w.source w.destination w.counter .write
        w.ackRequest ((w.filed e).1.decideWrite w now).2 := by
  rw [Engine.handleDatagram_of_takenUp h.takenUp now]
  simp only [Engine.serve, h.command, h.isWrite, Engine.handleCommands, Engine.handleCmd,
    h.handleWrite_eq now]

end Admitted

/-- What serving a datagram makes of the engine, but for what is sent. -/
inductive Served (e : Engine S) (datagram : Datagram S) (now : Nat) : Envelope → Engine S → Prop
  | answered (v : Envelope) (e' : Engine S) (h : Sends (fun _ => True) (v.filed e).1 e') :
      Served e datagram now v e'
  | written (w : DatagramWrite S) (h : Admitted e datagram w) :
      Served e datagram now w.toEnvelope ((w.filed e).1.decideWrite w now).1
  | called (v : Envelope) (cmd : Cmd S) (hclassifier : v.classifier = .call)
      (hcommand : datagram.commands = [cmd]) :
      Served e datagram now v ((v.filed e).1.handleCall cmd v.source).1
  | informed (v : Envelope) (cmd : Cmd S)
      (hclassifier : v.classifier = .reply ∨ v.classifier = .notify)
      (hcommand : datagram.commands = [cmd]) :
      Served e datagram now v (((v.filed e).1.resolvePending v.reference v.source).1.handleIncomingData
        cmd v.source v.classifier).1
  | settled (v : Envelope) (cmd : Cmd S) (hclassifier : v.classifier = .result)
      (hcommand : datagram.commands = [cmd]) :
      Served e datagram now v ((v.filed e).1.handleResult cmd v.reference v.source)

namespace Engine

theorem sends_handleRead (e : Engine S) (cmd : Cmd S) (source destination : FeatureAddress)
    (counter : MsgCounter) :
    Sends (fun _ => True) e (e.handleRead cmd source destination counter).1 := by
  simp only [handleRead]
  split
  · exact Sends.refl _ e
  · exact e.sends_sendCmd _ _ _ _ _ trivial

theorem handleWrite_cases {v : Envelope} {cmd : Cmd S}
    (h : TakenUp e datagram v) (hwrite : v.classifier = .write) (hcommand : datagram.commands = [cmd])
    (now : Nat) :
    (∃ w : DatagramWrite S, w.toEnvelope = v ∧ w.cmd = cmd ∧ Admitted e datagram w) ∨
      ((v.filed e).1.handleWrite cmd v.source v.destination v.counter v.ackRequest now).1 =
        (v.filed e).1 := by
  simp only [handleWrite]
  split
  case h_1 => exact .inr rfl
  case h_2 data hdata =>
    split
    case h_1 => exact .inr rfl
    case h_2 feature hfeature =>
      split
      case isTrue => exact .inr rfl
      case isFalse hpermitted =>
        split
        case h_1 => exact .inr rfl
        case h_2 hchecked =>
          rw [Envelope.filed, observeSource_device] at hfeature
          exact .inl ⟨⟨v, feature, cmd, data⟩, rfl, rfl, h, hwrite, hcommand, hdata, hfeature,
            by simpa using hpermitted, hchecked⟩

theorem handleCommands_served {v : Envelope} (h : TakenUp e datagram v) (now : Nat) :
    Served e datagram now v ((v.filed e).1.handleCommands datagram.commands v.source v.destination
      v.classifier v.counter v.reference v.ackRequest now).1 := by
  match hcommands : datagram.commands with
  | [] =>
    refine .answered v _ ?_
    simp only [handleCommands]
    split <;> exact Sends.refl _ _
  | _ :: _ :: _ => exact .answered v _ (Sends.refl _ _)
  | [cmd] =>
    simp only [handleCommands]
    cases hclassifier : v.classifier with
    | read => exact .answered v _ (sends_handleRead _ _ _ _ _)
    | write =>
      rcases handleWrite_cases h hclassifier hcommands now with ⟨w, rfl, rfl, hw⟩ | hsame
      · rw [handleCmd, hw.handleWrite_eq now]
        exact .written w hw
      · refine .answered v _ ?_
        rw [handleCmd, hsame]
        exact Sends.refl _ _
    | call => exact .called v cmd hclassifier hcommands
    | reply =>
      rw [← hclassifier]
      have hserved : Served e datagram now v _ := .informed v cmd (.inl hclassifier) hcommands
      simpa only [handleCmd, hclassifier] using hserved
    | notify =>
      rw [← hclassifier]
      have hserved : Served e datagram now v _ := .informed v cmd (.inr hclassifier) hcommands
      simpa only [handleCmd, hclassifier] using hserved
    | result => exact .settled v cmd hclassifier hcommands

theorem handleDatagram_served (e : Engine S) (datagram : Datagram S) (now : Nat) :
    Discarded e datagram (e.handleDatagram datagram now).1 ∨
      ∃ v e', TakenUp e datagram v ∧ Served e datagram now v e' ∧
        Sends (fun _ => True) e' (e.handleDatagram datagram now).1 := by
  rcases e.handleDatagram_cases datagram now with ⟨v, hv⟩ | ⟨hdiscarded, -⟩
  · refine .inr ⟨v, _, hv, handleCommands_served hv now, ?_⟩
    rw [handleDatagram_of_takenUp hv, serve]
    exact (sends_acknowledge _ _ _ _ _ _ _).mono fun _ _ => trivial
  · exact .inl hdiscarded

theorem handleDatagram_device {now : Nat} (h : ¬∃ w, Admitted e datagram w) :
    (e.handleDatagram datagram now).1.device = e.device := by
  have hfiled : ∀ v : Envelope, (v.filed e).1.device = e.device :=
    fun v => observeSource_device e _ _
  rcases e.handleDatagram_served datagram now with hdiscarded | ⟨v, e', -, hserved, hsends⟩
  · cases hdiscarded with
    | unread hsends => exact hsends.device
    | filed source counter _ _ hsends => exact hsends.device.trans (observeSource_device e _ _)
  · rw [hsends.device]
    cases hserved with
    | answered _ _ hanswered => exact hanswered.device.trans (hfiled _)
    | written w hw => exact absurd ⟨w, hw⟩ h
    | called _ cmd _ _ => exact (handleCall_device _ _ _).trans (hfiled _)
    | informed _ cmd _ _ => simpa using hfiled v
    | settled _ cmd _ _ => exact (handleResult_device _ _ _ _).trans (hfiled _)

theorem decideWrite_device_of_deferred (e : Engine S) (w : DatagramWrite S) (now : Nat)
    (h : w.feature.approval = .deferred) : (e.decideWrite w now).1.device = e.device := by
  simp only [Engine.decideWrite, h, if_true]
  split <;> rfl

theorem hearing_outbox : Hearing fun e e' : Engine S => e'.outbox = e.outbox where
  refl _ := rfl
  trans h h' := h'.trans h
  peers _ _ := rfl
  removePeer _ _ := rfl
  news _ _ _ := rfl
  resolvePending _ reference _ := by cases reference <;> rfl
  recordRelation _ _ := rfl

theorem observeSource_outbox (e : Engine S) (source : FeatureAddress) (counter : MsgCounter) :
    (e.observeSource source counter).1.outbox = e.outbox := hearing_outbox.observeSource e source counter

end Engine

end Eebus.Spine
