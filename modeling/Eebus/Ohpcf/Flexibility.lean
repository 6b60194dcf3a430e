import Eebus.Ohpcf.Document

/-!
The compressor's optional power consumption process, the document it publishes, what an energy manager
reads in that document, and the commands the energy manager writes back.
-/

namespace Eebus.Ohpcf

open Eebus.Library Eebus.Model Eebus.Spine

def alternativesId : Nat := 1
def sequenceId : Nat := 1
def slotNumber : Nat := 1

inductive PowerKind
  | approximate
  | maximum
deriving DecidableEq

namespace PowerKind

def valueType : PowerKind → PowerTimeSlotValueType
  | approximate => .power
  | maximum => .powerMax

def of : PowerTimeSlotValueType → Option PowerKind
  | .power => some approximate
  | .powerMax => some maximum
  | _ => none

@[simp] theorem of_valueType (kind : PowerKind) : of kind.valueType = some kind := by
  cases kind <;> rfl

end PowerKind

inductive Interrupt
  | stoppable
  | pausable
  | either
deriving DecidableEq

namespace Interrupt

def isStoppable (interrupt : Interrupt) : Bool := interrupt = stoppable ∨ interrupt = either

def isPausable (interrupt : Interrupt) : Bool := interrupt = pausable ∨ interrupt = either

end Interrupt

structure Durations where
  activeMin : Option Duration := none
  pauseMin : Option Duration := none
deriving DecidableEq

def Durations.isEmpty (durations : Durations) : Bool :=
  durations.activeMin.isNone && durations.pauseMin.isNone

inductive Request
  | schedule (startTime : Duration)
  | stop
  | pause
  | resume
deriving DecidableEq

inductive Refused
  | notThisFunction
  | nothingOffered
  | unknownSequence
  | nothingAsked
  | unreadableStartTime
  | alreadyStarted
  | alreadyEnded
  | notStoppable
  | notPausable
  | notRunning
  | notPaused
  | notACommand
deriving DecidableEq

structure Flexibility where
  sequence : Nat
  alternatives : Nat
  powerWatts : F64
  kind : PowerKind
  interrupt : Interrupt
  durations : Durations
  state : PowerSequenceState
  startTime : Option Duration
  offered : Bool
deriving DecidableEq

variable {S : Schema} (P : SmartEnergyManagementPs S)

namespace Flexibility

def new (powerWatts : F64) : Flexibility :=
  { sequence := sequenceId
    alternatives := alternativesId
    powerWatts := powerWatts
    kind := .approximate
    interrupt := .stoppable
    durations := {}
    state := .inactive
    startTime := none
    offered := true }

variable (f : Flexibility)

def asMaximum : Flexibility := { f with kind := .maximum }

def interruptible (interrupt : Interrupt) : Flexibility := { f with interrupt := interrupt }

def lasting (durations : Durations) : Flexibility := { f with durations := durations }

def numbered (alternatives sequence : Nat) : Flexibility :=
  { f with alternatives := alternatives, sequence := sequence }

def withdraw : Flexibility := { f with offered := false, state := .inactive, startTime := none }

def offerAgain : Flexibility := { f with offered := true, state := .inactive, startTime := none }

def start : Flexibility := { f with state := .running }

def complete : Flexibility := { f with state := .completed, startTime := none }

def abort : Flexibility := { f with state := .invalid, startTime := none }

def powerSequence : SmartEnergyManagementPsPowerSequence :=
  { description := some { sequenceId := some f.sequence, powerUnit := some .w }
    state := some
      { state := some f.state
        activeSlotNumber :=
          if f.state = .running ∨ f.state = .paused then some slotNumber else none
        sequenceRemoteControllable := some true }
    schedule := f.startTime.map fun start => { startTime := some (formatDuration start) }
    operatingConstraintsInterrupt := some
      { isPausable := if f.interrupt.isPausable then some true else none
        isStoppable := if f.interrupt.isStoppable then some true else none }
    operatingConstraintsDuration :=
      if f.durations.isEmpty then none
      else some
        { activeDurationMin := f.durations.activeMin.map formatDuration
          pauseDurationMin := f.durations.pauseMin.map formatDuration }
    powerTimeSlot := some
      [{ schedule := some { slotNumber := some slotNumber }
         valueList := some
          { value := some
              [{ valueType := some f.kind.valueType
                 value := some (ScaledNumber.fromF64 f.powerWatts 0) }] } }] }

def alternative : SmartEnergyManagementPsAlternatives :=
  { relation := some { alternativesId := some f.alternatives }
    powerSequence := some [f.powerSequence] }

def document : SmartEnergyManagementPsData :=
  { nodeScheduleInformation := some
      { nodeRemoteControllable := some true
        supportsSingleSlotSchedulingOnly := some true
        alternativesCount := some (if f.offered then 1 else 0)
        totalSequencesCountMax := some 1
        supportsReselection := some false }
    alternatives := some (if f.offered then [f.alternative] else []) }

def data : CmdData S := P.cmdData f.document

def schedule (start : String) : Flexibility × Except Refused Request :=
  match parseDuration start with
  | none => (f, .error .unreadableStartTime)
  | some start =>
    match f.state with
    | .inactive | .scheduled =>
      ({ f with startTime := some start, state := .scheduled }, .ok (.schedule start))
    | .completed | .invalid => (f, .error .alreadyEnded)
    | _ => (f, .error .alreadyStarted)

def changeState (wanted : PowerSequenceState) : Flexibility × Except Refused Request :=
  if f.state = .completed ∨ f.state = .invalid then (f, .error .alreadyEnded)
  else
    match wanted with
    | .invalid =>
      if !f.interrupt.isStoppable then (f, .error .notStoppable)
      else ({ f with state := .invalid, startTime := none }, .ok .stop)
    | .paused =>
      if !f.interrupt.isPausable then (f, .error .notPausable)
      else if f.state ≠ .running then (f, .error .notRunning)
      else ({ f with state := .paused }, .ok .pause)
    | .running =>
      if f.state ≠ .paused then (f, .error .notPaused)
      else ({ f with state := .running }, .ok .resume)
    | _ => (f, .error .notACommand)

def addressed (data : SmartEnergyManagementPsData) : Option SmartEnergyManagementPsPowerSequence :=
  ((data.alternatives.getD []).flatMap fun alternative => alternative.powerSequence.getD []).find?
    fun sequence => (sequence.description.bind (·.sequenceId)).all (· = f.sequence)

def follow (sequence : SmartEnergyManagementPsPowerSequence) : Flexibility × Except Refused Request :=
  match sequence.state.bind (·.state) with
  | some wanted => f.changeState wanted
  | none =>
    match sequence.schedule.bind (·.startTime) with
    | some start => f.schedule start
    | none => (f, .error .nothingAsked)

def apply (resolved : CmdData S) : Flexibility × Except Refused Request :=
  match P.payload resolved with
  | none => (f, .error .notThisFunction)
  | some data =>
    if !f.offered then (f, .error .nothingOffered)
    else
      match f.addressed data with
      | none => (f, .error .unknownSequence)
      | some sequence => f.follow sequence

/-- What the compressor's owner does with it, and the writes it is handed. -/
inductive Call (S : Schema)
  | asMaximum
  | interruptible (interrupt : Interrupt)
  | lasting (durations : Durations)
  | numbered (alternatives sequence : Nat)
  | withdraw
  | offerAgain
  | start
  | complete
  | abort
  | apply (resolved : CmdData S)

/-- A compressor moves by its owner's calls and by the writes it is handed, in any order. -/
def machine : Machine Flexibility (Call S) Unit where
  step f
    | .asMaximum => (f.asMaximum, ())
    | .interruptible interrupt => (f.interruptible interrupt, ())
    | .lasting durations => (f.lasting durations, ())
    | .numbered alternatives sequence => (f.numbered alternatives sequence, ())
    | .withdraw => (f.withdraw, ())
    | .offerAgain => (f.offerAgain, ())
    | .start => (f.start, ())
    | .complete => (f.complete, ())
    | .abort => (f.abort, ())
    | .apply resolved => ((f.apply P resolved).1, ())

end Flexibility

structure CompressorOffer where
  alternatives : Nat
  sequence : Nat
  powerWatts : Option F64
  kind : Option PowerKind
  state : PowerSequenceState
  startTime : Option Duration
  isStoppable : Bool
  isPausable : Bool
  activeDurationMin : Option Duration
  pauseDurationMin : Option Duration
  remoteControllable : Bool
deriving DecidableEq

namespace CompressorOffer

def powerValue (sequence : SmartEnergyManagementPsPowerSequence) :
    Option SmartEnergyManagementPsPowerTimeSlotValueListValue :=
  ((sequence.powerTimeSlot.getD []).flatMap fun slot => ((slot.valueList.bind (·.value)).getD [])).find?
    fun value => (value.valueType.bind PowerKind.of).isSome

def readSequence (alternative : SmartEnergyManagementPsAlternatives)
    (sequence : SmartEnergyManagementPsPowerSequence) : Option CompressorOffer := do
  let interrupt := sequence.operatingConstraintsInterrupt
  let durations := sequence.operatingConstraintsDuration
  let value := powerValue sequence
  let sequenceId ← sequence.description.bind (·.sequenceId)
  some
    { alternatives := (alternative.relation.bind (·.alternativesId)).getD alternativesId
      sequence := sequenceId
      powerWatts := (value.bind (·.value)).bind ScaledNumber.toF64
      kind := (value.bind (·.valueType)).bind PowerKind.of
      state := (sequence.state.bind (·.state)).getD .inactive
      startTime := (sequence.schedule.bind (·.startTime)).bind parseDuration
      isStoppable := interrupt.bind (·.isStoppable) = some true
      isPausable := interrupt.bind (·.isPausable) = some true
      activeDurationMin := (durations.bind (·.activeDurationMin)).bind parseDuration
      pauseDurationMin := (durations.bind (·.pauseDurationMin)).bind parseDuration
      remoteControllable := sequence.state.bind (·.sequenceRemoteControllable) ≠ some false }

def readDocument (data : SmartEnergyManagementPsData) : Option CompressorOffer := do
  let alternative ← (data.alternatives.getD []).head?
  let sequence ← (alternative.powerSequence.getD []).head?
  readSequence alternative sequence

def read (data : CmdData S) : Option CompressorOffer := do
  readDocument (← P.payload data)

def isAvailable (offer : CompressorOffer) : Bool :=
  offer.remoteControllable && decide (offer.state = .inactive) && offer.startTime.isNone

def isActive (offer : CompressorOffer) : Bool :=
  offer.state = .scheduled ∨ offer.state = .running ∨ offer.state = .paused

def hasEnded (offer : CompressorOffer) : Bool :=
  offer.state = .completed ∨ offer.state = .invalid

end CompressorOffer

def writeSequence (sequence : SmartEnergyManagementPsPowerSequence) : CmdData S :=
  P.cmdData { alternatives := some [{ powerSequence := some [sequence] }] }

def activate (sequence : Nat) (startTime : Duration) : CmdData S :=
  writeSequence P
    { description := some { sequenceId := some sequence }
      schedule := some { startTime := some (formatDuration startTime) } }

def stateWrite (sequence : Nat) (state : PowerSequenceState) : CmdData S :=
  writeSequence P
    { description := some { sequenceId := some sequence }
      state := some { state := some state } }

def stop (sequence : Nat) : CmdData S := stateWrite P sequence .invalid

def pause (sequence : Nat) : CmdData S := stateWrite P sequence .paused

def resume (sequence : Nat) : CmdData S := stateWrite P sequence .running

end Eebus.Ohpcf
