import Eebus.Model.DurationText
import Eebus.Ohpcf.Flexibility

/-!
What the compressor publishes reads back as what it is, and a command that is written back does what its
sender asked for, whatever was stored when it arrived.
-/

namespace Eebus.Ohpcf

open Eebus.Library Eebus.Model Eebus.Spine

variable {S : Schema} (P : SmartEnergyManagementPs S)

@[simp] theorem parseDuration_format (span : Duration) :
    parseDuration (formatDuration span) = some span :=
  Option.pmap_eq_some_iff.mpr ⟨span, span.2, parse_format span.2, rfl⟩

theorem parseDuration_format_map (span : Option Duration) :
    (span.map formatDuration).bind parseDuration = span := by
  cases span with
  | none => rfl
  | some span => exact parseDuration_format span

namespace Flexibility

variable (f : Flexibility)

/-- What an energy manager makes of the document. -/
def announced : CompressorOffer :=
  { alternatives := f.alternatives
    sequence := f.sequence
    powerWatts := (ScaledNumber.fromF64 f.powerWatts 0).toF64
    kind := some f.kind
    state := f.state
    startTime := f.startTime
    isStoppable := f.interrupt.isStoppable
    isPausable := f.interrupt.isPausable
    activeDurationMin := f.durations.activeMin
    pauseDurationMin := f.durations.pauseMin
    remoteControllable := true }

theorem startTime_read :
    (f.powerSequence.schedule.bind (·.startTime)).bind parseDuration = f.startTime := by
  cases h : f.startTime with
  | none => simp [powerSequence, h]
  | some start => simp [powerSequence, h]

theorem durations_read :
    (f.powerSequence.operatingConstraintsDuration.bind (·.activeDurationMin)).bind parseDuration =
        f.durations.activeMin ∧
      (f.powerSequence.operatingConstraintsDuration.bind (·.pauseDurationMin)).bind parseDuration =
        f.durations.pauseMin := by
  by_cases hempty : f.durations.isEmpty = true
  · have hnone := hempty
    simp only [Durations.isEmpty, Bool.and_eq_true, Option.isNone_iff_eq_none] at hnone
    simp [powerSequence, hempty, hnone.1, hnone.2]
  · simp only [powerSequence, if_neg hempty, Option.bind_some]
    exact ⟨parseDuration_format_map _, parseDuration_format_map _⟩

theorem powerValue_read : CompressorOffer.powerValue f.powerSequence =
    some { valueType := some f.kind.valueType, value := some (ScaledNumber.fromF64 f.powerWatts 0) } := by
  simp [CompressorOffer.powerValue, powerSequence]

theorem readSequence_alternative :
    CompressorOffer.readSequence f.alternative f.powerSequence = some f.announced := by
  obtain ⟨hactive, hpause⟩ := f.durations_read
  simp only [CompressorOffer.readSequence, f.powerValue_read, f.startTime_read, hactive, hpause]
  simp [powerSequence, alternative, announced]

theorem read_data :
    CompressorOffer.read P (f.data P) = if f.offered then some f.announced else none := by
  by_cases hoffered : f.offered = true
  · simp [CompressorOffer.read, data, CompressorOffer.readDocument, document, hoffered, alternative,
      ← f.readSequence_alternative]
  · simp [CompressorOffer.read, data, CompressorOffer.readDocument, document, hoffered]

/-- The process has ended, and only a new offer follows it. -/
abbrev Ended : Prop := f.state = .completed ∨ f.state = .invalid

theorem schedule_format (start : Duration) : f.schedule (formatDuration start) =
    if f.state = .inactive ∨ f.state = .scheduled then
      ({ f with startTime := some start, state := .scheduled }, .ok (.schedule start))
    else if f.Ended then (f, .error .alreadyEnded)
    else (f, .error .alreadyStarted) := by
  simp only [schedule, parseDuration_format]
  split
  case h_1 h => rw [if_pos (.inl h)]
  case h_2 h => rw [if_pos (.inr h)]
  case h_3 h => rw [if_neg (by simp [h]), if_pos (.inl h)]
  case h_4 h => rw [if_neg (by simp [h]), if_pos (.inr h)]
  case h_5 hinactive hscheduled hcompleted hinvalid =>
    rw [if_neg (not_or.mpr ⟨hinactive, hscheduled⟩), if_neg (not_or.mpr ⟨hcompleted, hinvalid⟩)]

theorem changeState_invalid : f.changeState .invalid =
    if f.Ended then (f, .error .alreadyEnded)
    else if f.interrupt.isStoppable then ({ f with state := .invalid, startTime := none }, .ok .stop)
    else (f, .error .notStoppable) := by
  cases h : f.interrupt.isStoppable <;> simp [changeState, Ended, h]

theorem changeState_paused : f.changeState .paused =
    if f.Ended then (f, .error .alreadyEnded)
    else if f.interrupt.isPausable then
      if f.state = .running then ({ f with state := .paused }, .ok .pause) else (f, .error .notRunning)
    else (f, .error .notPausable) := by
  cases h : f.interrupt.isPausable <;> simp [changeState, Ended, h]

theorem changeState_running : f.changeState .running =
    if f.Ended then (f, .error .alreadyEnded)
    else if f.state = .paused then ({ f with state := .running }, .ok .resume)
    else (f, .error .notPaused) := by
  simp [changeState, Ended]

end Flexibility

/-- What an energy manager may ask of the compressor. -/
inductive Command
  | activate (startTime : Duration)
  | stop
  | pause
  | resume
deriving DecidableEq

namespace Command

def data (sequence : Nat) : Command → CmdData S
  | activate startTime => Ohpcf.activate P sequence startTime
  | stop => Ohpcf.stop P sequence
  | pause => Ohpcf.pause P sequence
  | resume => Ohpcf.resume P sequence

def written (sequence : Nat) : Command → SmartEnergyManagementPsPowerSequence
  | activate startTime =>
    { description := some { sequenceId := some sequence }
      schedule := some { startTime := some (formatDuration startTime) } }
  | stop =>
    { description := some { sequenceId := some sequence }, state := some { state := some .invalid } }
  | pause =>
    { description := some { sequenceId := some sequence }, state := some { state := some .paused } }
  | resume =>
    { description := some { sequenceId := some sequence }, state := some { state := some .running } }

def request : Command → Request
  | activate startTime => .schedule startTime
  | stop => .stop
  | pause => .pause
  | resume => .resume

def effect (f : Flexibility) : Command → Flexibility
  | activate startTime => { f with startTime := some startTime, state := .scheduled }
  | stop => { f with state := .invalid, startTime := none }
  | pause => { f with state := .paused }
  | resume => { f with state := .running }

/-- What the sender gets to see of a command that was taken. -/
def ShownIn (offer : CompressorOffer) : Command → Prop
  | activate startTime => offer.state = .scheduled ∧ offer.startTime = some startTime
  | stop => offer.state = .invalid ∧ offer.startTime = none
  | pause => offer.state = .paused
  | resume => offer.state = .running

/-- A process is scheduled before it starts, interrupted in the ways it was announced with and before it has
ended, and resumed from a pause. -/
def AllowedBy (f : Flexibility) : Command → Prop
  | activate _ => f.offered = true ∧ (f.state = .inactive ∨ f.state = .scheduled)
  | stop => f.offered = true ∧ ¬f.Ended ∧ f.interrupt.isStoppable = true
  | pause => f.offered = true ∧ f.state = .running ∧ f.interrupt.isPausable = true
  | resume => f.offered = true ∧ f.state = .paused

variable (command : Command) (f : Flexibility) (sequence : Nat)

theorem data_eq : command.data P sequence = writeSequence P (command.written sequence) := by
  cases command <;> rfl

theorem offered_of_allowed (h : command.AllowedBy f) : f.offered = true := by
  cases command <;> exact h.1

theorem follow_of_allowed (h : command.AllowedBy f) :
    f.follow (command.written sequence) = (command.effect f, .ok command.request) := by
  cases command with
  | activate startTime =>
    change f.schedule (formatDuration startTime) = _
    rw [f.schedule_format, if_pos h.2]
    rfl
  | stop =>
    change f.changeState .invalid = _
    rw [f.changeState_invalid, if_neg h.2.1, if_pos h.2.2]
    rfl
  | pause =>
    change f.changeState .paused = _
    rw [f.changeState_paused, if_neg (by simp [h.2.1]), if_pos h.2.2, if_pos h.2.1]
    rfl
  | resume =>
    change f.changeState .running = _
    rw [f.changeState_running, if_neg (by simp [h.2]), if_pos h.2]
    rfl

theorem follow_of_not_allowed (hoffered : f.offered = true) (h : ¬command.AllowedBy f) :
    ∃ refused, f.follow (command.written sequence) = (f, .error refused) := by
  cases command with
  | activate startTime =>
    change ∃ refused, f.schedule (formatDuration startTime) = _
    rw [f.schedule_format, if_neg fun hstate => h ⟨hoffered, hstate⟩]
    split <;> exact ⟨_, rfl⟩
  | stop =>
    change ∃ refused, f.changeState .invalid = _
    rw [f.changeState_invalid]
    split
    · exact ⟨_, rfl⟩
    case isFalse hended =>
      rw [if_neg fun hstoppable => h ⟨hoffered, hended, hstoppable⟩]
      exact ⟨_, rfl⟩
  | pause =>
    change ∃ refused, f.changeState .paused = _
    rw [f.changeState_paused]
    split
    · exact ⟨_, rfl⟩
    split
    case isTrue hpausable =>
      rw [if_neg fun hrunning => h ⟨hoffered, hrunning, hpausable⟩]
      exact ⟨_, rfl⟩
    · exact ⟨_, rfl⟩
  | resume =>
    change ∃ refused, f.changeState .running = _
    rw [f.changeState_running, if_neg (c := f.state = .paused) fun hpaused => h ⟨hoffered, hpaused⟩]
    split <;> exact ⟨_, rfl⟩

theorem sequenceId_written :
    ((command.written sequence).description.bind (·.sequenceId)) = some sequence := by
  cases command <;> rfl

/-- What the compressor is handed for a command that arrives as a partial write. -/
def resolved (stored : Option SmartEnergyManagementPsData) : CmdData S :=
  resolveWrite (stored.map P.cmdData) (command.data P sequence)
    (SmartEnergyManagementPs.partialOps (command.data P sequence))

theorem payload_resolved (stored : Option SmartEnergyManagementPsData) :
    P.payload (command.resolved P sequence stored) =
      some { nodeScheduleInformation := (stored.getD {}).nodeScheduleInformation
             alternatives := some [{ powerSequence := some [command.written sequence] }] } := by
  rw [resolved, data_eq, writeSequence, P.resolveWrite_partial, P.payload_cmdData,
    SmartEnergyManagementPsData.merge]
  cases (stored.getD {}).nodeScheduleInformation <;> cases (stored.getD {}).alternatives <;> rfl

theorem apply_resolved (stored : Option SmartEnergyManagementPsData) :
    f.apply P (command.resolved P sequence stored) = if f.offered = true then
        if sequence = f.sequence then f.follow (command.written sequence)
        else (f, .error .unknownSequence) else (f, .error .nothingOffered) := by
  rw [Flexibility.apply, payload_resolved]
  cases hoffered : f.offered
  · rfl
  by_cases hsequence : sequence = f.sequence
  · simp [Flexibility.addressed, sequenceId_written, hsequence]
  · simp [Flexibility.addressed, sequenceId_written, hsequence]

/-- A stored document that says the process is running does not mask the start time. -/
example : ((Flexibility.new F64.zero).apply heatPump ((Command.activate .zero).resolved heatPump 1
    (some (Flexibility.new F64.zero).start.document))).2 = .ok (.schedule .zero) := by decide +kernel

theorem taken (stored : Option SmartEnergyManagementPsData) (hsequence : sequence = f.sequence)
    (hallowed : command.AllowedBy f) :
    f.apply P (command.resolved P sequence stored) = (command.effect f, .ok command.request) := by
  rw [apply_resolved, if_pos (command.offered_of_allowed f hallowed), if_pos hsequence,
    command.follow_of_allowed f sequence hallowed]

theorem refused (stored : Option SmartEnergyManagementPsData)
    (h : ¬(sequence = f.sequence ∧ command.AllowedBy f)) :
    ∃ refused, f.apply P (command.resolved P sequence stored) = (f, .error refused) := by
  rw [apply_resolved]
  split
  case isTrue hoffered =>
    split
    case isTrue hsequence =>
      exact command.follow_of_not_allowed f sequence hoffered fun hallowed => h ⟨hsequence, hallowed⟩
    · exact ⟨_, rfl⟩
  · exact ⟨_, rfl⟩

theorem shown (hoffered : f.offered = true) :
    ∃ offer, CompressorOffer.read P ((command.effect f).data P) = some offer ∧ command.ShownIn offer := by
  have hstill : (command.effect f).offered = true := by cases command <;> exact hoffered
  have hshown : command.ShownIn (command.effect f).announced := by
    cases command <;> simp [ShownIn, effect, Flexibility.announced]
  exact ⟨_, by rw [Flexibility.read_data, if_pos hstill], hshown⟩

end Command

/-- An offer reads back as what the compressor published. A command takes effect exactly where it is
addressed to the compressor's sequence and allowed, whatever the stored document says, and shows in what is
published next; a refused one changes nothing. -/
theorem command_means_the_same (f : Flexibility) :
    (CompressorOffer.read P (f.data P) = none ↔ f.offered = false) ∧
    (∀ offer, CompressorOffer.read P (f.data P) = some offer →
      offer.sequence = f.sequence ∧ offer.state = f.state ∧ offer.startTime = f.startTime ∧
      offer.isStoppable = f.interrupt.isStoppable ∧ offer.isPausable = f.interrupt.isPausable ∧
      offer.activeDurationMin = f.durations.activeMin ∧
      offer.pauseDurationMin = f.durations.pauseMin) ∧
    ∀ (command : Command) (sequence : Nat) (stored : Option SmartEnergyManagementPsData),
      let outcome := f.apply P (command.resolved P sequence stored)
      ((∃ request, outcome.2 = .ok request) ↔ sequence = f.sequence ∧ command.AllowedBy f) ∧
      (∀ request, outcome.2 = .ok request →
        request = command.request ∧
        ∃ offer, CompressorOffer.read P (outcome.1.data P) = some offer ∧ command.ShownIn offer) ∧
      ∀ refused, outcome.2 = .error refused → outcome.1 = f := by
  refine ⟨?_, ?_, fun command sequence stored => ?_⟩
  · rw [f.read_data]
    cases f.offered <;> simp
  · intro offer hread
    rw [f.read_data] at hread
    split at hread
    · cases hread
      exact ⟨rfl, rfl, rfl, rfl, rfl, rfl, rfl⟩
    · cases hread
  by_cases h : sequence = f.sequence ∧ command.AllowedBy f
  · have hshown := command.shown P f (command.offered_of_allowed f h.2)
    dsimp only
    rw [command.taken P f sequence stored h.1 h.2]
    exact ⟨iff_of_true ⟨_, rfl⟩ h, fun request hrequest => ⟨(Except.ok.inj hrequest).symm, hshown⟩,
      fun _ hrefused => (by cases hrefused)⟩
  · obtain ⟨refused, hrefused⟩ := command.refused P f sequence stored h
    dsimp only
    rw [hrefused]
    exact ⟨iff_of_false (fun ⟨_, hok⟩ => (by cases hok)) h, fun _ hok => (by cases hok), fun _ _ => rfl⟩

namespace Flexibility

/-- The six states of a compressor, and those in which it holds a start time. -/
structure Sound (f : Flexibility) : Prop where
  state : f.state = .inactive ∨ f.state = .scheduled ∨ f.state = .running ∨ f.state = .paused ∨ f.Ended
  startTime : f.startTime.isSome = true →
    f.state = .scheduled ∨ f.state = .running ∨ f.state = .paused

namespace Sound

variable {f : Flexibility}

theorem new (powerWatts : F64) : (Flexibility.new powerWatts).Sound := ⟨.inl rfl, nofun⟩

theorem idle (hstate : f.state = .inactive ∨ f.Ended) (hstart : f.startTime = none) : f.Sound where
  state := hstate.elim .inl fun h => .inr (.inr (.inr (.inr h)))
  startTime h := by rw [hstart] at h; cases h

theorem busy (hstate : f.state = .scheduled ∨ f.state = .running ∨ f.state = .paused) : f.Sound where
  state := by
    obtain h | h | h := hstate
    · exact .inr (.inl h)
    · exact .inr (.inr (.inl h))
    · exact .inr (.inr (.inr (.inl h)))
  startTime _ := hstate

theorem schedule (h : f.Sound) (start : String) : (f.schedule start).1.Sound := by
  simp only [Flexibility.schedule]
  split
  · exact h
  split
  · exact busy (.inl rfl)
  · exact busy (.inl rfl)
  · exact h
  · exact h
  · exact h

theorem changeState (h : f.Sound) (wanted : PowerSequenceState) : (f.changeState wanted).1.Sound := by
  simp only [Flexibility.changeState]
  split
  · exact h
  split
  · split
    · exact h
    · exact idle (.inr (.inr rfl)) rfl
  · split
    · exact h
    split
    · exact h
    · exact busy (.inr (.inr rfl))
  · split
    · exact h
    · exact busy (.inr (.inl rfl))
  · exact h

theorem apply (h : f.Sound) (resolved : CmdData S) : (f.apply P resolved).1.Sound := by
  simp only [Flexibility.apply]
  split
  · exact h
  split
  · exact h
  split
  · exact h
  simp only [follow]
  split
  · exact h.changeState _
  split
  · exact h.schedule _
  · exact h

theorem step (h : f.Sound) (call : Call S) : ((machine P).next f call).Sound := by
  cases call with
  | asMaximum => exact ⟨h.state, h.startTime⟩
  | interruptible interrupt => exact ⟨h.state, h.startTime⟩
  | lasting durations => exact ⟨h.state, h.startTime⟩
  | numbered alternatives sequence => exact ⟨h.state, h.startTime⟩
  | withdraw => exact idle (.inl rfl) rfl
  | offerAgain => exact idle (.inl rfl) rfl
  | start => exact busy (.inr (.inl rfl))
  | complete => exact idle (.inr (.inl rfl)) rfl
  | abort => exact idle (.inr (.inr rfl)) rfl
  | apply resolved => exact h.apply P resolved

theorem run (powerWatts : F64) (calls : List (Call S)) :
    ((machine P).run (.new powerWatts) calls).Sound :=
  (machine P).run_invariant (fun _ _ => True) Sound (fun _ call h _ => h.step P call) calls _
    (new powerWatts) ((machine P).admits_of_forall (fun _ _ => trivial) calls _)

end Sound

theorem announced_phase {f : Flexibility} (h : f.Sound) :
    [f.announced.isAvailable, f.announced.isActive, f.announced.hasEnded].count true = 1 := by
  obtain hstate | hstate | hstate | hstate | hstate | hstate := h.state
  · have hstart : f.startTime = none := by
      cases hsome : f.startTime with
      | none => rfl
      | some start => simpa [hstate] using h.startTime (by rw [hsome]; rfl)
    simp [CompressorOffer.isAvailable, CompressorOffer.isActive, CompressorOffer.hasEnded, announced,
      hstate, hstart]
  all_goals
    simp [CompressorOffer.isAvailable, CompressorOffer.isActive, CompressorOffer.hasEnded, announced,
      hstate]

/-- Whatever happened to the compressor, what is read of it is in one phase. -/
theorem read_phase (powerWatts : F64) (calls : List (Call S)) (offer : CompressorOffer)
    (h : CompressorOffer.read P (((machine P).run (.new powerWatts) calls).data P) = some offer) :
    [offer.isAvailable, offer.isActive, offer.hasEnded].count true = 1 := by
  rw [read_data] at h
  split at h
  · cases h
    exact announced_phase (Sound.run P powerWatts calls)
  · cases h

/-- The energy manager has the process scheduled, and it starts and ends. -/
def course : List (Call heatPumpSchema) :=
  [.apply ((Command.activate .zero).resolved heatPump sequenceId none), .start, .complete]

theorem read_phase_course :
    let offer n := ((machine heatPump).run (.new F64.zero) (course.take n)).announced
    let phases n := [(offer n).isAvailable, (offer n).isActive, (offer n).hasEnded]
    (phases 0 = [true, false, false] ∧ (phases 0).count true = 1) ∧
      (phases 1 = [false, true, false] ∧ (phases 1).count true = 1) ∧
      (phases 2 = [false, true, false] ∧ (phases 2).count true = 1) ∧
      (phases 3 = [false, false, true] ∧ (phases 3).count true = 1) := by
  refine ⟨⟨by decide +kernel, ?_⟩, ⟨by decide +kernel, ?_⟩, ⟨by decide +kernel, ?_⟩, by decide +kernel, ?_⟩
  · exact read_phase heatPump F64.zero (course.take 0) _ ((read_data heatPump _).trans (if_pos rfl))
  · exact read_phase heatPump F64.zero (course.take 1) _
      ((read_data heatPump _).trans (if_pos (by decide +kernel)))
  · exact read_phase heatPump F64.zero (course.take 2) _
      ((read_data heatPump _).trans (if_pos (by decide +kernel)))
  · exact read_phase heatPump F64.zero (course.take 3) _
      ((read_data heatPump _).trans (if_pos (by decide +kernel)))

end Flexibility

end Eebus.Ohpcf
