import Eebus.Spine.Filing
import Eebus.Spine.Stored

/-! A feature that requires a binding takes writes from the peers bound to it. A peer is told by
the device part of its address; where that part is missing, an address matches every device, so
the guarantee rests on writers and binding clients naming their device. -/

namespace Eebus.Spine

open Eebus.Library Eebus.Model

variable {S : Schema}

def SpineEvent.written : SpineEvent S → Option (FeatureAddress × FeatureAddress)
  | .dataWritten feature origin _ => some (feature, origin)
  | .writeRequested request => some (request.feature, request.origin)
  | _ => none

/-- The events added on the way from `e` to `e'` all satisfy `P`. -/
def Reports (P : SpineEvent S → Prop) (e e' : Engine S) : Prop :=
  ∃ new, e'.events = e.events ++ new ∧ ∀ event ∈ new, P event

namespace Reports

variable {P Q : SpineEvent S → Prop} {e e' e'' : Engine S}

theorem of_eq (h : e'.events = e.events) : Reports P e e' := ⟨[], by simp [h], by simp⟩

theorem trans (h : Reports P e e') (h' : Reports P e' e'') : Reports P e e'' := by
  obtain ⟨new, hnew, hP⟩ := h
  obtain ⟨new', hnew', hP'⟩ := h'
  refine ⟨new ++ new', by rw [hnew', hnew, List.append_assoc], fun event hevent => ?_⟩
  cases List.mem_append.mp hevent with
  | inl hevent => exact hP event hevent
  | inr hevent => exact hP' event hevent

theorem mono (h : Reports P e e') (hPQ : ∀ event, P event → Q event) : Reports Q e e' := by
  obtain ⟨new, hnew, hP⟩ := h
  exact ⟨new, hnew, fun event hevent => hPQ event (hP event hevent)⟩

theorem emit (e : Engine S) {event : SpineEvent S} (h : P event) : Reports P e (e.emit event) :=
  ⟨[event], rfl, by simpa using h⟩

theorem drop (h : Reports P e e') : ∀ event ∈ e'.events.drop e.events.length, P event := by
  obtain ⟨new, hnew, hP⟩ := h
  simpa [hnew] using hP

end Reports

def Quiet : Engine S → Engine S → Prop := Reports fun event => event.written = none

def SpineEvent.isBinding : SpineEvent S → Bool
  | .bindingGranted .. | .bindingReleased .. => true
  | _ => false

def Routine : Engine S → Engine S → Prop :=
  Reports fun event => event.written = none ∧ event.isBinding = false

variable {datagram : Datagram S} {e : Engine S}

theorem Routine.quiet {e' : Engine S} (h : Routine e e') : Quiet e e' := h.mono fun _ => And.left

namespace Engine

theorem routine_removePeer (e : Engine S) (device : AddressDevice) : Routine e (e.removePeer device) := by
  refine ⟨_, rfl, ?_⟩
  intro event hevent
  obtain ⟨write, -, rfl⟩ := List.mem_map.mp hevent
  exact ⟨rfl, rfl⟩

theorem hearing_routine : Hearing (Routine : Engine S → Engine S → Prop) where
  refl _ := Reports.of_eq rfl
  trans := Reports.trans
  peers _ _ := Reports.of_eq rfl
  removePeer := routine_removePeer
  news e event h := Reports.emit e (by cases event <;> first | exact ⟨rfl, rfl⟩ | cases h)
  resolvePending _ reference _ := by cases reference <;> exact Reports.of_eq rfl
  recordRelation _ _ := Reports.of_eq rfl

theorem quiet_handleCall (e : Engine S) (cmd : Cmd S) (source : FeatureAddress) :
    Quiet e (e.handleCall cmd source).1 := by
  simp only [handleCall]
  split
  · simp only [handleBindingRequest]
    repeat' split
    all_goals first | exact Reports.of_eq rfl | exact ⟨_, rfl, by simp [SpineEvent.written]⟩
  · simp only [handleSubscriptionRequest]
    repeat' split
    all_goals first | exact Reports.of_eq rfl | exact ⟨_, rfl, by simp [SpineEvent.written]⟩
  · simp only [handleBindingDelete]
    repeat' split
    all_goals first | exact Reports.of_eq rfl | exact ⟨_, rfl, by simp [SpineEvent.written]⟩
  · simp only [handleSubscriptionDelete]
    repeat' split
    all_goals first | exact Reports.of_eq rfl | exact ⟨_, rfl, by simp [SpineEvent.written]⟩
  · exact Reports.of_eq rfl

theorem reports_decideWrite (e : Engine S) (w : DatagramWrite S) (now : Nat) :
    Reports (fun event => event.written = some (w.destination, w.source)) e
      (e.decideWrite w now).1 := by
  simp only [decideWrite]
  split
  · split
    · exact Reports.of_eq rfl
    · exact ⟨_, rfl, by simp [SpineEvent.written]⟩
  · obtain ⟨said, hsaid, hsends⟩ := e.applyWrite_sends w.feature w.data w.ops w.source w.destination
    exact ⟨said, hsends.events, fun event hevent => hsaid event hevent ▸ rfl⟩

theorem decideWrite_relations (e : Engine S) (w : DatagramWrite S) (now : Nat) :
    (e.decideWrite w now).1.relations = e.relations := by
  simp only [decideWrite]
  split
  · split <;> rfl
  · obtain ⟨said, -, hsends⟩ := e.applyWrite_sends w.feature w.data w.ops w.source w.destination
    exact hsends.relations

end Engine

theorem Admitted.handleDatagram_relations {w : DatagramWrite S}
    (h : Admitted e datagram w) (now : Nat) :
    (e.handleDatagram datagram now).1.relations = (w.filed e).1.relations := by
  rw [h.handleDatagram_eq now, (Engine.sends_acknowledge _ _ _ _ _ _ _).relations,
    Engine.decideWrite_relations]

namespace Engine

theorem handleDatagram_written {now : Nat}
    {event : SpineEvent S} {feature origin : FeatureAddress}
    (hevent : event ∈ (e.handleDatagram datagram now).1.events.drop e.events.length)
    (hwritten : event.written = some (feature, origin)) :
    ∃ w, Admitted e datagram w ∧ w.destination = feature ∧ w.source = origin := by
  have hquiet : ¬Quiet e (e.handleDatagram datagram now).1 := by
    intro hquiet
    have hnone := hquiet.drop event hevent
    rw [hwritten] at hnone
    simp at hnone
  have hfiled : ∀ v : Envelope, Quiet e (v.filed e).1 :=
    fun v => (hearing_routine.observeSource e _ _).quiet
  rcases e.handleDatagram_served datagram now with hdiscarded | ⟨v, e', -, hserved, hsends⟩
  · refine absurd ?_ hquiet
    cases hdiscarded with
    | unread hsends => exact Reports.of_eq hsends.events
    | filed source counter _ _ hsends =>
      exact (hearing_routine.observeSource e source counter).quiet.trans (Reports.of_eq hsends.events)
  · have hend : Quiet e' (e.handleDatagram datagram now).1 := Reports.of_eq hsends.events
    cases hserved with
    | answered _ _ hanswered =>
      exact absurd (((hfiled v).trans (Reports.of_eq hanswered.events)).trans hend) hquiet
    | called _ cmd _ _ =>
      exact absurd (((hfiled v).trans (quiet_handleCall _ _ _)).trans hend) hquiet
    | informed _ cmd _ _ =>
      exact absurd (((hfiled v).trans (hearing_routine.informed _ _ _ _ _).quiet).trans hend) hquiet
    | settled _ cmd _ _ =>
      exact absurd (((hfiled v).trans (hearing_routine.handleResult _ _ _ _).quiet).trans hend) hquiet
    | written w hw =>
      have hreports : Reports (fun event => event.written = none ∨
          event.written = some (w.destination, w.source)) e (e.handleDatagram datagram now).1 :=
        (((hfiled w.toEnvelope).mono fun _ h => .inl h).trans
          ((reports_decideWrite _ w now).mono fun _ h => .inr h)).trans
            (hend.mono fun _ h => .inl h)
      have hfor := hreports.drop event hevent
      rw [hwritten] at hfor
      have hpair : (feature, origin) = (w.destination, w.source) := by simpa using hfor
      obtain ⟨hfeature, horigin⟩ := Prod.mk.inj hpair
      exact ⟨w, hw, hfeature.symm, horigin.symm⟩

theorem handleDatagram_queued {now : Nat} {write : DeferredWrite S}
    (hwrite : write ∈ (e.handleDatagram datagram now).1.deferred) (hnew : write ∉ e.deferred) :
    ∃ w, Admitted e datagram w ∧ w.destination = write.feature ∧ w.source = write.peer := by
  rcases e.handleDatagram_puts datagram now with ⟨-, hkept⟩ | ⟨w, put, queued, hdeferral⟩
  · exact absurd (hkept hwrite) hnew
  · rw [hdeferral.queued] at hwrite
    rcases List.mem_append.mp hwrite with hold | hadded
    · exact absurd (hearing_deferred.observeSource e _ _ hold) hnew
    · obtain rfl := List.mem_singleton.mp hadded
      exact ⟨w, hdeferral.admitted, (hdeferral.filed.feature.trans hdeferral.feature).symm,
        (hdeferral.filed.origin.trans hdeferral.origin).symm⟩

end Engine

namespace Engine

variable {P : FeatureAddress → Prop}

theorem grants_removePeer (e : Engine S) (device : AddressDevice) :
    GrantsOnly P e.relations (e.removePeer device).relations :=
  GrantsOnly.filterBindings e.relations _ _

theorem hearing_grants : Hearing fun e e' : Engine S => GrantsOnly P e.relations e'.relations where
  refl _ := GrantsOnly.refl P _
  trans := GrantsOnly.trans
  peers _ _ := GrantsOnly.refl P _
  removePeer := grants_removePeer
  news _ _ _ := GrantsOnly.refl P _
  resolvePending _ reference _ := by cases reference <;> exact GrantsOnly.refl P _
  recordRelation e request := GrantsOnly.recordRelation e.relations request

theorem resolvePending_relations (e : Engine S) (reference : Option MsgCounter)
    (origin : FeatureAddress) : (e.resolvePending reference origin).1.relations = e.relations := by
  cases reference <;> rfl

theorem grants_handleCall (e : Engine S) (cmd : Cmd S) (source : FeatureAddress)
    (h : ∀ call named server client, cmd.data = some ⟨.nodeManagementBindingRequestCall, call⟩ →
      requestEnds call = some (named, server) → clientOfCaller named source = .ok client →
      P client) : GrantsOnly P e.relations (e.handleCall cmd source).1.relations := by
  have heffect := e.handleCall_effect cmd source
  generalize (e.handleCall cmd source).1.relations = relations at heffect ⊢
  cases heffect with
  | nothing => exact GrantsOnly.refl P _
  | bind call named server client hcmd hends hclient _ =>
    exact GrantsOnly.addBinding e.relations client server
      (h call named server client hcmd hends hclient)
  | subscribe => exact GrantsOnly.addSubscription e.relations _ _
  | unbind => exact GrantsOnly.removeBinding e.relations _ _
  | unsubscribe => exact GrantsOnly.of_eq rfl

end Engine

def ClientsNamed (e : Engine S) : Prop :=
  ∀ b ∈ e.relations.bindings, b.held = false → b.client.device.isSome = true

/-- A step that leaves no device part to be guessed: a write that a required binding lets through
names its source's device, and a binding is asked for (or put in place) with its client's. -/
def NamesDevices (e : Engine S) : EngineOp S → Prop
  | .handleDatagram datagram _ =>
    (∀ w, Admitted e datagram w → w.feature.binding = .required →
      w.source.device.isSome = true) ∧
    ∀ v cmd call named server, TakenUp e datagram v → v.classifier = .call →
      datagram.commands = [cmd] → cmd.data = some ⟨.nodeManagementBindingRequestCall, call⟩ →
      Engine.requestEnds call = some (named, server) →
      (named.device.or v.source.device).isSome = true
  | .insertBinding client _ => client.device.isSome = true
  | _ => True

theorem perform_grants {op : EngineOp S} (hop : NamesDevices e op) :
    GrantsOnly (fun client => client.device.isSome = true) e.relations (e.perform op).relations := by
  cases op with
  | handleDatagram datagram now =>
    have hfiled : ∀ v : Envelope, GrantsOnly (fun client => client.device.isSome = true) e.relations
        (v.filed e).1.relations := fun v => Engine.hearing_grants.observeSource e _ _
    simp only [Engine.perform]
    rcases e.handleDatagram_served datagram now with hdiscarded | ⟨v, e', hv, hserved, hsends⟩
    · cases hdiscarded with
      | unread hsends => exact GrantsOnly.of_eq (by rw [hsends.relations])
      | filed source counter _ _ hsends =>
        exact (Engine.hearing_grants.observeSource e source counter).trans
          (GrantsOnly.of_eq (by rw [hsends.relations]))
    · rw [hsends.relations]
      cases hserved with
      | answered _ _ hanswered =>
        exact (hfiled v).trans (GrantsOnly.of_eq (by rw [hanswered.relations]))
      | written w _ =>
        exact (hfiled w.toEnvelope).trans (GrantsOnly.of_eq (by rw [Engine.decideWrite_relations]))
      | called _ cmd hcall hcommand =>
        refine (hfiled v).trans (Engine.grants_handleCall _ _ _ ?_)
        intro call named server client hcmd hends hclient
        rw [clientOfCaller_device hclient]
        exact hop.2 v cmd call named server hv hcall hcommand hcmd hends
      | informed _ cmd _ _ =>
        exact (hfiled v).trans (Engine.hearing_grants.informed _ _ _ _ _)
      | settled _ cmd _ _ => exact (hfiled v).trans (Engine.hearing_grants.handleResult _ _ _ _)
  | handleTimeout now => exact GrantsOnly.of_eq (by rw [Engine.perform, e.handleTimeout_relations])
  | finishWrite token replacement =>
    exact GrantsOnly.of_eq (by rw [Engine.perform, e.finishWrite_relations])
  | rejectWrite token error =>
    exact GrantsOnly.of_eq (by rw [Engine.perform, e.rejectWrite_relations])
  | notify feature function =>
    exact GrantsOnly.of_eq (by rw [Engine.perform, (e.sends_notify _ _).relations])
  | insertBinding client server => exact GrantsOnly.addBinding e.relations client server hop
  | insertSubscription client server => exact GrantsOnly.addSubscription e.relations client server
  | bindFeaturesTogether features =>
    refine GrantsOnly.of_eq ?_
    simp only [Engine.perform, Relations.bindTogether]
    split <;> rfl
  | addEntity entity => exact GrantsOnly.of_eq (by rw [Engine.perform, e.addEntity_relations])
  | modifyEntity path => exact GrantsOnly.of_eq (by rw [Engine.perform, e.modifyEntity_relations])
  | removeEntity path =>
    rcases e.removeEntity_relations path with hsame | ⟨device, hremoved⟩
    · exact GrantsOnly.of_eq (by rw [Engine.perform, hsame])
    · rw [Engine.perform, hremoved]
      exact GrantsOnly.filterBindings e.relations _ _
  | removePeer device => exact e.grants_removePeer device
  | readFiltered | writeFiltered | requestBinding | requestSubscription | setBindingPolicy
  | addUseCase | configure | pollTransmit | pollEvent => exact GrantsOnly.of_eq rfl

theorem perform_clientsNamed {op : EngineOp S} (h : ClientsNamed e)
    (hop : NamesDevices e op) : ClientsNamed (e.perform op) := by
  intro b hb hheld
  cases perform_grants hop b hb hheld with
  | inl hb => exact h b hb hheld
  | inr hnamed => exact hnamed

theorem admitted_bound {w : DatagramWrite S}
    (hclients : ClientsNamed e) (hw : Admitted e datagram w)
    (hrequired : w.feature.binding = .required) (hnamed : w.source.device.isSome = true) :
    ∃ b ∈ (w.filed e).1.relations.bindings, b.held = false ∧
      sameFeature b.server w.destination = true ∧ b.client.device = w.source.device := by
  have hbound : (w.filed e).1.relations.isBound w.source w.destination = true := by
    have hpermitted := hw.permitted
    simpa [Engine.writePermitted, hrequired] using hpermitted
  obtain ⟨b, hb, hjoins⟩ := List.any_eq_true.mp hbound
  simp only [Relation.joins, Bool.and_eq_true, Bool.not_eq_true'] at hjoins
  obtain ⟨hheld, hclient, hserver⟩ := hjoins
  have hgranted : b.client.device.isSome = true := by
    have hfiled : GrantsOnly (fun client => client.device.isSome = true) e.relations
        (w.filed e).1.relations := Engine.hearing_grants.observeSource e _ _
    cases hfiled b hb hheld with
    | inl hb => exact hclients b hb hheld
    | inr h => exact h
  exact ⟨b, hb, hheld, hserver, device_eq_of_sameFeature hclient hgranted hnamed⟩

/-- The datagram's source has a binding on the feature that was granted to its very device. -/
structure HasOwnBinding (relations : Relations) (datagram : Datagram S) (feature origin : FeatureAddress) :
    Prop where
  source : datagram.header.bind Header.addressSource = some origin
  granted : ∃ b ∈ relations.bindings, b.held = false ∧ sameFeature b.server feature = true ∧
    ∃ writer, b.client.device = some writer ∧ origin.device = some writer

/-- On the features that require a binding, the datagram has stored, queued and reported nothing but
what a binding of its source's own let through. -/
structure TakesBoundWrites (e : Engine S) (datagram : Datagram S) (e' : Engine S) : Prop where
  stored : ∀ feature f, e.device.resolve feature = some f → f.binding = .required →
    e'.device.resolve feature ≠ some f → ∃ destination origin,
      datagram.header.bind Header.addressDestination = some destination ∧
        e.device.resolve destination = some f ∧ entityPath feature = entityPath destination ∧
          feature.feature = destination.feature ∧ HasOwnBinding e'.relations datagram destination origin
  queued : ∀ write ∈ e'.deferred, write ∉ e.deferred → ∀ f, e.device.resolve write.feature = some f →
    f.binding = .required → HasOwnBinding e'.relations datagram write.feature write.peer
  reported : ∀ event ∈ e'.events.drop e.events.length, ∀ feature origin,
    event.written = some (feature, origin) → ∀ f, e.device.resolve feature = some f →
      f.binding = .required → HasOwnBinding e'.relations datagram feature origin

/-- In a run whose steps all name their devices, a datagram changes the data of a feature that requires
a binding, is queued for it or is reported as a write on it only when it comes from a device that such
a binding has been granted to. -/
theorem required_binding_is_writers_own (device : LocalDevice S) (ops : List (EngineOp S))
    (h : Engine.machine.Admits NamesDevices (Engine.new device) ops) :
    ∀ before datagram now, before ++ [.handleDatagram datagram now] <+: ops →
      let e := Engine.machine.run (Engine.new device) before
      TakesBoundWrites e datagram (e.handleDatagram datagram now).1 := by
  intro before datagram now hprefix e
  obtain ⟨hbefore, hstep, -⟩ :=
    (Engine.machine.admits_append _ before _).mp (Engine.machine.admits_prefix h hprefix)
  have hclients : ClientsNamed e := by
    refine Engine.machine.run_invariant NamesDevices ClientsNamed
      (fun _ _ => perform_clientsNamed) before _ ?_ hbefore
    intro b hb
    simp [Engine.new, Relations.new] at hb
  have hown : ∀ w f, Admitted e datagram w → e.device.resolve w.destination = some f →
      f.binding = .required → HasOwnBinding (e.handleDatagram datagram now).1.relations datagram
        w.destination w.source := by
    intro w f hw hf hrequired
    obtain rfl : w.feature = f := Option.some.inj (hw.resolved.symm.trans hf)
    have hnamed := hstep.1 w hw hrequired
    obtain ⟨b, hb, hheld, hserver, hsame⟩ := admitted_bound hclients hw hrequired hnamed
    obtain ⟨writer, hwriter⟩ := Option.isSome_iff_exists.mp hnamed
    rw [hw.handleDatagram_relations now]
    exact ⟨hw.takenUp.origin, b, hb, hheld, hserver, writer, hsame.trans hwriter, hwriter⟩
  refine ⟨fun feature f hf hrequired hchanged => ?_, fun write hwrite hnew f hf hrequired => ?_,
    fun event hevent feature origin hwritten f hf hrequired => ?_⟩
  · rcases Engine.handleDatagram_stored hf datagram now with hsame | ⟨w, hw, rfl, -, hpath, hnumber⟩
    · exact absurd hsame hchanged
    · exact ⟨w.destination, w.source, hw.takenUp.target, hw.resolved, hpath, hnumber,
        hown w w.feature hw hw.resolved hrequired⟩
  · obtain ⟨w, hw, hfeature, hpeer⟩ := Engine.handleDatagram_queued hwrite hnew
    rw [← hfeature, ← hpeer]
    exact hown w f hw (hfeature ▸ hf) hrequired
  · obtain ⟨w, hw, rfl, rfl⟩ := Engine.handleDatagram_written hevent hwritten
    exact hown w f hw hf hrequired

/-- A load control feature that requires a binding, and stores what it is written. -/
def boundLoadControl : LocalFeature Schema.limitsOnly :=
  (LocalFeature.new 1 .loadControl .server).withFunction (.known .loadControlLimitListData)
    .readWrite

def guardBinds : Datagram Schema.limitsOnly :=
  let guard := featureAddress "d:_i:2_Guard" [1] 1
  let loadControl := featureAddress "d:_i:1_HeatPump" [1] 1
  Datagram.carrying (nodeManagement "d:_i:2_Guard") (nodeManagement "d:_i:1_HeatPump") .call 1
    (Cmd.withData ⟨.nodeManagementBindingRequestCall,
      ⟨some ⟨some guard, some loadControl, some .loadControl⟩⟩⟩)

/-- A limit written to the load control feature, from an entity of the given device. -/
def limitFrom (device : Option AddressDevice) : Datagram Schema.limitsOnly :=
  Datagram.carrying ⟨device, some [1], some 1⟩ (featureAddress "d:_i:1_HeatPump" [1] 1) .write 2
    (Cmd.withData ⟨.loadControlLimitListData,
      ⟨some [⟨some 1, some true, some true, none, some ⟨some 4200, some 0⟩⟩]⟩⟩)

theorem takenUp_source {source destination : FeatureAddress}
    {classifier : CmdClassifier} {counter : MsgCounter} {cmd : Cmd S} {v : Envelope}
    (h : TakenUp e (Datagram.carrying source destination classifier counter cmd) v) :
    v.source = source ∧ v.classifier = classifier := by
  obtain ⟨header, hheader, -, hclassifier, hsource, -⟩ := h.header
  cases hheader
  exact ⟨(Option.some.inj hsource).symm, (Option.some.inj hclassifier).symm⟩

/-- The heat pump, once the guard has its binding. -/
def boundHeatPump : Engine Schema.limitsOnly :=
  Engine.machine.run (Engine.new (LocalDevice.withFeature "d:_i:1_HeatPump" boundLoadControl))
    [.handleDatagram guardBinds 0]

theorem ne_boundLoadControl {feature : Option (LocalFeature Schema.limitsOnly)}
    (h : (feature.bind fun f => f.data (.known .loadControlLimitListData)).isSome = true) :
    feature ≠ some boundLoadControl := by
  rintro rfl
  cases h

/-- The guard's own write, stored through the binding it was granted. -/
theorem required_binding_is_writers_own_guard :
    let e' := (boundHeatPump.handleDatagram (limitFrom (some "d:_i:2_Guard")) 1).1
    TakesBoundWrites boundHeatPump (limitFrom (some "d:_i:2_Guard")) e' ∧
      e'.device.resolve (featureAddress "d:_i:1_HeatPump" [1] 1) ≠ some boundLoadControl := by
  intro e'
  have hadmits : Engine.machine.Admits NamesDevices
      (Engine.new (LocalDevice.withFeature "d:_i:1_HeatPump" boundLoadControl))
      [.handleDatagram guardBinds 0, .handleDatagram (limitFrom (some "d:_i:2_Guard")) 1] := by
    refine ⟨⟨fun w hw _ => ?_, fun v cmd call named server hv _ _ _ _ => ?_⟩,
      ⟨fun w hw _ => ?_, fun v cmd call named server hv hcall _ _ _ => ?_⟩, trivial⟩
    · rw [(takenUp_source hw.takenUp).1]
      rfl
    · rw [(takenUp_source hv).1]
      cases named.device <;> rfl
    · rw [(takenUp_source hw.takenUp).1]
      rfl
    · rw [(takenUp_source hv).2] at hcall
      simp at hcall
  exact ⟨required_binding_is_writers_own _ _ hadmits [.handleDatagram guardBinds 0] _ _
    (List.prefix_refl _), ne_boundLoadControl (by decide +kernel)⟩

/-- A write whose source names no device passes for one of the guard's, and is stored. -/
theorem unnamed_writer_uses_guards_binding :
    let e' := (boundHeatPump.handleDatagram (limitFrom none) 1).1
    (∃ f, boundHeatPump.device.resolve (featureAddress "d:_i:1_HeatPump" [1] 1) = some f ∧
        f.binding = .required ∧
        e'.device.resolve (featureAddress "d:_i:1_HeatPump" [1] 1) ≠ some f) ∧
      ¬TakesBoundWrites boundHeatPump (limitFrom none) e' := by
  intro e'
  have hchanged : e'.device.resolve (featureAddress "d:_i:1_HeatPump" [1] 1) ≠ some boundLoadControl :=
    ne_boundLoadControl (by decide +kernel)
  refine ⟨⟨boundLoadControl, rfl, rfl, hchanged⟩, fun htakes => ?_⟩
  obtain ⟨destination, origin, -, -, -, -, hsource, -, -, -, -, writer, -, hwriter⟩ :=
    htakes.stored _ boundLoadControl rfl rfl hchanged
  cases hsource
  cases hwriter

end Eebus.Spine
