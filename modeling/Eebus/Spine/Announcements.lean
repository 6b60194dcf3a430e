import Eebus.Spine.Replica
import Eebus.Spine.Stored
import Eebus.Spine.WriteAtomicity

/-!
What a server says of one of its features. Whatever it answers and whomever it tells, a client that
knows what is stored is left knowing it, and what comes to be stored is told to its subscribers.
-/

namespace Eebus.Spine

open Eebus.Library Eebus.Model

variable {S : Schema}

def featureRow (feature : FeatureAddress) (key : Key S.Other) : List Nat × Option Nat × Key S.Other :=
  (entityPath feature, feature.feature, key)

section Hearing

variable {held : Option (CmdData S)} {data : CmdData S}

theorem retold_whole (hheld : ∀ v, held = some v → v.key = data.key)
    (hshort : data.entryCount ≤ maxListEntries) :
    retold held data (WriteOps.of (Cmd.withData data)) = some data := by
  have hkey : (held.getD data.blank).key = data.key := by
    cases hcases : held with
    | none => rfl
    | some v => exact hheld v hcases
  have hresolve : (WriteOps.of (Cmd.withData data)).resolve (held.getD data.blank) data = .ok data := by
    have happly := CmdData.apply_full hkey
    have hops : WriteOps.of (Cmd.withData data) = ⟨[], false, true⟩ := rfl
    simp [hops, WriteOps.resolve, WriteOps.deleteSteps, runSteps, happly]
  rw [retold, hresolve]
  dsimp only
  rw [if_neg (by omega)]

theorem retold_part {stored : CmdData S} (hback : (stored.apply data true).toOption = some stored)
    (hshort : stored.entryCount ≤ maxListEntries) :
    retold (some stored) data (WriteOps.of ((Cmd.withData data).withFilter Filter.partialUpdate)) =
      some stored := by
  have happly : stored.apply data true = .ok stored := by
    cases happly : stored.apply data true with
    | error error => simp [happly, Except.toOption] at hback
    | ok merged =>
      rw [happly] at hback
      exact congrArg Except.ok (Option.some.inj hback)
  have hops : WriteOps.of ((Cmd.withData data).withFilter Filter.partialUpdate) = ⟨[], true, true⟩ := rfl
  have hresolve : (⟨[], true, true⟩ : WriteOps S).resolve stored data = .ok stored := by
    simp [WriteOps.resolve, WriteOps.deleteSteps, runSteps, happly]
  rw [retold, hops, Option.getD_some, hresolve]
  dsimp only
  rw [if_neg (by omega)]

theorem hear_key {row : List Nat × Option Nat × Key S.Other} (d : Datagram S)
    (hheld : ∀ v, held = some v → v.key = row.2.2) :
    ∀ v, hear row held d = some v → v.key = row.2.2 := by
  intro v hv
  unfold hear at hv
  split at hv
  · exact hheld v hv
  split at hv
  · exact hheld v hv
  case h_2 data hdata =>
    split at hv
    case isFalse => exact hheld v hv
    case isTrue hrow =>
      subst hrow
      unfold retold at hv
      split at hv
      · cases hv
      case h_2 resolved hresolve =>
        split at hv
        · cases hv
        cases hv
        refine resolve_key ?_ hresolve
        cases hcases : held with
        | none => rfl
        | some v => exact hheld v hcases

end Hearing

/-- Hearing the message, the client goes on knowing what is stored for the functions of the
feature. -/
def Echoes (client : AddressDevice) (feature : FeatureAddress) (device : LocalDevice S)
    (d : Datagram S) : Prop :=
  Datagram.isFor client d = true → ∀ key value, device.data feature (.known key) = some value →
    value.entryCount ≤ maxListEntries → hear (featureRow feature key) (some value) d = some value

/-- A message of the server, by which the client goes on knowing what is stored. -/
def Honest (client : AddressDevice) (feature : FeatureAddress) (device : LocalDevice S)
    (d : Datagram S) : Prop :=
  Datagram.IsFrom device.address d ∧ Echoes client feature device d

variable {cmd : Cmd S} {a destination source : FeatureAddress} {device : LocalDevice S}

theorem data_key {feature : FeatureAddress} {function : Function S.Other}
    {value : CmdData S} (h : device.data feature function = some value) : value.function = function := by
  obtain ⟨f, -, hf⟩ := Option.bind_eq_some_iff.mp h
  obtain ⟨entry, hentry, hdata⟩ := Option.bind_eq_some_iff.mp hf
  exact (entry.keyed value hdata).trans (name_of_found hentry)

theorem resolve_alike {b : FeatureAddress} (hdevice : a.device = b.device)
    (hpath : entityPath a = entityPath b) (hfeature : a.feature = b.feature) :
    device.resolve a = device.resolve b := by
  simp only [LocalDevice.resolve, hdevice, hpath, hfeature]

section Honesty

variable {client : AddressDevice} {feature : FeatureAddress} {e e' : Engine S}

theorem honest_report {counter : MsgCounter}
    {classifier : CmdClassifier} {ackRequest : Bool} {reference : Option MsgCounter}
    {data : CmdData S} (hdata : cmd.data = some data)
    (hsource : source.device = some device.address)
    (hheard : Datagram.isFor client (⟨some (Engine.header source destination counter classifier
        ackRequest reference), some ⟨some [cmd]⟩⟩ : Datagram S) = true →
      ∀ key value, device.data feature (.known key) = some value →
        value.entryCount ≤ maxListEntries → slot source data = featureRow feature key →
        retold (some value) data (WriteOps.of cmd) = some value) :
    Honest client feature device ⟨some (Engine.header source destination counter classifier
      ackRequest reference), some ⟨some [cmd]⟩⟩ := by
  refine ⟨⟨source, destination, counter, classifier, ackRequest, reference, cmd, hsource, rfl⟩,
    fun hfor key value hvalue hshort => ?_⟩
  unfold hear
  cases hreport : Datagram.report (⟨some (Engine.header source destination counter classifier
      ackRequest reference), some ⟨some [cmd]⟩⟩ : Datagram S) with
  | none => rfl
  | some report =>
    have heq : report = (source, cmd) := by cases classifier <;> cases hreport <;> rfl
    subst heq
    dsimp only
    rw [hdata]
    dsimp only
    split
    case isTrue hrow => exact hheard hfor key value hvalue hshort hrow
    case isFalse => rfl

theorem honest_silent {counter : MsgCounter} {classifier : CmdClassifier} {ackRequest : Bool}
    {reference : Option MsgCounter} (hsource : source.device = some device.address)
    (hclassifier : classifier ≠ .reply ∧ classifier ≠ .notify) :
    Honest client feature device ⟨some (Engine.header source destination counter classifier
      ackRequest reference), some ⟨some [cmd]⟩⟩ := by
  refine ⟨⟨source, destination, counter, classifier, ackRequest, reference, cmd, hsource, rfl⟩,
    fun _ _ _ _ _ => ?_⟩
  cases classifier with
  | reply => exact absurd rfl hclassifier.1
  | notify => exact absurd rfl hclassifier.2
  | _ => rfl

namespace Engine

theorem honest_sendResult (e : Engine S) (source destination : FeatureAddress)
    (reference : MsgCounter) (error : ErrorNumber) :
    Speaks (Honest client feature e.device) e (e.sendResult source destination reference error) :=
  e.speaks_sendCmd (honest_silent rfl ⟨nofun, nofun⟩)

theorem honest_acknowledge (e : Engine S) (source destination : FeatureAddress)
    (counter : MsgCounter) (classifier : CmdClassifier) (ackRequest : Bool) (outcome : CmdOutcome) :
    Speaks (Honest client feature e.device) e
      (e.acknowledge source destination counter classifier ackRequest outcome) := by
  cases outcome with
  | deferred => exact .refl e
  | answer error =>
    simp only [acknowledge]
    split
    · exact e.honest_sendResult _ _ _ _
    · exact .refl e

theorem honest_answerDeferred (e : Engine S) (write : DeferredWrite S) (error : ErrorNumber) :
    Speaks (Honest client feature e.device) e (e.answerDeferred write error) := by
  simp only [answerDeferred]
  split
  · exact e.honest_sendResult _ _ _ _
  · exact .refl e

theorem honest_request (e : Engine S)
    {classifier : CmdClassifier} {ackRequest : Bool} {now : Nat}
    (hsource : source.device = some e.device.address)
    (hclassifier : classifier ≠ .reply ∧ classifier ≠ .notify) :
    Speaks (Honest client feature e.device) e
      (e.request source destination classifier ackRequest cmd now).1 :=
  e.speaks_request (honest_silent hsource hclassifier)

theorem honest_notifyDiscoveryChange (hnode : isNodeManagement feature = false)
    (data : NodeManagementDetailedDiscoveryData S.Other) :
    Speaks (Honest client feature e.device) e (e.notifyDiscoveryChange data) := by
  have hloop : ∀ (subscribers : List FeatureAddress) (e' : Engine S), e'.device = e.device →
      Speaks (Honest client feature e.device) e'
        (subscribers.foldl (fun e' subscriber => e'.sendCmd (nodeManagement e.device.address)
          subscriber .notify none ((Cmd.withData ⟨.nodeManagementDetailedDiscoveryData,
            data⟩).withFilter Filter.partialUpdate)) e') := by
    intro subscribers
    induction subscribers with
    | nil => exact fun e' _ => .refl e'
    | cons subscriber rest ih =>
      intro e' hdevice
      refine Speaks.trans (e'.speaks_sendCmd (honest_report rfl rfl ?_)) (ih _ hdevice)
      intro _ key value _ _ hrow
      simp only [slot, featureRow, Prod.mk.injEq] at hrow
      rw [isNodeManagement, ← hrow.1, ← hrow.2.1] at hnode
      cases hnode
  exact hloop _ e rfl

theorem honest_notifySubscriber (hfeature : feature.device = some e.device.address)
    (hnode : isNodeManagement feature = false)
    (ha : a.device = some e.device.address) (function : Function S.Other)
    (subscriber : FeatureAddress) :
    Speaks (Honest client feature e.device) e (notifySubscriber a function e subscriber) := by
  unfold notifySubscriber
  split
  · exact .refl e
  case h_2 data hdata =>
    refine e.speaks_sendCmd (honest_report rfl ha ?_)
    intro _ key value hvalue hshort hrow
    simp only [slot, featureRow, Prod.mk.injEq] at hrow
    obtain ⟨hpath, hnumber, rfl⟩ := hrow
    have hother : isNodeManagement a = false := by
      rw [isNodeManagement, hpath, hnumber]
      exact hnode
    rw [notification, hother] at hdata
    have hfunction : function = .known data.key := (data_key hdata).symm
    rw [LocalDevice.data, ← resolve_alike (ha.trans hfeature.symm) hpath hnumber, ← hfunction] at hvalue
    obtain rfl : data = value := Option.some.inj (hdata.symm.trans hvalue)
    exact retold_whole (fun v hv => by cases hv; rfl) hshort

theorem honest_notify (hfeature : feature.device = some e.device.address)
    (hnode : isNodeManagement feature = false)
    (ha : a.device = some e.device.address) (function : Function S.Other) :
    Speaks (Honest client feature e.device) e (e.notify a function) := by
  have hloop : ∀ (subscribers : List FeatureAddress) (e' : Engine S), e'.device = e.device →
      Speaks (Honest client feature e.device) e'
        (subscribers.foldl (notifySubscriber a function) e') := by
    intro subscribers
    induction subscribers with
    | nil => exact fun e' _ => .refl e'
    | cons subscriber rest ih =>
      intro e' hdevice
      have hfirst : Speaks (Honest client feature e'.device) e'
          (notifySubscriber a function e' subscriber) := by
        refine honest_notifySubscriber ?_ hnode ?_ function subscriber <;> rwa [hdevice]
      rw [hdevice] at hfirst
      refine hfirst.trans (ih _ ?_)
      exact (sends_notifySubscriber a function e' subscriber).device.trans hdevice
  simp only [notify]
  split
  · exact .refl e
  · exact hloop _ e rfl

end Engine

def putsBack (client : AddressDevice) (feature : FeatureAddress) (e : Engine S) (cmd : Cmd S)
    (source destination : FeatureAddress) : Bool :=
  match e.readAnswer cmd source destination with
  | .ok (data, true) =>
    !source.device.all (· == client) || !sameFeature destination feature ||
      (e.device.data feature data.function).all fun stored =>
        decide ((stored.apply data true).toOption = some stored)
  | _ => true

namespace Engine

theorem readAnswer_stored (hnode : isNodeManagement destination = false) {data : CmdData S}
    (h : e.readAnswer cmd source destination = .ok (data, false)) {value : CmdData S}
    (hvalue : e.device.data destination data.function = some value) : data = value := by
  unfold readAnswer at h
  split at h
  · cases h
  case h_2 function _ =>
    split at h
    · cases h
    split at h
    · cases h
    case h_2 f hf =>
      split at h
      · cases h
      case h_2 entry hentry =>
        split at h
        · cases h
        simp only [hnode, Bool.false_eq_true, if_false, Option.none_or] at h
        split at h
        · cases h
        case h_2 answer hanswer =>
          split at h
          case h_2 =>
            split at h
            · cases h
            split at h <;> cases h
          case h_1 =>
            cases h
            have hfunction : data.function = function := by
              cases hdata : entry.data with
              | some stored =>
                rw [hdata, Option.some_or] at hanswer
                cases hanswer
                exact (entry.keyed _ hdata).trans (name_of_found hentry)
              | none =>
                rw [hdata, Option.none_or] at hanswer
                cases function with
                | known key => cases hanswer; rfl
                | extension o => cases hanswer
            rw [hfunction, LocalDevice.data, hf, Option.bind_some, LocalFeature.data, hentry,
              Option.bind_some] at hvalue
            rw [hvalue, Option.some_or] at hanswer
            exact (Option.some.inj hanswer).symm

theorem readAnswer_resolves
    {answer : CmdData S × Bool} (h : e.readAnswer cmd source destination = .ok answer) :
    ∃ f, e.device.resolve destination = some f := by
  unfold readAnswer at h
  split at h
  · cases h
  · split at h
    · cases h
    split at h
    · cases h
    case h_2 f hf => exact ⟨f, hf⟩

theorem resolve_localAddress {f : LocalFeature S} (h : e.device.resolve a = some f) :
    e.device.resolve (e.localAddress a) = some f ∧ devicesAgree a (e.localAddress a) = true := by
  have h' := LocalDevice.resolve_eq_some.mp h
  refine ⟨LocalDevice.resolve_eq_some.mpr ⟨by simp [localAddress], h'.2⟩, ?_⟩
  cases hdevice : a.device with
  | none => simp [devicesAgree, hdevice]
  | some x =>
    have hown := h'.1
    rw [hdevice] at hown
    simpa [devicesAgree, hdevice, localAddress] using hown

theorem honest_handleRead (hfeature : feature.device = some e.device.address)
    (hnode : isNodeManagement feature = false)
    (hback : putsBack client feature e cmd source destination = true) (counter : MsgCounter) :
    Speaks (Honest client feature e.device) e (e.handleRead cmd source destination counter).1 := by
  unfold handleRead
  split
  · exact .refl e
  case h_2 data isPartial hanswer =>
    have hcmd : (if isPartial then (Cmd.withData data).withFilter Filter.partialUpdate
        else Cmd.withData data).data = some data := by
      cases isPartial <;> rfl
    refine e.speaks_sendCmd (honest_report hcmd rfl ?_)
    intro hfor key value hvalue hshort hrow
    simp only [slot, featureRow, Prod.mk.injEq] at hrow
    obtain ⟨hpath, hnumber, rfl⟩ := hrow
    obtain ⟨f, hf⟩ := readAnswer_resolves hanswer
    obtain ⟨hlocal, hagree⟩ := resolve_localAddress hf
    have halike : e.device.resolve feature = e.device.resolve destination := by
      rw [hf, ← hlocal]
      exact resolve_alike hfeature hpath.symm hnumber.symm
    cases isPartial with
    | true =>
      have hclient : source.device.all (· == client) = true := hfor
      have hsame : sameFeature destination feature = true := by
        simp only [sameFeature, Bool.and_eq_true, beq_iff_eq]
        refine ⟨⟨?_, hpath⟩, hnumber⟩
        rw [devicesAgree, hfeature]
        exact hagree
      simp only [putsBack, hanswer, hclient, hsame, Bool.not_true, Bool.false_or, CmdData.function,
        hvalue, Option.all_some, decide_eq_true_eq] at hback
      exact retold_part hback hshort
    | false =>
      have hother : isNodeManagement destination = false := by
        rw [isNodeManagement, show entityPath destination = entityPath feature from hpath,
          show destination.feature = feature.feature from hnumber]
        exact hnode
      have hstored : e.device.data destination data.function = some value := by
        rw [LocalDevice.data, ← halike]
        exact hvalue
      obtain rfl : data = value := readAnswer_stored hother hanswer hstored
      exact retold_whole (fun v hv => by cases hv; rfl) hshort

end Engine

end Honesty

/-- The client is subscribed to the feature. -/
def Subscribed (client : AddressDevice) (feature : FeatureAddress) (r : Relations) : Prop :=
  ∃ s ∈ r.subscriptions, s.held = false ∧ sameFeature s.server feature = true ∧
    s.client.device.all (· == client) = true

/-- The client has been sent the value of a function of the feature. -/
def Announces (client : AddressDevice) (feature : FeatureAddress) (key : Key S.Other)
    (value : CmdData S) (e e' : Engine S) : Prop :=
  ∃ sent, e'.outbox = e.outbox ++ sent ∧ ∃ d ∈ sent, Datagram.isFor client d = true ∧
    ∀ held, (∀ v, held = some v → v.key = key) → hear (featureRow feature key) held d = some value

/-- What a function of the feature held it still holds, or the client has been sent what it holds
now. -/
def TellsChanges (client : AddressDevice) (feature : FeatureAddress) (e e' : Engine S) : Prop :=
  ∀ key value, e.device.data feature (.known key) = some value →
    ∃ value', e'.device.data feature (.known key) = some value' ∧
      (value' = value ∨
        (value'.entryCount ≤ maxListEntries → Announces client feature key value' e e'))

section Changes

variable {client : AddressDevice} {feature : FeatureAddress} {e e' e'' : Engine S}

theorem TellsChanges.of_resolve (h : e'.device.resolve feature = e.device.resolve feature) :
    TellsChanges client feature e e' := by
  intro key value hvalue
  exact ⟨value, by rw [LocalDevice.data, h]; exact hvalue, .inl rfl⟩

theorem TellsChanges.of_device (h : e'.device = e.device) : TellsChanges client feature e e' :=
  .of_resolve (by rw [h])

theorem TellsChanges.sends {P : Datagram S → Prop} (h : TellsChanges client feature e e')
    (hsends : Sends P e' e'') : TellsChanges client feature e e'' := by
  intro key value hvalue
  obtain ⟨value', hvalue', htold⟩ := h key value hvalue
  obtain ⟨more, hmore, -⟩ := hsends.sent
  refine ⟨value', by rw [hsends.device]; exact hvalue', htold.imp_right fun htold hshort => ?_⟩
  obtain ⟨sent, hsent, d, hd, hfor, hheard⟩ := htold hshort
  exact ⟨sent ++ more, by rw [hmore, hsent, List.append_assoc], d, List.mem_append_left more hd, hfor,
    hheard⟩

theorem TellsChanges.after (hdevice : e'.device = e.device) (houtbox : e'.outbox = e.outbox)
    (h : TellsChanges client feature e' e'') : TellsChanges client feature e e'' := by
  intro key value hvalue
  obtain ⟨value', hvalue', htold⟩ := h key value (by rw [hdevice]; exact hvalue)
  refine ⟨value', hvalue', htold.imp_right fun htold hshort => ?_⟩
  obtain ⟨sent, hsent, hheard⟩ := htold hshort
  exact ⟨sent, by rw [hsent, houtbox], hheard⟩

namespace Engine

theorem notify_announces (hfeature : feature.device = some e.device.address)
    (hnode : isNodeManagement feature = false)
    (ha : a.device = some e.device.address) (hpath : entityPath a = entityPath feature)
    (hnumber : a.feature = feature.feature) (hsubscribed : Subscribed client feature e.relations)
    {key : Key S.Other} {value : CmdData S}
    (hvalue : e.device.data feature (.known key) = some value)
    (hshort : value.entryCount ≤ maxListEntries) :
    Announces client feature key value e (e.notify a (.known key)) := by
  obtain ⟨s, hs, hheld, hserver, hclient⟩ := hsubscribed
  have hkey : value.key = key := Function.known.inj (data_key hvalue)
  have hother : isNodeManagement a = false := by
    rw [isNodeManagement, hpath, hnumber]
    exact hnode
  have hstored : ∀ e' : Engine S, e'.device = e.device → e'.device.data a (.known key) = some value := by
    intro e' hdevice
    rw [hdevice, LocalDevice.data, resolve_alike (ha.trans hfeature.symm) hpath hnumber]
    exact hvalue
  have hmem : s.client ∈ e.relations.subscribersOf a := by
    have hserver' : sameFeature s.server a = true := by
      rw [sameFeature, devicesAgree, ha, hpath, hnumber, ← hfeature]
      exact hserver
    exact List.mem_map.mpr ⟨s, List.mem_filter.mpr ⟨hs, by simp [hheld, hserver']⟩, rfl⟩
  have hloop : ∀ (subscribers : List FeatureAddress) (e' : Engine S), e'.device = e.device →
      s.client ∈ subscribers →
      Announces client feature key value e' (subscribers.foldl (notifySubscriber a (.known key)) e') := by
    intro subscribers
    induction subscribers with
    | nil => exact fun e' _ hnone => absurd hnone (by simp)
    | cons subscriber rest ih =>
      intro e' hdevice hin
      have hfirst := sends_notifySubscriber a (.known key) e' subscriber
      obtain ⟨sent, hsent, -⟩ := hfirst.sent
      obtain ⟨more, hmore, -⟩ := (Sends.foldl (sends_notifySubscriber a (.known key)) rest
        (notifySubscriber a (.known key) e' subscriber)).sent
      rw [List.foldl_cons]
      by_cases hhere : s.client = subscriber
      · subst hhere
        have hnotification : e'.notification a (.known key) s.client = some value := by
          simp [notification, hother, hstored e' hdevice]
        refine ⟨_, ?_, ⟨some (header a s.client e'.counters .notify false none),
          some ⟨some [Cmd.withData value]⟩⟩, List.mem_append_left more (List.mem_singleton.mpr rfl),
          hclient, fun held hheld => ?_⟩
        · rw [hmore, notifySubscriber, hnotification, ← List.append_assoc]
          rfl
        · have hrow : slot a value = featureRow feature key := by
            simp only [slot, featureRow, hpath, hnumber, hkey]
          have hheard : hear (featureRow feature key) held ⟨some (header a s.client e'.counters
              .notify false none), some ⟨some [Cmd.withData value]⟩⟩ =
                if slot a value = featureRow feature key then
                  retold held value (WriteOps.of (Cmd.withData value)) else held := rfl
          rw [hheard, if_pos hrow]
          exact retold_whole (fun v hv => (hheld v hv).trans hkey.symm) hshort
      · have hlater := (List.mem_cons.mp hin).resolve_left hhere
        obtain ⟨rest', hrest', d, hd, hheard⟩ := ih _ (hfirst.device.trans hdevice) hlater
        exact ⟨sent ++ rest', by rw [hrest', hsent, List.append_assoc], d,
          List.mem_append_right sent hd, hheard⟩
  have hsome : (e.device.data a (.known key)).isNone = false := by rw [hstored e rfl]; rfl
  simp only [notify, hsome, Bool.and_false, Bool.false_eq_true, if_false]
  exact hloop _ e rfl hmem

theorem reportWritten_tells (hfeature : feature.device = some e.device.address)
    (hnode : isNodeManagement feature = false) {origin : FeatureAddress} {f f' : LocalFeature S}
    {function : Function S.Other} (hresolve : e.device.resolve a = some f)
    (ha : a.device.isSome = true) (hshape : SameShape f f') (honly : StoresOnly function f f')
    (hsome : ∀ value, f.data function = some value → (f'.data function).isSome = true)
    (hsubscribed : Subscribed client feature e.relations) :
    TellsChanges client feature e ((e.storeFeature a f').reportWritten a origin function) := by
  have hdevice : ((e.storeFeature a f').reportWritten a origin function).device =
      (e.storeFeature a f').device := (sends_reportWritten _ _ _ _).device
  obtain ⟨hown, number, entity, hnumber, -, hfound⟩ := LocalDevice.resolve_eq_some.mp hresolve
  have haddress := LocalDevice.resolve_number hresolve
  by_cases hsame : entityPath feature = entityPath a ∧ feature.feature = a.feature
  · obtain ⟨hpath, hfeatureNumber⟩ := hsame
    have ha : a.device = some e.device.address := by
      obtain ⟨x, hx⟩ := Option.isSome_iff_exists.mp ha
      rw [hx] at hown ⊢
      simpa using hown
    have halike : e.device.resolve feature = some f :=
      (resolve_alike (hfeature.trans ha.symm) hpath hfeatureNumber).trans hresolve
    have hnew : (e.storeFeature a f').device.resolve feature = some f' := by
      rw [resolve_alike (hfeature.trans ha.symm) hpath hfeatureNumber]
      exact LocalDevice.resolve_update hresolve (fun _ => f') hshape.address
    intro key value hvalue
    have hbefore : f.data (.known key) = some value := by
      simpa [LocalDevice.data, halike] using hvalue
    by_cases hkey : function = .known key
    · subst hkey
      obtain ⟨value', hvalue'⟩ := Option.isSome_iff_exists.mp (hsome value hbefore)
      have hafter : (e.storeFeature a f').device.data feature (.known key) = some value' := by
        rw [LocalDevice.data, hnew]
        exact hvalue'
      refine ⟨value', by rw [hdevice]; exact hafter, .inr fun hshort => ?_⟩
      let stored := (e.storeFeature a f').emit (.dataWritten a origin (.known key))
      have hstoredAddress : stored.device.address = e.device.address := by
        simp [stored, emit, storeFeature]
      exact notify_announces (e := stored) (hstoredAddress.symm ▸ hfeature) hnode
        (hstoredAddress.symm ▸ ha) hpath.symm hfeatureNumber.symm hsubscribed hafter hshort
    · refine ⟨value, ?_, .inl rfl⟩
      rw [hdevice, LocalDevice.data, hnew]
      exact (honly _ hkey).trans hbefore
  · refine .of_resolve ?_
    rw [hdevice]
    exact e.storeFeature_elsewhere (by rw [haddress, hshape.address]) hsame

end Engine

end Changes

end Eebus.Spine
