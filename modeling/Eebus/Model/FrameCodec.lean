import Eebus.Model.ChoiceGroup
import Mathlib.Data.Fintype.Basic
import Mathlib.Tactic.FinCases

/-!
The codec of the command frame. Its types are written member by member like the resource types, but a choice
group has no key of its own there: its alternatives stand among the members of the command or the filter that
makes the choice.
-/

namespace Eebus.Model

open Eebus.Library

namespace Element

variable (E : Element)

/-- What is written for the value is read as it. -/
def ReadsBack (value : E.Value) : Prop := E.decode (E.encode value) = .ok value

def list : Element where
  Value := List E.Value
  encode values := .array (values.map E.encode)
  decode := deserializeSeq ⟨"a sequence", fun items => items.mapM E.decode, fun _ => .error (.invalidType "a sequence")⟩
  Form values json := json = .array (values.map E.encode)
  form_encode _ := rfl

theorem list_readsBack_iff (values : List E.Value) : E.list.ReadsBack values ↔ ∀ v ∈ values, E.ReadsBack v := by
  change (values.map E.encode).mapM E.decode = .ok values ↔ _
  rw [List.mapM_map]
  exact mapM_eq_self_iff _ values

end Element

/-- A part of a frame: the keys it has, the members its value is written as, and what one of them makes of a
value that is being read. -/
structure Part where
  Value : Type
  claims : String → Bool
  members : Value → List (String × Json)
  put : Option Value → String × Json → Except DecodeError (Option Value)
  claims_members : ∀ value, ∀ m ∈ members value, claims m.1 = true

namespace Part

def named (key : String) (E : Element) : Part where
  Value := E.Value
  claims k := k == key
  members value := [(key, E.encode value)]
  put _ entry := do
    let value ← E.decode entry.2
    .ok (some value)
  claims_members _ m hm := by simp [List.mem_singleton.mp hm]

def choice (C : ChoiceType) : Part where
  Value := C.Value
  claims key := (C.keyOf key).isSome
  members value := [C.member value]
  put := C.take
  claims_members value m hm := by simp [List.mem_singleton.mp hm, ChoiceType.member, C.keyOf_wire]

def choices (C : ChoiceType) : Part where
  Value := List C.Value
  claims key := (C.keyOf key).isSome
  members values := values.map C.member
  put := C.push
  claims_members values m hm := by
    obtain ⟨value, -, rfl⟩ := List.mem_map.mp hm
    simp [ChoiceType.member, C.keyOf_wire]

variable (P : Part)

def reread (value : Option P.Value) : Except DecodeError (Option P.Value) :=
  ((value.map P.members).getD []).foldlM P.put none

def ReadsBack (value : P.Value) : Prop := P.reread (some value) = .ok (some value)

theorem named_readsBack_iff (key : String) (E : Element) (value : E.Value) :
    (named key E).ReadsBack value ↔ E.ReadsBack value := by
  change (E.decode (E.encode value) >>= fun v => .ok (some v)) >>= pure = .ok (some value) ↔ _
  simp only [bind_pure, bind_eq_ok_iff, Except.ok.injEq, Option.some.injEq, exists_eq_right]
  rfl

theorem choice_readsBack_iff (C : ChoiceType) (value : C.Value) :
    (choice C).ReadsBack value ↔ C.ReadsBack value := by
  change C.take none (C.member value) >>= pure = .ok (some value) ↔ _
  simp only [bind_pure, C.take_member, bind_eq_ok_iff, Except.ok.injEq, Option.some.injEq, exists_eq_right]
  rfl

theorem choices_readsBack_iff (C : ChoiceType) (values : List C.Value) :
    (choices C).ReadsBack values ↔ values ≠ [] ∧ ∀ v ∈ values, C.ReadsBack v :=
  C.foldlM_push_eq_self_iff values

end Part

structure FrameType where
  name : String
  size : Nat
  part : Fin size → Part
  disjoint : ∀ i j key, (part i).claims key = true → (part j).claims key = true → i = j

namespace FrameType

variable (T : FrameType)

def Record : Type := ∀ i, Option (T.part i).Value

def empty : T.Record := fun _ => none

def set (out : T.Record) (i : Fin T.size) (value : Option (T.part i).Value) : T.Record :=
  Function.update out i value

theorem set_self (out : T.Record) (i : Fin T.size) (value : Option (T.part i).Value) :
    T.set out i value i = value := Function.update_self ..

theorem set_other (out : T.Record) {i j : Fin T.size} (value : Option (T.part i).Value) (h : j ≠ i) :
    T.set out i value j = out j := Function.update_of_ne h ..

def claimant (key : String) : Option (Fin T.size) := (List.finRange T.size).find? fun i => (T.part i).claims key

def readMember (out : T.Record) (entry : String × Json) : Except DecodeError T.Record :=
  match T.claimant entry.1 with
  | some i => do
    let value ← (T.part i).put (out i) entry
    .ok (T.set out i value)
  | none => .ok out

def entrySeed (out : T.Record) : Visitor T.Record where
  expecting := "an element of " ++ T.name
  visitSeq _ := .error (.invalidType ("an element of " ++ T.name))
  visitMap members := members.foldlM T.readMember out

def visitor : Visitor T.Record where
  expecting := "an EEBUS sequence for " ++ T.name
  visitSeq items := items.foldlM (fun out item => deserializeMap (T.entrySeed out) item) T.empty
  visitMap _ := .error (.invalidType ("an EEBUS sequence for " ++ T.name))

def decode (json : Json) : Except DecodeError T.Record := deserializeSeq T.visitor json

def members (v : T.Record) : List (String × Json) :=
  (List.finRange T.size).flatMap fun i => ((v i).map (T.part i).members).getD []

def encode (v : T.Record) : Json := .array (StructType.singly (T.members v))

def toElement : Element where
  Value := T.Record
  encode := T.encode
  decode := T.decode
  Form v json := json = T.encode v
  form_encode _ := rfl

variable {T}

theorem claimant_eq {i : Fin T.size} {key : String} (h : (T.part i).claims key = true) : T.claimant key = some i := by
  cases hfound : T.claimant key with
  | none => exact absurd h (List.find?_eq_none.mp hfound i (List.mem_finRange i))
  | some j =>
    have hclaims := List.find?_some (p := fun i => (T.part i).claims key) hfound
    exact congrArg some (T.disjoint j i key hclaims h)

theorem readMember_iff (out : T.Record) (m : String × Json) (out' : T.Record) :
    T.readMember out m = .ok out' ↔
      ∀ i, (if (T.part i).claims m.1 then (T.part i).put (out i) m else .ok (out i)) = .ok (out' i) := by
  by_cases hclaimed : ∃ i, (T.part i).claims m.1 = true
  · obtain ⟨i, hi⟩ := hclaimed
    have hothers : ∀ j, j ≠ i → ¬(T.part j).claims m.1 = true := fun j hj h => hj (T.disjoint j i m.1 h hi)
    simp only [readMember, claimant_eq hi, bind_eq_ok_iff, Except.ok.injEq]
    constructor
    · rintro ⟨value, hvalue, rfl⟩ j
      by_cases hj : j = i
      · subst hj
        rw [if_pos hi, hvalue, T.set_self]
      · rw [if_neg (hothers j hj), T.set_other out value hj]
    · intro h
      refine ⟨out' i, (if_pos hi).symm.trans (h i), funext fun j => ?_⟩
      by_cases hj : j = i
      · subst hj
        exact T.set_self out j _
      · rw [T.set_other out _ hj]
        exact Except.ok.inj ((if_neg (hothers j hj)).symm.trans (h j))
  · have hnone : ∀ i, ¬(T.part i).claims m.1 = true := fun i h => hclaimed ⟨i, h⟩
    rw [readMember, show T.claimant m.1 = none from List.find?_eq_none.mpr fun i _ => hnone i]
    simp only [if_neg (hnone _), Except.ok.injEq]
    exact funext_iff

theorem foldlM_readMember_iff (members : List (String × Json)) (out out' : T.Record) :
    members.foldlM T.readMember out = .ok out' ↔
      ∀ i, (members.filter fun m => (T.part i).claims m.1).foldlM (T.part i).put (out i) = .ok (out' i) :=
  foldlM_components (f := T.readMember) (p := fun i (m : String × Json) => (T.part i).claims m.1)
    (g := fun i => (T.part i).put) (readMember_iff (T := T)) members out out'

theorem filter_members (v : T.Record) (i : Fin T.size) :
    ((T.members v).filter fun m => (T.part i).claims m.1) = ((v i).map (T.part i).members).getD [] := by
  have hone : ∀ j, (((v j).map (T.part j).members).getD []).filter (fun m => (T.part i).claims m.1) =
      if j = i then ((v i).map (T.part i).members).getD [] else [] := by
    intro j
    have hclaims : ∀ m ∈ ((v j).map (T.part j).members).getD [], (T.part j).claims m.1 = true := by
      cases v j with
      | none => exact fun m hm => absurd hm List.not_mem_nil
      | some value => exact (T.part j).claims_members value
    by_cases hj : j = i
    · subst hj
      rw [if_pos rfl, List.filter_eq_self]
      exact hclaims
    · rw [if_neg hj, List.filter_eq_nil_iff]
      exact fun m hm h => hj (T.disjoint j i m.1 (hclaims m hm) h)
  obtain ⟨before, after, hsplit⟩ := List.append_of_mem (List.mem_finRange i)
  obtain ⟨-, hafter, hbefore⟩ := List.nodup_append.mp (hsplit ▸ List.nodup_finRange T.size)
  have hnone : ∀ parts : List (Fin T.size), i ∉ parts →
      (parts.flatMap fun j => if j = i then ((v i).map (T.part i).members).getD [] else []) = [] := by
    intro parts hi
    rw [List.flatMap_eq_nil_iff]
    exact fun j hj => if_neg (ne_of_mem_of_not_mem hj hi)
  have hmissing : i ∉ before := fun hi => hbefore i hi i List.mem_cons_self rfl
  rw [members, List.filter_flatMap, funext hone, hsplit, List.flatMap_append, List.flatMap_cons, if_pos rfl,
    hnone before hmissing, hnone after (List.nodup_cons.mp hafter).1, List.nil_append, List.append_nil]

theorem decode_groups (groups : List (List (String × Json))) :
    T.decode (.array (groups.map .object)) = groups.flatten.foldlM T.readMember T.empty := by
  have hall : ∀ out, (groups.map Json.object).foldlM (fun out item => deserializeMap (T.entrySeed out) item) out =
      groups.flatten.foldlM T.readMember out := by
    induction groups with
    | nil => exact fun out => rfl
    | cons group groups ih =>
      intro out
      rw [List.map_cons, List.foldlM_cons, List.flatten_cons, List.foldlM_append]
      exact congrArg _ (funext ih)
  exact hall T.empty

theorem decode_singly (members : List (String × Json)) :
    T.decode (.array (StructType.singly members)) = members.foldlM T.readMember T.empty := by
  have hgroups : StructType.singly members = (members.map fun m => [m]).map Json.object := by
    rw [List.map_map]
    rfl
  rw [hgroups, decode_groups, ← List.flatMap_def, List.flatMap_singleton']

theorem reread_eq_self_iff (v : T.Record) (i : Fin T.size) :
    (T.part i).reread (v i) = .ok (v i) ↔ ∀ value ∈ v i, (T.part i).ReadsBack value := by
  cases v i with
  | none => exact iff_of_true rfl fun value h => (by cases h)
  | some value => exact ⟨fun h value' hvalue => Option.some.inj hvalue ▸ h, fun h => h value rfl⟩

theorem readsBack_iff (v : T.Record) :
    T.toElement.ReadsBack v ↔ ∀ i, ∀ value ∈ v i, (T.part i).ReadsBack value := by
  change T.decode (.array (StructType.singly (T.members v))) = .ok v ↔ _
  rw [decode_singly, foldlM_readMember_iff]
  refine forall_congr' fun i => ?_
  rw [filter_members]
  exact reread_eq_self_iff v i

end FrameType

namespace StructType

variable (T : StructType) (hwire : Function.Injective T.wire)

def toFrame : FrameType where
  name := T.name
  size := T.size
  part i := .named (T.wire i) (T.element i)
  disjoint _ _ _ hi hj := hwire ((eq_of_beq hi).symm.trans (eq_of_beq hj))

theorem readMember_toFrame (out : T.Record) (entry : String × Json) :
    T.readMember out entry = (T.toFrame hwire).readMember out entry := by
  have hclaimant : T.field entry.1 = (T.toFrame hwire).claimant entry.1 :=
    congrArg (fun p => (List.finRange T.size).find? p) (funext fun i => Bool.beq_comm)
  simp only [readMember, FrameType.readMember, hclaimant]
  cases (T.toFrame hwire).claimant entry.1 with
  | none => rfl
  | some i =>
    simp only [toFrame, Part.named]
    cases (T.element i).decode entry.2 <;> rfl

theorem decode_toFrame (json : Json) : T.decode json = (T.toFrame hwire).decode json := by
  have hitem : ∀ out item,
      deserializeMap (T.entrySeed out) item = deserializeMap ((T.toFrame hwire).entrySeed out) item := by
    intro out item
    cases item with
    | object members =>
      exact congrArg (fun f => List.foldlM f out members)
        (funext fun out => funext fun entry => T.readMember_toFrame hwire out entry)
    | null | bool | number | string | array => rfl
  cases json with
  | array items =>
    exact congrArg (fun f => List.foldlM f T.empty items) (funext fun out => funext fun item => hitem out item)
  | null | bool | number | string | object => rfl

theorem members_toFrame (v : T.Record) : T.members v = (T.toFrame hwire).members v := by
  refine (List.filterMap_eq_flatMap_toList _ _).trans (congrArg (fun f => List.flatMap f _) (funext fun i => ?_))
  cases v i <;> rfl

include hwire in
theorem readsBack_iff (v : T.Record) :
    T.toElement.ReadsBack v ↔ ∀ i, ∀ value ∈ v i, (T.element i).ReadsBack value := by
  change T.decode (.array (singly (T.members v))) = .ok v ↔ _
  rw [decode_toFrame T hwire, members_toFrame T hwire]
  refine (FrameType.readsBack_iff (T := T.toFrame hwire) v).trans (forall_congr' fun i => ?_)
  exact forall₂_congr fun value _ => Part.named_readsBack_iff _ _ value

end StructType

/-- The types a command frame is made of: those of its elements, and of the alternatives of its choice groups. -/
structure CommandFrame where
  header : Element
  function : Element
  extension : Element
  lastUpdateAt : Element
  filterId : Element
  cmdControl : Element
  data : { name // name ∈ dataNames } → Element
  selectors : { name // name ∈ selectorNames } → Element
  elements : { name // name ∈ elementNames } → Element

namespace CommandFrame

variable (F : CommandFrame)

def cmdData : ChoiceType := .ofNames dataNames F.data

def filterSelectors : ChoiceType := .ofNames selectorNames F.selectors

def filterElements : ChoiceType := .ofNames elementNames F.elements

def filterPart : Fin 4 → Part
  | 0 => .named "filterId" F.filterId
  | 1 => .named "cmdControl" F.cmdControl
  | 2 => .choices F.filterSelectors
  | 3 => .choice F.filterElements

def filterKeys : Fin 4 → List String
  | 0 => ["filterId"]
  | 1 => ["cmdControl"]
  | 2 => selectorNames
  | 3 => elementNames

theorem filterPart_claims (i : Fin 4) (key : String) :
    (F.filterPart i).claims key = true ↔ key ∈ filterKeys i := by
  fin_cases i <;>
    simp [filterPart, filterKeys, Part.named, Part.choices, Part.choice, filterSelectors, filterElements]

theorem filterKeys_disjoint {i j : Fin 4} {key : String} (hi : key ∈ filterKeys i) (hj : key ∈ filterKeys j) :
    i = j := by
  have hreserved := filterNames_reserved key
  have hgroups := @selectorNames_disjoint key
  fin_cases i <;> fin_cases j <;> simp_all [filterKeys]

abbrev filterType : FrameType where
  name := "Filter"
  size := 4
  part := F.filterPart
  disjoint i j key hi hj := filterKeys_disjoint ((F.filterPart_claims i key).mp hi) ((F.filterPart_claims j key).mp hj)

def cmdPart : Fin 5 → Part
  | 0 => .named "function" F.function
  | 1 => .named "filter" F.filterType.toElement.list
  | 2 => .choice F.cmdData
  | 3 => .named "manufacturerSpecificExtension" F.extension
  | 4 => .named "lastUpdateAt" F.lastUpdateAt

def cmdKeys : Fin 5 → List String
  | 0 => ["function"]
  | 1 => ["filter"]
  | 2 => dataNames
  | 3 => ["manufacturerSpecificExtension"]
  | 4 => ["lastUpdateAt"]

theorem cmdPart_claims (i : Fin 5) (key : String) : (F.cmdPart i).claims key = true ↔ key ∈ cmdKeys i := by
  fin_cases i <;> simp [cmdPart, cmdKeys, Part.named, Part.choice, cmdData]

theorem cmdKeys_disjoint {i j : Fin 5} {key : String} (hi : key ∈ cmdKeys i) (hj : key ∈ cmdKeys j) : i = j := by
  have hreserved := dataNames_reserved key
  fin_cases i <;> fin_cases j <;> simp_all [cmdKeys]

abbrev cmdType : FrameType where
  name := "Cmd"
  size := 5
  part := F.cmdPart
  disjoint i j key hi hj := cmdKeys_disjoint ((F.cmdPart_claims i key).mp hi) ((F.cmdPart_claims j key).mp hj)

abbrev payloadType : StructType := ⟨"Payload", 1, fun _ => "cmd", fun _ => F.cmdType.toElement.list⟩

def datagramWire : Fin 2 → String
  | 0 => "header"
  | 1 => "payload"

theorem datagramWire_injective : Function.Injective datagramWire := by decide

def datagramElement : Fin 2 → Element
  | 0 => F.header
  | 1 => F.payloadType.toElement

abbrev datagramType : StructType := ⟨"Datagram", 2, datagramWire, F.datagramElement⟩

/-- The parts of a filter are read back, and the list of selectors is not an empty one. -/
structure FilterExact (filter : F.filterType.Record) : Prop where
  filterId : ∀ v ∈ filter 0, F.filterId.ReadsBack v
  cmdControl : ∀ v ∈ filter 1, F.cmdControl.ReadsBack v
  selectors : ∀ l : List F.filterSelectors.Value, filter 2 = some l → l ≠ [] ∧ ∀ v ∈ l, F.filterSelectors.ReadsBack v
  elements : ∀ v ∈ filter 3, F.filterElements.ReadsBack v

/-- The parts of a command are read back. -/
structure CmdExact (cmd : F.cmdType.Record) : Prop where
  function : ∀ v ∈ cmd 0, F.function.ReadsBack v
  filter : ∀ l : List F.filterType.Record, cmd 1 = some l → ∀ filter ∈ l, F.FilterExact filter
  data : ∀ v ∈ cmd 2, F.cmdData.ReadsBack v
  extension : ∀ v ∈ cmd 3, F.extension.ReadsBack v
  lastUpdateAt : ∀ v ∈ cmd 4, F.lastUpdateAt.ReadsBack v

variable {F}

theorem filter_readsBack_iff (filter : F.filterType.Record) :
    F.filterType.toElement.ReadsBack filter ↔ F.FilterExact filter := by
  rw [FrameType.readsBack_iff]
  constructor
  · intro h
    exact ⟨fun v hv => (Part.named_readsBack_iff _ _ v).mp (h 0 v hv), fun v hv => (Part.named_readsBack_iff _ _ v).mp (h 1 v hv),
      fun l hl => (Part.choices_readsBack_iff _ l).mp (h 2 l hl), fun v hv => (Part.choice_readsBack_iff _ v).mp (h 3 v hv)⟩
  · intro h i v hv
    fin_cases i
    · exact (Part.named_readsBack_iff _ _ v).mpr (h.filterId v hv)
    · exact (Part.named_readsBack_iff _ _ v).mpr (h.cmdControl v hv)
    · exact (Part.choices_readsBack_iff _ v).mpr (h.selectors v hv)
    · exact (Part.choice_readsBack_iff _ v).mpr (h.elements v hv)

theorem cmd_readsBack_iff (cmd : F.cmdType.Record) : F.cmdType.toElement.ReadsBack cmd ↔ F.CmdExact cmd := by
  have hfilter : ∀ l : List F.filterType.Record,
      (Part.named "filter" F.filterType.toElement.list).ReadsBack l ↔ ∀ filter ∈ l, F.FilterExact filter := by
    intro l
    refine (Part.named_readsBack_iff _ F.filterType.toElement.list l).trans ?_
    exact (F.filterType.toElement.list_readsBack_iff l).trans (forall₂_congr fun filter _ => filter_readsBack_iff filter)
  rw [FrameType.readsBack_iff]
  constructor
  · intro h
    exact ⟨fun v hv => (Part.named_readsBack_iff _ _ v).mp (h 0 v hv), fun l hl => (hfilter l).mp (h 1 l hl),
      fun v hv => (Part.choice_readsBack_iff _ v).mp (h 2 v hv), fun v hv => (Part.named_readsBack_iff _ _ v).mp (h 3 v hv),
      fun v hv => (Part.named_readsBack_iff _ _ v).mp (h 4 v hv)⟩
  · intro h i v hv
    fin_cases i
    · exact (Part.named_readsBack_iff _ _ v).mpr (h.function v hv)
    · exact (hfilter v).mpr (h.filter v hv)
    · exact (Part.choice_readsBack_iff _ v).mpr (h.data v hv)
    · exact (Part.named_readsBack_iff _ _ v).mpr (h.extension v hv)
    · exact (Part.named_readsBack_iff _ _ v).mpr (h.lastUpdateAt v hv)

/-- A datagram is read back exactly when its header and the parts of its commands are, and no filter has an empty
list of selectors. -/
theorem datagram_read_back_iff (F : CommandFrame) (datagram : F.datagramType.Record) :
    F.datagramType.decode (F.datagramType.encode datagram) = .ok datagram ↔
      (∀ header : F.header.Value, datagram 0 = some header → F.header.ReadsBack header) ∧
      ∀ payload : F.payloadType.Record, datagram 1 = some payload →
        ∀ cmds : List F.cmdType.Record, payload 0 = some cmds → ∀ cmd ∈ cmds, F.CmdExact cmd := by
  have hpayload : ∀ payload : F.payloadType.Record, F.payloadType.toElement.ReadsBack payload ↔
      ∀ cmds : List F.cmdType.Record, payload 0 = some cmds → ∀ cmd ∈ cmds, F.CmdExact cmd := by
    intro payload
    rw [F.payloadType.readsBack_iff (Function.injective_of_subsingleton (α := Fin 1) _)]
    refine (Unique.forall_iff (α := Fin 1)).trans (forall₂_congr fun cmds _ => ?_)
    exact (F.cmdType.toElement.list_readsBack_iff cmds).trans (forall₂_congr fun cmd _ => cmd_readsBack_iff cmd)
  refine (F.datagramType.readsBack_iff datagramWire_injective datagram).trans (Fin.forall_fin_two.trans ?_)
  exact and_congr Iff.rfl (forall₂_congr fun payload _ => hpayload payload)

def flags : CommandFrame := ⟨flag, flag, flag, flag, flag, flag, fun _ => flag, fun _ => flag, fun _ => flag⟩

def limitSelector : flags.filterSelectors.Value :=
  ⟨⟨"loadControlLimitListDataSelectors", by decide +kernel⟩, true⟩

def limitData : flags.cmdData.Value := ⟨⟨"loadControlLimitListData", by decide +kernel⟩, true⟩

def limitFilter (selectors : List flags.filterSelectors.Value) : flags.filterType.Record
  | 2 => some selectors
  | 0 | 1 | 3 => none

def limitCmd (selectors : List flags.filterSelectors.Value) : flags.cmdType.Record
  | 1 => some [limitFilter selectors]
  | 2 => some limitData
  | 0 | 3 | 4 => none

def limitDatagram (selectors : List flags.filterSelectors.Value) : flags.datagramType.Record
  | 0 => some true
  | 1 => some fun _ => some [limitCmd selectors]

/-- A limit comes back with the filter it is written with, unless that filter has an empty list of selectors. -/
theorem datagram_read_back_iff_limit :
    flags.datagramType.decode (flags.datagramType.encode (limitDatagram [limitSelector])) =
        .ok (limitDatagram [limitSelector]) ∧
      flags.datagramType.decode (flags.datagramType.encode (limitDatagram [])) ≠ .ok (limitDatagram []) := by
  have hselector : flags.filterSelectors.ReadsBack limitSelector := rfl
  have hdata : flags.cmdData.ReadsBack limitData := rfl
  have hheader : ∀ header : flags.header.Value, some true = some header → flags.header.ReadsBack header := by
    rintro header ⟨⟩
    rfl
  constructor
  · refine (datagram_read_back_iff flags (limitDatagram [limitSelector])).mpr ⟨hheader, ?_⟩
    rintro payload ⟨⟩ cmds ⟨⟩ cmd hcmd
    obtain rfl := List.mem_singleton.mp hcmd
    refine ⟨nofun, ?_, ?_, nofun, nofun⟩
    · rintro filters ⟨⟩ filter hfilter
      obtain rfl := List.mem_singleton.mp hfilter
      refine ⟨nofun, nofun, ?_, nofun⟩
      rintro selectors ⟨⟩
      exact ⟨List.cons_ne_nil _ _, fun selector hmem => List.mem_singleton.mp hmem ▸ hselector⟩
    · rintro data ⟨⟩
      exact hdata
  · intro hback
    have hcmds := ((datagram_read_back_iff flags (limitDatagram [])).mp hback).2 _ rfl _ rfl _ List.mem_cons_self
    have hfilter := hcmds.filter _ rfl _ List.mem_cons_self
    exact (hfilter.selectors [] rfl).1 rfl

/-- A command is read part by part: neither the grouping of its members to objects, nor what stands between those
of one part, nor a member of no part makes a difference. -/
theorem command_read_partwise (F : CommandFrame) (groups : List (List (String × Json))) (cmd : F.cmdType.Record) :
    F.cmdType.decode (.array (groups.map .object)) = .ok cmd ↔
      ∀ i, (groups.flatten.filter fun m => (F.cmdPart i).claims m.1).foldlM (F.cmdPart i).put none = .ok (cmd i) := by
  rw [FrameType.decode_groups, FrameType.foldlM_readMember_iff]
  rfl

end CommandFrame

end Eebus.Model
