import Mathlib.Data.List.FinRange
import Mathlib.Logic.Function.Basic

/-!
The codec of the resource types. A type is written as an array of single-key objects, and its visitor
reads that array or a plain object. Which of the two it is shown is up to the hint its deserializer is
given.
-/

namespace Eebus.Model

inductive Json where
  | null
  | bool (b : Bool)
  | number (text : String)
  | string (text : String)
  | array (items : List Json)
  | object (members : List (String × Json))

inductive DecodeError where
  | invalidType (expecting : String)
deriving DecidableEq

structure Visitor (α : Type) where
  expecting : String
  visitSeq : List Json → Except DecodeError α
  visitMap : List (String × Json) → Except DecodeError α

def deserializeSeq {α : Type} (visitor : Visitor α) : Json → Except DecodeError α
  | .array items => visitor.visitSeq items
  | _ => .error (.invalidType visitor.expecting)

def deserializeMap {α : Type} (visitor : Visitor α) : Json → Except DecodeError α
  | .object members => visitor.visitMap members
  | _ => .error (.invalidType visitor.expecting)

structure Element where
  Value : Type
  encode : Value → Json
  decode : Json → Except DecodeError Value
  Form : Value → Json → Prop
  form_encode : ∀ value, Form value (encode value)

structure StructType where
  name : String
  size : Nat
  wire : Fin size → String
  element : Fin size → Element

namespace StructType

variable (T : StructType)

def Record : Type := ∀ i, Option (T.element i).Value

def empty : T.Record := fun _ => none

def set (out : T.Record) (i : Fin T.size) (value : (T.element i).Value) : T.Record :=
  Function.update out i (some value)

def field (key : String) : Option (Fin T.size) := (List.finRange T.size).find? fun i => T.wire i == key

def readMember (out : T.Record) (entry : String × Json) : Except DecodeError T.Record :=
  match T.field entry.1 with
  | some i =>
    match (T.element i).decode entry.2 with
    | .ok value => .ok (T.set out i value)
    | .error error => .error error
  | none => .ok out

def readMembers (out : T.Record) (members : List (String × Json)) : Except DecodeError T.Record :=
  members.foldlM T.readMember out

def entrySeed (out : T.Record) : Visitor T.Record where
  expecting := "an element of " ++ T.name
  visitSeq _ := .error (.invalidType ("an element of " ++ T.name))
  visitMap members := T.readMembers out members

def visitor : Visitor T.Record where
  expecting := "an EEBUS sequence for " ++ T.name
  visitSeq items := items.foldlM (fun out item => deserializeMap (T.entrySeed out) item) T.empty
  -- some peers emit a plain object instead of the array form
  visitMap members := T.readMembers T.empty members

def decode (json : Json) : Except DecodeError T.Record := deserializeSeq T.visitor json

def members (v : T.Record) : List (String × Json) :=
  (List.finRange T.size).filterMap fun i => (v i).map fun value => (T.wire i, (T.element i).encode value)

def singly (members : List (String × Json)) : List Json := members.map fun entry => .object [entry]

def encode (v : T.Record) : Json := .array (singly (T.members v))

/-- One member for each field that is there, with a form of its value. -/
structure Carries (v : T.Record) (members : List (String × Json)) : Prop where
  keys : (members.map Prod.fst).Perm
    (((List.finRange T.size).filter fun i => (v i).isSome).map T.wire)
  values : ∀ i value, v i = some value → ∃ json, (T.wire i, json) ∈ members ∧ (T.element i).Form value json

def Form (v : T.Record) (json : Json) : Prop :=
  ∃ members, T.Carries v members ∧ (json = .array (singly members) ∨ json = .object members)

theorem carries_members (v : T.Record) : T.Carries v (T.members v) where
  keys := by
    refine List.Perm.of_eq ?_
    rw [members, List.map_filterMap, ← List.filterMap_eq_filter, List.map_filterMap]
    refine List.filterMap_congr fun i _ => ?_
    cases h : v i <;> simp [Option.guard, h]
  values i value h :=
    ⟨(T.element i).encode value, List.mem_filterMap.mpr ⟨i, List.mem_finRange i, by rw [h]; rfl⟩,
      (T.element i).form_encode value⟩

def toElement : Element where
  Value := T.Record
  encode := T.encode
  decode := T.decode
  Form := T.Form
  form_encode v := ⟨T.members v, T.carries_members v, .inl rfl⟩

variable {T}

/-- Both forms of a value are read as it. -/
def Tolerates (T : StructType) (v : T.Record) : Prop :=
  ∀ members, T.Carries v members →
    T.decode (.object members) = .ok v ∧ T.decode (.array (singly members)) = .ok v

theorem decode_object_ne (v : T.Record) (members : List (String × Json)) :
    T.decode (.object members) ≠ .ok v := nofun

/-- No value of any type is read from its plain object. -/
theorem plain_objects_rejected (T : StructType) (v : T.Record) : ¬T.Tolerates v :=
  fun h => decode_object_ne v _ (h (T.members v) (T.carries_members v)).1

end StructType

def wholeNumber : Element where
  Value := Nat
  encode n := .number n.repr
  decode
    | .number text => (text.toNat?.map .ok).getD (.error (.invalidType "a number"))
    | _ => .error (.invalidType "a number")
  Form n json := json = .number n.repr
  form_encode _ := rfl

def scaledNumberWire : Fin 2 → String
  | 0 => "number"
  | 1 => "scale"

def scaledNumberType : StructType := ⟨"ScaledNumber", 2, scaledNumberWire, fun _ => wholeNumber⟩

def five : scaledNumberType.Record
  | ⟨0, _⟩ => some (5 : Nat)
  | ⟨_ + 1, _⟩ => none

theorem plain_scaledNumber_rejected : ¬scaledNumberType.Tolerates five := by
  intro h
  have hcarries : scaledNumberType.Carries five [("number", .number "5")] := by
    refine ⟨List.Perm.of_eq rfl, fun i value hvalue => ?_⟩
    obtain ⟨i, hi⟩ := i
    cases i with
    | zero =>
      obtain rfl := Option.some.inj hvalue
      exact ⟨_, List.mem_singleton_self _, rfl⟩
    | succ i => nomatch hvalue
  exact StructType.decode_object_ne _ _ (h _ hcarries).1

end Eebus.Model
