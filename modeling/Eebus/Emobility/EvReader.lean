import Eebus.Emobility.Limits

/-!
What an energy manager makes of what a car publishes about itself. A value and the description that
says what it is may arrive in either order, so the reader keeps both and resolves them against each
other whenever one of them moves.
-/

namespace Eebus.Emobility

open Eebus.Library Eebus.Model

structure KeyDescription where
  keyId : Option Nat
  keyName : Option String
deriving DecidableEq

structure KeyValueValue where
  string : Option String
  boolean : Option Bool
deriving DecidableEq

structure KeyValue where
  keyId : Option Nat
  value : Option KeyValueValue
deriving DecidableEq

structure IdentificationData where
  identificationType : Option String
  identificationValue : Option String
deriving DecidableEq

structure ManufacturerData where
  deviceName : Option String
  deviceCode : Option String
  serialNumber : Option String
  softwareRevision : Option String
  hardwareRevision : Option String
  vendorName : Option String
  vendorCode : Option String
  brandName : Option String
  powerSource : Option String
  manufacturerNodeIdentification : Option String
  manufacturerLabel : Option String
  manufacturerDescription : Option String
deriving DecidableEq

inductive EvData
  | keyDescriptions (entries : Option (List KeyDescription))
  | keyValues (entries : Option (List KeyValue))
  | identification (entries : Option (List IdentificationData))
  | manufacturer (data : ManufacturerData)
  | diagnosisState (operatingState : Option String)
  | charging (data : CarData)
deriving DecidableEq

inductive CommunicationStandard
  | iso15118Ed1
  | iso15118Ed2
  | iec61851
  | other (value : String)
deriving DecidableEq

def CommunicationStandard.read : String → Option CommunicationStandard
  | "iso15118-2ed1" => some .iso15118Ed1
  | "iso15118-2ed2" => some .iso15118Ed2
  | "iec61851" => some .iec61851
  | "" => none
  | _ => some (.other "other")

structure EvIdentification where
  kind : String
  value : String
deriving DecidableEq

structure EvProfile (α : Type) where
  communicationStandard : Option CommunicationStandard
  asymmetricCharging : Option Bool
  identification : Option EvIdentification
  manufacturer : Option ManufacturerData
  /-- The least and, where there is one, the greatest power the car can charge with. -/
  chargingPower : Option (α × Option α)
  asleep : Option Bool
deriving BEq

def EvProfile.new {α : Type} : EvProfile α := ⟨none, none, none, none, none, none⟩

structure KeyIds where
  known : List (Nat × String)
deriving DecidableEq

namespace KeyIds

def learnEntry (known : List (Nat × String)) (entry : KeyDescription) : List (Nat × String) :=
  match entry.keyId, entry.keyName with
  | some id, some name => upsert Prod.fst (id, name) known
  | _, _ => known

def learn (keys : KeyIds) : EvData → KeyIds × Bool
  | .keyDescriptions entries => (⟨(entries.getD []).foldl learnEntry keys.known⟩, true)
  | _ => (keys, false)

def nameOf (keys : KeyIds) (id : Nat) : Option String :=
  (keys.known.find? fun known => known.1 == id).map Prod.snd

end KeyIds

structure EvReader (α : Type) where
  profile : EvProfile α
  keys : KeyIds
  parameters : ParameterIds
  /-- Configuration values as they arrived, by the car's own identifier. -/
  keyValues : List (Nat × KeyValueValue)
  /-- Permitted value sets as they arrived, by the car's own parameter. -/
  ranges : List (Nat × (α × Option α))

section Reading

variable {α : Type} (decimals : Decimals α)

/-- The bounds of the first range a set of permitted values gives, where the upper one may be
missing. -/
def PermittedValueSet.powerBounds (entry : PermittedValueSet) : Option (α × Option α) := do
  let ranges := (entry.permittedValueSet.getD []).flatMap fun (set : ScaledNumberSet) =>
    set.range.getD []
  let range ← ranges.head?
  let min ← range.min.bind decimals.toValue
  some (min, range.max.bind decimals.toValue)

namespace EvReader

def new : EvReader α := ⟨.new, ⟨[]⟩, .new, [], []⟩

def storeValue (values : List (Nat × KeyValueValue)) (entry : KeyValue) : List (Nat × KeyValueValue) :=
  match entry.keyId, entry.value with
  | some id, some value => upsert Prod.fst (id, value) values
  | _, _ => values

def storeRange (ranges : List (Nat × (α × Option α))) (entry : PermittedValueSet) :
    List (Nat × (α × Option α)) :=
  match entry.parameterId, entry.powerBounds decimals with
  | some id, some bounds => upsert Prod.fst (id, bounds) ranges
  | _, _ => ranges

def resolveKey (keys : KeyIds) (profile : EvProfile α) (entry : Nat × KeyValueValue) : EvProfile α :=
  match keys.nameOf entry.1 with
  | some "communicationsStandard" =>
    { profile with communicationStandard := entry.2.string.bind CommunicationStandard.read }
  | some "asymmetricChargingSupported" => { profile with asymmetricCharging := entry.2.boolean }
  | _ => profile

def resolveKeys (reader : EvReader α) : EvReader α :=
  { reader with profile := reader.keyValues.foldl (resolveKey reader.keys) reader.profile }

def resolveRanges (reader : EvReader α) : EvReader α :=
  match reader.parameters.byScope "acPowerTotal" with
  | none => reader
  | some parameter =>
    match reader.ranges.find? fun range => range.1 == parameter with
    | none => reader
    | some range => { reader with profile := { reader.profile with chargingPower := some range.2 } }

def take (reader : EvReader α) : EvData → EvReader α
  | .keyValues entries =>
    { reader with keyValues := (entries.getD []).foldl storeValue reader.keyValues }.resolveKeys
  | .charging (.permittedValueSets entries) =>
    { reader with ranges := (entries.getD []).foldl (storeRange decimals) reader.ranges }.resolveRanges
  | .identification entries =>
    match (entries.getD []).head? with
    | some ⟨some kind, some value⟩ =>
      { reader with profile := { reader.profile with identification := some ⟨kind, value⟩ } }
    | _ => reader
  | .manufacturer data => { reader with profile := { reader.profile with manufacturer := some data } }
  | .diagnosisState (some operating) =>
    { reader with profile := { reader.profile with asleep := some (operating == "standby") } }
  | .diagnosisState none => reader
  | .keyDescriptions entries =>
    { reader with keys := (reader.keys.learn (.keyDescriptions entries)).1 }.resolveKeys
  | .charging data =>
    let (parameters, learned) := reader.parameters.learn data
    if learned then { reader with parameters := parameters }.resolveRanges else reader

def apply [BEq α] (reader : EvReader α) (data : EvData) : EvReader α × Bool :=
  let after := reader.take decimals data
  (after, after.profile != reader.profile)

end EvReader

end Reading

end Eebus.Emobility
