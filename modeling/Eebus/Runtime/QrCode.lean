import Eebus.Library.Separators
import Eebus.Model.DateTimeReading
import Eebus.Runtime.PairingReceiver

/-!
The installation code of a node: `KEY:VALUE` fields between semicolons, without any escaping. Reading
trims and splits at several levels; writing groups and reorders.
-/

namespace Eebus.Runtime

open Eebus.Library Eebus.Model Eebus.Ship

def isWhitespace (c : Char) : Bool :=
  let n := c.toNat
  (0x9 ≤ n && n ≤ 0xD) || n == 0x20 || n == 0x85 || n == 0xA0 || n == 0x1680 ||
    (0x2000 ≤ n && n ≤ 0x200A) || n == 0x2028 || n == 0x2029 || n == 0x202F || n == 0x205F || n == 0x3000

def isControl (c : Char) : Bool := c.toNat < 0x20 || (0x7F ≤ c.toNat && c.toNat ≤ 0x9F)

def trim (s : List Char) : List Char := trimmed isWhitespace s

def stripText (p s : List Char) : Option (List Char) :=
  if p.isPrefixOf s then some (s.drop p.length) else none

def stripSpaces (value : List Char) : List Char := value.filter fun c => !isWhitespace c

def groupInFours (value : List Char) : List Char :=
  withSeparators ' ' (fun i => i != 0 && i % 4 == 0) (fun c => [c]) value

inductive SkiParseError
  | length (found : Nat)
  | notHex (c : Char)
deriving DecidableEq

inductive FingerprintParseError
  | length (found : Nat)
  | notHex (c : Char)
deriving DecidableEq

inductive DiscoveryError
  | empty (key : String)
  | prohibitedCharacter (key : String) (ch : Char)
  | tooLong (key : String) (max found : Nat)
  | categories (value : List Char)
deriving DecidableEq

inductive QrError
  | notShip
  | malformedField (field : List Char)
  | missingSki
  | value (error : DiscoveryError)
  | ski (error : SkiParseError)
  | fingerprint (error : FingerprintParseError)
  | nominalPower (value : List Char)
deriving DecidableEq

/-- The characters of a transcription that are no digits and no separators come first to notice. -/
def readSki (text : List Char) : Except QrError Ski :=
  let digits := text.filter fun c => !(c == ' ' || c == ':' || c == '-' || c == '_')
  match digits.find? fun c => (hexDigit c).isNone with
  | some c => .error (.ski (.notHex c))
  | none =>
    match parseSki (String.ofList text) with
    | some ski => .ok ski
    | none => .error (.ski (.length digits.length))

def readFingerprint (text : List Char) : Except QrError Fingerprint :=
  if (String.ofList text).utf8ByteSize ≠ 64 then .error (.fingerprint (.length text.length))
  else
    match parseFingerprint (String.ofList text) with
    | some fingerprint => .ok fingerprint
    | none => .error (.fingerprint (.notHex ((text.find? fun c => (upperHexValue c).isNone).getD ' ')))

def checkValue (key : String) (value : List Char) (max : Nat) : Except DiscoveryError Unit :=
  if value.isEmpty then .error (.empty key)
  else if value.length > max then .error (.tooLong key max value.length)
  else
    match value.find? fun ch => ch == ';' || isControl ch || isWhitespace ch with
    | some ch => .error (.prohibitedCharacter key ch)
    | none => .ok ()

structure ShipId where
  text : List Char
deriving DecidableEq

def readShipId (s : List Char) : Except QrError ShipId :=
  match checkValue "id" s 63 with
  | .error error => .error (.value error)
  | .ok () => .ok ⟨s⟩

inductive DeviceCategory
  | gridConnectionPointHub
  | energyManagementSystem
  | eMobility
  | hvac
  | inverter
  | domesticAppliance
  | meteringDevice
deriving DecidableEq

namespace DeviceCategory

def fromNumber : Nat → Option DeviceCategory
  | 1 => some gridConnectionPointHub
  | 2 => some energyManagementSystem
  | 3 => some eMobility
  | 4 => some hvac
  | 5 => some inverter
  | 6 => some domesticAppliance
  | 7 => some meteringDevice
  | _ => none

def number : DeviceCategory → Nat
  | gridConnectionPointHub => 1
  | energyManagementSystem => 2
  | eMobility => 3
  | hvac => 4
  | inverter => 5
  | domesticAppliance => 6
  | meteringDevice => 7

end DeviceCategory

def unsignedOf (digits : List Char) : Option Nat :=
  if digits.isEmpty || !digits.all Char.isDigit then none else some (numberOf digits)

def parseU8 (s : List Char) : Option Nat :=
  (unsignedOf ((stripPrefix '+' s).getD s)).filter (· < 2 ^ 8)

def parseI64 (s : List Char) : Option Int :=
  match stripPrefix '-' s with
  | some digits => ((unsignedOf digits).map fun n : Nat => -(n : Int)).filter (-(2 ^ 63) ≤ ·)
  | none => ((unsignedOf ((stripPrefix '+' s).getD s)).map fun n : Nat => (n : Int)).filter (· < 2 ^ 63)

def intText (n : Int) : List Char := if n < 0 then '-' :: digitsOf n.natAbs else digitsOf n.natAbs

structure ShipQr where
  ski : Ski
  pin : Option (List Char)
  id : Option ShipId
  brand : Option (List Char)
  deviceType : Option (List Char)
  model : Option (List Char)
  serial : Option (List Char)
  categories : List DeviceCategory
  /-- Production and consumption, in watts. -/
  nominalPower : Option (Int × Int)
  brainpoolP256r1Ski : Option Ski
  brainpoolP384r1Ski : Option Ski
  publicKey : Option (List Char)
  certificateUrl : Option (List Char)
  certificateFingerprint : Option Fingerprint
  pairingSecret : Option (List Char)
  /-- Keys this version does not know, in the order they appeared. -/
  unknown : List (List Char × List Char)
deriving DecidableEq

def knownKeys : List String :=
  ["SKI", "BSKI", "B2SKI", "ID", "PIN", "BRAND", "TYPE", "MODEL", "SERIAL", "PKEY", "PBKEY", "PB2KEY",
    "CERTURL", "CERTBURL", "CERTB2URL", "FPH256", "SPSEC", "CAT", "NOMINALPOWER"]

def isRepresentable (key value : List Char) : Bool :=
  !key.any (fun c => c == ';' || c == ':') && !value.contains ';' && !key.head?.any isWhitespace &&
    !value.head?.any isWhitespace && !value.getLast?.any isWhitespace &&
    !knownKeys.any fun known => known.toList == key

def skiDisplay (ski : Ski) : List Char :=
  withSeparators ' ' (fun i => i != 0 && i * 2 % 4 == 0)
    (fun b => [upperHexDigit (b.toNat / 16), upperHexDigit (b.toNat % 16)]) ski.bytes.toList

namespace ShipQr

def empty (ski : Ski) : ShipQr :=
  ⟨ski, none, none, none, none, none, none, [], none, none, none, none, none, none, none, []⟩

def written (key : String) (value : Option (List Char)) : List Char :=
  match value with
  | some value => key.toList ++ ':' :: value ++ [';']
  | none => []

def toPayload (qr : ShipQr) : List Char :=
  "SHIP;".toList ++ written "SKI" (some (skiDisplay qr.ski)) ++ written "PIN" (qr.pin.map groupInFours) ++
    written "ID" (qr.id.map ShipId.text) ++ written "BRAND" qr.brand ++ written "TYPE" qr.deviceType ++
    written "MODEL" qr.model ++ written "BSKI" (qr.brainpoolP256r1Ski.map skiDisplay) ++
    written "B2SKI" (qr.brainpoolP384r1Ski.map skiDisplay) ++ written "PKEY" qr.publicKey ++
    written "CERTURL" qr.certificateUrl ++ written "SERIAL" qr.serial ++
    (if qr.categories.isEmpty then []
      else written "CAT" (some ([','].intercalate (qr.categories.map fun c => digitsOf c.number)))) ++
    written "NOMINALPOWER" (qr.nominalPower.map fun p => intText p.1 ++ ',' :: intText p.2) ++
    written "FPH256" (qr.certificateFingerprint.map fun f => (fingerprintHex f).toList) ++
    written "SPSEC" qr.pairingSecret ++
    (qr.unknown.flatMap fun p => if !isRepresentable p.1 p.2 then [] else p.1 ++ ':' :: p.2 ++ [';']) ++
    "ENDSHIP;".toList

inductive Route
  | ski | bski | b2ski | id | pin | brand | type | model | serial | pkey | certUrl | fph256 | spsec | cat
  | nominalPower
deriving DecidableEq

def routes : List (String × Route) :=
  [("SKI", .ski), ("BSKI", .bski), ("B2SKI", .b2ski), ("ID", .id), ("PIN", .pin), ("BRAND", .brand),
    ("TYPE", .type), ("MODEL", .model), ("SERIAL", .serial), ("PKEY", .pkey), ("PBKEY", .pkey),
    ("PB2KEY", .pkey), ("CERTURL", .certUrl), ("CERTBURL", .certUrl), ("CERTB2URL", .certUrl),
    ("FPH256", .fph256), ("SPSEC", .spsec), ("CAT", .cat), ("NOMINALPOWER", .nominalPower)]

def routeOf (key : List Char) : Option Route :=
  (routes.find? fun r => r.1.toList == key).map Prod.snd

structure Scan where
  qr : ShipQr
  haveSki : Bool
deriving DecidableEq

def readCategory (value : List Char) (categories : List DeviceCategory) (part : List Char) :
    Except QrError (List DeviceCategory) :=
  match (parseU8 (trim part)).bind DeviceCategory.fromNumber with
  | none => .error (.value (.categories value))
  | some category => .ok (if categories.contains category then categories else categories ++ [category])

def readNominalPower (value : List Char) : Except QrError (Int × Int) :=
  match splitOnce ',' value with
  | none => .error (.nominalPower value)
  | some (production, consumption) =>
    match parseI64 (trim production), parseI64 (trim consumption) with
    | some production, some consumption => .ok (production, consumption)
    | _, _ => .error (.nominalPower value)

def readValue (qr : ShipQr) (route : Route) (field value : List Char) : Except QrError ShipQr :=
  match route with
  | .ski => do
    let ski ← readSki value
    .ok { qr with ski := ski }
  | .bski => do
    let ski ← readSki value
    .ok { qr with brainpoolP256r1Ski := some ski }
  | .b2ski => do
    let ski ← readSki value
    .ok { qr with brainpoolP384r1Ski := some ski }
  -- the ID contains colons itself
  | .id => do
    let id ← readShipId ((stripText "ID:".toList field).getD value)
    .ok { qr with id := some id }
  | .pin => .ok { qr with pin := some (stripSpaces value) }
  | .brand => .ok { qr with brand := some value }
  | .type => .ok { qr with deviceType := some value }
  | .model => .ok { qr with model := some value }
  | .serial => .ok { qr with serial := some value }
  | .pkey => .ok { qr with publicKey := some (stripSpaces value) }
  | .certUrl => .ok { qr with certificateUrl := some (trim (((splitOnce ':' field).map Prod.snd).getD value)) }
  | .fph256 => do
    let fingerprint ← readFingerprint (stripSpaces value)
    .ok { qr with certificateFingerprint := some fingerprint }
  | .spsec => .ok { qr with pairingSecret := some (stripSpaces value) }
  | .cat => do
    let parts := (value.splitOn ',').filter fun part => !part.isEmpty
    let categories ← parts.foldlM (readCategory value) qr.categories
    .ok { qr with categories := categories }
  | .nominalPower => do
    let power ← readNominalPower value
    .ok { qr with nominalPower := some power }

def readField (scan : Scan) (field : List Char) : Except QrError Scan :=
  let field := trim field
  if field.isEmpty || field == "ENDSHIP".toList then .ok scan
  else
    match splitOnce ':' field with
    | none => .error (.malformedField field)
    | some (key, value) =>
      let value := trim value
      match routeOf key with
      | some route => do
        let qr ← scan.qr.readValue route field value
        .ok ⟨qr, scan.haveSki || route == .ski⟩
      | none => .ok { scan with qr := { scan.qr with unknown := scan.qr.unknown ++ [(key, value)] } }

/-- The SKI is mandatory; until it is read its placeholder never escapes. -/
def fromStr (s : List Char) : Except QrError ShipQr :=
  match stripText "SHIP;".toList (trim s) with
  | none => .error .notShip
  | some body => do
    let scan ← (body.splitOn ';').foldlM readField ⟨.empty (.ofNat 0), false⟩
    if scan.haveSki then .ok scan.qr else .error .missingSki

end ShipQr

end Eebus.Runtime
