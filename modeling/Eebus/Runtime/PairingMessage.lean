import Eebus.Runtime.Pairing
import Eebus.Ship.Keys

/-!
What a pairing request is signed over. The message runs the fields together without escaping them, and
the text of a SHIP ID is free.
-/

namespace Eebus.Runtime

open Eebus.Ship

def isUpperHexDigit (c : Char) : Bool := ('0' ≤ c && c ≤ '9') || ('A' ≤ c && c ≤ 'F')

def isUpperHex (s : String) : Bool := !s.isEmpty && s.toList.all isUpperHexDigit

def upperHexDigit (n : Nat) : Char := n.digitChar.toUpper

def encodeHexUpper (bytes : List UInt8) : String :=
  String.ofList (bytes.flatMap fun b => [upperHexDigit (b.toNat / 16), upperHexDigit (b.toNat % 16)])

def decodePairs : List Char → Except PairingError (List UInt8)
  | [] => .ok []
  | [_] => .error .invalidHex
  | hi :: lo :: rest =>
    match hexDigit hi, hexDigit lo with
    | some hi, some lo => do .ok (UInt8.ofNat (hi * 16 + lo) :: (← decodePairs rest))
    | _, _ => .error .invalidHex

def isAsciiWhitespace (c : Char) : Bool := [' ', '\t', '\n', '\x0c', '\r'].contains c

def decodeHex (s : String) : Except PairingError (List UInt8) :=
  decodePairs (s.toList.filter fun c => !isAsciiWhitespace c)

def hexDigits : Nat → Nat → List Char
  | 0, _ => []
  | width + 1, n => hexDigits width (n / 16) ++ [upperHexDigit (n % 16)]

@[simp] theorem length_hexDigits (width n : Nat) : (hexDigits width n).length = width := by
  induction width generalizing n with
  | zero => rfl
  | succ width ih => rw [hexDigits, List.length_append, ih, List.length_singleton]

theorem upperHexDigit_injective {m n : Nat} (hm : m < 16) (hn : n < 16)
    (h : upperHexDigit m = upperHexDigit n) : m = n := by
  have hread := hexDigit_digitChar hm
  change hexDigit (upperHexDigit m) = some m at hread
  rw [h] at hread
  exact Option.some.inj (hread.symm.trans (hexDigit_digitChar hn))

theorem hexDigits_injective {width m n : Nat} (hm : m < 16 ^ width) (hn : n < 16 ^ width)
    (h : hexDigits width m = hexDigits width n) : m = n := by
  induction width generalizing m n with
  | zero => omega
  | succ width ih =>
    obtain ⟨hhigh, hlow⟩ := List.append_inj' h rfl
    have hquot : m / 16 = n / 16 :=
      ih (Nat.div_lt_of_lt_mul (by rwa [Nat.pow_succ'] at hm))
        (Nat.div_lt_of_lt_mul (by rwa [Nat.pow_succ'] at hn)) hhigh
    have hrem : m % 16 = n % 16 :=
      upperHexDigit_injective (Nat.mod_lt _ (by decide)) (Nat.mod_lt _ (by decide))
        (List.cons.inj hlow).1
    omega

def fingerprintHex (fingerprint : Fingerprint) : String := String.ofList (hexDigits 64 fingerprint.val)

theorem fingerprintHex_injective {a b : Fingerprint}
    (h : (fingerprintHex a).toList = (fingerprintHex b).toList) : a = b := by
  rw [fingerprintHex, fingerprintHex, String.toList_ofList, String.toList_ofList] at h
  exact Fin.ext (hexDigits_injective a.isLt b.isLt h)

def txtVers : String := "1"

def curves : List String := ["secp256r1", "brainpoolP256r1", "brainpoolP384r1"]

namespace PairingRequest

def staticPairs (request : PairingRequest) : List (String × String) :=
  [("txtvers", txtVers),
   ("parType", "fpSha256"),
   ("forId", request.forId),
   ("forPar", fingerprintHex request.forPar),
   ("trustId", request.trustId),
   ("trustPar", fingerprintHex request.trustPar),
   ("trustCurve", request.trustCurve),
   ("type", "addCu"),
   ("trustNonce", request.trustNonce),
   ("alg", "hmacSha256")]

def digestMessage (request : PairingRequest) : String :=
  request.staticPairs.foldl (fun m pair => m ++ pair.1 ++ "=" ++ pair.2 ++ ";") ""

def validate (request : PairingRequest) : Except PairingError Unit :=
  if request.forId = "" then .error (.invalidField "forId" "a SHIP ID")
  else if request.trustId = "" then .error (.invalidField "trustId" "a SHIP ID")
  else if request.trustCurve ∉ curves then .error (.unsupported "trustCurve" request.trustCurve)
  else .ok ()

theorem curve_of_validate {request : PairingRequest} (h : request.validate = .ok ()) :
    request.trustCurve ∈ curves := by
  unfold validate at h
  split at h
  · nomatch h
  split at h
  · nomatch h
  split at h
  · nomatch h
  · rename_i hcurve
    exact Decidable.not_not.mp hcurve

def trustText (request : PairingRequest) : List Char :=
  request.trustId.toList ++ (";trustPar=".toList ++ ((fingerprintHex request.trustPar).toList ++
    (";trustCurve=".toList ++ request.trustCurve.toList)))

theorem toList_digestMessage (request : PairingRequest) : request.digestMessage.toList =
      "txtvers=1;parType=fpSha256;forId=".toList ++ (request.forId.toList ++ (";forPar=".toList ++
        ((fingerprintHex request.forPar).toList ++ (";trustId=".toList ++ (request.trustText ++
          (";type=addCu;trustNonce=".toList ++ (request.trustNonce.toList ++
            ";alg=hmacSha256;".toList))))))) := by
  simp [digestMessage, staticPairs, txtVers, trustText]

theorem drop_append_end {α : Type*} (a c : List α) {n : Nat} (h : n ≤ c.length) :
    (a ++ c).drop ((a ++ c).length - n) = c.drop (c.length - n) := by
  have hlength : (a ++ c).length - n = a.length + (c.length - n) := by
    rw [List.length_append]
    omega
  rw [hlength, List.drop_length_add_append]

theorem curve_of_drop {c c' : String} (hc : c ∈ curves) (hc' : c' ∈ curves)
    (h : c.toList.drop (c.toList.length - 6) = c'.toList.drop (c'.toList.length - 6)) : c = c' := by
  have hall : ∀ c ∈ curves, ∀ c' ∈ curves,
      c.toList.drop (c.toList.length - 6) = c'.toList.drop (c'.toList.length - 6) → c = c' := by decide
  exact hall c hc c' hc' h

theorem trustText_injective {r r' : PairingRequest} (hcurve : r.trustCurve ∈ curves)
    (hcurve' : r'.trustCurve ∈ curves) (h : r.trustText = r'.trustText) :
    r.trustId = r'.trustId ∧ r.trustPar = r'.trustPar ∧ r.trustCurve = r'.trustCurve := by
  have hlong : ∀ c ∈ curves, 6 ≤ c.toList.length := by decide
  have hend := congrArg (fun l => l.drop (l.length - 6)) h
  simp only [trustText, ← List.append_assoc] at hend h
  rw [drop_append_end _ _ (hlong _ hcurve), drop_append_end _ _ (hlong _ hcurve')] at hend
  have hsame := curve_of_drop hcurve hcurve' hend
  rw [hsame] at h
  obtain ⟨hid, hpar⟩ := List.append_inj' (List.append_cancel_right (List.append_cancel_right h))
    (by simp [fingerprintHex])
  exact ⟨String.toList_inj.mp (List.append_cancel_right hid), fingerprintHex_injective hpar, hsame⟩

theorem digestMessage_injective {r r' : PairingRequest} (hvalid : r.validate = .ok ())
    (hvalid' : r'.validate = .ok ()) (hid : r.forId = r'.forId) (hnonce : r.trustNonce = r'.trustNonce)
    (h : r.digestMessage = r'.digestMessage) : r = r' := by
  have hlist := congrArg String.toList h
  rw [toList_digestMessage, toList_digestMessage, hid, hnonce] at hlist
  have hpars := List.append_cancel_left (List.append_cancel_left (List.append_cancel_left hlist))
  obtain ⟨hpar, htail⟩ := List.append_inj hpars (by simp [fingerprintHex])
  obtain ⟨htrust, -⟩ := List.append_inj' (List.append_cancel_left htail) rfl
  obtain ⟨htrustId, htrustPar, htrustCurve⟩ :=
    trustText_injective (curve_of_validate hvalid) (curve_of_validate hvalid') htrust
  have hforPar := fingerprintHex_injective hpar
  cases r
  cases r'
  simp_all

end PairingRequest

end Eebus.Runtime
