import Eebus.Ship.Messages

/-! Certificate updates: what a node knows about a peer's key material, and what an announcement of
the peer changes about it. -/

namespace Eebus.Ship

instance : LT Ski := ⟨fun a b => a.bytes.toList < b.bytes.toList⟩

instance (a b : Ski) : Decidable (a < b) := inferInstanceAs (Decidable (a.bytes.toList < b.bytes.toList))

def Ski.ofNat (n : Nat) : Ski := ⟨Vector.ofFn fun i => UInt8.ofNat (n / 256 ^ (19 - i.val))⟩

instance (n : Nat) : OfNat Ski n := ⟨.ofNat n⟩

def hexDigit (c : Char) : Option Nat :=
  if '0' ≤ c ∧ c ≤ '9' then some (c.toNat - '0'.toNat)
  else if 'a' ≤ c ∧ c ≤ 'f' then some (c.toNat - 'a'.toNat + 10)
  else if 'A' ≤ c ∧ c ≤ 'F' then some (c.toNat - 'A'.toNat + 10)
  else none

/-- Forty hexadecimal digits, with the separators of a transcription ignored. -/
def parseSki (text : String) : Option Ski := do
  let digits ← (text.toList.filter fun c => !(c == ' ' || c == ':' || c == '-' || c == '_')).mapM
    hexDigit
  if digits.length = 40 then
    some ⟨Vector.ofFn fun i => UInt8.ofNat (digits.getD (2 * i) 0 * 16 + digits.getD (2 * i + 1) 0)⟩
  else none

def curveSecp256r1 : Nat := 23

/-- The certificate an entry puts forward on the curve of the connection: a readable one, current or
successor. -/
def KeyMaterialStateEntry.keeps (entry : KeyMaterialStateEntry) (negotiatedCurve : Nat) :
    Option (Nat × Ski) := do
  let state ← entry.currentState
  let curve ← entry.curve
  let ski ← entry.ski.bind parseSki
  if curve ≠ negotiatedCurve then none
  else
    match state with
    | .current | .successor => some (curve, ski)
    | .predecessor => none

def KeyMaterialState.keep (message : KeyMaterialState) (negotiatedCurve : Nat) :
    List (Nat × Ski) :=
  (message.entry.getD []).filterMap fun entry => entry.keeps negotiatedCurve

structure KeyUpdate where
  trust : List Ski
  untrust : List Ski
  advanced : Bool
deriving DecidableEq

structure PeerKeys where
  updateCounter : Nat
  trusted : List (Nat × Ski)
deriving DecidableEq

namespace PeerKeys

def new : PeerKeys := ⟨0, []⟩

def isOutdatedBy (keys : PeerKeys) (announced : Nat) : Bool := announced > keys.updateCounter

def apply (keys : PeerKeys) (message : KeyMaterialState) (negotiatedCurve : Nat) :
    Option (PeerKeys × KeyUpdate) := do
  let announced ← message.updateCounter
  if announced < keys.updateCounter then none
  else
    let keep := message.keep negotiatedCurve
    let trust := (keep.filter fun k => !keys.trusted.contains k).map Prod.snd
    let untrust :=
      (keys.trusted.filter fun k => k.1 == negotiatedCurve && !keep.contains k).map Prod.snd
    some (⟨announced, keys.trusted.filter (fun k => k.1 != negotiatedCurve) ++ keep⟩,
      ⟨trust, untrust, announced > keys.updateCounter⟩)

end PeerKeys

theorem KeyMaterialState.curve_of_mem_keep {message : KeyMaterialState} {curve : Nat}
    {k : Nat × Ski} (h : k ∈ message.keep curve) : k.1 = curve := by
  obtain ⟨entry, -, hkeeps⟩ := List.mem_filterMap.mp h
  simp only [KeyMaterialStateEntry.keeps, Option.bind_eq_bind, Option.bind_eq_some_iff] at hkeeps
  obtain ⟨state, -, c, -, ski, -, hk⟩ := hkeeps
  split at hk
  case isTrue => simp at hk
  case isFalse hcurve =>
    cases state with
    | predecessor => simp at hk
    | current | successor =>
      cases hk
      simpa using hcurve

namespace PeerKeys

variable {keys keys' : PeerKeys} {message : KeyMaterialState} {curve : Nat} {update : KeyUpdate}

section

variable (h : keys.apply message curve = some (keys', update))

include h

theorem apply_some :
    ∃ announced, message.updateCounter = some announced ∧ keys.updateCounter ≤ announced ∧
      keys' = ⟨announced, keys.trusted.filter (fun k => k.1 != curve) ++ message.keep curve⟩ ∧
      update =
        ⟨((message.keep curve).filter fun k => !keys.trusted.contains k).map Prod.snd,
          (keys.trusted.filter fun k => k.1 == curve && !(message.keep curve).contains k).map Prod.snd,
          announced > keys.updateCounter⟩ := by
  simp only [apply, Option.bind_eq_bind, Option.bind_eq_some_iff] at h
  obtain ⟨announced, hannounced, hset⟩ := h
  split at hset
  case isTrue => simp at hset
  case isFalse hnot =>
    simp only [Option.some.injEq, Prod.mk.injEq] at hset
    exact ⟨announced, hannounced, not_lt.mp hnot, hset.1.symm, hset.2.symm⟩

theorem apply_spec (ski : Ski) :
    ((curve, ski) ∈ keys'.trusted ↔ (curve, ski) ∈ message.keep curve) ∧
    (ski ∈ update.trust ↔ (curve, ski) ∈ message.keep curve ∧ (curve, ski) ∉ keys.trusted) ∧
    (ski ∈ update.untrust ↔ (curve, ski) ∈ keys.trusted ∧ (curve, ski) ∉ message.keep curve) := by
  obtain ⟨announced, -, -, rfl, rfl⟩ := apply_some h
  refine ⟨by simp, ?_, ?_⟩
  · simp only [List.mem_map, List.mem_filter, Prod.exists]
    constructor
    · rintro ⟨c, s, ⟨hkeep, hnew⟩, rfl⟩
      obtain rfl : c = curve := KeyMaterialState.curve_of_mem_keep hkeep
      exact ⟨hkeep, by simpa using hnew⟩
    · rintro ⟨hkeep, hnew⟩
      exact ⟨curve, ski, ⟨hkeep, by simpa using hnew⟩, rfl⟩
  · simp only [List.mem_map, List.mem_filter, Prod.exists]
    constructor
    · rintro ⟨c, s, ⟨hold, hgone⟩, rfl⟩
      simp only [Bool.and_eq_true, beq_iff_eq, Bool.not_eq_true'] at hgone
      obtain ⟨rfl, hnot⟩ := hgone
      exact ⟨hold, by simpa using hnot⟩
    · rintro ⟨hold, hgone⟩
      exact ⟨curve, ski, ⟨hold, by simpa using hgone⟩, rfl⟩

theorem apply_counter :
    message.updateCounter = some keys'.updateCounter ∧ keys.updateCounter ≤ keys'.updateCounter := by
  obtain ⟨announced, hannounced, hle, rfl, -⟩ := apply_some h
  exact ⟨hannounced, hle⟩

theorem apply_other {other : Nat} (hother : other ≠ curve) (ski : Ski) :
    (other, ski) ∈ keys'.trusted ↔ (other, ski) ∈ keys.trusted := by
  obtain ⟨announced, -, -, rfl, -⟩ := apply_some h
  have hkeep : (other, ski) ∉ message.keep curve := fun hmem =>
    hother (KeyMaterialState.curve_of_mem_keep hmem)
  simp [hkeep, hother]

end

end PeerKeys

def byteDigits (b : UInt8) : List Nat := [b.toNat / 16, b.toNat % 16]

theorem hexDigit_digitChar {n : Nat} (h : n < 16) : hexDigit n.digitChar.toUpper = some n := by
  have hall : ∀ n : Fin 16, hexDigit n.val.digitChar.toUpper = some n.val := by decide
  exact hall ⟨n, h⟩

theorem digitChar_kept {n : Nat} (h : n < 16) :
    (!(n.digitChar.toUpper == ' ' || n.digitChar.toUpper == ':' || n.digitChar.toUpper == '-' ||
      n.digitChar.toUpper == '_')) = true := by
  have hall : ∀ n : Fin 16, (!(n.val.digitChar.toUpper == ' ' || n.val.digitChar.toUpper == ':' ||
      n.val.digitChar.toUpper == '-' || n.val.digitChar.toUpper == '_')) = true := by decide
  exact hall ⟨n, h⟩

theorem digits_read (bytes : List UInt8) :
    ((bytes.flatMap fun b => [(b.toNat / 16).digitChar.toUpper, (b.toNat % 16).digitChar.toUpper]).filter
        fun c => !(c == ' ' || c == ':' || c == '-' || c == '_')).mapM hexDigit =
      some (bytes.flatMap byteDigits) := by
  induction bytes with
  | nil => rfl
  | cons b rest ih =>
    have hhigh : b.toNat / 16 < 16 := by have := b.toNat_lt; omega
    have hlow : b.toNat % 16 < 16 := Nat.mod_lt _ (by decide)
    simp only [List.flatMap_cons, List.cons_append, List.nil_append, List.filter_cons,
      digitChar_kept hhigh, digitChar_kept hlow, if_true, List.mapM_cons, hexDigit_digitChar hhigh,
      hexDigit_digitChar hlow, ih]
    rfl

theorem digits_length (bytes : List UInt8) : (bytes.flatMap byteDigits).length = 2 * bytes.length := by
  induction bytes with
  | nil => rfl
  | cons b rest ih => simp [byteDigits, ih]; omega

theorem digits_byte (bytes : List UInt8) (i : Nat) (hi : i < bytes.length) :
    UInt8.ofNat ((bytes.flatMap byteDigits).getD (2 * i) 0 * 16 +
      (bytes.flatMap byteDigits).getD (2 * i + 1) 0) = bytes[i] := by
  induction bytes generalizing i with
  | nil => simp at hi
  | cons b rest ih =>
    cases i with
    | zero =>
      have hb : b.toNat / 16 * 16 + b.toNat % 16 = b.toNat := Nat.div_add_mod' _ _
      simp [byteDigits, hb]
    | succ i =>
      have hi' : i < rest.length := by simpa using hi
      have htwo : 2 * (i + 1) = 2 * i + 2 := by omega
      simpa [byteDigits, htwo] using ih i hi'

theorem parseSki_toTxtValue (ski : Ski) : parseSki ski.toTxtValue = some ski := by
  have hread := digits_read ski.bytes.toList
  have hlength := digits_length ski.bytes.toList
  rw [Vector.length_toList] at hlength
  simp only [parseSki, Ski.toTxtValue, String.toList_ofList, hread, Option.bind_eq_bind,
    Option.bind_some, hlength]
  refine congrArg some ?_
  cases ski with
  | mk bytes =>
    simp only [Ski.mk.injEq]
    refine Vector.ext fun i hi => ?_
    rw [Vector.getElem_ofFn, digits_byte bytes.toList i (by simpa using hi), Vector.getElem_toList]

end Eebus.Ship
