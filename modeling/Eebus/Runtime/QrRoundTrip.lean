import Eebus.Runtime.QrCode

/-! A scanned code, written again and scanned again, is the same code. -/

namespace Eebus.Runtime

open Eebus.Library Eebus.Model Eebus.Ship

/-- What one field can carry: no semicolon in it and no white space around it. -/
structure Legible (value : List Char) : Prop where
  trimmed : trim value = value
  noSemicolon : ';' ∉ value

def Solid (value : List Char) : Prop := ∀ c ∈ value, isWhitespace c = false ∧ c ≠ ';'

theorem Solid.legible {value : List Char} (h : Solid value) : Legible value :=
  ⟨trimmed_of_forall fun c hc => (h c hc).1, fun hmem => (h _ hmem).2 rfl⟩

theorem Solid.stripSpaces {value : List Char} (h : Solid value) : stripSpaces value = value :=
  List.filter_eq_self.mpr fun c hc => by rw [(h c hc).1, Bool.not_false]

theorem solid_stripSpaces {value : List Char} (h : ';' ∉ value) : Solid (stripSpaces value) := by
  intro c hc
  obtain ⟨hmem, hspace⟩ := List.mem_filter.mp hc
  exact ⟨by simpa using hspace, fun heq => h (heq ▸ hmem)⟩

theorem legible_trim {value : List Char} (h : ';' ∉ value) : Legible (trim value) :=
  ⟨trimmed_trimmed, fun hmem => h (mem_of_mem_trimmed hmem)⟩

theorem stripText_append (p rest : List Char) : stripText p (p ++ rest) = some rest := by
  rw [stripText, if_pos (List.isPrefixOf_iff_prefix.mpr (List.prefix_append p rest)), List.drop_left]

theorem plain_of_alphanum {c : Char} (h : c.isAlphanum = true) :
    isWhitespace c = false ∧ c ≠ ';' ∧ c ≠ ':' ∧ c ≠ ',' := by
  have hrange : (48 ≤ c.toNat ∧ c.toNat ≤ 57) ∨ (65 ≤ c.toNat ∧ c.toNat ≤ 90) ∨ (97 ≤ c.toNat ∧ c.toNat ≤ 122) := by
    change ((decide ('A'.val ≤ c.val ∧ c.val ≤ 'Z'.val) || (decide ('a'.val ≤ c.val) && decide (c.val ≤ 'z'.val))) ||
      (decide ('0'.val ≤ c.val) && decide (c.val ≤ '9'.val))) = true at h
    simp only [Bool.or_eq_true, Bool.and_eq_true, decide_eq_true_eq, UInt32.le_iff_toNat_le] at h
    change ((65 ≤ c.toNat ∧ c.toNat ≤ 90) ∨ (97 ≤ c.toNat ∧ c.toNat ≤ 122)) ∨ (48 ≤ c.toNat ∧ c.toNat ≤ 57) at h
    omega
  have hmark : ∀ mark : Char, (mark.toNat < 48 ∨ 57 < mark.toNat ∧ mark.toNat < 65) → c ≠ mark := by
    rintro mark hmark rfl
    omega
  refine ⟨?_, hmark ';' (.inr (by decide)), hmark ':' (.inr (by decide)), hmark ',' (.inl (by decide))⟩
  simp only [isWhitespace, Bool.or_eq_false_iff, Bool.and_eq_false_iff, beq_eq_false_iff_ne, ne_eq,
    decide_eq_false_iff_not]
  omega

theorem solid_of_alphanum {value : List Char} (h : ∀ c ∈ value, c.isAlphanum = true) : Solid value :=
  fun c hc => ⟨(plain_of_alphanum (h c hc)).1, (plain_of_alphanum (h c hc)).2.1⟩

theorem alphanum_upperHexDigit {n : Nat} (h : n < 16) : (upperHexDigit n).isAlphanum = true := by
  have hall : ∀ n : Fin 16, (upperHexDigit n.val).isAlphanum = true := by decide
  exact hall ⟨n, h⟩

theorem alphanum_digitsOf {n : Nat} {c : Char} (h : c ∈ digitsOf n) : c.isAlphanum = true := by
  rw [Char.isAlphanum, isDigit_of_mem_digitsOf h, Bool.or_true]

theorem legible_groupInFours {value : List Char} (h : Solid value) : Legible (groupInFours value) where
  trimmed := trimmed_withSeparators rfl fun c hc =>
    ⟨List.cons_ne_nil c [], fun _ ha => List.mem_singleton.mp ha ▸ (h c hc).1⟩
  noSemicolon hmem := by
    obtain hspace | ⟨c, hc, heq⟩ := mem_withSeparators hmem
    · cases hspace
    · exact (h c hc).2 (List.mem_singleton.mp heq).symm

theorem stripSpaces_groupInFours {value : List Char} (h : Solid value) :
    stripSpaces (groupInFours value) = value := by
  rw [stripSpaces, groupInFours, filter_withSeparators rfl, List.flatMap_singleton']
  intro c hc a ha
  rw [List.mem_singleton.mp ha, (h c hc).1, Bool.not_false]

section SkiText

variable (ski : Ski)

theorem alphanum_byte {b : UInt8} {c : Char}
    (h : c ∈ [upperHexDigit (b.toNat / 16), upperHexDigit (b.toNat % 16)]) : c.isAlphanum = true := by
  have hhigh : b.toNat / 16 < 16 := by have := b.toNat_lt; omega
  have hlow : b.toNat % 16 < 16 := Nat.mod_lt _ (by decide)
  cases h with
  | head => exact alphanum_upperHexDigit hhigh
  | tail _ h => exact List.mem_singleton.mp h ▸ alphanum_upperHexDigit hlow

theorem legible_skiDisplay : Legible (skiDisplay ski) where
  trimmed := trimmed_withSeparators rfl fun _ _ =>
    ⟨List.cons_ne_nil _ _, fun _ ha => (plain_of_alphanum (alphanum_byte ha)).1⟩
  noSemicolon hmem := by
    obtain hspace | ⟨b, -, hc⟩ := mem_withSeparators hmem
    · cases hspace
    · exact (plain_of_alphanum (alphanum_byte hc)).2.1 rfl

theorem filter_skiDisplay :
    (skiDisplay ski).filter (fun c => !(c == ' ' || c == ':' || c == '-' || c == '_')) = ski.toTxtValue.toList := by
  rw [skiDisplay, filter_withSeparators rfl, Ski.toTxtValue, String.toList_ofList]
  · rfl
  · intro b _ c hc
    have hhigh : b.toNat / 16 < 16 := by have := b.toNat_lt; omega
    have hlow : b.toNat % 16 < 16 := Nat.mod_lt _ (by decide)
    cases hc with
    | head => exact digitChar_kept hhigh
    | tail _ hc => exact List.mem_singleton.mp hc ▸ digitChar_kept hlow

theorem filter_toTxtValue :
    ski.toTxtValue.toList.filter (fun c => !(c == ' ' || c == ':' || c == '-' || c == '_')) =
      ski.toTxtValue.toList := by
  rw [← filter_skiDisplay, List.filter_filter]
  simp only [Bool.and_self]

theorem readSki_skiDisplay : readSki (skiDisplay ski) = .ok ski := by
  have hparse : parseSki (String.ofList (skiDisplay ski)) = some ski := by
    rw [← parseSki_toTxtValue ski, parseSki, parseSki, String.toList_ofList, filter_skiDisplay, filter_toTxtValue]
  have hdigits : (ski.toTxtValue.toList.find? fun c => (hexDigit c).isNone) = none := by
    rw [List.find?_eq_none, Ski.toTxtValue, String.toList_ofList]
    intro c hc
    obtain ⟨b, -, hc⟩ := List.mem_flatMap.mp hc
    have hhigh : b.toNat / 16 < 16 := by have := b.toNat_lt; omega
    have hlow : b.toNat % 16 < 16 := Nat.mod_lt _ (by decide)
    cases hc with
    | head => rw [hexDigit_digitChar hhigh]; exact Bool.false_ne_true
    | tail _ hc => rw [List.mem_singleton.mp hc, hexDigit_digitChar hlow]; exact Bool.false_ne_true
  simp only [readSki, filter_skiDisplay, hdigits, hparse]

end SkiText

theorem alphanum_hexDigits {width n : Nat} {c : Char} (h : c ∈ hexDigits width n) : c.isAlphanum = true := by
  induction width generalizing n with
  | zero => cases h
  | succ width ih =>
    obtain h | h := List.mem_append.mp h
    · exact ih h
    · exact List.mem_singleton.mp h ▸ alphanum_upperHexDigit (Nat.mod_lt _ (by decide))

theorem upperHexValue_upperHexDigit {n : Nat} (h : n < 16) : upperHexValue (upperHexDigit n) = some n := by
  have hall : ∀ n : Fin 16, upperHexValue (upperHexDigit n.val) = some n.val := by decide
  exact hall ⟨n, h⟩

theorem read_hexDigits (width n : Nat) :
    ∃ digits, (hexDigits width n).mapM upperHexValue = some digits ∧
      digits.foldl (fun n digit => n * 16 + digit) 0 = n % 16 ^ width := by
  induction width generalizing n with
  | zero => exact ⟨[], rfl, (Nat.mod_one n).symm⟩
  | succ width ih =>
    obtain ⟨digits, hread, hsum⟩ := ih (n / 16)
    refine ⟨digits ++ [n % 16], ?_, ?_⟩
    · rw [hexDigits, List.mapM_append, hread]
      simp [upperHexValue_upperHexDigit (Nat.mod_lt n (show 0 < 16 by decide))]
    · rw [List.foldl_append, hsum, List.foldl_cons, List.foldl_nil, Nat.pow_succ', Nat.mod_mul]
      omega

theorem utf8ByteSize_hexDigits (width n : Nat) : (String.ofList (hexDigits width n)).utf8ByteSize = width := by
  have hone : ∀ n, n < 16 → (upperHexDigit n).utf8Size = 1 := by decide
  induction width generalizing n with
  | zero => rfl
  | succ width ih =>
    have hlast : (String.ofList [upperHexDigit (n % 16)]).utf8ByteSize = 1 := by
      rw [← String.singleton_eq_ofList, String.utf8ByteSize_singleton, hone (n % 16) (Nat.mod_lt _ (by decide))]
    rw [hexDigits, String.ofList_append, String.utf8ByteSize_append, ih, hlast]

theorem parseFingerprint_fingerprintHex (fingerprint : Fingerprint) :
    parseFingerprint (fingerprintHex fingerprint) = some fingerprint := by
  obtain ⟨digits, hread, hsum⟩ := read_hexDigits 64 fingerprint.val
  have hlt : fingerprint.val < 16 ^ 64 := fingerprint.isLt
  rw [Nat.mod_eq_of_lt hlt] at hsum
  simp only [parseFingerprint, fingerprintHex, utf8ByteSize_hexDigits, String.toList_ofList, hread]
  simp [hsum]

theorem solid_fingerprintHex (fingerprint : Fingerprint) : Solid (fingerprintHex fingerprint).toList := by
  rw [fingerprintHex, String.toList_ofList]
  exact solid_of_alphanum fun _ => alphanum_hexDigits

theorem readFingerprint_fingerprintHex (fingerprint : Fingerprint) :
    readFingerprint (stripSpaces (fingerprintHex fingerprint).toList) = .ok fingerprint := by
  have hsize : (fingerprintHex fingerprint).utf8ByteSize = 64 := utf8ByteSize_hexDigits 64 _
  rw [(solid_fingerprintHex fingerprint).stripSpaces, readFingerprint, String.ofList_toList, if_neg (by simp [hsize]),
    parseFingerprint_fingerprintHex]

theorem solid_of_checkValue {key : String} {value : List Char} {max : Nat}
    (h : checkValue key value max = .ok ()) : Solid value := by
  intro c hc
  by_contra hbad
  have hfound : ∃ x ∈ value, (x == ';' || isControl x || isWhitespace x) = true := by
    refine ⟨c, hc, ?_⟩
    by_cases hspace : isWhitespace c = true
    · rw [hspace, Bool.or_true]
    · have hmark : c = ';' := by
        by_contra hne
        exact hbad ⟨Bool.eq_false_iff.mpr hspace, hne⟩
      rw [hmark]
      rfl
  obtain ⟨ch, hch⟩ := Option.isSome_iff_exists.mp (List.find?_isSome.mpr hfound)
  rw [checkValue, hch] at h
  split at h
  · cases h
  · split at h
    · cases h
    · cases h

theorem mem_intText {n : Int} {c : Char} (h : c ∈ intText n) : c = '-' ∨ c.isAlphanum = true := by
  rw [intText] at h
  split at h
  case isTrue =>
    cases h with
    | head => exact .inl rfl
    | tail _ h => exact .inr (alphanum_digitsOf h)
  case isFalse => exact .inr (alphanum_digitsOf h)

theorem solid_intText (n : Int) : Solid (intText n) := by
  intro c hc
  obtain rfl | halpha := mem_intText hc
  · decide
  · exact ⟨(plain_of_alphanum halpha).1, (plain_of_alphanum halpha).2.1⟩

theorem unsignedOf_digitsOf (n : Nat) : unsignedOf (digitsOf n) = some n := by
  have hsome : (digitsOf n).isEmpty = false := by simpa using digitsOf_ne_nil n
  rw [unsignedOf, hsome, all_digitsOf, numberOf_digitsOf]
  rfl

theorem stripPrefix_digitsOf {c : Char} (h : c.isDigit = false) (n : Nat) : stripPrefix c (digitsOf n) = none := by
  cases hdigits : digitsOf n with
  | nil => rfl
  | cons d rest =>
    have hd : d ∈ digitsOf n := hdigits ▸ List.mem_cons_self
    exact stripPrefix_digit (isDigit_of_mem_digitsOf hd) h

def Holds64 (n : Int) : Prop := -(2 ^ 63) ≤ n ∧ n < 2 ^ 63

theorem parseI64_intText {n : Int} (h : Holds64 n) : parseI64 (intText n) = some n := by
  obtain ⟨hlow, hhigh⟩ := h
  by_cases hneg : n < 0
  · have hn : -(n.natAbs : Int) = n := by omega
    rw [intText, if_pos hneg, parseI64, stripPrefix_self]
    dsimp only
    rw [unsignedOf_digitsOf, Option.map_some, hn]
    exact if_pos (decide_eq_true hlow)
  · have hn : (n.natAbs : Int) = n := by omega
    rw [intText, if_neg hneg, parseI64, stripPrefix_digitsOf rfl]
    dsimp only
    rw [stripPrefix_digitsOf rfl, Option.getD_none, unsignedOf_digitsOf, Option.map_some, hn]
    exact if_pos (decide_eq_true hhigh)

theorem holds64_of_parseI64 {s : List Char} {n : Int} (h : parseI64 s = some n) : Holds64 n := by
  unfold parseI64 at h
  split at h
  · obtain ⟨h, hlow⟩ := Option.filter_eq_some_iff.mp h
    obtain ⟨m, -, rfl⟩ := Option.map_eq_some_iff.mp h
    exact ⟨of_decide_eq_true hlow, by omega⟩
  · obtain ⟨h, hhigh⟩ := Option.filter_eq_some_iff.mp h
    obtain ⟨m, -, rfl⟩ := Option.map_eq_some_iff.mp h
    exact ⟨by omega, of_decide_eq_true hhigh⟩

namespace ShipQr

theorem readCategory_number (value : List Char) (categories : List DeviceCategory) (category : DeviceCategory) :
    readCategory value categories (digitsOf category.number) =
      .ok (if categories.contains category then categories else categories ++ [category]) := by
  have hread : (parseU8 (trim (digitsOf category.number))).bind DeviceCategory.fromNumber = some category := by
    cases category <;> decide
  rw [readCategory, hread]

theorem foldlM_readCategory (value : List Char) {categories more : List DeviceCategory}
    (h : (categories ++ more).Nodup) :
    (more.map fun category => digitsOf category.number).foldlM (readCategory value) categories =
      .ok (categories ++ more) := by
  induction more generalizing categories with
  | nil => rw [List.append_nil]; rfl
  | cons category more ih =>
    have hnew : category ∉ categories := fun hmem =>
      List.disjoint_of_nodup_append h hmem List.mem_cons_self
    rw [List.append_cons] at h ⊢
    rw [List.map_cons, List.foldlM_cons, readCategory_number, if_neg (by simpa using hnew)]
    exact ih h

theorem readNominalPower_text {power : Int × Int} (h : Holds64 power.1) (h' : Holds64 power.2) :
    readNominalPower (intText power.1 ++ ',' :: intText power.2) = .ok power := by
  have hplain : ∀ c ∈ intText power.1, c ≠ ',' := by
    intro c hc
    obtain rfl | halpha := mem_intText hc
    · decide
    · exact (plain_of_alphanum halpha).2.2.2
  rw [readNominalPower, splitOnce_append hplain]
  dsimp only
  rw [(solid_intText _).legible.trimmed, (solid_intText _).legible.trimmed, parseI64_intText h, parseI64_intText h']

theorem routeOf_eq_none_iff (key : List Char) :
    routeOf key = none ↔ (knownKeys.any fun known => known.toList == key) = false := by
  have hkeys : routes.map Prod.fst = knownKeys := rfl
  rw [routeOf, Option.map_eq_none_iff, List.find?_eq_none, ← hkeys, List.any_map, List.any_eq_false]
  rfl

theorem alphanum_of_routeOf {key : List Char} {route : Route} (h : routeOf key = some route) :
    ∀ c ∈ key, c.isAlphanum = true := by
  have hall : (routes.all fun r => r.1.toList.all Char.isAlphanum) = true := by decide
  obtain ⟨r, hr, -⟩ := Option.map_eq_some_iff.mp h
  have hkey : r.1.toList = key := by simpa using List.find?_some hr
  exact hkey ▸ List.all_eq_true.mp (List.all_eq_true.mp hall r (List.mem_of_find?_eq_some hr))

theorem isRepresentable_iff (key value : List Char) : isRepresentable key value = true ↔
      (';' ∉ key ∧ ':' ∉ key ∧ key.head?.any isWhitespace = false) ∧ Legible value ∧ routeOf key = none := by
  have hlegible : Legible value ↔
      (value.head?.any isWhitespace = false ∧ value.getLast?.any isWhitespace = false) ∧ ';' ∉ value :=
    ⟨fun h => ⟨trimmed_eq_self_iff.mp h.trimmed, h.noSemicolon⟩, fun h => ⟨trimmed_eq_self_iff.mpr h.1, h.2⟩⟩
  rw [hlegible, routeOf_eq_none_iff]
  simp only [isRepresentable, Bool.and_eq_true, Bool.not_eq_true', List.any_eq_false, Bool.or_eq_true,
    beq_iff_eq, not_or, List.contains_eq_mem, decide_eq_false_iff_not]
  grind

theorem ok_of_bind {ε α β : Type} {x : Except ε α} {f : α → Except ε β} {b : β} (h : x >>= f = .ok b) :
    ∃ a, x = .ok a ∧ f a = .ok b := by
  cases x with
  | error e => cases h
  | ok a => exact ⟨a, rfl, h⟩

/-- What every code that was read has: each value can be written in its field. -/
structure Kept (qr : ShipQr) : Prop where
  id : ∀ value ∈ qr.id, readShipId value.text = .ok value
  pin : ∀ value ∈ qr.pin, Solid value
  brand : ∀ value ∈ qr.brand, Legible value
  deviceType : ∀ value ∈ qr.deviceType, Legible value
  model : ∀ value ∈ qr.model, Legible value
  serial : ∀ value ∈ qr.serial, Legible value
  categories : qr.categories.Nodup
  nominalPower : ∀ power ∈ qr.nominalPower, Holds64 power.1 ∧ Holds64 power.2
  publicKey : ∀ value ∈ qr.publicKey, Solid value
  certificateUrl : ∀ value ∈ qr.certificateUrl, Legible value
  pairingSecret : ∀ value ∈ qr.pairingSecret, Solid value
  unknown : ∀ pair ∈ qr.unknown, isRepresentable pair.1 pair.2 = true

theorem kept_empty (ski : Ski) : (empty ski).Kept := by
  constructor <;> simp [empty]

theorem readShipId_text {s : List Char} {id : ShipId} (h : readShipId s = .ok id) :
    readShipId id.text = .ok id := by
  have hid : id = ⟨s⟩ := by
    unfold readShipId at h
    split at h
    · cases h
    · exact (Except.ok.inj h).symm
  rw [hid] at h ⊢
  exact h

theorem nodup_readCategory {value part : List Char} {categories categories' : List DeviceCategory}
    (hnodup : categories.Nodup) (h : readCategory value categories part = .ok categories') :
    categories'.Nodup := by
  unfold readCategory at h
  split at h
  · cases h
  · rw [← Except.ok.inj h]
    split
    case isTrue => exact hnodup
    case isFalse hnew =>
      exact hnodup.append (List.nodup_singleton _) (by simpa using hnew)

theorem holds64_readNominalPower {value : List Char} {power : Int × Int}
    (h : readNominalPower value = .ok power) : Holds64 power.1 ∧ Holds64 power.2 := by
  unfold readNominalPower at h
  split at h
  · cases h
  · split at h
    · rename_i hproduction hconsumption
      rw [← Except.ok.inj h]
      exact ⟨holds64_of_parseI64 hproduction, holds64_of_parseI64 hconsumption⟩
    · cases h

theorem foldlM_keeps {ε σ α : Type} {f : σ → α → Except ε σ} {P : σ → Prop} {l : List α}
    (hstep : ∀ s a s', a ∈ l → P s → f s a = .ok s' → P s') {s s' : σ} (hs : P s) (h : l.foldlM f s = .ok s') :
    P s' := by
  induction l generalizing s with
  | nil => exact Except.ok.inj h ▸ hs
  | cons a l ih =>
    obtain ⟨t, ht, hrest⟩ := ok_of_bind h
    exact ih (fun s a s' ha => hstep s a s' (List.mem_cons_of_mem _ ha))
      (hstep s a t List.mem_cons_self hs ht) hrest

section Reading

variable {qr qr' : ShipQr} {field value : List Char}

theorem readValue_kept (route : Route) (hfield : ';' ∉ field) (hvalue : Legible value) (hkept : qr.Kept)
    (h : qr.readValue route field value = .ok qr') : qr'.Kept := by
  have hsolid : Solid (stripSpaces value) := solid_stripSpaces hvalue.noSemicolon
  cases route with
  | ski =>
    obtain ⟨ski, -, h⟩ := ok_of_bind h
    exact Except.ok.inj h ▸ { hkept with }
  | bski =>
    obtain ⟨ski, -, h⟩ := ok_of_bind h
    exact Except.ok.inj h ▸ { hkept with }
  | b2ski =>
    obtain ⟨ski, -, h⟩ := ok_of_bind h
    exact Except.ok.inj h ▸ { hkept with }
  | id =>
    obtain ⟨id, hid, h⟩ := ok_of_bind h
    exact Except.ok.inj h ▸ { hkept with id := fun _ hmem => Option.some.inj hmem ▸ readShipId_text hid }
  | pin => exact Except.ok.inj h ▸ { hkept with pin := fun _ hmem => Option.some.inj hmem ▸ hsolid }
  | brand => exact Except.ok.inj h ▸ { hkept with brand := fun _ hmem => Option.some.inj hmem ▸ hvalue }
  | type => exact Except.ok.inj h ▸ { hkept with deviceType := fun _ hmem => Option.some.inj hmem ▸ hvalue }
  | model => exact Except.ok.inj h ▸ { hkept with model := fun _ hmem => Option.some.inj hmem ▸ hvalue }
  | serial => exact Except.ok.inj h ▸ { hkept with serial := fun _ hmem => Option.some.inj hmem ▸ hvalue }
  | pkey => exact Except.ok.inj h ▸ { hkept with publicKey := fun _ hmem => Option.some.inj hmem ▸ hsolid }
  | certUrl =>
    have hraw : ';' ∉ ((splitOnce ':' field).map Prod.snd).getD value := by
      cases hsplit : splitOnce ':' field with
      | none => exact hvalue.noSemicolon
      | some parts =>
        intro hmem
        refine hfield ?_
        rw [splitOnce_some hsplit]
        exact List.mem_append_right _ (List.mem_cons_of_mem _ hmem)
    exact Except.ok.inj h ▸
      { hkept with certificateUrl := fun _ hmem => Option.some.inj hmem ▸ legible_trim hraw }
  | fph256 =>
    obtain ⟨fingerprint, -, h⟩ := ok_of_bind h
    exact Except.ok.inj h ▸ { hkept with }
  | spsec => exact Except.ok.inj h ▸ { hkept with pairingSecret := fun _ hmem => Option.some.inj hmem ▸ hsolid }
  | cat =>
    obtain ⟨categories, hcategories, h⟩ := ok_of_bind h
    have hnodup : categories.Nodup :=
      foldlM_keeps (fun _ _ _ _ => nodup_readCategory) hkept.categories hcategories
    exact Except.ok.inj h ▸ { hkept with categories := hnodup }
  | nominalPower =>
    obtain ⟨power, hpower, h⟩ := ok_of_bind h
    exact Except.ok.inj h ▸
      { hkept with nominalPower := fun _ hmem => Option.some.inj hmem ▸ holds64_readNominalPower hpower }

theorem readField_kept {scan scan' : Scan} (hfield : ';' ∉ field) (hkept : scan.qr.Kept)
    (h : readField scan field = .ok scan') : scan'.qr.Kept := by
  have hsemicolon : ';' ∉ trim field := fun hmem => hfield (mem_of_mem_trimmed hmem)
  unfold readField at h
  generalize hcut : trim field = cut at h hsemicolon
  dsimp only at h
  split at h
  case isTrue => exact Except.ok.inj h ▸ hkept
  case isFalse =>
    cases hsplit : splitOnce ':' cut with
    | none =>
      rw [hsplit] at h
      cases h
    | some parts =>
      obtain ⟨key, value⟩ := parts
      have hcut' : cut = key ++ ':' :: value := splitOnce_some hsplit
      have hvalue : Legible (trim value) := legible_trim fun hmem =>
        hsemicolon (hcut' ▸ List.mem_append_right _ (List.mem_cons_of_mem _ hmem))
      rw [hsplit] at h
      dsimp only at h
      cases hroute : routeOf key with
      | some route =>
        rw [hroute] at h
        obtain ⟨qr, hqr, h⟩ := ok_of_bind h
        exact Except.ok.inj h ▸ readValue_kept route hsemicolon hvalue hkept hqr
      | none =>
        rw [hroute] at h
        have hkey : key.head?.any isWhitespace = false := by
          have hhead := head?_trimmed (p := isWhitespace) (l := field)
          rw [show trimmed isWhitespace field = key ++ ':' :: value from hcut.trans hcut'] at hhead
          cases key with
          | nil => rfl
          | cons c key => exact hhead
        have hrepresentable : isRepresentable key (trim value) = true :=
          (isRepresentable_iff key (trim value)).mpr
            ⟨⟨fun hmem => hsemicolon (hcut' ▸ List.mem_append_left _ hmem), not_mem_of_splitOnce hsplit, hkey⟩,
              hvalue, hroute⟩
        refine Except.ok.inj h ▸ { hkept with unknown := fun pair hmem => ?_ }
        obtain hold | hnew := List.mem_append.mp hmem
        · exact hkept.unknown pair hold
        · exact List.mem_singleton.mp hnew ▸ hrepresentable

end Reading

theorem fromStr_kept {s : List Char} {qr : ShipQr} (h : fromStr s = .ok qr) : qr.Kept := by
  unfold fromStr at h
  split at h
  · cases h
  · obtain ⟨scan, hscan, h⟩ := ok_of_bind h
    have hkept : scan.qr.Kept :=
      foldlM_keeps (P := fun scan => scan.qr.Kept)
        (fun _ _ _ hfield => readField_kept (not_mem_of_mem_splitOn hfield)) (kept_empty _) hscan
    split at h
    · exact Except.ok.inj h ▸ hkept
    · cases h

section Writing

variable {qr qr' : ShipQr} {key value : List Char} {route : Route} {scan : Scan}

theorem trim_field (hkey : key.head?.any isWhitespace = false) (hvalue : Legible value) :
    trim (key ++ ':' :: value) = key ++ ':' :: value := by
  refine trimmed_eq_self_iff.mpr ⟨?_, ?_⟩
  · cases key with
    | nil => rfl
    | cons c key => exact hkey
  · rw [List.getLast?_append_of_ne_nil _ (List.cons_ne_nil _ _)]
    cases value with
    | nil => rfl
    | cons c value => exact (trimmed_eq_self_iff.mp hvalue.trimmed).2

theorem readField_field (hcolon : ':' ∉ key) (hkey : key.head?.any isWhitespace = false) (hvalue : Legible value) :
    readField scan (key ++ ':' :: value) =
      match routeOf key with
      | some route => do
        let qr ← scan.qr.readValue route (key ++ ':' :: value) value
        .ok ⟨qr, scan.haveSki || route == .ski⟩
      | none => .ok { scan with qr := { scan.qr with unknown := scan.qr.unknown ++ [(key, value)] } } := by
  have hmark : ':' ∈ key ++ ':' :: value := List.mem_append_right _ List.mem_cons_self
  have hsome : ¬ ((key ++ ':' :: value).isEmpty || key ++ ':' :: value == "ENDSHIP".toList) = true := by
    rw [Bool.or_eq_true, not_or]
    refine ⟨by simp, fun hend => ?_⟩
    rw [beq_iff_eq.mp hend] at hmark
    revert hmark
    decide
  have hplain : ∀ c ∈ key, c ≠ ':' := fun _ hc heq => hcolon (heq ▸ hc)
  unfold readField
  rw [trim_field hkey hvalue]
  dsimp only
  rw [if_neg hsome, splitOnce_append hplain]
  dsimp only
  have htrimmed := hvalue.trimmed
  generalize trim value = trimmed at htrimmed ⊢
  subst htrimmed
  rfl

/-- Fields that can be told apart, and what a reader makes of them one after the other. -/
structure Reads (fields : List (List Char)) (scan scan' : Scan) : Prop where
  apart : ∀ field ∈ fields, ';' ∉ field
  read : fields.foldlM readField scan = .ok scan'

theorem Reads.nil : Reads [] scan scan := ⟨fun _ hmem => absurd hmem List.not_mem_nil, rfl⟩

theorem Reads.append {fields fields' : List (List Char)} {scan' scan'' : Scan} (h : Reads fields scan scan')
    (h' : Reads fields' scan' scan'') : Reads (fields ++ fields') scan scan'' := by
  refine ⟨fun field hmem => ?_, ?_⟩
  · obtain hleft | hright := List.mem_append.mp hmem
    · exact h.apart field hleft
    · exact h'.apart field hright
  · rw [List.foldlM_append, h.read]
    exact h'.read

def fieldOf (key : String) (value : Option (List Char)) : List (List Char) :=
  value.toList.map fun value => key.toList ++ ':' :: value

theorem written_eq (key : String) (value : Option (List Char)) :
    written key value = (fieldOf key value).flatMap (· ++ [';']) := by
  cases value with
  | none => rfl
  | some value => simp [written, fieldOf]

theorem reads_fieldOf {key : String} {value : List Char} (hroute : routeOf key.toList = some route)
    (hvalue : Legible value)
    (hread : scan.qr.readValue route (key.toList ++ ':' :: value) value = .ok qr') :
    Reads (fieldOf key (some value)) scan ⟨qr', scan.haveSki || route == .ski⟩ := by
  have hplain : ∀ c ∈ key.toList, isWhitespace c = false ∧ c ≠ ';' ∧ c ≠ ':' ∧ c ≠ ',' := fun c hc =>
    plain_of_alphanum (alphanum_of_routeOf hroute c hc)
  have hcolon : ':' ∉ key.toList := fun hmem => (hplain _ hmem).2.2.1 rfl
  have hkey : key.toList.head?.any isWhitespace = false := by
    cases hchars : key.toList with
    | nil => rfl
    | cons c rest => exact (hplain c (hchars ▸ List.mem_cons_self)).1
  refine ⟨fun field hmem => ?_, ?_⟩
  · rw [List.mem_singleton.mp hmem, List.mem_append, List.mem_cons, not_or, not_or]
    exact ⟨fun hmem => (hplain _ hmem).2.1 rfl, by decide, hvalue.noSemicolon⟩
  · change (do let scan ← readField scan _; _) = _
    rw [readField_field hcolon hkey hvalue, hroute]
    dsimp only
    rw [hread]
    rfl

theorem reads_optional {α : Type} {key : String} {written : Option α} {before : Option α}
    (put : Option α → ShipQr) (text : α → List Char) (hroute : routeOf key.toList = some route)
    (hsame : put before = qr) (h : ∀ a ∈ written, Legible (text a) ∧
      qr.readValue route (key.toList ++ ':' :: text a) (text a) = .ok (put (some a))) :
    Reads (fieldOf key (written.map text)) ⟨qr, true⟩ ⟨put (written.or before), true⟩ := by
  cases written with
  | none =>
    rw [Option.none_or, hsame]
    exact .nil
  | some a =>
    obtain ⟨hvalue, hread⟩ := h a rfl
    have hreads : Reads _ ⟨qr, true⟩ _ := reads_fieldOf hroute hvalue hread
    exact hreads

end Writing

def fields (qr : ShipQr) : List (List Char) :=
  fieldOf "SKI" (some (skiDisplay qr.ski)) ++ fieldOf "PIN" (qr.pin.map groupInFours) ++
    fieldOf "ID" (qr.id.map ShipId.text) ++ fieldOf "BRAND" qr.brand ++ fieldOf "TYPE" qr.deviceType ++
    fieldOf "MODEL" qr.model ++ fieldOf "BSKI" (qr.brainpoolP256r1Ski.map skiDisplay) ++
    fieldOf "B2SKI" (qr.brainpoolP384r1Ski.map skiDisplay) ++ fieldOf "PKEY" qr.publicKey ++
    fieldOf "CERTURL" qr.certificateUrl ++ fieldOf "SERIAL" qr.serial ++
    (if qr.categories.isEmpty then []
      else fieldOf "CAT" (some ([','].intercalate (qr.categories.map fun c => digitsOf c.number)))) ++
    fieldOf "NOMINALPOWER" (qr.nominalPower.map fun p => intText p.1 ++ ',' :: intText p.2) ++
    fieldOf "FPH256" (qr.certificateFingerprint.map fun f => (fingerprintHex f).toList) ++
    fieldOf "SPSEC" qr.pairingSecret ++
    qr.unknown.flatMap fun p => if !isRepresentable p.1 p.2 then [] else [p.1 ++ ':' :: p.2]

theorem toPayload_eq (qr : ShipQr) :
    qr.toPayload = "SHIP;".toList ++ (qr.fields.flatMap (· ++ [';']) ++ "ENDSHIP;".toList) := by
  have hcategories : (if qr.categories.isEmpty then []
      else written "CAT" (some ([','].intercalate (qr.categories.map fun c => digitsOf c.number)))) =
      (if qr.categories.isEmpty then []
        else fieldOf "CAT" (some ([','].intercalate (qr.categories.map fun c => digitsOf c.number)))).flatMap
          (· ++ [';']) := by
    split
    · rfl
    · exact written_eq _ _
  have hunknown : (qr.unknown.flatMap fun p =>
      if !isRepresentable p.1 p.2 then [] else p.1 ++ ':' :: p.2 ++ [';']) =
      (qr.unknown.flatMap fun p => if !isRepresentable p.1 p.2 then [] else [p.1 ++ ':' :: p.2]).flatMap
        (· ++ [';']) := by
    rw [List.flatMap_assoc]
    refine List.flatMap_congr fun p _ => ?_
    split
    · rfl
    · simp
  unfold toPayload fields
  generalize "SHIP;".toList = front
  generalize "ENDSHIP;".toList = back
  rw [hunknown, hcategories]
  simp only [written_eq, List.flatMap_append, List.append_assoc]

section Fields

variable {qr : ShipQr}

theorem reads_ski (ski : Ski) :
    Reads (fieldOf "SKI" (some (skiDisplay ski))) ⟨qr, false⟩ ⟨{ qr with ski := ski }, true⟩ := by
  have hroute : routeOf "SKI".toList = some .ski := by decide
  have hread : qr.readValue .ski ("SKI".toList ++ ':' :: skiDisplay ski) (skiDisplay ski) =
      .ok { qr with ski := ski } := by
    rw [readValue, readSki_skiDisplay]
    rfl
  exact reads_fieldOf hroute (legible_skiDisplay ski) hread

theorem reads_pin {pin : Option (List Char)} (h : ∀ value ∈ pin, Solid value) :
    Reads (fieldOf "PIN" (pin.map groupInFours)) ⟨qr, true⟩ ⟨{ qr with pin := pin.or qr.pin }, true⟩ := by
  have hroute : routeOf "PIN".toList = some .pin := by decide
  refine reads_optional (fun pin => { qr with pin := pin }) groupInFours hroute rfl fun value hvalue => ?_
  refine ⟨legible_groupInFours (h value hvalue), ?_⟩
  rw [readValue, stripSpaces_groupInFours (h value hvalue)]

theorem reads_id {id : Option ShipId} (h : ∀ value ∈ id, readShipId value.text = .ok value) :
    Reads (fieldOf "ID" (id.map ShipId.text)) ⟨qr, true⟩ ⟨{ qr with id := id.or qr.id }, true⟩ := by
  have hroute : routeOf "ID".toList = some .id := by decide
  refine reads_optional (fun id => { qr with id := id }) ShipId.text hroute rfl fun value hvalue => ?_
  have hsolid : Solid value.text := by
    refine @solid_of_checkValue "id" value.text 63 ?_
    have hread := h value hvalue
    unfold readShipId at hread
    split at hread
    · cases hread
    · assumption
  have hraw : stripText "ID:".toList ("ID".toList ++ ':' :: value.text) = some value.text :=
    stripText_append "ID:".toList value.text
  refine ⟨hsolid.legible, ?_⟩
  rw [readValue, hraw, Option.getD_some, h value hvalue]
  rfl

theorem reads_text {key : String} {route : Route} {text before : Option (List Char)}
    (put : Option (List Char) → ShipQr) (hroute : routeOf key.toList = some route) (hsame : put before = qr) (htext : ∀ value ∈ text, Legible value)
    (hread : ∀ value ∈ text, qr.readValue route (key.toList ++ ':' :: value) value = .ok (put (some value))) :
    Reads (fieldOf key text) ⟨qr, true⟩ ⟨put (text.or before), true⟩ := by
  have hreads := reads_optional put (fun value => value) hroute hsame fun value hvalue =>
    ⟨htext value hvalue, hread value hvalue⟩
  rwa [Option.map_id'] at hreads

theorem reads_brand {brand : Option (List Char)} (h : ∀ value ∈ brand, Legible value) :
    Reads (fieldOf "BRAND" brand) ⟨qr, true⟩ ⟨{ qr with brand := brand.or qr.brand }, true⟩ := by
  have hroute : routeOf "BRAND".toList = some .brand := by decide
  exact reads_text (fun brand => { qr with brand := brand }) hroute rfl h fun _ _ => rfl

theorem reads_type {deviceType : Option (List Char)} (h : ∀ value ∈ deviceType, Legible value) :
    Reads (fieldOf "TYPE" deviceType) ⟨qr, true⟩ ⟨{ qr with deviceType := deviceType.or qr.deviceType }, true⟩ := by
  have hroute : routeOf "TYPE".toList = some .type := by decide
  exact reads_text (fun deviceType => { qr with deviceType := deviceType }) hroute rfl h fun _ _ => rfl

theorem reads_model {model : Option (List Char)} (h : ∀ value ∈ model, Legible value) :
    Reads (fieldOf "MODEL" model) ⟨qr, true⟩ ⟨{ qr with model := model.or qr.model }, true⟩ := by
  have hroute : routeOf "MODEL".toList = some .model := by decide
  exact reads_text (fun model => { qr with model := model }) hroute rfl h fun _ _ => rfl

theorem reads_serial {serial : Option (List Char)} (h : ∀ value ∈ serial, Legible value) :
    Reads (fieldOf "SERIAL" serial) ⟨qr, true⟩ ⟨{ qr with serial := serial.or qr.serial }, true⟩ := by
  have hroute : routeOf "SERIAL".toList = some .serial := by decide
  exact reads_text (fun serial => { qr with serial := serial }) hroute rfl h fun _ _ => rfl

theorem reads_bski (ski : Option Ski) :
    Reads (fieldOf "BSKI" (ski.map skiDisplay)) ⟨qr, true⟩
      ⟨{ qr with brainpoolP256r1Ski := ski.or qr.brainpoolP256r1Ski }, true⟩ := by
  have hroute : routeOf "BSKI".toList = some .bski := by decide
  refine reads_optional (fun ski => { qr with brainpoolP256r1Ski := ski }) skiDisplay hroute rfl fun ski _ => ?_
  refine ⟨legible_skiDisplay ski, ?_⟩
  rw [readValue, readSki_skiDisplay]
  rfl

theorem reads_b2ski (ski : Option Ski) :
    Reads (fieldOf "B2SKI" (ski.map skiDisplay)) ⟨qr, true⟩
      ⟨{ qr with brainpoolP384r1Ski := ski.or qr.brainpoolP384r1Ski }, true⟩ := by
  have hroute : routeOf "B2SKI".toList = some .b2ski := by decide
  refine reads_optional (fun ski => { qr with brainpoolP384r1Ski := ski }) skiDisplay hroute rfl fun ski _ => ?_
  refine ⟨legible_skiDisplay ski, ?_⟩
  rw [readValue, readSki_skiDisplay]
  rfl

theorem reads_publicKey {publicKey : Option (List Char)} (h : ∀ value ∈ publicKey, Solid value) :
    Reads (fieldOf "PKEY" publicKey) ⟨qr, true⟩ ⟨{ qr with publicKey := publicKey.or qr.publicKey }, true⟩ := by
  have hroute : routeOf "PKEY".toList = some .pkey := by decide
  refine reads_text (fun key => { qr with publicKey := key }) hroute rfl (fun value hvalue => (h value hvalue).legible)
    fun value hvalue => ?_
  rw [readValue, (h value hvalue).stripSpaces]

theorem reads_pairingSecret {secret : Option (List Char)} (h : ∀ value ∈ secret, Solid value) :
    Reads (fieldOf "SPSEC" secret) ⟨qr, true⟩ ⟨{ qr with pairingSecret := secret.or qr.pairingSecret }, true⟩ := by
  have hroute : routeOf "SPSEC".toList = some .spsec := by decide
  refine reads_text (fun secret => { qr with pairingSecret := secret }) hroute rfl
    (fun value hvalue => (h value hvalue).legible) fun value hvalue => ?_
  rw [readValue, (h value hvalue).stripSpaces]

theorem reads_certificateUrl {url : Option (List Char)} (h : ∀ value ∈ url, Legible value) :
    Reads (fieldOf "CERTURL" url) ⟨qr, true⟩ ⟨{ qr with certificateUrl := url.or qr.certificateUrl }, true⟩ := by
  have hroute : routeOf "CERTURL".toList = some .certUrl := by decide
  have hplain : ∀ c ∈ "CERTURL".toList, c ≠ ':' := fun c hc =>
    (plain_of_alphanum (alphanum_of_routeOf hroute c hc)).2.2.1
  refine reads_text (fun url => { qr with certificateUrl := url }) hroute rfl h fun value hvalue => ?_
  rw [readValue, splitOnce_append hplain, Option.map_some, Option.getD_some, (h value hvalue).trimmed]

theorem reads_nominalPower {power : Option (Int × Int)} (h : ∀ p ∈ power, Holds64 p.1 ∧ Holds64 p.2) :
    Reads (fieldOf "NOMINALPOWER" (power.map fun p => intText p.1 ++ ',' :: intText p.2)) ⟨qr, true⟩
      ⟨{ qr with nominalPower := power.or qr.nominalPower }, true⟩ := by
  have hroute : routeOf "NOMINALPOWER".toList = some .nominalPower := by decide
  refine reads_optional (fun power => { qr with nominalPower := power })
    (fun p : Int × Int => intText p.1 ++ ',' :: intText p.2) hroute rfl fun p hp => ⟨?_, ?_⟩
  · have hsolid : Solid (intText p.1 ++ ',' :: intText p.2) := by
      intro c hc
      obtain hleft | hright := List.mem_append.mp hc
      · exact solid_intText p.1 c hleft
      · obtain rfl | hright := List.mem_cons.mp hright
        · decide
        · exact solid_intText p.2 c hright
    exact hsolid.legible
  · rw [readValue, readNominalPower_text (h p hp).1 (h p hp).2]
    rfl

theorem reads_certificateFingerprint (fingerprint : Option Fingerprint) :
    Reads (fieldOf "FPH256" (fingerprint.map fun f => (fingerprintHex f).toList)) ⟨qr, true⟩
      ⟨{ qr with certificateFingerprint := fingerprint.or qr.certificateFingerprint }, true⟩ := by
  have hroute : routeOf "FPH256".toList = some .fph256 := by decide
  refine reads_optional (fun f => { qr with certificateFingerprint := f }) (fun f => (fingerprintHex f).toList)
    hroute rfl fun f _ => ⟨(solid_fingerprintHex f).legible, ?_⟩
  rw [readValue, readFingerprint_fingerprintHex]
  rfl

theorem reads_categories {categories : List DeviceCategory} (h : (qr.categories ++ categories).Nodup) :
    Reads (if categories.isEmpty then []
        else fieldOf "CAT" (some ([','].intercalate (categories.map fun c => digitsOf c.number)))) ⟨qr, true⟩
      ⟨{ qr with categories := qr.categories ++ categories }, true⟩ := by
  have hroute : routeOf "CAT".toList = some .cat := by decide
  by_cases hempty : categories = []
  · rw [hempty, List.append_nil]
    exact .nil
  · rw [if_neg (by simpa using hempty)]
    have hparts : ∀ part ∈ categories.map fun c => digitsOf c.number, ',' ∉ part ∧ part ≠ [] := by
      intro part hpart
      obtain ⟨c, -, rfl⟩ := List.mem_map.mp hpart
      exact ⟨not_mem_digitsOf rfl, digitsOf_ne_nil _⟩
    have hsplit : ([','].intercalate (categories.map fun c => digitsOf c.number)).splitOn ',' =
        categories.map fun c => digitsOf c.number :=
      List.splitOn_intercalate ',' (fun part hpart => (hparts part hpart).1) (by simpa using hempty)
    have hfilter : (categories.map fun c => digitsOf c.number).filter (fun part => !part.isEmpty) =
        categories.map fun c => digitsOf c.number :=
      List.filter_eq_self.mpr fun part hpart => by simpa using (hparts part hpart).2
    have hsolid : Solid ([','].intercalate (categories.map fun c => digitsOf c.number)) := by
      intro c hc
      obtain hcomma | ⟨part, hpart, hc⟩ := mem_intercalate hc
      · exact List.mem_singleton.mp hcomma ▸ ⟨rfl, by decide⟩
      · obtain ⟨category, -, rfl⟩ := List.mem_map.mp hpart
        have hplain := plain_of_alphanum (alphanum_digitsOf hc)
        exact ⟨hplain.1, hplain.2.1⟩
    refine reads_fieldOf hroute hsolid.legible ?_
    rw [readValue, hsplit, hfilter, foldlM_readCategory _ h]
    rfl

theorem reads_unknown {unknown : List (List Char × List Char)}
    (h : ∀ pair ∈ unknown, isRepresentable pair.1 pair.2 = true) :
    Reads (unknown.flatMap fun p => if !isRepresentable p.1 p.2 then [] else [p.1 ++ ':' :: p.2]) ⟨qr, true⟩
      ⟨{ qr with unknown := qr.unknown ++ unknown }, true⟩ := by
  induction unknown generalizing qr with
  | nil =>
    rw [List.append_nil]
    exact .nil
  | cons pair unknown ih =>
    have hpair := h pair List.mem_cons_self
    obtain ⟨⟨hsemicolon, hcolon, hkey⟩, hvalue, hroute⟩ := (isRepresentable_iff pair.1 pair.2).mp hpair
    have hfirst : Reads [pair.1 ++ ':' :: pair.2] ⟨qr, true⟩
        ⟨{ qr with unknown := qr.unknown ++ [pair] }, true⟩ := by
      refine ⟨fun field hmem => ?_, ?_⟩
      · rw [List.mem_singleton.mp hmem, List.mem_append, List.mem_cons, not_or, not_or]
        exact ⟨hsemicolon, by decide, hvalue.noSemicolon⟩
      · change (do let scan ← readField _ _; _) = _
        rw [readField_field hcolon hkey hvalue, hroute]
        rfl
    have hrest := @ih { qr with unknown := qr.unknown ++ [pair] } fun p hp => h p (List.mem_cons_of_mem _ hp)
    rw [List.append_cons, List.flatMap_cons, hpair]
    exact hfirst.append hrest

theorem reads_fields (h : qr.Kept) : Reads qr.fields ⟨empty (.ofNat 0), false⟩ ⟨qr, true⟩ := by
  have hski : Reads _ ⟨empty (.ofNat 0), false⟩ _ := reads_ski qr.ski
  have hnames := ((((hski.append (reads_pin h.pin)).append (reads_id h.id)).append (reads_brand h.brand)).append
    (reads_type h.deviceType)).append (reads_model h.model)
  have hkeys := (((hnames.append (reads_bski qr.brainpoolP256r1Ski)).append
    (reads_b2ski qr.brainpoolP384r1Ski)).append (reads_publicKey h.publicKey)).append
    (reads_certificateUrl h.certificateUrl)
  have hdevice := ((hkeys.append (reads_serial h.serial)).append (reads_categories h.categories)).append
    (reads_nominalPower h.nominalPower)
  have hall := ((hdevice.append (reads_certificateFingerprint qr.certificateFingerprint)).append
    (reads_pairingSecret h.pairingSecret)).append (reads_unknown h.unknown)
  simp only [empty, Option.or_none, List.nil_append] at hall
  exact hall

end Fields

theorem fromStr_toPayload_of_kept {qr : ShipQr} (h : qr.Kept) : fromStr qr.toPayload = .ok qr := by
  have hreads := reads_fields h
  have hends : trim qr.toPayload = qr.toPayload := by
    have hfirst : "SHIP;".toList ≠ [] := by decide
    have hlast : "ENDSHIP;".toList ≠ [] := by decide
    rw [toPayload_eq]
    refine trimmed_eq_self_iff.mpr ⟨?_, ?_⟩
    · rw [List.head?_append_of_ne_nil _ hfirst]
      rfl
    · rw [← List.append_assoc, List.getLast?_append_of_ne_nil _ hlast]
      rfl
  have hcut : (qr.fields.flatMap (· ++ [';']) ++ "ENDSHIP;".toList).splitOn ';' =
      qr.fields ++ ["ENDSHIP".toList, []] := splitOn_flatMap hreads.apart _
  rw [fromStr, hends, toPayload_eq, stripText_append]
  dsimp only
  rw [hcut, List.foldlM_append, hreads.read]
  rfl

/-- A scanned code is written as a text that is scanned as the same code, whatever was scanned. -/
theorem fromStr_toPayload (s : List Char) (qr : ShipQr) (h : fromStr s = .ok qr) :
    fromStr qr.toPayload = .ok qr :=
  fromStr_toPayload_of_kept (fromStr_kept h)

/-- A transcription with an alias, a repeated field, an unknown key, an empty value and white space in
many places. -/
def transcription : List Char :=
  "\n SHIP;SKI:5555-aaaa-ffff-1111-cccc-3333-eeee-dddd-9999-2222;PIN:1;PIN: 12 345;ID:i:12345_u:a;BRAND: ;".toList ++
    "PBKEY:a b;CERTURL:http://a:1;CAT:4,,4,1; X :a:b, ;NOMINALPOWER:-0, 11000".toList

def transcribed : ShipQr :=
  { empty 0x5555AAAAFFFF1111CCCC3333EEEEDDDD99992222 with
    pin := some "12345".toList
    id := some ⟨"i:12345_u:a".toList⟩
    brand := some []
    categories := [.hvac, .gridConnectionPointHub]
    nominalPower := some (0, 11000)
    publicKey := some "ab".toList
    certificateUrl := some "http://a:1".toList
    unknown := [("X ".toList, "a:b,".toList)] }

theorem fromStr_toPayload_transcribed : fromStr transcribed.toPayload = .ok transcribed :=
  fromStr_toPayload transcription transcribed (by decide +kernel)

end ShipQr

end Eebus.Runtime
