import Eebus.Library.Fallible
import Eebus.Library.FirstMatch
import Eebus.Runtime.QrRoundTrip
import Eebus.Runtime.Reception
import Mathlib.Data.List.Destutter
import Mathlib.Data.List.Sort

/-!
Service discovery: the TXT record a node announces, and how it is read: key by key, the case of a key and
the order of the pairs aside.
-/

namespace Eebus.Runtime

open Eebus.Library Eebus.Model Eebus.Ship

def defaultPath : List Char := "/ship/".toList

structure ShipTxtRecord where
  id : ShipId
  path : List Char
  ski : Ski
  /-- The node is in "auto accept" mode. -/
  register : Bool
  ecc : Option Bool
  brand : Option (List Char)
  deviceType : Option (List Char)
  model : Option (List Char)
  serial : Option (List Char)
  categories : List DeviceCategory
deriving DecidableEq

/-- What is wrong with a record that was found. An error of a value is one the installation code has
as well. -/
inductive TxtError
  | missingKey (key : String)
  | unsupportedVersion (value : List Char)
  | value (error : QrError)
deriving DecidableEq

def txtBool (b : Bool) : List Char := if b then "true".toList else "false".toList

def eqIgnoreAsciiCase (a b : List Char) : Bool := a.map Char.toLower == b.map Char.toLower

def parsed {α : Type} : Except QrError α → Except TxtError α
  | .ok a => .ok a
  | .error error => .error (.value error)

variable {pairs seen : List (List Char × List Char)} {record : ShipTxtRecord} {key : String}

namespace ShipTxtRecord

def new (id : ShipId) (ski : Ski) : ShipTxtRecord :=
  ⟨id, defaultPath, ski, false, some false, none, none, none, none, []⟩

def withCategories (record : ShipTxtRecord) (categories : List DeviceCategory) : ShipTxtRecord :=
  { record with
    categories := (categories.insertionSort fun a b => a.number ≤ b.number).destutter (· ≠ ·) }

def shown (key : String) : Option (List Char) → Except DiscoveryError (List (List Char × List Char))
  | none => .ok []
  | some value => do
    checkValue key value 32
    .ok [(key.toList, value)]

def categoryText (categories : List DeviceCategory) : List Char :=
  [','].intercalate (categories.map fun c => digitsOf c.number)

def toPairs (record : ShipTxtRecord) : Except DiscoveryError (List (List Char × List Char)) := do
  checkValue "id" record.id.text 63
  checkValue "path" record.path 255
  let brand ← shown "brand" record.brand
  let deviceType ← shown "type" record.deviceType
  let model ← shown "model" record.model
  let serial ← shown "serial" record.serial
  .ok ([("txtvers".toList, txtVers.toList), ("id".toList, record.id.text), ("path".toList, record.path),
      ("ski".toList, record.ski.toTxtValue.toList), ("register".toList, txtBool record.register)] ++
    (record.ecc.map fun ecc => ("ecc".toList, txtBool ecc)).toList ++
    brand ++ deviceType ++ model ++ serial ++
    if record.categories.isEmpty then [] else [("cat".toList, categoryText record.categories)])

def get (pairs : List (List Char × List Char)) (key : String) : Option (List Char) :=
  (pairs.find? fun p => eqIgnoreAsciiCase p.1 key.toList).map Prod.snd

def readVersion : Option (List Char) → Except TxtError Unit
  | some value => if value = txtVers.toList then .ok () else .error (.unsupportedVersion value)
  | none => .error (.missingKey "txtvers")

def readMandatory {α : Type} (key : String) (read : List Char → Except QrError α) :
    Option (List Char) → Except TxtError α
  | some value => parsed (read value)
  | none => .error (.missingKey key)

def readCategories : Option (List Char) → Except TxtError (List DeviceCategory)
  | none => .ok []
  | some raw =>
    parsed (((raw.splitOn ',').filter fun part => !part.isEmpty).foldlM (ShipQr.readCategory raw) [])

def isTrue (value : List Char) : Bool := eqIgnoreAsciiCase value "true".toList

/-- Reads a record; unknown keys are ignored, and so are empty values for people. -/
def fromPairs (pairs : List (List Char × List Char)) : Except TxtError ShipTxtRecord := do
  readVersion (get pairs "txtvers")
  let id ← readMandatory "id" readShipId (get pairs "id")
  let ski ← readMandatory "ski" readSki (get pairs "ski")
  let categories ← readCategories (get pairs "cat")
  .ok {
    id
    path := (get pairs "path").getD defaultPath
    ski
    register := (get pairs "register").any isTrue
    ecc := (get pairs "ecc").map isTrue
    brand := (get pairs "brand").filter fun value => !value.isEmpty
    deviceType := (get pairs "type").filter fun value => !value.isEmpty
    model := (get pairs "model").filter fun value => !value.isEmpty
    serial := (get pairs "serial").filter fun value => !value.isEmpty
    categories }

/-- The keys of a record, each with its value if there is one. -/
def fields (record : ShipTxtRecord) : List (String × Option (List Char)) :=
  [("txtvers", some txtVers.toList), ("id", some record.id.text), ("path", some record.path),
    ("ski", some record.ski.toTxtValue.toList), ("register", some (txtBool record.register)),
    ("ecc", record.ecc.map txtBool), ("brand", record.brand), ("type", record.deviceType),
    ("model", record.model), ("serial", record.serial),
    ("cat", if record.categories.isEmpty then none else some (categoryText record.categories))]

def pairOf (field : String × Option (List Char)) : Option (List Char × List Char) :=
  field.2.map fun value => (field.1.toList, value)

structure Announced (record : ShipTxtRecord) : Prop where
  id : checkValue "id" record.id.text 63 = .ok ()
  path : checkValue "path" record.path 255 = .ok ()
  brand : ∀ value ∈ record.brand, checkValue "brand" value 32 = .ok ()
  deviceType : ∀ value ∈ record.deviceType, checkValue "type" value 32 = .ok ()
  model : ∀ value ∈ record.model, checkValue "model" value 32 = .ok ()
  serial : ∀ value ∈ record.serial, checkValue "serial" value 32 = .ok ()

theorem shown_eq_ok_iff (key : String) (value : Option (List Char)) (pairs : List (List Char × List Char)) :
    shown key value = .ok pairs ↔
      (∀ v ∈ value, checkValue key v 32 = .ok ()) ∧ pairs = (pairOf (key, value)).toList := by
  cases value with
  | none => simp [shown, pairOf, eq_comm]
  | some v =>
    simp only [shown, bind_eq_ok_iff, pairOf, Option.mem_some_iff, forall_eq']
    constructor
    · rintro ⟨⟨⟩, h, hpairs⟩
      exact ⟨h, (Except.ok.inj hpairs).symm⟩
    · rintro ⟨h, rfl⟩
      exact ⟨(), h, rfl⟩

theorem toPairs_eq_ok_iff (record : ShipTxtRecord) (pairs : List (List Char × List Char)) :
    record.toPairs = .ok pairs ↔ record.Announced ∧ pairs = record.fields.filterMap pairOf := by
  have hfields : record.fields.filterMap pairOf =
      [("txtvers".toList, txtVers.toList), ("id".toList, record.id.text), ("path".toList, record.path),
        ("ski".toList, record.ski.toTxtValue.toList), ("register".toList, txtBool record.register)] ++
      (record.ecc.map fun ecc => ("ecc".toList, txtBool ecc)).toList ++
      (pairOf ("brand", record.brand)).toList ++ (pairOf ("type", record.deviceType)).toList ++
      (pairOf ("model", record.model)).toList ++ (pairOf ("serial", record.serial)).toList ++
      if record.categories.isEmpty then [] else [("cat".toList, categoryText record.categories)] := by
    rw [List.filterMap_eq_flatMap_toList]
    cases hcat : record.categories.isEmpty <;> simp [fields, pairOf, hcat, Function.comp_def]
  simp only [toPairs, bind_eq_ok_iff, shown_eq_ok_iff]
  rw [hfields]
  constructor
  · rintro ⟨⟨⟩, hid, ⟨⟩, hpath, brand, ⟨hbrand, rfl⟩, deviceType, ⟨htype, rfl⟩, model, ⟨hmodel, rfl⟩,
      serial, ⟨hserial, rfl⟩, hpairs⟩
    exact ⟨⟨hid, hpath, hbrand, htype, hmodel, hserial⟩, (Except.ok.inj hpairs).symm⟩
  · rintro ⟨h, rfl⟩
    exact ⟨(), h.id, (), h.path, _, ⟨h.brand, rfl⟩, _, ⟨h.deviceType, rfl⟩, _, ⟨h.model, rfl⟩, _,
      ⟨h.serial, rfl⟩, rfl⟩

def foldKey (p : List Char × List Char) : List Char × List Char := (p.1.map Char.toLower, p.2)

theorem get_eq (pairs : List (List Char × List Char)) (key : String) :
    get pairs key = ((pairs.map foldKey).find? fun p => p.1 == key.toList.map Char.toLower).map Prod.snd := by
  rw [get, List.find?_map, Option.map_map]
  rfl

theorem get_cons_self (key : String) (value : List Char) (pairs : List (List Char × List Char)) :
    get ((pairOf (key, some value)).toList ++ pairs) key = some value := by
  simp [get, pairOf, eqIgnoreAsciiCase]

theorem get_cons_other {key' : String} (h : key'.toList.map Char.toLower ≠ key.toList.map Char.toLower)
    (value : Option (List Char)) (pairs : List (List Char × List Char)) :
    get ((pairOf (key', value)).toList ++ pairs) key = get pairs key := by
  cases value with
  | none => rfl
  | some v => simp [get, pairOf, eqIgnoreAsciiCase, h]

theorem get_eq_none
    (h : ∀ p ∈ pairs, eqIgnoreAsciiCase p.1 key.toList = false) : get pairs key = none := by
  rw [get, Option.map_eq_none_iff, List.find?_eq_none]
  exact fun p hp => by simp [h p hp]

theorem get_fields {fields : List (String × Option (List Char))}
    (h : (fields.map fun f => f.1.toList.map Char.toLower).Nodup) {value : Option (List Char)}
    (hmem : (key, value) ∈ fields) : get (fields.filterMap pairOf) key = value := by
  induction fields with
  | nil => cases hmem
  | cons field fields ih =>
    obtain ⟨hnew, hrest⟩ := List.nodup_cons.mp h
    rw [List.filterMap_eq_flatMap_toList, List.flatMap_cons, ← List.filterMap_eq_flatMap_toList]
    rcases List.mem_cons.mp hmem with rfl | htail
    · cases value with
      | none =>
        refine get_eq_none fun p hp => ?_
        obtain ⟨f, hf, hpair⟩ := List.mem_filterMap.mp hp
        obtain ⟨v, -, rfl⟩ := Option.map_eq_some_iff.mp hpair
        refine beq_eq_false_iff_ne.mpr fun heq => hnew (List.mem_map.mpr ⟨f, hf, heq⟩)
      | some v => exact get_cons_self key v _
    · rw [get_cons_other (fun heq => hnew (List.mem_map.mpr ⟨_, htail, heq.symm⟩)) field.2, ih hrest htail]

def txtKeys : List String :=
  ["txtvers", "id", "path", "ski", "register", "ecc", "brand", "type", "model", "serial", "cat"]

/-- Pairs that came with others, in any order, their keys written in any case. -/
def Carries (pairs seen : List (List Char × List Char)) : Prop :=
  ∃ others, (∀ p ∈ others, ∀ key ∈ txtKeys, eqIgnoreAsciiCase p.1 key.toList = false) ∧
    (seen.map foldKey).Perm ((pairs ++ others).map foldKey)

theorem keys_nodup (record : ShipTxtRecord) :
    (record.fields.map fun f => f.1.toList.map Char.toLower).Nodup := by
  have hkeys : record.fields.map (fun f => f.1.toList.map Char.toLower) =
      txtKeys.map fun key => key.toList.map Char.toLower := rfl
  rw [hkeys]
  decide

theorem filter_fields (record : ShipTxtRecord) (key : List Char) :
    (((record.fields.filterMap pairOf).map foldKey).filter fun p => p.1 == key).length ≤ 1 := by
  have hsub : (((record.fields.filterMap pairOf).map foldKey).map Prod.fst).Sublist
      (record.fields.map fun f => f.1.toList.map Char.toLower) := by
    rw [List.map_map, List.map_filterMap]
    refine filterMap_sublist_map (fun f key hkey => ?_) record.fields
    obtain ⟨p, hp, rfl⟩ := Option.map_eq_some_iff.mp hkey
    obtain ⟨value, -, rfl⟩ := Option.map_eq_some_iff.mp hp
    rfl
  have hcount := List.nodup_iff_count_le_one.mp (record.keys_nodup.sublist hsub) key
  rwa [List.count_eq_countP, List.countP_map, List.countP_eq_length_filter] at hcount

theorem get_of_carries
    (h : Carries (record.fields.filterMap pairOf) seen) (hkey : key ∈ txtKeys) :
    get seen key = get (record.fields.filterMap pairOf) key := by
  obtain ⟨others, hothers, hperm⟩ := h
  have hnone : ((others.map foldKey).filter fun p => p.1 == key.toList.map Char.toLower) = [] := by
    refine List.filter_eq_nil_iff.mpr fun p hp => ?_
    obtain ⟨other, hmem, rfl⟩ := List.mem_map.mp hp
    exact Bool.not_eq_true _ ▸ hothers other hmem key hkey
  have hfind : ((seen.map foldKey).find? fun p => p.1 == key.toList.map Char.toLower) =
      ((record.fields.filterMap pairOf ++ others).map foldKey).find? fun p => p.1 == key.toList.map Char.toLower := by
    refine (find?_eq_of_perm hperm.symm ?_).symm
    rw [List.map_append, List.filter_append, hnone, List.append_nil]
    exact record.filter_fields _
  rw [get_eq, get_eq, hfind, List.map_append, List.find?_append,
    List.find?_eq_none.mpr (List.filter_eq_nil_iff.mp hnone), Option.or_none]

theorem fromPairs_congr
    (h : ∀ key ∈ txtKeys, get seen key = get pairs key) : fromPairs seen = fromPairs pairs := by
  simp only [txtKeys, List.forall_mem_cons] at h
  obtain ⟨h0, h1, h2, h3, h4, h5, h6, h7, h8, h9, h10, -⟩ := h
  simp only [fromPairs, h0, h1, h2, h3, h4, h5, h6, h7, h8, h9, h10]

theorem readSki_toTxtValue (ski : Ski) : readSki ski.toTxtValue.toList = .ok ski := by
  rw [← readSki_skiDisplay ski]
  simp only [readSki, parseSki, String.toList_ofList, filter_skiDisplay, filter_toTxtValue]

@[simp] theorem isTrue_txtBool (b : Bool) : isTrue (txtBool b) = b := by
  cases b <;> decide

theorem nonempty_of_checkValue {value : List Char} {max : Nat}
    (h : checkValue key value max = .ok ()) : value.isEmpty = false := by
  cases hvalue : value.isEmpty with
  | false => rfl
  | true => rw [checkValue, hvalue, if_pos rfl] at h; cases h

theorem filter_shown {value : Option (List Char)}
    (h : ∀ v ∈ value, checkValue key v 32 = .ok ()) : value.filter (fun v => !v.isEmpty) = value := by
  cases value with
  | none => rfl
  | some v => simp [nonempty_of_checkValue (h v rfl)]

theorem fromPairs_fields (h : record.Announced) :
    fromPairs (record.fields.filterMap pairOf) =
      (readCategories (if record.categories.isEmpty then none else some (categoryText record.categories))).map
        fun categories => { record with categories } := by
  have hget : ∀ field ∈ record.fields, get (record.fields.filterMap pairOf) field.1 = field.2 :=
    fun field hfield => get_fields record.keys_nodup hfield
  generalize record.fields.filterMap pairOf = pairs at hget ⊢
  simp only [fields, List.forall_mem_cons] at hget
  obtain ⟨hversion, hid, hpath, hski, hregister, hecc, hbrand, htype, hmodel, hserial, hcat, -⟩ := hget
  have hread : readShipId record.id.text = .ok record.id := by rw [readShipId, h.id]
  simp only [fromPairs, hversion, hid, hpath, hski, hregister, hecc, hbrand, htype, hmodel, hserial, hcat,
    readVersion, readMandatory, hread, readSki_toTxtValue, parsed, Option.getD_some, Option.any_some,
    isTrue_txtBool, Option.map_map, filter_shown h.brand, filter_shown h.deviceType, filter_shown h.model,
    filter_shown h.serial]
  have hecc' : record.ecc.map (isTrue ∘ txtBool) = record.ecc := by
    cases record.ecc <;> simp
  rw [hecc']
  cases readCategories (if record.categories.isEmpty then none else some (categoryText record.categories)) <;> rfl

theorem readCategories_text {categories : List DeviceCategory} (hsome : categories ≠ []) :
    readCategories (some (categoryText categories)) =
      parsed ((categories.map fun c => digitsOf c.number).foldlM
        (ShipQr.readCategory (categoryText categories)) []) := by
  have hparts : ∀ part ∈ categories.map fun c => digitsOf c.number, ',' ∉ part ∧ part ≠ [] := by
    intro part hpart
    obtain ⟨c, -, rfl⟩ := List.mem_map.mp hpart
    exact ⟨not_mem_digitsOf rfl, digitsOf_ne_nil _⟩
  have hsplit : (categoryText categories).splitOn ',' = categories.map fun c => digitsOf c.number :=
    List.splitOn_intercalate ',' (fun part hpart => (hparts part hpart).1) (by simpa using hsome)
  rw [readCategories, hsplit, List.filter_eq_self.mpr fun part hpart => by simpa using (hparts part hpart).2]

theorem ok_of_parsed {α : Type} {x : Except QrError α} {a : α} (h : parsed x = .ok a) : x = .ok a := by
  cases x with
  | error e => cases h
  | ok a' => exact congrArg Except.ok (Except.ok.inj h)

theorem nodup_of_readCategories {value : Option (List Char)} {categories : List DeviceCategory}
    (h : readCategories value = .ok categories) : categories.Nodup := by
  cases value with
  | none => exact Except.ok.inj h ▸ List.nodup_nil
  | some raw =>
    rw [readCategories] at h
    exact ShipQr.foldlM_keeps (fun _ _ _ _ => ShipQr.nodup_readCategory) List.nodup_nil (ok_of_parsed h)

theorem readCategories_eq_iff (categories : List DeviceCategory) :
    readCategories (if categories.isEmpty then none else some (categoryText categories)) = .ok categories ↔
      categories.Nodup := by
  refine ⟨nodup_of_readCategories, fun h => ?_⟩
  by_cases hsome : categories = []
  · rw [hsome]
    rfl
  · rw [if_neg (by simpa using hsome), readCategories_text hsome,
      ShipQr.foldlM_readCategory _ (by simpa using h)]
    rfl

theorem nodup_of_fromPairs (h : fromPairs seen = .ok record) : record.categories.Nodup := by
  simp only [fromPairs, bind_eq_ok_iff] at h
  obtain ⟨-, -, id, -, ski, -, categories, hcategories, hrecord⟩ := h
  rw [← Except.ok.inj hrecord]
  exact nodup_of_readCategories hcategories

theorem carries_self (pairs : List (List Char × List Char)) : Carries pairs pairs :=
  ⟨[], fun p hp => (by cases hp), by rw [List.append_nil]⟩

theorem fromPairs_of_carries
    (hpairs : record.toPairs = .ok pairs) (hseen : Carries pairs seen) :
    fromPairs seen = fromPairs pairs := by
  obtain ⟨-, rfl⟩ := (toPairs_eq_ok_iff record pairs).mp hpairs
  exact fromPairs_congr fun key hkey => get_of_carries hseen hkey

theorem fromPairs_eq_self_iff
    (hpairs : record.toPairs = .ok pairs) : fromPairs pairs = .ok record ↔ record.categories.Nodup := by
  obtain ⟨hannounced, rfl⟩ := (toPairs_eq_ok_iff record pairs).mp hpairs
  refine ⟨nodup_of_fromPairs, fun h => ?_⟩
  rw [fromPairs_fields hannounced, (readCategories_eq_iff _).mpr h]
  rfl

theorem number_injective : Function.Injective DeviceCategory.number := by
  intro a b h
  cases a <;> cases b <;> first | rfl | cases h

theorem nodup_of_sorted {categories : List DeviceCategory}
    (hsorted : categories.Pairwise fun a b => a.number ≤ b.number) (hchain : categories.IsChain (· ≠ ·)) :
    categories.Nodup := by
  have hstrict : categories.Pairwise fun a b => a.number < b.number := by
    induction categories with
    | nil => exact List.Pairwise.nil
    | cons a rest ih =>
      obtain ⟨hfirst, hrest⟩ := List.pairwise_cons.mp hsorted
      refine List.pairwise_cons.mpr ⟨fun c hc => ?_, ih hrest hchain.tail⟩
      refine lt_of_le_of_ne (hfirst c hc) fun heq => ?_
      obtain rfl := number_injective heq
      cases rest with
      | nil => cases hc
      | cons b rest =>
        have hne : a ≠ b := (List.isChain_cons_cons.mp hchain).1
        rcases List.mem_cons.mp hc with hb | htail
        · exact hne hb
        · have hle := (List.pairwise_cons.mp hrest).1 a htail
          exact hne (number_injective (le_antisymm (hfirst b List.mem_cons_self) hle))
  exact hstrict.imp fun {a b} h heq => absurd (congrArg DeviceCategory.number heq) h.ne

theorem nodup_withCategories (record : ShipTxtRecord) (categories : List DeviceCategory) :
    (record.withCategories categories).categories.Nodup := by
  have htotal : Std.Total fun a b : DeviceCategory => a.number ≤ b.number := ⟨fun a b => le_total _ _⟩
  have htrans : IsTrans DeviceCategory fun a b => a.number ≤ b.number := ⟨fun a b c => le_trans⟩
  refine nodup_of_sorted ?_ (List.isChain_destutter _ _)
  exact (List.pairwise_insertionSort _ categories).sublist (List.destutter_sublist _ _)

end ShipTxtRecord

/-- A record is read back from whatever carries its pairs exactly when it names no category twice, as
no record does whose categories were set by the builder or read off the network. -/
theorem txt_record_read_back_iff (record : ShipTxtRecord) (pairs : List (List Char × List Char))
    (hpairs : record.toPairs = .ok pairs) :
    ((∀ seen, ShipTxtRecord.Carries pairs seen → ShipTxtRecord.fromPairs seen = .ok record) ↔
        record.categories.Nodup) ∧
      (∀ categories, (record.withCategories categories).categories.Nodup) ∧
      ∀ seen found, ShipTxtRecord.fromPairs seen = .ok found → found.categories.Nodup := by
  refine ⟨⟨fun h => ?_, fun h seen hseen => ?_⟩, record.nodup_withCategories,
    fun seen found => ShipTxtRecord.nodup_of_fromPairs⟩
  · exact (ShipTxtRecord.fromPairs_eq_self_iff hpairs).mp (h pairs (ShipTxtRecord.carries_self pairs))
  · rw [ShipTxtRecord.fromPairs_of_carries hpairs hseen]
    exact (ShipTxtRecord.fromPairs_eq_self_iff hpairs).mpr h

/-- A heat pump that names its category. -/
theorem txt_record_read_back_pump :
    let record := (ShipTxtRecord.new ⟨"i:46925_u:pump".toList⟩ 1).withCategories [.hvac]
    ((∀ seen, ShipTxtRecord.Carries (record.fields.filterMap ShipTxtRecord.pairOf) seen →
        ShipTxtRecord.fromPairs seen = .ok record) ↔ record.categories.Nodup) ∧
      (∀ categories, (record.withCategories categories).categories.Nodup) ∧
      ∀ seen found, ShipTxtRecord.fromPairs seen = .ok found → found.categories.Nodup :=
  txt_record_read_back_iff _ _ (by decide +kernel)

structure Discovered where
  ski : Ski
  record : ShipTxtRecord
  addresses : List Nat
  port : Nat
  instance_ : List Char
deriving DecidableEq

def Discovered.socketAddress (found : Discovered) : Option SocketAddr :=
  found.addresses.head?.map fun address => ⟨address, found.port⟩

end Eebus.Runtime
