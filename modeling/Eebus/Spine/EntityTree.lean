import Eebus.Library.Machine
import Eebus.Spine.Device

/-!
The entities of a device as they are added and removed. Entities nest by their paths, and an entity takes
what is beneath it along; the one at `[0]`, with the primary NodeManagement, is to stay.
-/

namespace Eebus.Spine

open Eebus.Library Eebus.Model

variable {S : Schema}

inductive EntityOp (S : Schema)
  | add (entity : LocalEntity S)
  | remove (path : List Nat)

namespace LocalDevice

def addInPlace (device : LocalDevice S) (entity : LocalEntity S) :
    LocalDevice S × Except DeviceError Unit :=
  if device.entities.any (atPath entity.address) then (device, .error .duplicateEntityAddress)
  else ({ device with entities := device.entities ++ [entity] }, .ok ())

def sortOut (path : List Nat) (acc : List (LocalEntity S) × List (LocalEntity S))
    (entity : LocalEntity S) : List (LocalEntity S) × List (LocalEntity S) :=
  if atPath path entity then (entity :: acc.1, acc.2)
  else if path.isPrefixOf entity.address then (acc.1 ++ [entity], acc.2)
  else (acc.1, acc.2 ++ [entity])

def removeInPlace (device : LocalDevice S) (path : List Nat) :
    LocalDevice S × Except DeviceError (List (LocalEntity S)) :=
  if path == [nodeManagementEntity] then (device, .error .entityZeroIsMandatory)
  else if !device.entities.any (atPath path) then (device, .error .unknownEntity)
  else
    let (removed, kept) := device.entities.foldl (sortOut path) ([], [])
    ({ device with entities := kept }, .ok removed)

theorem foldl_sortOut (path : List Nat) (entities : List (LocalEntity S))
    (acc : List (LocalEntity S) × List (LocalEntity S)) :
    (entities.foldl (sortOut path) acc).2 =
      acc.2 ++ entities.filter (fun entity => !path.isPrefixOf entity.address) := by
  induction entities generalizing acc with
  | nil => simp
  | cons entity rest ih =>
    rw [List.foldl_cons, ih (sortOut path acc entity)]
    by_cases hat : atPath path entity = true
    · have hbeneath : path.isPrefixOf entity.address = true := by
        rw [beq_iff_eq.mp hat]
        exact List.isPrefixOf_iff_prefix.mpr List.prefix_rfl
      simp [sortOut, hat, hbeneath]
    · by_cases hbeneath : path.isPrefixOf entity.address = true
      · simp [sortOut, hat, hbeneath]
      · simp [sortOut, hat, hbeneath]

/-- One call, and the error it answers, if it does. -/
def change (device : LocalDevice S) : EntityOp S → LocalDevice S × Option DeviceError
  | .add entity =>
    match device.addInPlace entity with
    | (device', .ok ()) => (device', none)
    | (device', .error error) => (device', some error)
  | .remove path =>
    match device.removeInPlace path with
    | (device', .ok _) => (device', none)
    | (device', .error error) => (device', some error)

def changing : Machine (LocalDevice S) (EntityOp S) (Option DeviceError) where
  step := change

def root : LocalEntity S := ⟨[nodeManagementEntity], .deviceInformation, [nodeManagementFeature]⟩

/-- The root comes first, and no path is taken twice. -/
structure Rooted (device : LocalDevice S) : Prop where
  first : device.entities.head? = some root
  distinct : (device.entities.map LocalEntity.address).Nodup

/-- The call leaves the device rooted, and where it fails, as it was. -/
def Withstands (device : LocalDevice S) (op : EntityOp S) : Prop :=
  Rooted (device.change op).1 ∧ ((device.change op).2.isSome = true → (device.change op).1 = device)

/-- The call removes the empty path, beneath which everything is. -/
def Uproots (device : LocalDevice S) : EntityOp S → Prop
  | .add _ => False
  | .remove path => path = [] ∧ [] ∈ device.entities.map LocalEntity.address

instance (device : LocalDevice S) : (op : EntityOp S) → Decidable (device.Uproots op)
  | .add _ => .isFalse id
  | .remove path =>
    inferInstanceAs (Decidable (path = [] ∧ [] ∈ device.entities.map LocalEntity.address))

theorem rooted_fromAddress (address : AddressDevice) (deviceType : DeviceType) :
    Rooted (fromAddress (S := S) address deviceType) :=
  ⟨rfl, List.nodup_singleton _⟩

variable {device : LocalDevice S}

theorem mem_addresses {path : List Nat} :
    device.entities.any (atPath path) = true ↔ path ∈ device.entities.map LocalEntity.address := by
  rw [List.any_eq_true, List.mem_map]
  exact exists_congr fun entity => and_congr_right fun _ => beq_iff_eq

theorem withstands_of_refused {op : EntityOp S} {error : DeviceError} (h : device.Rooted)
    (hrefused : device.change op = (device, some error)) : device.Withstands op := by
  rw [Withstands, hrefused]
  exact ⟨h, fun _ => rfl⟩

theorem withstands_add (h : device.Rooted) (entity : LocalEntity S) :
    device.Withstands (.add entity) := by
  by_cases htaken : device.entities.any (atPath entity.address) = true
  · refine withstands_of_refused h (?_ : _ = (device, some .duplicateEntityAddress))
    simp only [change, addInPlace, htaken, if_true]
  · have hadded : device.change (.add entity) =
        ({ device with entities := device.entities ++ [entity] }, none) := by
      simp only [change, addInPlace, htaken, if_false, Bool.false_eq_true]
    rw [Withstands, hadded]
    refine ⟨⟨?_, ?_⟩, nofun⟩
    · dsimp only
      rw [List.head?_append, h.first]
      rfl
    · rw [mem_addresses] at htaken
      dsimp only
      rw [List.map_append]
      exact h.distinct.append (List.nodup_singleton _) fun path hpath hnew =>
        htaken (List.mem_singleton.mp hnew ▸ hpath)

theorem isPrefixOf_root {path : List Nat} (hzero : path ≠ [nodeManagementEntity]) (hempty : path ≠ []) :
    path.isPrefixOf (root (S := S)).address = false := by
  cases path with
  | nil => exact absurd rfl hempty
  | cons number beneath =>
    refine Bool.eq_false_iff.mpr fun hprefix => hzero ?_
    obtain ⟨rfl, hbeneath⟩ := List.cons_prefix_cons.mp (List.isPrefixOf_iff_prefix.mp hprefix)
    rw [List.prefix_nil.mp hbeneath]

theorem withstands_remove (h : device.Rooted) {path : List Nat} (hkeeps : ¬device.Uproots (.remove path)) :
    device.Withstands (.remove path) := by
  by_cases hzero : path = [nodeManagementEntity]
  · refine withstands_of_refused h (?_ : _ = (device, some .entityZeroIsMandatory))
    simp only [change, removeInPlace, hzero, BEq.rfl, if_true]
  by_cases hknown : device.entities.any (atPath path) = true
  · have hremoved : (device.change (.remove path)).1.entities =
        device.entities.filter (fun entity => !path.isPrefixOf entity.address) ∧
          (device.change (.remove path)).2 = none := by
      have hkept := foldl_sortOut path device.entities ([], [])
      simp only [change, removeInPlace, beq_iff_eq, hzero, hknown, Bool.not_true, Bool.false_eq_true, if_false]
      exact ⟨hkept, trivial⟩
    have hroot : path.isPrefixOf (root (S := S)).address = false :=
      isPrefixOf_root hzero fun hempty => hkeeps ⟨hempty, hempty ▸ mem_addresses.mp hknown⟩
    obtain ⟨rest, hentities⟩ : ∃ rest, device.entities = root :: rest := List.head?_eq_some_iff.mp h.first
    refine ⟨⟨?_, ?_⟩, fun hfailed => ?_⟩
    · rw [hremoved.1, hentities, List.filter_cons_of_pos (by rw [hroot]; rfl)]
      rfl
    · rw [hremoved.1]
      exact h.distinct.sublist (List.filter_sublist.map _)
    · rw [hremoved.2] at hfailed
      cases hfailed
  · refine withstands_of_refused h (?_ : _ = (device, some .unknownEntity))
    simp only [change, removeInPlace, beq_iff_eq, hzero, hknown, Bool.not_false, if_false, if_true]

theorem not_withstands_of_uproots {op : EntityOp S} (h : device.Uproots op) : ¬device.Withstands op := by
  cases op with
  | add entity => exact h.elim
  | remove path =>
    obtain ⟨rfl, hpresent⟩ := h
    have hkept := foldl_sortOut [] device.entities ([], [])
    have hknown : device.entities.any (atPath []) = true := mem_addresses.mpr hpresent
    have hnone : (device.entities.foldl (sortOut []) ([], [])).2 = [] := by
      rw [hkept]
      simp
    have hempty : (device.change (.remove [])).1.entities = [] := by
      simp only [change, removeInPlace, hknown]
      exact hnone
    intro hwithstands
    have hfirst := hwithstands.1.first
    rw [hempty] at hfirst
    cases hfirst

/-- Over every sequence of calls on a new device: each leaves the root in place and the paths distinct, and
a failed one the device as it was, exactly when none removes the empty path while an entity has it. -/
theorem root_withstands_iff (address : AddressDevice) (deviceType : DeviceType) (ops : List (EntityOp S)) :
    (∀ before op, before ++ [op] <+: ops →
      Withstands (changing.run (fromAddress address deviceType) before) op) ↔
    changing.Admits (fun device op => ¬device.Uproots op) (fromAddress address deviceType) ops := by
  have hstep : ∀ (device : LocalDevice S) op, device.Rooted → ¬device.Uproots op →
      device.Withstands op := by
    intro device op h hkeeps
    cases op with
    | add entity => exact withstands_add h entity
    | remove path => exact withstands_remove h hkeeps
  constructor
  · intro h
    refine changing.admits_of_steps fun before op hprefix huproots => ?_
    exact not_withstands_of_uproots huproots (h before op hprefix)
  · exact fun hadmits => changing.run_steps Rooted (fun device op h hkeeps => (hstep device op h hkeeps).1)
      hstep (rooted_fromAddress address deviceType) hadmits

/-- An entity at the empty path, once removed, takes the device's root along. -/
theorem empty_path_takes_the_root :
    let device := changing.run (fromAddress (S := Schema.limitsOnly) "d:_i:1_HeatPump" "HeatGenerationSystem")
      [.add ⟨[], .other "HeatPumpAppliance", []⟩]
    device.entities.length = 2 ∧ (device.change (.remove [])).2 = none ∧
      (device.change (.remove [])).1.entities = [] := by
  refine ⟨by decide +kernel, by decide +kernel, ?_⟩
  rw [← List.length_eq_zero_iff]
  decide +kernel

end LocalDevice

end Eebus.Spine
