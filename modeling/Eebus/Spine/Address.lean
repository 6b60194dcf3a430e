import Eebus.Model.Payload

/-! SPINE addresses: naming a device, an entity and a feature. -/

namespace Eebus.Spine

open Eebus.Model

def nodeManagementEntity : Nat := 0
def nodeManagementFeature : Nat := 0
def maxDeviceAddressLen : Nat := 256

def isControl (c : Char) : Bool := c.toNat < 0x20 || (0x7f ≤ c.toNat && c.toNat ≤ 0x9f)

def isWhitespace (c : Char) : Bool :=
  (0x09 ≤ c.toNat && c.toNat ≤ 0x0d) || (0x2000 ≤ c.toNat && c.toNat ≤ 0x200a)
    || [0x20, 0x85, 0xa0, 0x1680, 0x2028, 0x2029, 0x202f, 0x205f, 0x3000].contains c.toNat

def isUsableDeviceAddress (address : AddressDevice) : Bool :=
  !address.toList.isEmpty && address.toList.length ≤ maxDeviceAddressLen
    && !address.toList.any fun c => isControl c || isWhitespace c

def featureAddress (device : AddressDevice) (entity : List Nat) (feature : Nat) : FeatureAddress :=
  ⟨some device, some entity, some feature⟩

def nodeManagement (device : AddressDevice) : FeatureAddress :=
  featureAddress device [nodeManagementEntity] nodeManagementFeature

def nodeManagementWithoutDevice : FeatureAddress :=
  ⟨none, some [nodeManagementEntity], some nodeManagementFeature⟩

def entityPath (address : FeatureAddress) : List Nat := address.entity.getD []

def devicesAgree (a b : FeatureAddress) : Bool :=
  match a.device, b.device with
  | some x, some y => x == y
  | _, _ => true

def sameFeature (a b : FeatureAddress) : Bool :=
  devicesAgree a b && entityPath a == entityPath b && a.feature == b.feature

def sameEntity (a b : FeatureAddress) : Bool :=
  devicesAgree a b && entityPath a == entityPath b

def isNodeManagement (address : FeatureAddress) : Bool :=
  entityPath address == [nodeManagementEntity] && address.feature == some nodeManagementFeature

theorem device_eq_of_sameFeature {a b : FeatureAddress} (h : sameFeature a b = true)
    (ha : a.device.isSome) (hb : b.device.isSome) : a.device = b.device := by
  obtain ⟨x, hx⟩ := Option.isSome_iff_exists.mp ha
  obtain ⟨y, hy⟩ := Option.isSome_iff_exists.mp hb
  simp only [sameFeature, devicesAgree, hx, hy, Bool.and_eq_true, beq_iff_eq] at h
  rw [hx, hy, h.1.1]

end Eebus.Spine
