import Eebus.Spine.Address

/-! Bindings and subscriptions: who may write, and who gets told. -/

namespace Eebus.Spine

open Eebus.Model

inductive BindingPolicy
  | singlePerFeature
  | multiplePerFeature
deriving DecidableEq

def maxRelationsPerPeer : Nat := 32

/-- One binding or subscription this device is party to. `held` says that this device is the
client; a relation this device granted carries the identifier it assigned. -/
structure Relation where
  id : Option UInt32
  client : FeatureAddress
  server : FeatureAddress
  held : Bool
  identified : held = false → id.isSome

namespace Relation

def grantedId (r : Relation) (h : r.held = false) : UInt32 := r.id.get (r.identified h)

/-- Whether the relation joins these two features. -/
def joins (r : Relation) (client server : FeatureAddress) : Bool :=
  sameFeature r.client client && sameFeature r.server server

def concerns (r : Relation) (device : AddressDevice) : Bool :=
  r.client.device == some device || r.server.device == some device

def granted (id : UInt32) (client server : FeatureAddress) : Relation :=
  ⟨some id, client, server, false, fun _ => rfl⟩

def recorded (client server : FeatureAddress) : Relation :=
  ⟨none, client, server, true, fun h => Bool.noConfusion h⟩

end Relation

structure Relations where
  bindings : List Relation
  subscriptions : List Relation
  groups : List (List FeatureAddress)
  nextBinding : UInt32
  nextSubscription : UInt32
  policy : BindingPolicy

def grantedTo (relations : List Relation) (client : FeatureAddress) : Nat :=
  relations.countP fun r => !r.held && r.client.device == client.device

def heldOn (relations : List Relation) (server : FeatureAddress) : Nat :=
  relations.countP fun r => r.held && r.server.device == server.device

def record (into : List Relation) (client server : FeatureAddress) : List Relation :=
  if into.any fun r => r.held && r.joins client server then into
  else if maxRelationsPerPeer ≤ heldOn into server then into
  else into ++ [Relation.recorded client server]

def findGranted (relations : List Relation) (client server : FeatureAddress) :
    Option { r : Relation // r.held = false } :=
  match h : relations.find? fun r => !r.held && r.joins client server with
  | some existing =>
    some ⟨existing, by
      have := List.find?_some h
      simp only [Bool.and_eq_true, Bool.not_eq_true'] at this
      exact this.1⟩
  | none => none

namespace Relations

def new (policy : BindingPolicy) : Relations := ⟨[], [], [], 1, 1, policy⟩

def bindTogether (r : Relations) (features : List FeatureAddress) : Relations :=
  if features.length > 1 then { r with groups := r.groups ++ [features] } else r

def groupOf (r : Relations) (server : FeatureAddress) : List FeatureAddress :=
  (r.groups.find? fun group => group.any fun f => sameFeature f server).getD [server]

def taken (r : Relations) (client server : FeatureAddress) : Bool :=
  r.policy == .singlePerFeature && r.bindings.any fun b =>
    ((r.groupOf server).any fun f => sameFeature b.server f) && !sameEntity b.client client

def addBinding (r : Relations) (client server : FeatureAddress) :
    Relations × Except ErrorNumber UInt32 :=
  if isNodeManagement server then (r, .error .commandRejected)
  else
    match findGranted r.bindings client server with
    | some existing => (r, .ok (existing.1.grantedId existing.2))
    | none =>
      if r.taken client server then (r, .error .commandRejected)
      else if maxRelationsPerPeer ≤ grantedTo r.bindings client then (r, .error .overload)
      else
        ({ r with
            nextBinding := r.nextBinding + 1
            bindings := r.bindings ++ [Relation.granted r.nextBinding client server] },
          .ok r.nextBinding)

def addSubscription (r : Relations) (client server : FeatureAddress) :
    Relations × Except ErrorNumber UInt32 :=
  match findGranted r.subscriptions client server with
  | some existing => (r, .ok (existing.1.grantedId existing.2))
  | none =>
    if maxRelationsPerPeer ≤ grantedTo r.subscriptions client then (r, .error .overload)
    else
      ({ r with
          nextSubscription := r.nextSubscription + 1
          subscriptions := r.subscriptions ++ [Relation.granted r.nextSubscription client server] },
        .ok r.nextSubscription)

def removeBinding (r : Relations) (client server : FeatureAddress) : Relations :=
  { r with bindings := r.bindings.filter fun b => b.held || !b.joins client server }

def removeSubscription (r : Relations) (client server : FeatureAddress) : Relations :=
  { r with subscriptions := r.subscriptions.filter fun s => s.held || !s.joins client server }

def isBound (r : Relations) (client server : FeatureAddress) : Bool :=
  r.bindings.any fun b => !b.held && b.joins client server

def recordBinding (r : Relations) (client server : FeatureAddress) : Relations :=
  { r with bindings := record r.bindings client server }

def recordSubscription (r : Relations) (client server : FeatureAddress) : Relations :=
  { r with subscriptions := record r.subscriptions client server }

def removeHeld (r : Relations) (client server : FeatureAddress) : Relations :=
  let keep := fun x : Relation => !(x.held && x.joins client server)
  { r with bindings := r.bindings.filter keep, subscriptions := r.subscriptions.filter keep }

def bindingsWith (r : Relations) (device : AddressDevice) : List Relation :=
  r.bindings.filter fun b => b.concerns device

def subscriptionsWith (r : Relations) (device : AddressDevice) : List Relation :=
  r.subscriptions.filter fun s => s.concerns device

def subscribersOf (r : Relations) (server : FeatureAddress) : List FeatureAddress :=
  (r.subscriptions.filter fun s => !s.held && sameFeature s.server server).map Relation.client

def removeLocalEntity (r : Relations) (device : AddressDevice) (entity : List Nat) : Relations :=
  let ours := fun address : FeatureAddress =>
    address.device.all (· == device) && entity.isPrefixOf (entityPath address)
  let keep := fun x : Relation => !ours x.client && !ours x.server
  { r with bindings := r.bindings.filter keep, subscriptions := r.subscriptions.filter keep }

def removeDevice (r : Relations) (device : AddressDevice) : Relations :=
  let keep := fun x : Relation => !x.concerns device
  { r with bindings := r.bindings.filter keep, subscriptions := r.subscriptions.filter keep }

theorem joins_of_findGranted_none {relations : List Relation} {client server : FeatureAddress}
    (h : findGranted relations client server = none) {b : Relation} (hb : b ∈ relations)
    (hheld : b.held = false) : b.joins client server = false := by
  have hfind : relations.find? (fun b => !b.held && b.joins client server) = none := by
    unfold findGranted at h
    split at h
    · simp at h
    · assumption
  have hnot := List.find?_eq_none.mp hfind b hb
  simpa [hheld] using hnot

theorem addBinding_cases (r : Relations) (client server : FeatureAddress) :
    (r.addBinding client server).1 = r ∨
      isNodeManagement server = false ∧
        (∀ b ∈ r.bindings, b.held = false → b.joins client server = false) ∧
        r.taken client server = false ∧ grantedTo r.bindings client < maxRelationsPerPeer ∧
        (r.addBinding client server).1 = { r with
          nextBinding := r.nextBinding + 1
          bindings := r.bindings ++ [Relation.granted r.nextBinding client server] } := by
  unfold addBinding
  split
  case isTrue => exact .inl rfl
  case isFalse hnode =>
    split
    case h_1 => exact .inl rfl
    case h_2 hnone =>
      split
      case isTrue => exact .inl rfl
      case isFalse htaken =>
        split
        case isTrue => exact .inl rfl
        case isFalse hroom =>
          exact .inr ⟨by simpa using hnode, fun b hb => joins_of_findGranted_none hnone hb,
            by simpa using htaken, Nat.not_le.mp hroom, rfl⟩

theorem addSubscription_cases (r : Relations) (client server : FeatureAddress) :
    (r.addSubscription client server).1 = r ∨
      (∀ s ∈ r.subscriptions, s.held = false → s.joins client server = false) ∧
        grantedTo r.subscriptions client < maxRelationsPerPeer ∧
        (r.addSubscription client server).1 = { r with
          nextSubscription := r.nextSubscription + 1
          subscriptions := r.subscriptions ++
            [Relation.granted r.nextSubscription client server] } := by
  unfold addSubscription
  split
  case h_1 => exact .inl rfl
  case h_2 hnone =>
    split
    case isTrue => exact .inl rfl
    case isFalse hroom =>
      exact .inr ⟨fun s hs => joins_of_findGranted_none hnone hs, Nat.not_le.mp hroom, rfl⟩

theorem record_cases (into : List Relation) (client server : FeatureAddress) :
    record into client server = into ∨
      record into client server = into ++ [Relation.recorded client server] := by
  unfold record
  split
  · exact .inl rfl
  split
  · exact .inl rfl
  · exact .inr rfl

end Relations

end Eebus.Spine
