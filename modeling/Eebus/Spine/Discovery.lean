import Eebus.Model.Time
import Eebus.Spine.Device

/-! Detailed discovery and use-case discovery: the documents built from the local device, and
a peer's documents read into a `RemoteDevice`. -/

namespace Eebus.Spine

open Eebus.Library Eebus.Model

def spineVersion : String := "1.3.0"

variable {S : Schema} {Other : Type}

def functionProperties (feature : LocalFeature S) : List (FunctionProperty S.Other) :=
  feature.functions.map fun entry => ⟨some entry.function, some entry.operations.toModel⟩

def featureDescription (entity : LocalEntity S) (feature : LocalFeature S) :
    FeatureInformation S.Other where
  description := some
    { featureAddress := some ⟨some entity.address, some feature.address⟩
      featureType := some feature.featureType
      role := some feature.role
      supportedFunction := some (functionProperties feature)
      lastStateChange := none
      maxResponseDelay := feature.maxResponseDelay.map formatIso8601Duration }

def entityDescription (entity : LocalEntity S) (change : Option NetworkManagementStateChange) :
    EntityInformation where
  description := some
    { entityAddress := some ⟨some entity.address⟩
      entityType := some entity.entityType
      lastStateChange := change }

def detailedDiscovery (device : LocalDevice S) : NodeManagementDetailedDiscoveryData S.Other where
  specificationVersionList := some ⟨some [spineVersion]⟩
  deviceInformation := some ⟨some
    { deviceAddress := some ⟨some device.address⟩
      deviceType := some device.deviceType
      networkFeatureSet := some device.featureSet }⟩
  entityInformation := some (device.entities.map fun entity => entityDescription entity none)
  featureInformation := some
    (device.entities.flatMap fun entity => entity.features.map (featureDescription entity))

def changed (entities : List (LocalEntity S)) (change : NetworkManagementStateChange)
    (withFeatures : Bool) : NodeManagementDetailedDiscoveryData S.Other :=
  let features :=
    if withFeatures then entities.flatMap fun entity => entity.features.map (featureDescription entity)
    else []
  { specificationVersionList := none
    deviceInformation := none
    entityInformation := some (entities.map fun entity => entityDescription entity (some change))
    featureInformation := if features.isEmpty then none else some features }

def entitiesAdded (entities : List (LocalEntity S)) := changed entities .added true
def entitiesRemoved (entities : List (LocalEntity S)) := changed entities .removed false
def entitiesModified (entities : List (LocalEntity S)) := changed entities .modified true

def entityPathOf (entry : EntityInformation) : Option (List Nat) := do
  (← (← entry.description).entityAddress).entity

def featurePathOf (entry : FeatureInformation Other) : Option (List Nat × Nat) := do
  let address ← (← entry.description).featureAddress
  some (← address.entity, ← address.feature)

def replaceOrPush {α : Type} (same : α → Bool) (entry : α) (held : List α) : List α :=
  if held.any same then modifyFirst same (fun _ _ => entry) held
  else if held.length < maxListEntries then held ++ [entry]
  else held

/-- One entity of an update. A removed entity takes its sub-entities and their features along;
an entry that addresses nothing can neither replace nor remove anything. -/
def mergeEntity (held : List EntityInformation × List (FeatureInformation Other))
    (entry : EntityInformation) : List EntityInformation × List (FeatureInformation Other) :=
  match entry.description, entityPathOf entry with
  | some description, some path =>
    if description.lastStateChange = some .removed then
      (held.1.filter fun e => (entityPathOf e).all fun p => !path.isPrefixOf p,
        held.2.filter fun f => (featurePathOf f).all fun p => !path.isPrefixOf p.1)
    else (replaceOrPush (fun e => entityPathOf e == some path) entry held.1, held.2)
  | _, _ => held

def mergeFeature (held : List (FeatureInformation Other)) (entry : FeatureInformation Other) :
    List (FeatureInformation Other) :=
  match entry.description, featurePathOf entry with
  | some description, some address =>
    if description.lastStateChange = some .removed then
      held.filter fun f => featurePathOf f != some address
    else replaceOrPush (fun f => featurePathOf f == some address) entry held
  | _, _ => held

def mergeDetailedDiscovery (stored update : NodeManagementDetailedDiscoveryData Other) :
    NodeManagementDetailedDiscoveryData Other :=
  let (entities, features) := (update.entityInformation.getD []).foldl mergeEntity
    (stored.entityInformation.getD [], stored.featureInformation.getD [])
  { specificationVersionList := update.specificationVersionList.or stored.specificationVersionList
    deviceInformation := update.deviceInformation.or stored.deviceInformation
    entityInformation := some entities
    featureInformation := some ((update.featureInformation.getD []).foldl mergeFeature features) }

def markRemoved (data : NodeManagementDetailedDiscoveryData Other) :
    NodeManagementDetailedDiscoveryData Other :=
  { data with
    entityInformation := data.entityInformation.map fun entries => entries.map fun entry =>
      ⟨entry.description.map fun d => { d with lastStateChange := some .removed }⟩
    featureInformation := data.featureInformation.map fun entries => entries.map fun entry =>
      ⟨entry.description.map fun d => { d with lastStateChange := some .removed }⟩ }

def constrains {α : Type} [DecidableEq α] (wanted held : Option α) : Bool :=
  wanted.isNone || held == wanted

def restrictDetailedDiscovery (data : NodeManagementDetailedDiscoveryData Other)
    (selectors : NodeManagementDetailedDiscoveryDataSelectors) :
    NodeManagementDetailedDiscoveryData Other where
  specificationVersionList := data.specificationVersionList
  deviceInformation :=
    match selectors.deviceInformation with
    | none => data.deviceInformation
    | some wanted =>
      let described := data.deviceInformation.bind DeviceInformation.description
      let device := (described.bind DeviceInformationDescription.deviceAddress).bind
        DeviceAddress.device
      if constrains (wanted.deviceAddress.bind DeviceAddress.device) device
          && constrains wanted.deviceType (described.bind DeviceInformationDescription.deviceType)
      then data.deviceInformation else none
  entityInformation :=
    match selectors.entityInformation with
    | none => data.entityInformation
    | some wanted => data.entityInformation.map fun entities => entities.filter fun e =>
      constrains (wanted.entityAddress.bind EntityAddress.entity) (entityPathOf e)
        && constrains wanted.entityType
          (e.description.bind EntityInformationDescription.entityType)
  featureInformation :=
    match selectors.featureInformation with
    | none => data.featureInformation
    | some wanted => data.featureInformation.map fun features => features.filter fun f =>
      let address := f.description.bind FeatureInformationDescription.featureAddress
      (wanted.featureAddress.all fun w => address.any fun a =>
          constrains w.entity a.entity && constrains w.feature a.feature)
        && constrains wanted.featureType
          (f.description.bind FeatureInformationDescription.featureType)

inductive ActorRole
  | client
  | server
deriving DecidableEq

structure UseCaseDescriptor where
  name : UseCaseName
  actor : UseCaseActor
  version : String
  role : ActorRole
  documentSubRevision : String
deriving DecidableEq

structure AnnouncedUseCase where
  entity : List Nat
  feature : Nat
  descriptor : UseCaseDescriptor
  scenarios : List Nat
deriving DecidableEq

def useCaseSupport (announced : AnnouncedUseCase) : UseCaseSupport where
  useCaseName := some announced.descriptor.name
  useCaseVersion := some announced.descriptor.version
  useCaseAvailable := if announced.descriptor.role = .client then some true else none
  scenarioSupport := some announced.scenarios
  useCaseDocumentSubRevision := some announced.descriptor.documentSubRevision

/-- One entry per address and actor: an entity may play several use cases as the same actor. -/
def announce (device : AddressDevice) (information : List UseCaseInformation)
    (announced : AnnouncedUseCase) : List UseCaseInformation :=
  let address := featureAddress device announced.entity announced.feature
  let same := fun i : UseCaseInformation =>
    i.address == some address && i.actor == some announced.descriptor.actor
  if information.any same then
    modifyFirst same
      (fun i _ => { i with
        useCaseSupport := some (i.useCaseSupport.getD [] ++ [useCaseSupport announced]) })
      information
  else
    information ++
      [⟨some address, some announced.descriptor.actor, some [useCaseSupport announced]⟩]

def useCaseData (device : AddressDevice) (entries : List AnnouncedUseCase) :
    NodeManagementUseCaseData :=
  ⟨some (entries.foldl (announce device) [])⟩

/-- One entry of a peer's runtime update of its use cases. Entries are addressed by their
address, as sent, and their actor. -/
def mergeUseCase (removing : Bool) (held : List UseCaseInformation) (entry : UseCaseInformation) :
    List UseCaseInformation :=
  if entry.actor.isNone then held
  else
    let same := fun other : UseCaseInformation =>
      other.address == entry.address && other.actor == entry.actor
    if removing then held.eraseP same else replaceOrPush same entry held

def mergeUseCases (stored update : NodeManagementUseCaseData) (removing : Bool) :
    NodeManagementUseCaseData :=
  ⟨some ((update.useCaseInformation.getD []).foldl (mergeUseCase removing)
    (stored.useCaseInformation.getD []))⟩

structure RemoteFeature (Other : Type) where
  address : FeatureAddress
  featureType : FeatureType
  role : Role
  functions : List (FunctionProperty Other)
  maxResponseDelay : Option Nat
deriving DecidableEq

structure RemoteEntity (Other : Type) where
  address : List Nat
  entityType : Option EntityType
  features : List (RemoteFeature Other)
deriving DecidableEq

structure RemoteUseCase where
  address : Option FeatureAddress
  actor : UseCaseActor
  name : UseCaseName
  version : Option String
  available : Bool
  scenarios : List Nat
deriving DecidableEq

structure RemoteDevice (Other : Type) where
  address : Option AddressDevice
  deviceType : Option DeviceType
  spineVersions : List String
  entities : List (RemoteEntity Other)
  useCases : List RemoteUseCase

namespace RemoteEntity

def feature (entity : RemoteEntity Other) (featureType : FeatureType) (role : Role) :
    Option (RemoteFeature Other) :=
  entity.features.find? fun f => f.featureType == featureType && f.role == role

end RemoteEntity

namespace RemoteDevice

def unknown (address : AddressDevice) : RemoteDevice Other := ⟨some address, none, [], [], []⟩

def entity (remote : RemoteDevice Other) (path : List Nat) : Option (RemoteEntity Other) :=
  remote.entities.find? fun e => e.address == path

def featureAt (remote : RemoteDevice Other) (address : FeatureAddress) :
    Option (RemoteFeature Other) := do
  let entity ← remote.entity (entityPath address)
  entity.features.find? fun f => f.address.feature == address.feature

def useCase (remote : RemoteDevice Other) (name : UseCaseName) (actor : UseCaseActor) :
    Option RemoteUseCase :=
  remote.useCases.find? fun u => u.name == name && u.actor == actor

/-- The feature a use case needs. It is on the entity that plays the use case when the peer says
which that is, and otherwise on the one entity that has such a feature at all. -/
def featureFor (remote : RemoteDevice Other) (useCase : RemoteUseCase) (featureType : FeatureType)
    (role : Role) : Option (RemoteFeature Other) :=
  match (useCase.address.map entityPath).filter fun path => !path.isEmpty with
  | some path => do (← remote.entity path).feature featureType role
  | none =>
    match remote.entities.filterMap fun entity => entity.feature featureType role with
    | [only] => some only
    | _ => none

def addressOf (remote : RemoteDevice Other) (useCase : RemoteUseCase) (featureType : FeatureType)
    (role : Role) : Option FeatureAddress :=
  (remote.featureFor useCase featureType role).map RemoteFeature.address

/-- Files one described feature under its entity. A feature without a type or a role cannot be
matched to anything and is dropped. -/
def fileFeature (device : Option AddressDevice) (entities : List (RemoteEntity Other))
    (description : FeatureInformationDescription Other) : List (RemoteEntity Other) :=
  match description.featureAddress, description.featureType, description.role with
  | some address, some featureType, some role =>
    let path := address.entity.getD []
    let feature : RemoteFeature Other :=
      { address := ⟨device, some path, address.feature⟩
        featureType := featureType
        role := role
        functions := description.supportedFunction.getD []
        maxResponseDelay := description.maxResponseDelay.bind parseIso8601Duration }
    if entities.any fun e => e.address == path then
      modifyFirst (fun e : RemoteEntity Other => e.address == path)
        (fun e _ => { e with features := e.features ++ [feature] }) entities
    else entities ++ [⟨path, none, [feature]⟩]
  | _, _, _ => entities

def applyDetailedDiscovery (remote : RemoteDevice Other)
    (data : NodeManagementDetailedDiscoveryData Other) : RemoteDevice Other :=
  let description := data.deviceInformation.bind DeviceInformation.description
  let address := remote.address.or do (← (← description).deviceAddress).device
  let entities : List (RemoteEntity Other) :=
    ((data.entityInformation.getD []).filterMap EntityInformation.description).map fun d =>
      ⟨(d.entityAddress.bind EntityAddress.entity).getD [], d.entityType, []⟩
  { remote with
    address := address
    deviceType := (description.bind DeviceInformationDescription.deviceType).or remote.deviceType
    spineVersions := (data.specificationVersionList.bind
      SpecificationVersionList.specificationVersion).getD []
    entities := ((data.featureInformation.getD []).filterMap FeatureInformation.description).foldl
      (fileFeature address) entities }

def readUseCases (information : UseCaseInformation) : List RemoteUseCase :=
  match information.actor with
  | none => []
  | some actor => (information.useCaseSupport.getD []).filterMap fun support =>
    support.useCaseName.map fun name =>
      { address := information.address
        actor := actor
        name := name
        version := support.useCaseVersion
        available := support.useCaseAvailable.getD true
        scenarios := support.scenarioSupport.getD [] }

def applyUseCaseData (remote : RemoteDevice Other) (data : NodeManagementUseCaseData) :
    RemoteDevice Other :=
  { remote with useCases := (data.useCaseInformation.getD []).flatMap readUseCases }

@[simp]
theorem applyDetailedDiscovery_address (remote : RemoteDevice Other)
    (data : NodeManagementDetailedDiscoveryData Other) (device : AddressDevice)
    (h : remote.address = some device) :
    (remote.applyDetailedDiscovery data).address = some device := by
  simp [applyDetailedDiscovery, h]

@[simp]
theorem applyUseCaseData_address (remote : RemoteDevice Other) (data : NodeManagementUseCaseData) :
    (remote.applyUseCaseData data).address = remote.address := rfl

end RemoteDevice

end Eebus.Spine
