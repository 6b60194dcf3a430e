import Eebus.Library.Binary64
import Eebus.Model.FunctionType

/-! The payloads this development reads or writes, and the command frame around them. Every
element is optional on the wire. Elements that no modelled function reads are left out. -/

namespace Eebus.Model

open Eebus.Library

/-- `resultData.errorNumber`. -/
inductive ErrorNumber
  | none
  | general
  | timeout
  | overload
  | destinationUnknown
  | destinationUnreachable
  | commandNotSupported
  | commandRejected
  | restrictedExchangeNotSupported
  | bindingRequired
  | other (number : Nat)
deriving DecidableEq

def ErrorNumber.isSuccess : ErrorNumber → Bool
  | .none => true
  | _ => false

def RestrictError.errorNumber (_ : RestrictError) : ErrorNumber := .restrictedExchangeNotSupported

abbrev AddressDevice := String
abbrev MsgCounter := UInt64

structure FeatureAddress where
  device : Option AddressDevice
  entity : Option (List Nat)
  feature : Option Nat
deriving DecidableEq

inductive Role
  | client
  | server
  | special
deriving DecidableEq

inductive FeatureType
  | nodeManagement
  | loadControl
  | deviceConfiguration
  | deviceDiagnosis
  | electricalConnection
  | other (name : String)
deriving DecidableEq

inductive EntityType
  | deviceInformation
  | other (name : String)
deriving DecidableEq

abbrev DeviceType := String
abbrev UseCaseActor := String
abbrev UseCaseName := String

inductive NetworkManagementFeatureSet
  | gateway
  | router
  | smart
  | simple
deriving DecidableEq

inductive NetworkManagementStateChange
  | added
  | removed
  | modified
deriving DecidableEq

/-- The functions this development names. `other` stands for every further alternative of the
data choice. -/
inductive Key (Other : Type)
  | resultData
  | nodeManagementDetailedDiscoveryData
  | nodeManagementUseCaseData
  | nodeManagementBindingData
  | nodeManagementSubscriptionData
  | nodeManagementBindingRequestCall
  | nodeManagementBindingDeleteCall
  | nodeManagementSubscriptionRequestCall
  | nodeManagementSubscriptionDeleteCall
  | loadControlLimitDescriptionListData
  | loadControlLimitListData
  | deviceConfigurationKeyValueDescriptionListData
  | deviceConfigurationKeyValueListData
  | electricalConnectionCharacteristicListData
  | deviceDiagnosisHeartbeatData
  | setpointListData
  | hvacSystemFunctionListData
  | other (o : Other)
deriving DecidableEq

inductive Function (Other : Type)
  | known (key : Key Other)
  | extension (name : String)
deriving DecidableEq

structure ResultData where
  errorNumber : Option ErrorNumber
deriving DecidableEq

structure PossibleOperation where
  isPartial : Bool
deriving DecidableEq

structure PossibleOperations where
  read : Option PossibleOperation
  write : Option PossibleOperation
deriving DecidableEq

structure FunctionProperty (Other : Type) where
  function : Option (Function Other)
  possibleOperations : Option PossibleOperations
deriving DecidableEq

structure DeviceAddress where
  device : Option AddressDevice
deriving DecidableEq

structure EntityAddress where
  entity : Option (List Nat)
deriving DecidableEq

structure LocalFeatureAddress where
  entity : Option (List Nat)
  feature : Option Nat
deriving DecidableEq

structure SpecificationVersionList where
  specificationVersion : Option (List String)
deriving DecidableEq

structure DeviceInformationDescription where
  deviceAddress : Option DeviceAddress
  deviceType : Option DeviceType
  networkFeatureSet : Option NetworkManagementFeatureSet
deriving DecidableEq

structure DeviceInformation where
  description : Option DeviceInformationDescription
deriving DecidableEq

structure EntityInformationDescription where
  entityAddress : Option EntityAddress
  entityType : Option EntityType
  lastStateChange : Option NetworkManagementStateChange
deriving DecidableEq

structure EntityInformation where
  description : Option EntityInformationDescription
deriving DecidableEq

structure FeatureInformationDescription (Other : Type) where
  featureAddress : Option LocalFeatureAddress
  featureType : Option FeatureType
  role : Option Role
  supportedFunction : Option (List (FunctionProperty Other))
  lastStateChange : Option NetworkManagementStateChange
  maxResponseDelay : Option String
deriving DecidableEq

structure FeatureInformation (Other : Type) where
  description : Option (FeatureInformationDescription Other)
deriving DecidableEq

structure NodeManagementDetailedDiscoveryData (Other : Type) where
  specificationVersionList : Option SpecificationVersionList
  deviceInformation : Option DeviceInformation
  entityInformation : Option (List EntityInformation)
  featureInformation : Option (List (FeatureInformation Other))
deriving DecidableEq

structure DeviceInformationSelectors where
  deviceAddress : Option DeviceAddress
  deviceType : Option DeviceType
deriving DecidableEq

structure EntityInformationSelectors where
  entityAddress : Option EntityAddress
  entityType : Option EntityType
deriving DecidableEq

structure FeatureInformationSelectors where
  featureAddress : Option FeatureAddress
  featureType : Option FeatureType
deriving DecidableEq

structure NodeManagementDetailedDiscoveryDataSelectors where
  deviceInformation : Option DeviceInformationSelectors
  entityInformation : Option EntityInformationSelectors
  featureInformation : Option FeatureInformationSelectors
deriving DecidableEq

structure UseCaseSupport where
  useCaseName : Option UseCaseName
  useCaseVersion : Option String
  useCaseAvailable : Option Bool
  scenarioSupport : Option (List Nat)
  useCaseDocumentSubRevision : Option String
deriving DecidableEq

structure UseCaseInformation where
  address : Option FeatureAddress
  actor : Option UseCaseActor
  useCaseSupport : Option (List UseCaseSupport)
deriving DecidableEq

structure NodeManagementUseCaseData where
  useCaseInformation : Option (List UseCaseInformation)
deriving DecidableEq

/-- One entry of the binding or of the subscription table. -/
structure RelationEntry where
  id : Option UInt32
  clientAddress : Option FeatureAddress
  serverAddress : Option FeatureAddress
deriving DecidableEq

structure NodeManagementRelationData where
  entry : Option (List RelationEntry)
deriving DecidableEq

structure RelationRequest where
  clientAddress : Option FeatureAddress
  serverAddress : Option FeatureAddress
  serverFeatureType : Option FeatureType
deriving DecidableEq

structure RelationRequestCall where
  request : Option RelationRequest
deriving DecidableEq

structure RelationDelete where
  clientAddress : Option FeatureAddress
  serverAddress : Option FeatureAddress
deriving DecidableEq

structure RelationDeleteCall where
  delete : Option RelationDelete
deriving DecidableEq

structure ScaledNumber where
  number : Option Int
  scale : Option Int
deriving DecidableEq

structure TimePeriod where
  startTime : Option String
  endTime : Option String
deriving DecidableEq

structure LoadControlLimitData where
  limitId : Option Nat
  isLimitChangeable : Option Bool
  isLimitActive : Option Bool
  timePeriod : Option TimePeriod
  value : Option ScaledNumber
deriving DecidableEq

structure LoadControlLimitListData where
  loadControlLimitData : Option (List LoadControlLimitData)
deriving DecidableEq

structure LoadControlLimitDescriptionData where
  limitId : Option Nat
  limitType : Option String
  limitCategory : Option String
  limitDirection : Option String
  measurementId : Option Nat
  unit : Option String
  scopeType : Option String
deriving DecidableEq

structure LoadControlLimitDescriptionListData where
  loadControlLimitDescriptionData : Option (List LoadControlLimitDescriptionData)
deriving DecidableEq

structure DeviceConfigurationKeyValueValue where
  scaledNumber : Option ScaledNumber
  duration : Option String
deriving DecidableEq

structure DeviceConfigurationKeyValueData where
  keyId : Option Nat
  value : Option DeviceConfigurationKeyValueValue
  isValueChangeable : Option Bool
deriving DecidableEq

structure DeviceConfigurationKeyValueListData where
  deviceConfigurationKeyValueData : Option (List DeviceConfigurationKeyValueData)
deriving DecidableEq

structure DeviceConfigurationKeyValueDescriptionData where
  keyId : Option Nat
  keyName : Option String
  valueType : Option String
  unit : Option String
deriving DecidableEq

structure DeviceConfigurationKeyValueDescriptionListData where
  deviceConfigurationKeyValueDescriptionData :
    Option (List DeviceConfigurationKeyValueDescriptionData)
deriving DecidableEq

structure ElectricalConnectionCharacteristicData where
  electricalConnectionId : Option Nat
  parameterId : Option Nat
  characteristicId : Option Nat
  characteristicContext : Option String
  characteristicType : Option String
  value : Option ScaledNumber
  unit : Option String
deriving DecidableEq

structure ElectricalConnectionCharacteristicListData where
  electricalConnectionCharacteristicData : Option (List ElectricalConnectionCharacteristicData)
deriving DecidableEq

structure DeviceDiagnosisHeartbeatData where
  timestamp : Option String
  heartbeatCounter : Option Nat
  heartbeatTimeout : Option String
deriving DecidableEq

structure SetpointData where
  setpointId : Option Nat
  value : Option ScaledNumber
  isSetpointChangeable : Option Bool
  isSetpointActive : Option Bool
  timePeriod : Option TimePeriod
deriving DecidableEq

structure SetpointListData where
  setpointData : Option (List SetpointData)
deriving DecidableEq

structure HvacSystemFunctionData where
  systemFunctionId : Option Nat
  currentOperationModeId : Option Nat
  isOperationModeIdChangeable : Option Bool
  currentSetpointId : Option Nat
  isSetpointIdChangeable : Option Bool
  isOverrunActive : Option Bool
deriving DecidableEq

structure HvacSystemFunctionListData where
  hvacSystemFunctionData : Option (List HvacSystemFunctionData)
deriving DecidableEq

end Eebus.Model
