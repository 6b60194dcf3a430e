import Eebus.Library.Upsert
import Eebus.Model.Payload

/-!
A reader of one system function of an appliance: what it learns from what the appliance publishes,
and what it makes of a write.
-/

namespace Eebus.Hvac

open Eebus.Library Eebus.Model

structure HvacSystemFunctionDescriptionData where
  systemFunctionId : Option Nat
  systemFunctionType : Option String
deriving DecidableEq

structure HvacOperationModeDescriptionData where
  operationModeId : Option Nat
  operationModeType : Option String
deriving DecidableEq

structure HvacSystemFunctionOperationModeRelationData where
  systemFunctionId : Option Nat
  operationModeId : Option (List Nat)
deriving DecidableEq

structure HvacOverrunDescriptionData where
  overrunId : Option Nat
  overrunType : Option String
  affectedSystemFunctionId : Option (List Nat)
deriving DecidableEq

inductive HvacOverrunStatus
  | active
  | running
  | finished
  | inactive
  | other (name : String)
deriving DecidableEq

structure HvacOverrunData where
  overrunId : Option Nat
  overrunStatus : Option HvacOverrunStatus
deriving DecidableEq

inductive HvacData
  | functionDescriptions (entries : Option (List HvacSystemFunctionDescriptionData))
  | modeDescriptions (entries : Option (List HvacOperationModeDescriptionData))
  | modeRelations (entries : Option (List HvacSystemFunctionOperationModeRelationData))
  | systemFunctions (list : HvacSystemFunctionListData)
  | overrunDescriptions (entries : Option (List HvacOverrunDescriptionData))
  | overruns (entries : Option (List HvacOverrunData))
  | other
deriving DecidableEq

inductive OverrunReport
  | active
  | running
  | inactive
deriving DecidableEq

/-- A status as the state it leaves the overrun in, and whether it announces that one just ended. -/
def OverrunReport.read : HvacOverrunStatus → Option (OverrunReport × Bool)
  | .active => some (.active, false)
  | .running => some (.running, false)
  | .inactive => some (.inactive, false)
  | .finished => some (.inactive, true)
  | .other _ => none

structure FunctionState where
  current : Option Nat
  changeable : Option Bool
  overrunActive : Option Bool
deriving DecidableEq

structure SystemFunction where
  kind : String
  /-- The overrun of the use case, where it has one. -/
  overrunType : Option String
  function : Option Nat
  modes : List (Nat × String)
  related : List (Nat × List Nat)
  states : List (Nat × FunctionState)
  overruns : List (Nat × String × List Nat)
  overrunStates : List (Nat × OverrunReport × Bool)
deriving DecidableEq

inductive ModeRefused
  | functionUnknown
  | notAddressed
  | notRelated
  | notChangeable
  | noOverrun
deriving DecidableEq

inductive Request
  | setMode (mode : Nat)
  | startOverrun (id : Nat)
  | stopOverrun (id : Nat)
deriving DecidableEq

namespace SystemFunction

def new (kind : String) (overrunType : Option String) : SystemFunction where
  kind := kind
  overrunType := overrunType
  function := none
  modes := []
  related := []
  states := []
  overruns := []
  overrunStates := []

def describedAs (kind : String) (entries : List HvacSystemFunctionDescriptionData) : Option Nat :=
  (entries.find? fun entry => entry.systemFunctionType == some kind).bind
    HvacSystemFunctionDescriptionData.systemFunctionId

def learnMode (modes : List (Nat × String)) (entry : HvacOperationModeDescriptionData) :
    List (Nat × String) :=
  match entry.operationModeId, entry.operationModeType with
  | some id, some kind => upsert Prod.fst (id, kind) modes
  | _, _ => modes

def learnRelation (related : List (Nat × List Nat))
    (entry : HvacSystemFunctionOperationModeRelationData) : List (Nat × List Nat) :=
  match entry.systemFunctionId with
  | some id => upsert Prod.fst (id, entry.operationModeId.getD []) related
  | none => related

def learnState (states : List (Nat × FunctionState)) (entry : HvacSystemFunctionData) :
    List (Nat × FunctionState) :=
  match entry.systemFunctionId with
  | some id => upsert Prod.fst (id, ⟨entry.currentOperationModeId, entry.isOperationModeIdChangeable,
      entry.isOverrunActive⟩) states
  | none => states

def learnOverrun (overruns : List (Nat × String × List Nat)) (entry : HvacOverrunDescriptionData) :
    List (Nat × String × List Nat) :=
  match entry.overrunId, entry.overrunType with
  | some id, some kind =>
    upsert Prod.fst (id, kind, entry.affectedSystemFunctionId.getD []) overruns
  | _, _ => overruns

def learnStatus (statuses : List (Nat × OverrunReport × Bool)) (entry : HvacOverrunData) :
    List (Nat × OverrunReport × Bool) :=
  match entry.overrunId, entry.overrunStatus.bind OverrunReport.read with
  | some id, some state => upsert Prod.fst (id, state) statuses
  | _, _ => statuses

def learn (reader : SystemFunction) : HvacData → SystemFunction × Bool
  | .modeDescriptions entries =>
    ({ reader with modes := (entries.getD []).foldl learnMode reader.modes }, true)
  | .functionDescriptions entries =>
    ({ reader with function := (describedAs reader.kind (entries.getD [])).or reader.function }, true)
  | .modeRelations entries =>
    ({ reader with related := (entries.getD []).foldl learnRelation reader.related }, true)
  | .systemFunctions list =>
    ({ reader with
        states := (list.hvacSystemFunctionData.getD []).foldl learnState reader.states }, true)
  | .overrunDescriptions entries =>
    ({ reader with overruns := (entries.getD []).foldl learnOverrun reader.overruns }, true)
  | .overruns entries =>
    ({ reader with
        overrunStates := (entries.getD []).foldl learnStatus reader.overrunStates }, true)
  | .other => (reader, false)

def learnAll (reader : SystemFunction) (published : List HvacData) : SystemFunction :=
  published.foldl (fun reader data => (reader.learn data).1) reader

/-- The overrun of the reader's kind that affects its function. One that names no function it
affects is taken for this one's. -/
def overrunId (reader : SystemFunction) : Option Nat := do
  let function ← reader.function
  let wanted ← reader.overrunType
  (reader.overruns.find? fun overrun => overrun.2.1 == wanted &&
    (overrun.2.2.isEmpty || overrun.2.2.contains function)).map Prod.fst

def relatedModes (reader : SystemFunction) : List Nat :=
  (reader.function.bind fun function =>
    (reader.related.find? (hasKey Prod.fst function)).map Prod.snd).getD []

def modeChangeable (reader : SystemFunction) : Option Bool :=
  (reader.function.bind fun function =>
    (reader.states.find? (hasKey Prod.fst function)).map Prod.snd).bind FunctionState.changeable

def kindOf (reader : SystemFunction) (mode : Nat) : Option String :=
  (reader.modes.find? (hasKey Prod.fst mode)).map Prod.snd

def state (reader : SystemFunction) : Option FunctionState :=
  reader.function.bind fun function => (reader.states.find? (hasKey Prod.fst function)).map Prod.snd

def modeId (reader : SystemFunction) : Option Nat := reader.state.bind FunctionState.current

def mode (reader : SystemFunction) : Option String := reader.modeId.bind reader.kindOf

def overrunReport (reader : SystemFunction) : Option (OverrunReport × Bool) :=
  reader.overrunId.bind fun id => (reader.overrunStates.find? (hasKey Prod.fst id)).map Prod.snd

def overrun (reader : SystemFunction) : Option OverrunReport := reader.overrunReport.map Prod.fst

def overrunJustFinished (reader : SystemFunction) : Bool := reader.overrunReport.any Prod.snd

def isComplete (reader : SystemFunction) : Bool :=
  reader.function.isSome && decide (2 ≤ reader.modes.length) && reader.modeId.isSome

/-- Decides what a write asks for. It is given the fragment the peer sent, and reads the first entry
of the fragment that names the reader's function. -/
def apply (reader : SystemFunction) : HvacData → Except ModeRefused Request
  | .systemFunctions list =>
    match reader.function with
    | none => .error .functionUnknown
    | some function =>
      match (list.hvacSystemFunctionData.getD []).find? fun entry =>
          entry.systemFunctionId == some function with
      | none => .error .notAddressed
      | some entry =>
        match entry.currentOperationModeId with
        | none => .error .notRelated
        | some mode =>
          if mode ∉ reader.relatedModes then .error .notRelated
          else if reader.modeChangeable = some false then .error .notChangeable
          else .ok (.setMode mode)
  | .overruns entries =>
    match reader.overrunId with
    | none => .error .noOverrun
    | some id =>
      match ((entries.getD []).find? fun entry => entry.overrunId == some id).bind
          HvacOverrunData.overrunStatus with
      | none => .error .notAddressed
      | some .active => .ok (.startOverrun id)
      | some .running => .ok (.startOverrun id)
      | some .inactive => .ok (.stopOverrun id)
      | some .finished => .error .noOverrun
      | some (.other _) => .error .noOverrun
  | _ => .error .notAddressed

/-- A reader that lets a mode be set has found it among the modes of its function, and the function
changeable; the mode is that of the first entry that names the function. -/
theorem apply_setMode {reader : SystemFunction} {list : HvacSystemFunctionListData} {mode : Nat}
    (h : reader.apply (.systemFunctions list) = .ok (.setMode mode)) :
    ∃ function entry, reader.function = some function ∧
      (list.hvacSystemFunctionData.getD []).find?
        (fun entry => entry.systemFunctionId == some function) = some entry ∧
      entry.currentOperationModeId = some mode ∧ mode ∈ reader.relatedModes ∧
      reader.modeChangeable ≠ some false := by
  unfold apply at h
  cases hfunction : reader.function with
  | none => simp [hfunction] at h
  | some function =>
    simp only [hfunction] at h
    split at h
    · cases h
    case h_2 entry hentry =>
      split at h
      · cases h
      case h_2 found hmode =>
        by_cases hrelated : found ∉ reader.relatedModes
        · rw [if_pos hrelated] at h
          cases h
        · rw [if_neg hrelated] at h
          by_cases hchangeable : reader.modeChangeable = some false
          · rw [if_pos hchangeable] at h
            cases h
          · rw [if_neg hchangeable] at h
            cases h
            exact ⟨function, entry, rfl, hentry, hmode, not_not.mp hrelated, hchangeable⟩

theorem apply_systemFunctions {reader : SystemFunction} {list : HvacSystemFunctionListData}
    {request : Request} (h : reader.apply (.systemFunctions list) = .ok request) :
    ∃ mode, request = .setMode mode := by
  simp only [apply] at h
  repeat' split at h
  all_goals cases h
  exact ⟨_, rfl⟩

end SystemFunction

end Eebus.Hvac
