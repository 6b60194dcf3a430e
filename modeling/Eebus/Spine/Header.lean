import Eebus.Library.Duration
import Eebus.Model.CmdData

/-! What a datagram's header is checked for: its version, its counter, and the acknowledgement
it asks for. -/

namespace Eebus.Spine

open Eebus.Library Eebus.Model

structure SpecVersion where
  major : Nat
  minor : Nat
  patch : Nat
deriving DecidableEq

def supportedVersion : SpecVersion := ⟨1, 3, 0⟩

def versionNumber (text : List Char) : Option Nat :=
  if text.isEmpty || text.length > 9 || !text.all Char.isDigit then none
  else some (text.foldl (fun n c => n * 10 + (c.toNat - '0'.toNat)) 0)

def SpecVersion.parse (text : String) : Option SpecVersion :=
  let chars := match text.toList with
    | 'v' :: rest | 'V' :: rest => rest
    | chars => chars
  match chars.splitOn '.' with
  | [major, minor, patch] => do
    if major.head? = some '0' then none
    else some ⟨← versionNumber major, ← versionNumber minor, ← versionNumber patch⟩
  | _ => none

/-- Whether the datagram should be processed: the version is absent, or of a major this
implementation speaks. -/
def versionAcceptable : Option String → Bool
  | none => true
  | some text =>
    match SpecVersion.parse text with
    | none => false
    | some version => version.major == supportedVersion.major

def nextMsgCounter (next : MsgCounter) : MsgCounter :=
  if next.toNat + 1 < 2 ^ 64 then next + 1 else 1

inductive CounterCheck
  | ascending
  | skipped (missed : UInt64)
  | restarted
  | reordered
  | duplicate
deriving DecidableEq

def CounterCheck.isAcceptable : CounterCheck → Bool
  | .duplicate => false
  | _ => true

def restartThreshold : UInt64 := 1000
def counterWindow : UInt64 := 64

structure MsgCounterTracker where
  last : Option UInt64
  seen : UInt64
deriving DecidableEq

namespace MsgCounterTracker

def new : MsgCounterTracker := ⟨none, 0⟩

def observe (tracker : MsgCounterTracker) (value : MsgCounter) : MsgCounterTracker × CounterCheck :=
  match tracker.last with
  | none => ({ tracker with last := some value }, .ascending)
  | some last =>
    if value > last then
      let ahead := value - last
      let seen :=
        if ahead < counterWindow then (tracker.seen <<< ahead) ||| (1 <<< (ahead - 1)) else 0
      (⟨some value, seen⟩, if ahead = 1 then .ascending else .skipped (ahead - 1))
    else
      let behind := last - value
      if behind ≥ restartThreshold then (⟨some value, 0⟩, .restarted)
      else if behind = 0 || behind > counterWindow then (tracker, .duplicate)
      else
        let bit := 1 <<< (behind - 1)
        if tracker.seen &&& bit ≠ 0 then (tracker, .duplicate)
        else ({ tracker with seen := tracker.seen ||| bit }, .reordered)

end MsgCounterTracker

def defaultMaxResponseDelay : Nat := fromSecs 10

inductive AckScope
  | applicationErrorOnly
  | applicationSuccessOrError
  | transmissionSuccessOrError
  | none
deriving DecidableEq

def ackScope : CmdClassifier → AckScope
  | .read => .applicationErrorOnly
  | .write | .call => .applicationSuccessOrError
  | .reply | .notify => .transmissionSuccessOrError
  | .result => .none

def owesAck (classifier : CmdClassifier) (ackRequest : Bool) (error : ErrorNumber) : Bool :=
  match ackScope classifier with
  | .none => false
  | .applicationErrorOnly => !error.isSuccess
  | .applicationSuccessOrError | .transmissionSuccessOrError => ackRequest || !error.isSuccess

theorem owesAck_write_error {error : ErrorNumber} (ackRequest : Bool)
    (h : error.isSuccess = false) : owesAck .write ackRequest error = true := by
  simp [owesAck, ackScope, h]

end Eebus.Spine
