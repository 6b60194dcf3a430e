import Eebus.Cob.Deadlines
import Eebus.Cob.Frames
import Eebus.Cob.Site
import Eebus.Emobility.GuardRuns
import Eebus.Emobility.ParameterRanges
import Eebus.Emobility.Ranges
import Eebus.Emobility.Refusals
import Eebus.Emobility.Watchdogs
import Eebus.Hvac.Changes
import Eebus.Hvac.CheckedModes
import Eebus.Limitation.Coupled
import Eebus.Limitation.Evidence
import Eebus.Limitation.FailsafeWrites
import Eebus.Limitation.Punctuality
import Eebus.Limitation.Requirement
import Eebus.Limitation.Safety
import Eebus.Limitation.Supervision
import Eebus.Limitation.Unreadable
import Eebus.Limitation.Wakeups
import Eebus.Model.DateTimeExact
import Eebus.Model.DurationGrammar
import Eebus.Model.FrameCodec
import Eebus.Model.Splitting
import Eebus.Ohpcf.Commands
import Eebus.Runtime.Backoff
import Eebus.Runtime.ConnectionTable
import Eebus.Runtime.Decisions
import Eebus.Runtime.KeyTrust
import Eebus.Runtime.Persistence
import Eebus.Runtime.PinAward
import Eebus.Runtime.Teardown
import Eebus.Ship.Agreement
import Eebus.Ship.PairingRequester
import Eebus.Ship.PinThrottle
import Eebus.Ship.Renewal
import Eebus.Ship.Secrets
import Eebus.Spine.Addressable
import Eebus.Spine.Capacity
import Eebus.Spine.Convergence
import Eebus.Spine.Discretion
import Eebus.Spine.EntityTree
import Eebus.Spine.ExclusiveControl
import Eebus.Spine.Remembering
import Eebus.Spine.Replay
import Eebus.Spine.RestrictedDeletes
