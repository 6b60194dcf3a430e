import Eebus.Runtime.Hub

/-! Everything that can happen to a hub, one turn of its loop at a time. -/

namespace Eebus.Runtime

open Eebus.Library Eebus.Model Eebus.Spine
open Eebus.Ship (Ski)

variable {S : Schema}

inductive HubOp (S : Schema)
  | adopt (ski : Ski) (origin : Origin) (now : Nat)
  | frame (index : Nat) (read : Hub.Frame S) (now : Nat)
  | transmit (sent : Bool)
  | interrupt (index : Nat)
  | resume
  | engineTimeout (now : Nat)
  | expireLinks (now : Nat)
  | keepalive (now : Nat) (sent : Nat → Bool)
  | pong (index : Nat)
  | arbitrate (now : Nat) (sent : Nat → Bool)
  | close (ski : Ski)
  | disconnect (ski : Ski)
  | shutdown
  | wake (at_ : Nat)
  | setMaxConnections (limit : Nat)
  | takeEvent
  | takeSpineEvent

namespace Hub

def perform (h : Hub S) : HubOp S → Hub S
  | .adopt ski origin now => (h.adopt ski origin now).1
  | .frame index read now => h.frame index read now
  | .transmit sent => h.transmit sent
  | .interrupt index => h.interrupt index
  | .resume => h.resume
  | .engineTimeout now => h.engineTimeout now
  | .expireLinks now => h.expireLinks now
  | .keepalive now sent => h.keepalive now sent
  | .pong index => h.pong index
  | .arbitrate now sent => h.arbitrate now sent
  | .close ski => h.close ski
  | .disconnect ski => h.disconnect ski
  | .shutdown => h.shutdown
  | .wake at_ => h.wake at_
  | .setMaxConnections limit => { h with maxConnections := max limit 1 }
  | .takeEvent => { h with pending := h.pending.drop 1 }
  | .takeSpineEvent => { h with engine := { h.engine with events := h.engine.events.drop 1 } }

def machine : Machine (Hub S) (HubOp S) Unit where
  step h op := (h.perform op, ())

end Hub

end Eebus.Runtime
