/-!
# Connectivity

A connection is in one of five states. The state of many connections together is that of the best
one: ready if any is ready, else connecting, else idle, else failing. It is derived from counts of
how many connections are in each state; those that are shut down are not counted.
-/

namespace RingRouting

/-- The state of a connection, or of all connections together. -/
inductive Connectivity where
  | idle
  | connecting
  | ready
  | transientFailure
  | shutdown
deriving DecidableEq, Repr, Inhabited

namespace Connectivity

/-- The name of a state. -/
def name : Connectivity → String
  | .idle => "IDLE"
  | .connecting => "CONNECTING"
  | .ready => "READY"
  | .transientFailure => "TRANSIENT_FAILURE"
  | .shutdown => "SHUTDOWN"

/-- The state of that name. -/
def ofName? : String → Option Connectivity
  | "IDLE" => some .idle
  | "CONNECTING" => some .connecting
  | "READY" => some .ready
  | "TRANSIENT_FAILURE" => some .transientFailure
  | "SHUTDOWN" => some .shutdown
  | _ => none

/-- The name of a state within the summary of a larger value. -/
def describe : Connectivity → String
  | .idle => "Idle"
  | .connecting => "Connecting"
  | .ready => "Ready"
  | .transientFailure => "TransientFailure"
  | .shutdown => "Shutdown"

end Connectivity

/-- How many connections are in each state. -/
structure Tally where
  ready : Nat := 0
  connecting : Nat := 0
  idle : Nat := 0
  transientFailure : Nat := 0
deriving DecidableEq, Repr

namespace Tally

/-- How many connections are in a state. -/
def count (t : Tally) : Connectivity → Nat
  | .ready => t.ready
  | .connecting => t.connecting
  | .idle => t.idle
  | .transientFailure => t.transientFailure
  | .shutdown => 0

/-- Change the count of one state. -/
def modify (t : Tally) (f : Nat → Nat) : Connectivity → Tally
  | .ready => { t with ready := f t.ready }
  | .connecting => { t with connecting := f t.connecting }
  | .idle => { t with idle := f t.idle }
  | .transientFailure => { t with transientFailure := f t.transientFailure }
  | .shutdown => t

/-- One connection went from one state to another. A new connection comes from, and a removed one
goes to, being shut down. No count falls below zero. -/
def record (t : Tally) (old new : Connectivity) : Tally :=
  (t.modify (· - 1) old).modify (· + 1) new

/-- The state of all connections together. -/
def aggregate (t : Tally) : Connectivity :=
  if 0 < t.ready then .ready
  else if 0 < t.connecting then .connecting
  else if 0 < t.idle then .idle
  else .transientFailure

end Tally

end RingRouting
