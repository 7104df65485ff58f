/-!
# Metrics

What the library counts about itself: calls, pushes and failures as totals, and the number of ring
members as its last value. A metric that was never touched is not there.
-/

namespace RingRouting

/-- The counts so far. -/
structure Metrics where
  picks : Nat := 0
  pickFailures : Nat := 0
  balancerUpdates : Nat := 0
  ringMembers : Option Nat := none
  resolverUpdates : Nat := 0
  resyncFailures : Nat := 0
deriving DecidableEq, Repr

namespace Metrics

/-- One call was routed. -/
def picked (m : Metrics) : Metrics :=
  { m with picks := m.picks + 1 }

/-- One call could not be routed. -/
def pickFailed (m : Metrics) : Metrics :=
  { m with pickFailures := m.pickFailures + 1 }

/-- Names and values of the metrics that were touched. -/
def toList (m : Metrics) : List (String × Nat) :=
  let counters := [
    ("balancer_picks_total", m.picks),
    ("balancer_pick_failures_total", m.pickFailures),
    ("balancer_updates_total", m.balancerUpdates),
    ("resolver_updates_total", m.resolverUpdates),
    ("resolver_resync_failures_total", m.resyncFailures)]
  counters.filter (·.2 ≠ 0) ++ m.ringMembers.toList.map ("balancer_ring_members", ·)

end Metrics

end RingRouting
