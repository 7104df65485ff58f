import RingRouting.Ring.Basic

/-!
# Errors of the balancer and its pickers
-/

namespace RingRouting

/-- Why a balancer refuses an update, or a picker a call. -/
inductive BalancerError where
  /-- Addresses came before any policy. -/
  | noRing
  /-- The resolver handed over something unusable, such as no addresses. -/
  | badResolverState
  | invalidPolicy (reason : String)
  | ring (cause : RingError)
  | noConnection
  /-- The call cannot be routed at present. -/
  | unavailable (reason : String)
  | resolver (reason : String)
  | connection (reason : String)
deriving DecidableEq, Repr

namespace BalancerError

/-- The text of a balancer error. -/
def message : BalancerError → String
  | .noRing => "no hash ring configured"
  | .badResolverState => "bad resolver state"
  | .invalidPolicy reason => s!"invalid balancer config: {reason}"
  | .ring cause => s!"hash ring: {cause.message}"
  | .noConnection => "no sub-connection available"
  | .unavailable reason => s!"unavailable: {reason}"
  | .resolver reason => s!"resolver: {reason}"
  | .connection reason => s!"sub-connection: {reason}"

/-- What a call is told when there is nothing to route it to: the last connection error and the last
resolver error, as far as there are any. -/
def join (connection resolver : Option BalancerError) : BalancerError :=
  match connection.toList ++ resolver.toList with
  | [] => .noConnection
  | errors => .unavailable ("; ".intercalate (errors.map message))

end BalancerError

end RingRouting
