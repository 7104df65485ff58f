import RingRouting.Target

/-!
# Errors of a resolution
-/

namespace RingRouting

/-- Why a resolution does not start, or what goes wrong while it runs. -/
inductive ResolutionError where
  | invalidTarget (target : String) (fault : TargetFault)
  /-- The nodes of the service could not be fetched. -/
  | query (service reason : String)
  /-- The service could not be watched. -/
  | watch (service reason : String)
  | zeroInterval
  /-- The consumer of the addresses refused them. -/
  | rejected (reason : String)
deriving DecidableEq, Repr

/-- The text of a resolution error. -/
def ResolutionError.message : ResolutionError → String
  | .invalidTarget target fault => s!"invalid target {Text.quote target}: {fault.message}"
  | .query service reason => s!"node query for service {service} failed: {reason}"
  | .watch service reason => s!"watch on service {service} failed: {reason}"
  | .zeroInterval => "invalid resolver config: resync interval must be non-zero"
  | .rejected reason => s!"resolver state rejected: {reason}"

end RingRouting
