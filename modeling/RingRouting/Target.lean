import RingRouting.Text.Quoted

/-!
# Targets

A target names what to resolve: `scheme://authority/endpoint`. The scheme ends at the first `://`,
the authority at the first slash after it, and slashes in front of the endpoint do not count.
-/

namespace RingRouting

/-- Why a text is refused as a target. -/
inductive TargetFault where
  | missingScheme
  | emptyScheme
  | missingService
  /-- The target is well formed, but its scheme is not the one that is resolved here. -/
  | foreignScheme
deriving DecidableEq, Repr

/-- A parsed target. -/
structure Target where
  scheme : String
  authority : String
  /-- The path without leading slashes: the service of a target that is resolved here. -/
  endpoint : String
deriving DecidableEq, Repr

namespace Target

/-- The scheme that is resolved here. -/
def ownScheme : String := "svc"

/-- The target of a service. -/
def ofService (service : String) : Target :=
  ⟨ownScheme, "", service⟩

instance : ToString Target where
  toString t := s!"{t.scheme}://{t.authority}/{t.endpoint}"

/-- What stands before and after the first `://`. -/
def splitScheme? : List Char → Option (List Char × List Char)
  | ':' :: '/' :: '/' :: rest => some ([], rest)
  | [] => none
  | c :: rest => (splitScheme? rest).map fun (scheme, rest) => (c :: scheme, rest)

/-- The target that a text stands for. -/
def parse (text : String) : Except TargetFault Target :=
  match splitScheme? text.toList with
  | none => .error .missingScheme
  | some (scheme, rest) =>
    if scheme = [] then .error .emptyScheme
    else
      let authority := rest.takeWhile (· ≠ '/')
      let endpoint := (rest.dropWhile (· ≠ '/')).dropWhile (· = '/')
      if endpoint = [] then .error .missingService
      else .ok ⟨String.ofList scheme, String.ofList authority, String.ofList endpoint⟩

/-- The text to resolve a service by: the one that `overrides` gives for it, as it is, or the target
of the service. -/
def textFor (overrides : String → Option String) (service : String) : String :=
  (overrides service).getD (toString (ofService service))

end Target

/-- The text of a fault. -/
def TargetFault.message : TargetFault → String
  | .missingScheme => "missing scheme"
  | .emptyScheme => "empty scheme"
  | .missingService => "missing service name"
  | .foreignScheme => s!"scheme must be {Target.ownScheme}"

end RingRouting
