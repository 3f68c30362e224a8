import VipSteering.Desired.Spec

namespace VipSteering

structure DesiredService where
  name : String
  /-- Left open, the number is the caller's default. -/
  maxEndpoints : Option UInt32
  endpoints : List EndpointSpec
  deriving DecidableEq, Repr

/-- Everything that is wanted of a gateway at one time. -/
structure Snapshot where
  services : List DesiredService
  flows : List FlowSpec
  deriving DecidableEq, Repr

/-- A text that spells no snapshot. -/
inductive SnapshotFault where
  | malformed
  deriving DecidableEq, Repr

namespace SnapshotFault

def task : String := "invalid desired state"

def message : SnapshotFault → String
  | .malformed => task ++ ": " ++ Json.malformedText

end SnapshotFault

namespace DesiredService

def ofJson? (j : Json) : Option DesiredService := do
  let fields ← j.fields? ["name", "max_endpoints", "endpoints"]
  let name ← fields.required "name" Json.text?
  let maxEndpoints ← fields.withDefault "max_endpoints" none (Json.option? Json.uint32?)
  let endpoints ← fields.withDefault "endpoints" [] (Json.list? EndpointSpec.ofJson?)
  return { name, maxEndpoints, endpoints }

/-- The service with its number of slots settled. -/
def spec (s : DesiredService) (default : UInt32) : ServiceSpec :=
  { name := s.name, maxEndpoints := s.maxEndpoints.getD default }

end DesiredService

namespace Snapshot

def ofJson? (j : Json) : Option Snapshot := do
  let fields ← j.fields? ["services", "flows"]
  let services ← fields.withDefault "services" [] (Json.list? DesiredService.ofJson?)
  let flows ← fields.withDefault "flows" [] (Json.list? FlowSpec.ofJson?)
  return { services, flows }

def parse (text : String) : Except SnapshotFault Snapshot :=
  match (Json.parse? text).bind ofJson? with
  | some snapshot => .ok snapshot
  | none => .error .malformed

end Snapshot
end VipSteering
