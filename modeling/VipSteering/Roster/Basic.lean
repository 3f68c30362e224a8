import VipSteering.Desired.Spec
import VipSteering.Roster.Fault
import Std.Data.ExtTreeMap

namespace VipSteering

/-- What spreads the traffic of services over targets. Its states are `σ`; it names services by
handles `H` and its failures are `ε`. -/
structure Engine (σ H ε : Type) where
  /-- Adds a service with a number of slots. -/
  addService : String → UInt32 → StateM σ (Except ε H)
  /-- Deletes a service with all its flows and targets. -/
  deleteService : String → StateM σ (Except ε Unit)
  /-- The number of slots of a service. -/
  slots : H → UInt32
  addFlow : H → Flow → StateM σ (Except ε Unit)
  deleteFlow : H → Flow → StateM σ (Except ε Unit)
  addTarget : H → List Address → UInt32 → StateM σ (Except ε Unit)
  deleteTarget : H → List Address → UInt32 → StateM σ (Except ε Unit)

/-- An endpoint that holds a slot. -/
structure ActiveEndpoint where
  identity : String
  addresses : List Address
  slot : UInt32
  deriving DecidableEq, Repr

/-- Can the endpoint stay as it is, if this is what is wanted of it? -/
def ActiveEndpoint.suits (e : ActiveEndpoint) (wanted : EndpointSpec) : Bool :=
  wanted.ready && (wanted.slot.getD e.slot = e.slot) && sameAddresses wanted.addresses e.addresses

/-- What is on record, with the state of the engine that it is a record of. -/
structure Roster (H σ : Type) where
  engine : σ
  services : Std.ExtTreeMap String H := ∅
  /-- The flows of the services, by key. -/
  flows : Std.ExtTreeMap String FlowSpec := ∅
  /-- The active endpoints of each service. -/
  endpoints : Std.ExtTreeMap String (List ActiveEndpoint) := ∅

namespace Roster

variable {σ H ε : Type}

/-- Runs a task of the engine. -/
def onEngine {α : Type} (task : StateM σ α) : StateM (Roster H σ) α := fun r =>
  let (result, engine) := task r.engine
  (result, { r with engine })

/-- The slots that a service's endpoints hold, by identity. -/
def slots? (r : Roster H σ) (service : String) : Option (Std.ExtTreeMap String UInt32) :=
  r.endpoints[service]?.map fun endpoints => .ofList (endpoints.map fun e => (e.identity, e.slot))

end Roster
end VipSteering
