import VipSteering.Roster.Basic
import VipSteering.Store

namespace VipSteering.Roster

variable {σ H ε : Type}

/-- What is wanted by name; the last of several wins. -/
def byName (specs : List ServiceSpec) : Std.ExtTreeMap String ServiceSpec :=
  .ofList (specs.map fun spec => (spec.name, spec))

/-- Deletes a service. It stays on record if it cannot be deleted. -/
def dropService (engine : Engine σ H ε) (name : String) :
    StateM (Roster H σ) (Except (Fault ε) Unit) := do
  match ← onEngine (engine.deleteService name) with
  | .error source => return .error (.deleteService name source)
  | .ok () =>
    modify fun r =>
      { r with services := r.services.erase name, endpoints := r.endpoints.erase name }
    return .ok ()

/-- The flows of a service are gone when the service is. -/
def forgetFlows (r : Roster H σ) : Roster H σ :=
  { r with flows := keepEntries (fun _ flow => r.services.contains flow.service) r.flows }

/-- Adds a service, unless it is there. -/
def addService (engine : Engine σ H ε) (spec : ServiceSpec) :
    StateM (Roster H σ) (Except (Fault ε) Unit) := do
  if spec.name ∈ (← get).services then return .ok ()
  match ← onEngine (engine.addService spec.name spec.maxEndpoints) with
  | .error source => return .error (.addService spec.name source)
  | .ok handle =>
    modify fun r =>
      { r with
        services := r.services.insert spec.name handle
        endpoints := r.endpoints.insert spec.name [] }
    return .ok ()

/-- Adds services up to the first that cannot be added. -/
def addServices (engine : Engine σ H ε) :
    List ServiceSpec → StateM (Roster H σ) (Except (Fault ε) Unit)
  | [] => return .ok ()
  | spec :: rest => do
    match ← addService engine spec with
    | .error fault => return .error fault
    | .ok () => addServices engine rest

/-- Deletes the services that are not wanted, as far as they can be, and adds those that are
missing. If one cannot be added, that alone is reported. -/
def setServices (engine : Engine σ H ε) (specs : List ServiceSpec) :
    StateM (Roster H σ) (Except (Report (Fault ε)) Unit) := do
  let wanted := byName specs
  let stale := (← get).services.keys.filter (· ∉ wanted)
  let faults ← attemptAll (dropService engine) stale
  modify forgetFlows
  match ← addServices engine wanted.values with
  | .error fault => return .error (.one fault)
  | .ok () => return Report.ofFaults faults

end VipSteering.Roster
