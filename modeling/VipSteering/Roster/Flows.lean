import VipSteering.Roster.Basic

namespace VipSteering.Roster

variable {σ H ε : Type}

/-- The flows of services on record, by key; the last of several wins. -/
def byKey (r : Roster H σ) (specs : List FlowSpec) : Std.ExtTreeMap String FlowSpec :=
  .ofList ((specs.filter (·.service ∈ r.services)).map fun spec => (spec.key, spec))

/-- Deletes a flow. It is off the record even if it cannot be deleted. -/
def dropFlow (engine : Engine σ H ε) (key : String) :
    StateM (Roster H σ) (Except (Fault ε) Unit) := do
  match (← get).flows[key]? with
  | none => return .ok ()
  | some spec =>
    modify fun r => { r with flows := r.flows.erase key }
    match (← get).services[spec.service]? with
    | none => return .ok ()
    | some handle =>
      return (← onEngine (engine.deleteFlow handle spec.flow)).mapError (.deleteFlow key)

/-- Sets a flow. It is on record even if it cannot be set. -/
def putFlow (engine : Engine σ H ε) (spec : FlowSpec) :
    StateM (Roster H σ) (Except (Fault ε) Unit) := do
  match (← get).services[spec.service]? with
  | none => return .ok ()
  | some handle =>
    let result ← onEngine (engine.addFlow handle spec.flow)
    modify fun r => { r with flows := r.flows.insert spec.key spec }
    return result.mapError (.addFlow spec.key)

/-- Deletes the flows that are not wanted and sets every one that is. Flows of services that are
not on record are passed over. -/
def setFlows (engine : Engine σ H ε) (specs : List FlowSpec) :
    StateM (Roster H σ) (Except (Report (Fault ε)) Unit) := do
  let wanted := byKey (← get) specs
  let stale := (← get).flows.keys.filter (· ∉ wanted)
  let dropped ← attemptAll (dropFlow engine) stale
  let put ← attemptAll (putFlow engine) wanted.values
  return Report.ofFaults (dropped ++ put)

end VipSteering.Roster
