import VipSteering.Roster.Basic

namespace VipSteering

/-- The lowest slot below `count` that is not taken. One of the first `taken.length + 1` slots is
free. -/
def lowestFreeSlot (taken : List UInt32) (count : UInt32) : Option UInt32 :=
  ((List.range (min count.toNat (taken.length + 1))).map UInt32.ofNat).find? (· ∉ taken)

namespace Roster

variable {σ H ε : Type}

/-- What is wanted of the endpoint with an identity; the first of several counts. -/
def wanted? (specs : List EndpointSpec) (identity : String) : Option EndpointSpec :=
  specs.find? (·.identity = identity)

def staysPut (specs : List EndpointSpec) (e : ActiveEndpoint) : Bool :=
  (wanted? specs e.identity).any e.suits

/-- Deactivates the endpoints that cannot stay as they are. Returns those that are active still,
among them those that could not be deactivated. -/
def release (engine : Engine σ H ε) (service : String) (handle : H) (specs : List EndpointSpec) :
    List ActiveEndpoint → StateM σ (List ActiveEndpoint × List (Fault ε))
  | [] => return ([], [])
  | e :: rest => do
    if staysPut specs e then
      let (active, faults) ← release engine service handle specs rest
      return (e :: active, faults)
    else
      match ← engine.deleteTarget handle e.addresses e.slot with
      | .ok () => release engine service handle specs rest
      | .error source =>
        let (active, faults) ← release engine service handle specs rest
        return (e :: active, .deleteTarget service e.identity e.slot source :: faults)

/-- The slot for an endpoint: the one that it must get, or the one that it had, or the lowest that
is free. -/
def pickSlot (service : String) (spec : EndpointSpec) (previous : Option UInt32)
    (taken : List UInt32) (count : UInt32) : Except (Fault ε) UInt32 :=
  let isFree (slot : UInt32) : Bool := slot < count && slot ∉ taken
  match spec.slot with
  | some slot =>
    if isFree slot then .ok slot else .error (.slotUnavailable service spec.identity slot)
  | none =>
    match (previous.filter isFree).or (lowestFreeSlot taken count) with
    | some slot => .ok slot
    | none => .error (.capacity service spec.identity count)

/-- The slot that an endpoint held before. -/
def slotOf? (previous : List ActiveEndpoint) (identity : String) : Option UInt32 :=
  (previous.find? (·.identity = identity)).map (·.slot)

/-- Activates endpoints beside those that are active. Returns all that are active then. -/
def activate (engine : Engine σ H ε) (service : String) (handle : H)
    (previous : List ActiveEndpoint) :
    List ActiveEndpoint → List EndpointSpec → StateM σ (List ActiveEndpoint × List (Fault ε))
  | active, [] => return (active, [])
  | active, spec :: rest => do
    match pickSlot service spec (slotOf? previous spec.identity) (active.map (·.slot))
        (engine.slots handle) with
    | .error fault =>
      let (active, faults) ← activate engine service handle previous active rest
      return (active, fault :: faults)
    | .ok slot =>
      match ← engine.addTarget handle spec.addresses slot with
      | .error source =>
        let (active, faults) ← activate engine service handle previous active rest
        return (active, .addTarget service spec.identity slot source :: faults)
      | .ok () =>
        activate engine service handle previous
          (active ++ [⟨spec.identity, spec.addresses, slot⟩]) rest

/-- The first request for each identity that is not among the given ones. -/
def firstRequests : List String → List EndpointSpec → List EndpointSpec
  | _, [] => []
  | seen, spec :: rest =>
    if spec.identity ∈ seen then firstRequests seen rest
    else spec :: firstRequests (spec.identity :: seen) rest

/-- The endpoints that are to get slots beside those that hold one. -/
def newcomers (active : List ActiveEndpoint) (specs : List EndpointSpec) : List EndpointSpec :=
  (firstRequests (active.map (·.identity)) specs).filter fun spec =>
    spec.ready && !spec.addresses.isEmpty

/-- Deactivates and activates the endpoints of one service. -/
def converge (engine : Engine σ H ε) (service : String) (handle : H)
    (previous : List ActiveEndpoint) (specs : List EndpointSpec) :
    StateM σ (List ActiveEndpoint × List (Fault ε)) := do
  let (kept, released) ← release engine service handle specs previous
  let (active, activated) ← activate engine service handle previous kept (newcomers kept specs)
  return (active, released ++ activated)

/-- Makes the active endpoints of a service those that are wanted, ready and have an address. -/
def setEndpoints (engine : Engine σ H ε) (service : String) (specs : List EndpointSpec) :
    StateM (Roster H σ) (Except (Report (Fault ε)) Unit) := do
  let r ← get
  match r.services[service]?, r.endpoints[service]? with
  | some handle, some previous =>
    let (active, faults) ← onEngine (converge engine service handle previous specs)
    modify fun r => { r with endpoints := r.endpoints.insert service active }
    return Report.ofFaults faults
  | _, _ => return .error (.one (.unknownService service))

end Roster
end VipSteering
