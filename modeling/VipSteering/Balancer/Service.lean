import VipSteering.Balancer.Fault
import VipSteering.Balancer.Flow
import VipSteering.Balancer.Target
import VipSteering.Roster.Basic

namespace VipSteering.Balancer

variable {σ : Type} [Shell σ]

def listFlows (program : String) : StateM σ (Except Fault (List ListedFlow)) := do
  match ← Shell.run (Flow.listCommand program) with
  | .error cause => return .error (.listFlows cause)
  | .ok output =>
    match ListedFlow.readAll? output with
    | none => return .error .readFlows
    | some flows => return .ok flows

/-- Makes the virtual addresses those of the flows that the program holds. -/
def refreshDestinations (program : String) : StateM σ (Except Fault Unit) := do
  match ← listFlows program with
  | .error fault => return .error fault
  | .ok flows =>
    let cidrs := flows.flatMap (·.flow.selectors.destinationCidrs)
    return (← Classifier.setDestinations cidrs).mapError .classifier

/-- Sets a flow of a service. -/
def addFlow (program service : String) (flow : Flow) : StateM σ (Except Fault Unit) := do
  match ← Shell.run (flow.setCommand program service) with
  | .error cause => return .error (.setFlow flow.name cause)
  | .ok _ => refreshDestinations program

/-- Deletes a flow. It may be gone already. -/
def deleteFlow (program name : String) : StateM σ (Except Fault Unit) := do
  let outcome ← Shell.run (Flow.deleteCommand program name)
  match outcome.deleted with
  | .error cause => return .error (.deleteFlow name cause)
  | .ok () => refreshDestinations program

/-- The service in the books, under a new lease. -/
def register (b : Balancer σ) (name : String) (block : Block) : Lease × Balancer σ :=
  let l : Lease := ⟨b.issued, name, block⟩
  (l, { b with registered := b.registered.insert name l, issued := b.issued + 1 })

/-- The lease of a service with a number of slots. A registered service keeps its lease. -/
def addService (settings : Settings) (name : String) (slots : UInt32) :
    StateM (Balancer σ) (Except Fault Lease) := do
  let b ← get
  match b.registered[name]? with
  | some l => return .ok l
  | none =>
    match Block.allocate settings.firstMark (b.leases.map (·.block)) slots with
    | .error fault => return .error (.network fault)
    | .ok block =>
      match ← onHost (Shell.run (initCommand settings.program name slots)) with
      | .error cause => return .error (.init name cause)
      | .ok _ => return .ok (← modifyGet (register · name block))

/-- Deletes the flows of a service, as far as they can be listed. -/
def deleteFlows (program service : String) : StateM σ (List Fault) := do
  match ← listFlows program with
  | .error fault => return [fault]
  | .ok flows =>
    attemptAll (deleteFlow program) ((flows.filter (·.service = service)).map (·.flow.name))

def deleteSegment (program name : String) : StateM σ (List Fault) := do
  let outcome ← Shell.run (deleteCommand program name)
  match outcome.deleted with
  | .error cause => return [.deleteSegment name cause]
  | .ok () => return []

/-- The faults of one stage as one report. -/
def stage (faults : List Fault) : List (Report Fault) :=
  match Report.ofFaults faults with
  | .ok () => []
  | .error report => [report]

/-- Deletes a service with its targets, routes and flows. Every stage is tried; a service of which
something is left stays registered, and can be deleted again. -/
def deleteService (settings : Settings) (name : String) :
    StateM (Balancer σ) (Except (Report Fault) Unit) := do
  match (← get).registered[name]? with
  | none => return .ok ()
  | some l =>
    let held ← releaseTargets settings.program l
    let flows ← onHost (deleteFlows settings.program name)
    let segment ← onHost (deleteSegment settings.program name)
    match Report.gather (stage held ++ flows.map .one ++ segment.map .one) with
    | .error report => return .error report
    | .ok () =>
      modify fun b => { b with registered := b.registered.erase name }
      return .ok ()

/-- A single fault as a report. -/
def reported {τ α : Type} (task : StateM τ (Except Fault α)) :
    StateM τ (Except (Report Fault) α) := do
  return (← task).mapError .one

/-- Targets are deleted with the addresses that they have, not with those that are named. -/
def engine (settings : Settings) : Engine (Balancer σ) Lease (Report Fault) where
  addService name slots := reported (addService settings name slots)
  deleteService name := deleteService settings name
  slots l := l.block.size
  addFlow l flow := reported (onHost (addFlow settings.program l.name flow))
  deleteFlow _ flow := reported (onHost (deleteFlow settings.program flow.name))
  addTarget l addresses slot := reported (addTarget settings.program l addresses slot)
  deleteTarget l _ slot := reported (deleteTarget settings.program l slot)

end VipSteering.Balancer
