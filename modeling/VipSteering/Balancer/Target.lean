import VipSteering.Balancer.Basic

namespace VipSteering.Balancer

variable {σ : Type} [Shell σ]

/-- Routes a mark to each of the addresses in turn. -/
def createRoutes (mark : UInt32) (addresses : List Address) : StateM σ Unit :=
  addresses.forM fun address => discard (PolicyRoute.create mark address)

def deleteRoutes (mark : UInt32) (addresses : List Address) : StateM σ Unit :=
  addresses.forM fun address => discard (PolicyRoute.delete mark address)

/-- Activates a slot. An active slot stays as it is. -/
def addTarget (program : String) (l : Lease) (addresses : List Address) (slot : UInt32) :
    StateM (Balancer σ) (Except Fault Unit) := do
  if l.block.size ≤ slot then return .error (.targetLimit l.name slot l.block.size)
  if slot ∈ (← get).targetsOf l then return .ok ()
  match ← onHost (Shell.run (activateCommand program l.name slot (l.mark slot))) with
  | .error cause => return .error (.activate l.name slot cause)
  | .ok _ =>
    modify (·.alterTargets l (·.insert slot addresses))
    onHost (createRoutes (l.mark slot) addresses)
    return .ok ()

/-- Deactivates a slot and deletes the routes of its target. A slot that is not active stays so. If
the program fails the slot is still active. -/
def deleteTarget (program : String) (l : Lease) (slot : UInt32) :
    StateM (Balancer σ) (Except Fault Unit) := do
  match ((← get).targetsOf l)[slot]? with
  | none => return .ok ()
  | some addresses =>
    let outcome ← onHost (Shell.run (deactivateCommand program l.name slot))
    match outcome.deleted with
    | .error cause => return .error (.deactivate l.name slot cause)
    | .ok () =>
      modify (·.alterTargets l (·.erase slot))
      onHost (deleteRoutes (l.mark slot) addresses)
      return .ok ()

/-- Deactivates every slot. -/
def releaseTargets (program : String) (l : Lease) : StateM (Balancer σ) (List Fault) := do
  attemptAll (deleteTarget program l) ((← get).targetsOf l).keys

/-- Makes the routes of every target of a service again, as far as they are not in place. -/
def healService (l : Lease) : StateM (Balancer σ) Unit := do
  let targets := (← get).targetsOf l
  onHost (targets.toList.forM fun (slot, addresses) => createRoutes (l.mark slot) addresses)

/-- Makes the routes of every target of every service again. -/
def heal : StateM (Balancer σ) Unit := do
  (← get).leases.forM healService

end VipSteering.Balancer
