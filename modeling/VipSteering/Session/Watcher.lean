import VipSteering.Desired.Snapshot
import VipSteering.Roster.Endpoints
import VipSteering.Roster.Flows
import VipSteering.Roster.Services

namespace VipSteering

namespace Roster

variable {σ H ε : Type}

/-- Sets the endpoints of a service of the snapshot, if the service is on record. One that could
not be added has been reported already. -/
def setServiceEndpoints (engine : Engine σ H ε) (known : Std.ExtTreeMap String H)
    (service : DesiredService) : StateM (Roster H σ) (Except (Report (Fault ε)) Unit) :=
  if service.name ∈ known then setEndpoints engine service.name service.endpoints
  else return .ok ()

/-- What is wrong with a result. -/
def reports {α : Type} : Except (Report α) Unit → List (Report α)
  | .ok () => []
  | .error report => [report]

/-- Sets the services, the flows and then the endpoints. Each step is taken whatever came of the
steps before. -/
def apply (engine : Engine σ H ε) (snapshot : Snapshot) (slots : UInt32) :
    StateM (Roster H σ) (Except (Report (Fault ε)) Unit) := do
  let services ← setServices engine (snapshot.services.map (·.spec slots))
  let flows ← setFlows engine snapshot.flows
  let known := (← get).services
  let endpoints ← attemptAll (setServiceEndpoints engine known) snapshot.services
  return Report.gather (reports services ++ reports flows ++ endpoints)

end Roster

/-- How a file with a snapshot is watched. -/
structure WatchSettings where
  /-- The milliseconds from one reading of the file to the next. -/
  period : Nat := 5000
  /-- The slots of services for which the file gives no number. -/
  defaultSlots : UInt32 := defaultMaxEndpoints
  deriving DecidableEq, Repr

/-- A file: what it holds, if it exists. -/
abbrev WatchedFile := Option (List UInt8)

inductive ReadFault where
  | absent
  | notText
  deriving DecidableEq, Repr

def ReadFault.message : ReadFault → String
  | .absent => "No such file or directory (os error 2)"
  | .notText => "stream did not contain valid UTF-8"

namespace Watcher

inductive Fault (ε : Type) where
  | read (path : String) (fault : ReadFault)
  | parse (fault : SnapshotFault)
  /-- Not all of the snapshot could be brought about. -/
  | apply (report : Report (Roster.Fault ε))
  deriving Repr

/-- What could not be done. -/
def Fault.task {ε : Type} : Fault ε → String
  | .read path _ => "failed to read " ++ path
  | .parse _ => SnapshotFault.task
  | .apply _ => "desired state partially applied"

def Fault.message {ε : Type} (text : ε → String) : Fault ε → String
  | .read path fault => "failed to read " ++ path ++ ": " ++ fault.message
  | .parse fault => fault.message
  | .apply report =>
    "desired state partially applied: " ++ report.message (Roster.Fault.message text)

/-- The text in a file. -/
def readText (file : WatchedFile) : Except ReadFault String :=
  match file with
  | none => .error .absent
  | some bytes =>
    match String.fromUTF8? ⟨bytes.toArray⟩ with
    | some text => .ok text
    | none => .error .notText

/-- The text that was applied last without a fault, and the roster. -/
structure State (H σ : Type) where
  applied : Option String := none
  roster : Roster H σ

variable {H σ ε : Type}

def onRoster {α : Type} (task : StateM (Roster H σ) α) : StateM (State H σ) α := fun s =>
  let (result, roster) := task s.roster
  (result, { s with roster })

/-- One pass: applies the file's snapshot unless its text is the one applied last. Tells whether it
was applied. -/
def pass (engine : Engine σ H ε) (settings : WatchSettings) (path : String) (file : WatchedFile) :
    StateM (State H σ) (Except (Fault ε) Bool) := do
  match readText file with
  | .error fault => return .error (.read path fault)
  | .ok text =>
    if (← get).applied = some text then return .ok false
    match Snapshot.parse text with
    | .error fault => return .error (.parse fault)
    | .ok snapshot =>
      match ← onRoster (Roster.apply engine snapshot settings.defaultSlots) with
      | .error report => return .error (.apply report)
      | .ok () =>
        modify fun s => { s with applied := some text }
        return .ok true

end Watcher

end VipSteering
