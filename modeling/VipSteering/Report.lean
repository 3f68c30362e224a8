namespace VipSteering

/-- The faults of a task that carries on when one of its parts fails. As parts are tasks themselves, a
report is a tree. -/
inductive Report (α : Type) where
  | one (fault : α)
  | several (parts : List (Report α))
  deriving Repr

namespace Report

variable {α β : Type}

/-- No report is success, and a single report stands for itself. -/
def gather : List (Report α) → Except (Report α) Unit
  | [] => .ok ()
  | [report] => .error report
  | reports => .error (.several reports)

/-- One report for each fault. -/
def ofFaults (faults : List α) : Except (Report α) Unit := gather (faults.map one)

mutual

/-- The faults, in the order in which they were met. -/
def faults : Report α → List α
  | one fault => [fault]
  | several parts => faultsOf parts

def faultsOf : List (Report α) → List α
  | [] => []
  | part :: rest => faults part ++ faultsOf rest

end

mutual

/-- The texts of the parts, separated by semicolons. -/
def message (text : α → String) : Report α → String
  | one fault => text fault
  | several parts => "; ".intercalate (messages text parts)

def messages (text : α → String) : List (Report α) → List String
  | [] => []
  | part :: rest => message text part :: messages text rest

end

end Report

/-- Runs a task for every item, whatever came of the items before, and keeps the faults. -/
def attemptAll {σ α ε : Type} (task : α → StateM σ (Except ε Unit)) : List α → StateM σ (List ε)
  | [] => pure []
  | item :: rest => do
    let result ← task item
    let faults ← attemptAll task rest
    match result with
    | .ok () => return faults
    | .error fault => return fault :: faults

end VipSteering
