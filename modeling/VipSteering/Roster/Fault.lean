import VipSteering.Report

namespace VipSteering.Roster

/-- A fault; `ε` is what an engine says of its own failures. -/
inductive Fault (ε : Type) where
  | unknownService (service : String)
  | addService (service : String) (source : ε)
  | deleteService (service : String) (source : ε)
  | addFlow (flow : String) (source : ε)
  | deleteFlow (flow : String) (source : ε)
  | addTarget (service endpoint : String) (slot : UInt32) (source : ε)
  | deleteTarget (service endpoint : String) (slot : UInt32) (source : ε)
  /-- Other endpoints hold all slots of the service. -/
  | capacity (service endpoint : String) (count : UInt32)
  /-- The slot that the endpoint must get is not one of the service's, or is held by another. -/
  | slotUnavailable (service endpoint : String) (slot : UInt32)
  deriving DecidableEq, Repr

namespace Fault

variable {ε : Type}

/-- Is the fault a lack of slots? -/
def isCapacity : Fault ε → Bool
  | capacity .. | slotUnavailable .. => true
  | _ => false

/-- What the engine said. -/
def source? : Fault ε → Option ε
  | addService _ source | deleteService _ source | addFlow _ source | deleteFlow _ source
  | addTarget _ _ _ source | deleteTarget _ _ _ source => some source
  | unknownService _ | capacity .. | slotUnavailable .. => none

def message (text : ε → String) : Fault ε → String
  | unknownService service => "service " ++ service ++ " does not exist"
  | addService service source => "failed to add service " ++ service ++ ": " ++ text source
  | deleteService service source => "failed to delete service " ++ service ++ ": " ++ text source
  | addFlow flow source => "failed to add flow " ++ flow ++ ": " ++ text source
  | deleteFlow flow source => "failed to delete flow " ++ flow ++ ": " ++ text source
  | addTarget service endpoint slot source =>
    "failed to add target " ++ endpoint ++ " (slot " ++ toString slot ++ ") to service " ++
      service ++ ": " ++ text source
  | deleteTarget service endpoint slot source =>
    "failed to delete target " ++ endpoint ++ " (slot " ++ toString slot ++ ") from service " ++
      service ++ ": " ++ text source
  | capacity service endpoint count =>
    "no free slot for endpoint " ++ endpoint ++ " in service " ++ service ++ " (max " ++
      toString count ++ ")"
  | slotUnavailable service endpoint slot =>
    "slot " ++ toString slot ++ " requested by endpoint " ++ endpoint ++ " in service " ++
      service ++ " is unavailable"

end Fault
end VipSteering.Roster
