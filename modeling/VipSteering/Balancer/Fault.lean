import VipSteering.Balancer.Settings
import VipSteering.Classifier.Basic

namespace VipSteering.Balancer

inductive Fault where
  | settings (fault : SettingsFault)
  | network (fault : NetFault)
  | init (service : String) (cause : Command.Failure)
  | deleteSegment (service : String) (cause : Command.Failure)
  | activate (service : String) (slot : UInt32) (cause : Command.Failure)
  | deactivate (service : String) (slot : UInt32) (cause : Command.Failure)
  | setFlow (flow : String) (cause : Command.Failure)
  | deleteFlow (flow : String) (cause : Command.Failure)
  | listFlows (cause : Command.Failure)
  /-- The program's listing of its flows cannot be read. -/
  | readFlows
  /-- The slot is beyond those that the service was given. -/
  | targetLimit (service : String) (slot count : UInt32)
  | classifier (faults : Report Classifier.Fault)
  /-- The program itself failed. -/
  | process (cause : Command.Failure)
  deriving Repr

def Fault.message : Fault → String
  | .settings fault => "invalid nfqlb configuration: " ++ fault.message
  | .network fault => fault.message
  | .init service cause => "failed to initialize service " ++ service ++ ": " ++ cause.message
  | .deleteSegment service cause =>
    "failed to delete shared memory of service " ++ service ++ ": " ++ cause.message
  | .activate service slot cause =>
    "failed to activate slot " ++ toString slot ++ " of service " ++ service ++ ": " ++
      cause.message
  | .deactivate service slot cause =>
    "failed to deactivate slot " ++ toString slot ++ " of service " ++ service ++ ": " ++
      cause.message
  | .setFlow flow cause => "failed to set flow " ++ flow ++ ": " ++ cause.message
  | .deleteFlow flow cause => "failed to delete flow " ++ flow ++ ": " ++ cause.message
  | .listFlows cause => "failed to list flows: " ++ cause.message
  | .readFlows => "failed to parse flow list: " ++ Json.malformedText
  | .targetLimit service slot count =>
    "slot " ++ toString slot ++ " exceeds the " ++ toString count ++ " targets of service " ++
      service
  | .classifier faults => faults.message Classifier.Fault.message
  | .process cause => "nfqlb process failed: " ++ cause.message

end VipSteering.Balancer
