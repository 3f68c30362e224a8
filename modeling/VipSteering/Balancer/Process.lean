import VipSteering.Balancer.Service

namespace VipSteering

/-- Settings that are sound, with the queues that they name. -/
structure Setup where
  settings : Settings
  queue : QueueRange
  deriving DecidableEq, Repr

namespace Balancer

variable {σ : Type} [Shell σ]

/-- Checks the settings and sets up the packet filter. Settings that are not sound have no
effect. -/
def setUp (settings : Settings) : StateM σ (Except Fault Setup) := do
  match settings.validate with
  | .error fault => return .error (.settings fault)
  | .ok () =>
    match QueueRange.parse settings.queue with
    | .error fault => return .error (.network fault)
    | .ok queue =>
      match ← Classifier.configure queue settings.fanout with
      | .error fault => return .error (.classifier (.one fault))
      | .ok () => return .ok ⟨settings, queue⟩

def processCommand (setup : Setup) : Command :=
  { program := setup.settings.program
    args := ["flowlb", "--promiscuous_ping", "--queue=" ++ setup.queue.text,
      "--qlength=" ++ toString setup.settings.queueLength] }

/-- Deletes the packet filter's table after the process has ended with a result. -/
def tearDown (result : Except Command.Failure Unit) : StateM σ (Except (Report Fault) Unit) := do
  let ended := match result with
    | .ok () => []
    | .error cause => [Fault.process cause]
  match ← Classifier.delete with
  | .ok () => return Report.ofFaults ended
  | .error fault => return Report.ofFaults (ended ++ [.classifier (.one fault)])

end Balancer
end VipSteering
