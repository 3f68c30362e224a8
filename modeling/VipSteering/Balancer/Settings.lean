import VipSteering.Text.Split

namespace VipSteering

structure Settings where
  /-- The program that hashes packets and keeps the hash tables. -/
  program : String := "nfqlb"
  /-- One queue, or a range of queues. -/
  queue : String := "0:3"
  queueLength : UInt32 := 1024
  /-- Are packets spread over the queues of the range? -/
  fanout : Bool := false
  /-- The lowest mark that services get. -/
  firstMark : UInt32 := 5000
  /-- The milliseconds from one repair of the routes to the next. -/
  healPeriod : Nat := 10000
  deriving DecidableEq, Repr

inductive SettingsFault where
  | emptyProgram
  | noQueueLength
  | reservedMark (mark : UInt32)
  | noHealPeriod
  deriving DecidableEq, Repr

namespace Settings

/-- Marks are numbers of routing tables, and the system uses tables below this one. -/
def leastMark : UInt32 := 256

def validate (s : Settings) : Except SettingsFault Unit :=
  if Text.trim s.program = "" then .error .emptyProgram
  else if s.queueLength = 0 then .error .noQueueLength
  else if s.firstMark < leastMark then .error (.reservedMark s.firstMark)
  else if s.healPeriod = 0 then .error .noHealPeriod
  else .ok ()

end Settings

def SettingsFault.message : SettingsFault → String
  | .emptyProgram => "nfqlb path must not be empty"
  | .noQueueLength => "queue length must be positive"
  | .reservedMark mark => "starting offset " ++ toString mark ++
    " collides with reserved routing tables (minimum " ++ toString Settings.leastMark ++ ")"
  | .noHealPeriod => "heal interval must be positive"

end VipSteering
