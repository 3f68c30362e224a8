import VipSteering.Balancer.Settings
import VipSteering.Session.Watcher
import VipSteering.Text.Decimal
import VipSteering.Text.Printable

namespace VipSteering

open Text

structure GatewaySettings where
  balancer : Settings := { }
  watch : WatchSettings := { }
  /-- The seconds that a command may take. -/
  commandTimeout : UInt64 := 30
  /-- The file that holds the snapshot, if there is to be one. -/
  stateFile : Option String := none
  logLevel : String := "info"
  deriving DecidableEq, Repr

/-- A value that is not one of its kind. -/
inductive ValueFault where
  | number (fault : NumberFault)
  | flag
  deriving DecidableEq, Repr

def ValueFault.message : ValueFault → String
  | .number fault => fault.message
  | .flag => "provided string was not `true` or `false`"

inductive EnvironmentFault where
  | value (name text : String) (fault : ValueFault)
  | notPositive (name : String)
  | balancer (fault : SettingsFault)
  deriving DecidableEq, Repr

namespace EnvironmentFault

/-- What is wrong, without the details. -/
def task : EnvironmentFault → String
  | .value name text _ => "invalid value " ++ quoted text ++ " for " ++ name
  | .notPositive name => name ++ " must be positive"
  | .balancer _ => "invalid nfqlb configuration"

def message : EnvironmentFault → String
  | fault@(.value _ _ cause) => fault.task ++ ": " ++ cause.message
  | fault@(.notPositive _) => fault.task
  | fault@(.balancer cause) => fault.task ++ ": " ++ cause.message

end EnvironmentFault

namespace Environment

def readFlag (s : String) : Except ValueFault Bool :=
  if s = "true" then .ok true
  else if s = "false" then .ok false
  else .error .flag

/-- A variable's value without the blanks around it, or the default. -/
def setting (lookup : String → Option String) (name : String) (default : α)
    (read : String → Except ValueFault α) : Except EnvironmentFault α :=
  match lookup name with
  | none => .ok default
  | some value => (read (trim value)).mapError (.value name value)

def number (read : String → Except NumberFault α) (s : String) : Except ValueFault α :=
  (read s).mapError .number

/-- A number of seconds, in milliseconds. -/
def seconds (lookup : String → Option String) (name : String) (default : Nat) :
    Except EnvironmentFault Nat :=
  return (← setting lookup name (UInt64.ofNat (default / 1000)) (number readUInt64)).toNat * 1000

/-- Reads every variable, then checks the values. -/
def read (lookup : String → Option String) : Except EnvironmentFault GatewaySettings := do
  let d : GatewaySettings := { }
  let queueLength ←
    setting lookup "SLB_QLENGTH" d.balancer.queueLength (number readUInt32)
  let fanout ← setting lookup "SLB_FANOUT" d.balancer.fanout readFlag
  let firstMark ←
    setting lookup "SLB_STARTING_OFFSET" d.balancer.firstMark (number readUInt32)
  let defaultSlots ←
    setting lookup "SLB_MAX_TARGETS" d.watch.defaultSlots (number readUInt32)
  let healPeriod ← seconds lookup "SLB_HEAL_INTERVAL_SECS" d.balancer.healPeriod
  let commandTimeout ←
    setting lookup "SLB_COMMAND_TIMEOUT_SECS" d.commandTimeout (number readUInt64)
  let period ← seconds lookup "SLB_STATE_POLL_INTERVAL_SECS" d.watch.period
  if defaultSlots = 0 then throw (.notPositive "SLB_MAX_TARGETS")
  if period = 0 then throw (.notPositive "SLB_STATE_POLL_INTERVAL_SECS")
  let balancer : Settings := {
    program := (lookup "SLB_NFQLB_PATH").getD d.balancer.program
    queue := (lookup "SLB_QUEUE").getD d.balancer.queue
    queueLength := queueLength
    fanout := fanout
    firstMark := firstMark
    healPeriod := healPeriod }
  match balancer.validate with
  | .error fault => throw (.balancer fault)
  | .ok () =>
    return {
      balancer := balancer
      watch := ⟨period, defaultSlots⟩
      commandTimeout := commandTimeout
      stateFile := (lookup "SLB_STATE_FILE").filter (trim · ≠ "")
      logLevel := (lookup "SLB_LOG_LEVEL").getD d.logLevel }

end Environment
end VipSteering
