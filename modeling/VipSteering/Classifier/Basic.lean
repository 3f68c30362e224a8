import VipSteering.Classifier.Elements
import VipSteering.Command.Basic
import VipSteering.Net.Destination
import VipSteering.Net.QueueRange
import VipSteering.Report

namespace VipSteering.Classifier

def tableName : String := "table-nfqlb"
def chainName : String := "nfqlb"
def localChainName : String := "nfqlb-local"

def setName : Family → String
  | .ipv4 => "ipv4-vips"
  | .ipv6 => "ipv6-vips"

def keyType : Family → String
  | .ipv4 => "ipv4_addr"
  | .ipv6 => "ipv6_addr"

inductive Fault where
  | configure (cause : Command.Failure)
  | list (family : Family) (cause : Command.Failure)
  | parse (family : Family) (reason : ElementFault)
  | update (family : Family) (cause : Command.Failure)
  | delete (cause : Command.Failure)
  deriving Repr

def Fault.message : Fault → String
  | .configure cause => "failed to configure table " ++ tableName ++ ": " ++ cause.message
  | .list family cause => "failed to list set " ++ setName family ++ ": " ++ cause.message
  | .parse family reason =>
    "failed to parse elements of set " ++ setName family ++ ": " ++ reason.message
  | .update family cause => "failed to update set " ++ setName family ++ ": " ++ cause.message
  | .delete cause => "failed to delete table " ++ tableName ++ ": " ++ cause.message

def script (text : String) : Command :=
  { program := "nft", args := ["-f", "-"], input := some text }

/-- What happens to the packets that are picked out. -/
def verdict (queue : QueueRange) (fanout : Bool) : String :=
  "counter queue num " ++ queue.ruleText ++ (if fanout then " fanout" else "")

def addSet (family : Family) : String :=
  "add set inet " ++ tableName ++ " " ++ setName family ++ " \x7b type " ++ keyType family ++
    "; flags interval; \x7d"

def addChain (chain hook : String) : String :=
  "add chain inet " ++ tableName ++ " " ++ chain ++ " \x7b type filter hook " ++ hook ++
    " priority filter; policy accept; \x7d"

def flushChain (chain : String) : String := "flush chain inet " ++ tableName ++ " " ++ chain

def addRule (chain rule : String) : String :=
  "add rule inet " ++ tableName ++ " " ++ chain ++ " " ++ rule

/-- The packets whose destination is in the set of a family. -/
def selector : Family → String
  | .ipv4 => "ip daddr @" ++ setName .ipv4
  | .ipv6 => "ip6 daddr @" ++ setName .ipv6

/-- The error messages of a family. -/
def errorSelector : Family → String
  | .ipv4 => "meta l4proto icmp " ++ selector .ipv4
  | .ipv6 => "meta l4proto ipv6-icmp " ++ selector .ipv6

/-- Creates what is missing and writes the rules anew. -/
def ruleset (queue : QueueRange) (fanout : Bool) : List String :=
  let rule (chain selector : String) := addRule chain (selector ++ " " ++ verdict queue fanout)
  ["add table inet " ++ tableName,
    addSet .ipv4,
    addSet .ipv6,
    addChain chainName "prerouting",
    flushChain chainName,
    rule chainName (selector .ipv4),
    rule chainName (selector .ipv6),
    addChain localChainName "output",
    flushChain localChainName,
    rule localChainName (errorSelector .ipv4),
    rule localChainName (errorSelector .ipv6)]

def configureCommand (queue : QueueRange) (fanout : Bool) : Command :=
  script (String.join ((ruleset queue fanout).map (· ++ "\n")))

def listCommand (family : Family) : Command :=
  { program := "nft", args := ["-j", "list", "set", "inet", tableName, setName family] }

inductive Change where
  | delete
  | add
  deriving DecidableEq, Repr

def Change.verb : Change → String
  | .delete => "delete"
  | .add => "add"

def changeCommand (family : Family) (change : Change) (intervals : List Interval) : Command :=
  script (change.verb ++ " element inet " ++ tableName ++ " " ++ setName family ++ " " ++
    elementList intervals ++ "\n")

def deleteCommand : Command :=
  { program := "nft", args := ["delete", "table", "inet", tableName] }

/-- What is in the one list and not in the other, in order. -/
def missing (wanted present : List Interval) : List Interval :=
  (Interval.sort wanted).filter (· ∉ present)

variable {σ : Type} [Shell σ]

/-- Creates the table, or renews its rules. Elements that its sets hold stay. -/
def configure (queue : QueueRange) (fanout : Bool) : StateM σ (Except Fault Unit) := do
  match ← Shell.run (configureCommand queue fanout) with
  | .ok _ => return .ok ()
  | .error cause => return .error (.configure cause)

/-- What the set of a family holds. -/
def elements (family : Family) : StateM σ (Except Fault (List Interval)) := do
  match ← Shell.run (listCommand family) with
  | .ok output => return (readListing output).mapError (.parse family)
  | .error cause => return .error (.list family cause)

/-- Deletes or adds elements, if there are any. -/
def alter (family : Family) (change : Change) (intervals : List Interval) :
    StateM σ (Except Fault Unit) := do
  if intervals.isEmpty then return .ok ()
  match ← Shell.run (changeCommand family change intervals) with
  | .ok _ => return .ok ()
  | .error cause => return .error (.update family cause)

/-- Makes the set of a family hold what is wanted. Only what differs is deleted and added. -/
def updateSet (wanted : List Interval) (family : Family) : StateM σ (Except Fault Unit) := do
  match ← elements family with
  | .error fault => return .error fault
  | .ok present =>
    match ← alter family .delete (missing present wanted) with
    | .error fault => return .error fault
    | .ok () => alter family .add (missing wanted present)

/-- Makes the sets hold the destinations that are single addresses. Each family is updated whatever
comes of the other. -/
def setDestinations (cidrs : List String) : StateM σ (Except (Report Fault) Unit) := do
  let destinations := HostDestinations.ofCidrs cidrs
  let update (family : Family) : StateM σ (Except Fault Unit) :=
    updateSet (destinations.intervals family) family
  let faults ← attemptAll update [.ipv4, .ipv6]
  return Report.ofFaults faults

/-- Deletes the table. It may be gone already. -/
def delete : StateM σ (Except Fault Unit) := do
  let outcome ← Shell.run deleteCommand
  return outcome.deleted.mapError .delete

end VipSteering.Classifier
