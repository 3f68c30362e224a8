import VipSteering.Command.Basic
import VipSteering.Json.Record
import VipSteering.Net.Address
import VipSteering.Net.Address.Parser
import VipSteering.Report
import VipSteering.Text.Split

namespace VipSteering.PolicyRoute

inductive Fault where
  | addRule (mark : UInt32) (cause : Command.Failure)
  | addRoute (mark : UInt32) (hop : Address) (cause : Command.Failure)
  | deleteRule (mark : UInt32) (cause : Command.Failure)
  | deleteRoute (mark : UInt32) (hop : Address) (cause : Command.Failure)
  deriving DecidableEq, Repr

namespace Fault

def cause : Fault → Command.Failure
  | addRule _ cause | addRoute _ _ cause | deleteRule _ cause | deleteRoute _ _ cause => cause

/-- What was tried. -/
def task : Fault → String
  | addRule mark _ => "add rule for fwmark " ++ toString mark
  | addRoute mark hop _ => "add route via " ++ hop.text ++ " in table " ++ toString mark
  | deleteRule mark _ => "delete rule for fwmark " ++ toString mark
  | deleteRoute mark hop _ => "delete route via " ++ hop.text ++ " in table " ++ toString mark

def message (f : Fault) : String := "failed to " ++ f.task ++ ": " ++ f.cause.message

end Fault

def familyFlag : Family → String
  | .ipv4 => "-4"
  | .ipv6 => "-6"

def ip (hop : Address) (args : List String) : Command :=
  { program := "ip", args := familyFlag hop.family :: args }

/-- A query that is answered by a document. -/
def query (hop : Address) (args : List String) : Command :=
  { program := "ip", args := "-j" :: familyFlag hop.family :: args }

/-- Each mark has the routing table of its own number. -/
def ruleCommand (action : String) (mark : UInt32) (hop : Address) : Command :=
  ip hop ["rule", action, "fwmark", toString mark, "table", toString mark]

def routeCommand (action : String) (mark : UInt32) (hop : Address) : Command :=
  ip hop ["route", action, "default", "via", hop.text, "table", toString mark]

def flushTable (mark : UInt32) (hop : Address) : Command :=
  ip hop ["route", "flush", "table", toString mark]

def flushNeighbour (hop : Address) : Command := ip hop ["neigh", "flush", "to", hop.text]

def listRoutes (mark : UInt32) (hop : Address) : Command :=
  query hop ["route", "show", "table", toString mark]

def listRules (mark : UInt32) (hop : Address) : Command :=
  query hop ["rule", "show", "fwmark", toString mark, "table", toString mark]

structure RouteEntry where
  destination : Option String
  gateway : Option String
  deriving DecidableEq, Repr

def RouteEntry.ofJson? (j : Json) : Option RouteEntry := do
  let fields ← j.fields? ["dst", "gateway"]
  let destination ← fields.withDefault "dst" none (Json.option? Json.text?)
  let gateway ← fields.withDefault "gateway" none (Json.option? Json.text?)
  return { destination, gateway }

/-- Is this the default route by `hop`? Without a destination it is a default route. -/
def RouteEntry.isDefaultVia (hop : Address) (e : RouteEntry) : Bool :=
  e.gateway.bind Address.parse? = some hop && (e.destination.getD "default") = "default"

/-- The routes of a table. An answer that cannot be read has none. -/
def readRoutes (output : String) : List RouteEntry :=
  ((Json.parse? (Text.trim output)).bind (Json.list? RouteEntry.ofJson?)).getD []

/-- The number of rules. An answer that cannot be read has none. -/
def countRules (output : String) : Nat :=
  match Json.parseGeneric? (Text.trim output) with
  | some (.array rules) => rules.length
  | _ => 0

variable {σ : Type} [Shell σ]

/-- The number of rules of a mark, if they can be listed. -/
def ruleCount (mark : UInt32) (hop : Address) : StateM σ (Option Nat) := do
  match ← Shell.run (listRules mark hop) with
  | .ok output => return some (countRules output)
  | .error _ => return none

/-- Is there one rule, and one route in the table, the default route by `hop`? -/
def isInPlace (mark : UInt32) (hop : Address) : StateM σ Bool := do
  match ← Shell.run (listRoutes mark hop) with
  | .error _ => return false
  | .ok output =>
    match readRoutes output with
    | [route] =>
      if route.isDefaultVia hop then return (← ruleCount mark hop) = some 1
      else return false
    | _ => return false

/-- Deletes the rule of a mark up to `n` times, until a deletion fails. -/
def deleteRules (mark : UInt32) (hop : Address) : Nat → StateM σ Unit
  | 0 => return ()
  | n + 1 => do
    match ← Shell.run (ruleCommand "del" mark hop) with
    | .ok _ => deleteRules mark hop n
    | .error _ => return ()

/-- Removes what the mark has of the family. If the rules cannot be listed there may be one. -/
def clear (mark : UInt32) (hop : Address) : StateM σ Unit := do
  let count ← ruleCount mark hop
  deleteRules mark hop (count.getD 1)
  discard (Shell.run (flushTable mark hop))

/-- Lets packets with the mark leave by `hop`. What stands in the way is removed, unless everything
is in place already. A neighbour entry from before would silently drop the packets. -/
def create (mark : UInt32) (hop : Address) : StateM σ (Except Fault Unit) := do
  if ← isInPlace mark hop then return .ok ()
  clear mark hop
  discard (Shell.run (flushNeighbour hop))
  match ← Shell.run (ruleCommand "add" mark hop) with
  | .error cause => return .error (.addRule mark cause)
  | .ok _ =>
    match ← Shell.run (routeCommand "add" mark hop) with
    | .error cause => return .error (.addRoute mark hop cause)
    | .ok _ => return .ok ()

/-- The two deletions that end a policy route. -/
inductive Part where
  | rule
  | route
  deriving DecidableEq, Repr

/-- What does not exist counts as deleted. -/
def deletePart (mark : UInt32) (hop : Address) : Part → StateM σ (Except Fault Unit)
  | .rule => do
    let outcome ← Shell.run (ruleCommand "del" mark hop)
    return outcome.deleted.mapError (.deleteRule mark)
  | .route => do
    let outcome ← Shell.run (routeCommand "del" mark hop)
    return outcome.deleted.mapError (.deleteRoute mark hop)

/-- Ends a policy route. The route is deleted also when the rule cannot be. -/
def delete (mark : UInt32) (hop : Address) : StateM σ (Except (Report Fault) Unit) := do
  let faults ← attemptAll (deletePart mark hop) [.rule, .route]
  return Report.ofFaults faults

end VipSteering.PolicyRoute
