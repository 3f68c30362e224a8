import VipSteering.Command.Basic
import VipSteering.Desired.Spec
import VipSteering.Net.Destination
import VipSteering.Text.Split

namespace VipSteering

/-- A flow as the program lists it. -/
structure ListedFlow where
  flow : Flow
  /-- The service that gets the traffic. -/
  service : String
  /-- How many packets the flow has matched. -/
  matched : UInt64
  deriving DecidableEq, Repr

namespace ListedFlow

def ofJson? (j : Json) : Option ListedFlow := do
  let fields ← j.fields? ["Name", "user_ref", "matches_count", "srcs", "dests", "sports",
    "dports", "protocols", "priority", "match"]
  let name ← fields.required "Name" Json.text?
  let service ← fields.withDefault "user_ref" "" Json.text?
  let matched ← fields.withDefault "matches_count" 0 Json.uint64?
  let sourceCidrs ← fields.withDefault "srcs" [] Json.strings?
  let destinationCidrs ← fields.withDefault "dests" [] Json.strings?
  let sourcePorts ← fields.withDefault "sports" [] Json.strings?
  let destinationPorts ← fields.withDefault "dports" [] Json.strings?
  let protocols ← fields.withDefault "protocols" [] (Json.list? Protocol.ofJson?)
  let priority ← fields.withDefault "priority" 0 Json.int32?
  let byteMatches ← fields.withDefault "match" [] Json.strings?
  let selectors := ⟨sourceCidrs, destinationCidrs, sourcePorts, destinationPorts, protocols,
    priority, byteMatches⟩
  return ⟨⟨name, selectors⟩, service, matched⟩

/-- Reads a listing. No output means no flows. -/
def readAll? (output : String) : Option (List ListedFlow) :=
  let output := Text.trim output
  if output = "" then some []
  else (Json.parse? output).bind (Json.list? ofJson?)

end ListedFlow

namespace Flow

/-- An option with a list, unless the list selects everything. -/
def listOption (key : String) (selectsAll : List String → Bool) (items : List String) :
    List String :=
  if items.isEmpty || selectsAll items then []
  else ["--" ++ key ++ "=" ++ ",".intercalate items]

/-- The command that sets a flow of a service. For the program a missing selector selects
everything. -/
def setCommand (program service : String) (f : Flow) : Command :=
  let s := f.selectors
  let nothing (_ : List String) : Bool := false
  { program := program
    args := ["flow-set", "--name=" ++ f.name, "--target=" ++ service,
        "--prio=" ++ toString s.priority.toInt,
        "--protocols=" ++ ",".intercalate (s.protocols.map Protocol.text)] ++
      listOption "dsts" nothing s.destinationCidrs ++
      listOption "srcs" Wildcard.isAnyCidrList s.sourceCidrs ++
      listOption "dports" Wildcard.isAnyPortList s.destinationPorts ++
      listOption "sports" Wildcard.isAnyPortList s.sourcePorts ++
      listOption "match" nothing s.byteMatches }

def deleteCommand (program name : String) : Command :=
  { program, args := ["flow-delete", "--name=" ++ name] }

def listCommand (program : String) : Command := { program, args := ["flow-list"] }

end Flow
end VipSteering
