import VipSteering.Json.Record
import VipSteering.Net.Address
import VipSteering.Net.Address.Parser

namespace VipSteering

inductive Protocol where
  | tcp
  | udp
  | sctp
  deriving DecidableEq, Repr

namespace Protocol

def text : Protocol → String
  | .tcp => "tcp"
  | .udp => "udp"
  | .sctp => "sctp"

/-- Lower case or upper case, not mixed. -/
def ofText? (s : String) : Option Protocol :=
  if s = "tcp" ∨ s = "TCP" then some .tcp
  else if s = "udp" ∨ s = "UDP" then some .udp
  else if s = "sctp" ∨ s = "SCTP" then some .sctp
  else none

/-- The name, or an object whose only member has this name and holds nothing. -/
def ofJson? : Json → Option Protocol
  | .string (some s) => ofText? s
  | .object [(some s, .null)] => ofText? s
  | _ => none

def toJson (p : Protocol) : Json := Json.ofString p.text

end Protocol

structure Selectors where
  sourceCidrs : List String
  destinationCidrs : List String
  sourcePorts : List String
  destinationPorts : List String
  protocols : List Protocol
  priority : Int32
  /-- Raw matches on the bytes of the transport header. -/
  byteMatches : List String
  deriving DecidableEq, Repr

/-- The slots of a service for which no number is asked. -/
def defaultMaxEndpoints : UInt32 := 100

structure ServiceSpec where
  name : String
  /-- The most endpoints, and so the number of slots. -/
  maxEndpoints : UInt32 := defaultMaxEndpoints
  deriving DecidableEq, Repr

structure FlowSpec where
  name : String
  /-- The service that gets the traffic. -/
  service : String
  selectors : Selectors
  deriving DecidableEq, Repr

structure EndpointSpec where
  /-- Stays the same as long as the endpoint exists. -/
  identity : String
  addresses : List Address
  /-- May the endpoint get traffic? -/
  ready : Bool
  /-- The slot that it must get, if one was assigned beforehand. -/
  slot : Option UInt32
  deriving DecidableEq, Repr

/-- The key that identifies a flow of a service. -/
def flowKey (flow service : String) : String := flow ++ "." ++ service

def FlowSpec.key (f : FlowSpec) : String := flowKey f.name f.service

/-- A flow as a balancer is told of it. -/
structure Flow where
  name : String
  selectors : Selectors
  deriving DecidableEq, Repr

/-- A desired flow goes by its key. -/
def FlowSpec.flow (f : FlowSpec) : Flow := ⟨f.key, f.selectors⟩

/-- Puts an address in front of the first that is not lower. -/
def insertInOrder (a : Address) : List Address → List Address
  | [] => [a]
  | b :: rest => if a.rank ≤ b.rank then a :: b :: rest else b :: insertInOrder a rest

/-- From the lowest address to the highest. -/
def inOrder : List Address → List Address
  | [] => []
  | a :: rest => insertInOrder a (inOrder rest)

/-- Do two lists hold the same addresses, each as often, in whatever order? -/
def sameAddresses (mine theirs : List Address) : Bool :=
  mine.length = theirs.length && inOrder mine = inOrder theirs

namespace ServiceSpec

def ofJson? (j : Json) : Option ServiceSpec := do
  let fields ← j.fields? ["name", "max_endpoints"]
  let name ← fields.required "name" Json.text?
  let maxEndpoints ← fields.withDefault "max_endpoints" defaultMaxEndpoints Json.uint32?
  return { name, maxEndpoints }

def toJson (s : ServiceSpec) : Json :=
  .record [("name", .ofString s.name), ("max_endpoints", .ofNat s.maxEndpoints.toNat)]

def parse? (text : String) : Option ServiceSpec := (Json.parse? text).bind ofJson?

end ServiceSpec

namespace FlowSpec

def ofJson? (j : Json) : Option FlowSpec := do
  let fields ← j.fields? ["name", "source_cidrs", "destination_cidrs", "source_port_ranges",
    "destination_port_ranges", "protocols", "priority", "byte_matches", "service"]
  let name ← fields.required "name" Json.text?
  let sourceCidrs ← fields.withDefault "source_cidrs" [] Json.strings?
  let destinationCidrs ← fields.withDefault "destination_cidrs" [] Json.strings?
  let sourcePorts ← fields.withDefault "source_port_ranges" [] Json.strings?
  let destinationPorts ← fields.withDefault "destination_port_ranges" [] Json.strings?
  let protocols ← fields.required "protocols" (Json.list? Protocol.ofJson?)
  let priority ← fields.withDefault "priority" 0 Json.int32?
  let byteMatches ← fields.withDefault "byte_matches" [] Json.strings?
  let service ← fields.required "service" Json.text?
  return { name, service, selectors := ⟨sourceCidrs, destinationCidrs, sourcePorts,
    destinationPorts, protocols, priority, byteMatches⟩ }

def toJson (f : FlowSpec) : Json :=
  .record [("name", .ofString f.name),
    ("source_cidrs", .ofStrings f.selectors.sourceCidrs),
    ("destination_cidrs", .ofStrings f.selectors.destinationCidrs),
    ("source_port_ranges", .ofStrings f.selectors.sourcePorts),
    ("destination_port_ranges", .ofStrings f.selectors.destinationPorts),
    ("protocols", .array (f.selectors.protocols.map Protocol.toJson)),
    ("priority", .ofInt f.selectors.priority.toInt),
    ("byte_matches", .ofStrings f.selectors.byteMatches),
    ("service", .ofString f.service)]

def parse? (text : String) : Option FlowSpec := (Json.parse? text).bind ofJson?

end FlowSpec

namespace Address

def ofJson? (j : Json) : Option Address := j.text?.bind parse?

def toJson (a : Address) : Json := .ofString a.text

end Address

namespace EndpointSpec

def ofJson? (j : Json) : Option EndpointSpec := do
  let fields ← j.fields? ["identity", "addresses", "ready", "slot"]
  let identity ← fields.required "identity" Json.text?
  let addresses ← fields.required "addresses" (Json.list? Address.ofJson?)
  let ready ← fields.withDefault "ready" false Json.bool?
  let slot ← fields.withDefault "slot" none (Json.option? Json.uint32?)
  return { identity, addresses, ready, slot }

/-- A slot is written only if there is one. -/
def toJson (e : EndpointSpec) : Json :=
  let slot := match e.slot with
    | some slot => [("slot", Json.ofNat slot.toNat)]
    | none => []
  .record ([("identity", .ofString e.identity),
    ("addresses", .array (e.addresses.map Address.toJson)),
    ("ready", .bool e.ready)] ++ slot)

def parse? (text : String) : Option EndpointSpec := (Json.parse? text).bind ofJson?

end EndpointSpec

end VipSteering
