import VipSteering.Host.Ip
import VipSteering.Json.Basic
import VipSteering.Text.Split
import Std.Data.ExtTreeMap

namespace VipSteering.Host

/-- A flow, with its lists as they were given. -/
structure FlowEntry where
  target : String
  priority : Int32
  protocols : List String
  destinations : List String
  sources : List String
  destinationPorts : List String
  sourcePorts : List String
  byteMatches : List String
  deriving DecidableEq, Repr

/-- A hash table is a segment of shared memory that spreads packets over its active slots. -/
structure Hashing where
  /-- The active slots of each segment, with their marks. -/
  segments : Std.ExtTreeMap String (Std.ExtTreeMap UInt32 UInt32) := ∅
  flows : Std.ExtTreeMap String FlowEntry := ∅

namespace Maglev

open Text

/-- Arguments: options `--key=value`, and others. -/
structure Options where
  named : List (String × String)
  others : List String
  deriving DecidableEq, Repr

namespace Options

/-- Later options come first, so that they are found first. -/
def add (o : Options) (arg : String) : Options :=
  match dropStart "--" arg with
  | some option => { o with named := (cut '=' option).getD (option, "") :: o.named }
  | none => { o with others := o.others ++ [arg] }

def parse (args : List String) : Options := args.foldl add ⟨[], []⟩

def get? (o : Options) (key : String) : Option String := o.named.lookup key

def require (o : Options) (key : String) : Except String String :=
  match o.get? key with
  | some value => .ok value
  | none => .error ("missing --" ++ key)

/-- The entries of a list that are not empty. -/
def list (o : Options) (key : String) : List String :=
  match o.get? key with
  | some value => (fields ',' value).filter (· ≠ "")
  | none => []

end Options

inductive Request where
  | init (segment : String)
  | delete (segment : String)
  | activate (segment : String) (slot mark : UInt32)
  | deactivate (segment : String) (slot : UInt32)
  | setFlow (name : String) (flow : FlowEntry)
  | deleteFlow (name : String)
  | listFlows
  deriving DecidableEq, Repr

def flowOf (options : Options) : Except String FlowEntry :=
  match readInt32 ((options.get? "prio").getD "0") with
  | .error _ => .error "invalid priority"
  | .ok priority => .ok {
      target := (options.get? "target").getD ""
      priority := priority
      protocols := options.list "protocols"
      destinations := options.list "dsts"
      sources := options.list "srcs"
      destinationPorts := options.list "dports"
      sourcePorts := options.list "sports"
      byteMatches := options.list "match" }

def parseWith (options : Options) : String → Except String Request
  | "init" => return .init (← options.require "shm")
  | "delete" => return .delete (← options.require "shm")
  | "activate" => do
    let segment ← options.require "shm"
    let slot ← number (← options.require "index")
    match options.others with
    | [] => .error "missing fwmark"
    | mark :: _ => return .activate segment slot (← number mark)
  | "deactivate" => do
    let segment ← options.require "shm"
    return .deactivate segment (← number (← options.require "index"))
  | "flow-set" => do
    let name ← options.require "name"
    return .setFlow name (← flowOf options)
  | "flow-delete" => return .deleteFlow (← options.require "name")
  | "flow-list" => .ok .listFlows
  | other => .error ("unsupported nfqlb command " ++ quoted other)

def parse : List String → Except String Request
  | [] => .error "missing subcommand"
  | subcommand :: rest => parseWith (Options.parse rest) subcommand

def flowJson (name : String) (flow : FlowEntry) : Json :=
  .record [("Name", .ofString name), ("dests", .ofStrings flow.destinations),
    ("dports", .ofStrings flow.destinationPorts), ("match", .ofStrings flow.byteMatches),
    ("matches_count", .ofNat 0), ("priority", .ofInt flow.priority.toInt),
    ("protocols", .ofStrings flow.protocols), ("sports", .ofStrings flow.sourcePorts),
    ("srcs", .ofStrings flow.sources), ("user_ref", .ofString flow.target)]

def absentSegment (segment : String) : String := "shm_open " ++ segment ++ ": " ++ absent

def perform (h : Hashing) : Request → Except String (String × Hashing)
  | .init segment => .ok ("", { h with segments := h.segments.insert segment ∅ })
  | .delete segment =>
    if segment ∈ h.segments then .ok ("", { h with segments := h.segments.erase segment })
    else .error (absentSegment segment)
  | .activate segment slot mark =>
    match h.segments[segment]? with
    | none => .error (absentSegment segment)
    | some slots =>
      .ok ("", { h with segments := h.segments.insert segment (slots.insert slot mark) })
  | .deactivate segment slot =>
    match h.segments[segment]? with
    | none => .error (absentSegment segment)
    | some slots =>
      .ok ("", { h with segments := h.segments.insert segment (slots.erase slot) })
  | .setFlow name flow => .ok ("", { h with flows := h.flows.insert name flow })
  | .deleteFlow name =>
    if name ∈ h.flows then .ok ("", { h with flows := h.flows.erase name })
    else .error ("flow " ++ name ++ ": " ++ absent)
  | .listFlows =>
    .ok ((Json.array (h.flows.toList.map fun (name, flow) => flowJson name flow)).print, h)

/-- The program. -/
def execute (args : List String) (h : Hashing) : Except String (String × Hashing) :=
  match parse args with
  | .error fault => .error fault
  | .ok request => perform h request

end Maglev
end VipSteering.Host
