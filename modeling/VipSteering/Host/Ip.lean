import VipSteering.Json.Basic
import VipSteering.Net.Address
import VipSteering.Net.Address.Parser
import VipSteering.Store
import VipSteering.Text.Decimal
import VipSteering.Text.Printable

namespace VipSteering.Host

/-- A number, or what a program says of a text that is none. -/
def number (operand : String) : Except String UInt32 :=
  match Text.readUInt32 operand with
  | .ok n => .ok n
  | .error _ => .error ("invalid number " ++ Text.quoted operand)

def address (operand : String) : Except String Address :=
  match Address.parse? operand with
  | some a => .ok a
  | none => .error ("invalid address " ++ Text.quoted operand)

/-- What the system calls an object that is not there. -/
def absent : String := "No such file or directory"

/-- Packets of a family that carry the mark are routed by the table. -/
structure Rule where
  family : Family
  mark : UInt32
  table : UInt32
  deriving DecidableEq, Repr

/-- The default route of a table. -/
structure Route where
  table : UInt32
  gateway : Address
  deriving DecidableEq, Repr

namespace Rule

def rank (r : Rule) : Nat :=
  (r.mark.toNat * UInt32.size + r.table.toNat) * 2 + (if r.family = .ipv4 then 0 else 1)

theorem rank_inj {r s : Rule} (h : r.rank = s.rank) : r = s := by
  obtain ⟨h, hf⟩ := pair_rank_inj (by split <;> decide) (by split <;> decide) h
  obtain ⟨hm, ht⟩ := pair_rank_inj r.table.toNat_lt s.table.toNat_lt h
  have hm := UInt32.toNat_inj.mp hm
  have ht := UInt32.toNat_inj.mp ht
  obtain ⟨family, _, _⟩ := r
  obtain ⟨family', _, _⟩ := s
  cases family <;> cases family' <;> simp_all

instance : Ranked Rule := ⟨rank, rank_inj⟩
instance : Ord Rule := Ranked.toOrd
instance : Std.TransOrd Rule := Ranked.transOrd
instance : Std.LawfulEqOrd Rule := Ranked.lawfulEqOrd

end Rule

namespace Route

/-- By table, then by gateway. -/
def rank (r : Route) : Nat := r.table.toNat * Address.count + r.gateway.rank

theorem rank_inj {r s : Route} (h : r.rank = s.rank) : r = s := by
  obtain ⟨ht, hg⟩ := pair_rank_inj r.gateway.rank_lt s.gateway.rank_lt h
  have ht := UInt32.toNat_inj.mp ht
  have hg := Address.rank_inj hg
  cases r
  cases s
  simp_all

instance : Ranked Route := ⟨rank, rank_inj⟩
instance : Ord Route := Ranked.toOrd
instance : Std.TransOrd Route := Ranked.transOrd
instance : Std.LawfulEqOrd Route := Ranked.lawfulEqOrd

/-- Is this the route of a family in a table? -/
def isOf (family : Family) (table : UInt32) (r : Route) : Bool :=
  r.table = table && r.gateway.family = family

end Route

structure Routing where
  rules : Std.ExtTreeSet Rule := ∅
  routes : Std.ExtTreeSet Route := ∅
  /-- The neighbours that were flushed, the latest first. -/
  flushes : List Address := []

namespace Ip

inductive Request where
  | showRule (rule : Rule)
  | addRule (rule : Rule)
  | deleteRule (rule : Rule)
  | showRoutes (family : Family) (table : UInt32)
  | addRoute (route : Route)
  | deleteRoute (route : Route)
  | flushRoutes (family : Family) (table : UInt32)
  | flushNeighbour (address : Address)
  deriving DecidableEq, Repr

/-- What is asked for behind the family. -/
def parseRequest (family : Family) : List String → Except String Request
  | ["rule", "show", "fwmark", mark, "table", table] =>
    return .showRule ⟨family, ← number mark, ← number table⟩
  | ["rule", "add", "fwmark", mark, "table", table] =>
    return .addRule ⟨family, ← number mark, ← number table⟩
  | ["rule", "del", "fwmark", mark, "table", table] =>
    return .deleteRule ⟨family, ← number mark, ← number table⟩
  | ["route", "show", "table", table] => return .showRoutes family (← number table)
  | ["route", "add", "default", "via", gateway, "table", table] => do
    let gateway ← address gateway
    return .addRoute ⟨← number table, gateway⟩
  | ["route", "del", "default", "via", gateway, "table", table] => do
    let table ← number table
    return .deleteRoute ⟨table, ← address gateway⟩
  | ["route", "flush", "table", table] => return .flushRoutes family (← number table)
  | ["neigh", "flush", "to", target] => return .flushNeighbour (← address target)
  | other => .error ("unsupported ip command: " ++ Text.quotedList other)

/-- Whether documents are wanted, and the request. -/
def parse (args : List String) : Except String (Bool × Request) :=
  let (json, args) := match args with
    | "-j" :: rest => (true, rest)
    | args => (false, args)
  match args with
  | "-4" :: rest => return (json, ← parseRequest .ipv4 rest)
  | "-6" :: rest => return (json, ← parseRequest .ipv6 rest)
  | _ => .error "address family required"

def ruleEntry (rule : Rule) : Json :=
  .record [("fwmark", .ofString (String.ofList ('0' :: 'x' :: Nat.toDigits 16 rule.mark.toNat))),
    ("priority", .ofNat 32765), ("src", .ofString "all"),
    ("table", .ofString (toString rule.table))]

def routeEntry (route : Route) : Json :=
  .record [("dst", .ofString "default"), ("flags", .array []),
    ("gateway", .ofString route.gateway.text)]

/-- One document, or a line for each entry. -/
def render (json : Bool) (entries : List Json) : String :=
  if json then (Json.array entries).print
  else String.join (entries.map fun entry => entry.print ++ "\n")

/-- Does the request; a table holds one default route for each family. -/
def perform (json : Bool) (r : Routing) : Request → Except String (String × Routing)
  | .showRule rule => .ok (render json (if rule ∈ r.rules then [ruleEntry rule] else []), r)
  | .addRule rule =>
    if rule ∈ r.rules then .error "RTNETLINK answers: File exists"
    else .ok ("", { r with rules := r.rules.insert rule })
  | .deleteRule rule =>
    if rule ∈ r.rules then .ok ("", { r with rules := r.rules.erase rule })
    else .error ("RTNETLINK answers: " ++ absent)
  | .showRoutes family table =>
    .ok (render json ((r.routes.toList.filter (Route.isOf family table)).map routeEntry), r)
  | .addRoute route =>
    if r.routes.toList.any (Route.isOf route.gateway.family route.table) then
      .error "RTNETLINK answers: File exists"
    else .ok ("", { r with routes := r.routes.insert route })
  | .deleteRoute route =>
    if route ∈ r.routes then .ok ("", { r with routes := r.routes.erase route })
    else .error "RTNETLINK answers: No such process"
  | .flushRoutes family table =>
    .ok ("", { r with routes := keepItems (!Route.isOf family table ·) r.routes })
  | .flushNeighbour target => .ok ("", { r with flushes := target :: r.flushes })

/-- The program. -/
def execute (args : List String) (r : Routing) : Except String (String × Routing) :=
  match parse args with
  | .error fault => .error fault
  | .ok (json, request) => perform json r request

end Ip

end VipSteering.Host
