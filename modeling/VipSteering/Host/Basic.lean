import VipSteering.Command.Basic
import VipSteering.Host.Ip
import VipSteering.Host.Maglev
import VipSteering.Host.Nft

namespace VipSteering

/-- A host in memory. A command that fails leaves everything but the journal as it was. -/
structure Host where
  routing : Host.Routing := { }
  tables : Host.FilterTables := ∅
  hashing : Host.Hashing := { }
  /-- Commands whose line contains one of these fail. -/
  faults : List String := []
  /-- The commands that were run, the latest first. -/
  journal : List Command := []

namespace Host

/-- The host with a command in its journal. -/
def record (h : Host) (c : Command) : Host := { h with journal := c :: h.journal }

/-- What the program `nft` was given as its standard input, in order. -/
def scripts (h : Host) : List String :=
  (h.journal.reverse.filter (·.program = "nft")).filterMap (·.input)

def isFaulty (h : Host) (line : String) : Bool := h.faults.any (Text.occursIn · line)

/-- What a command writes and what it makes of the host, or what it says when it fails. -/
def execute (h : Host) (c : Command) : Except String (String × Host) :=
  if c.program = "ip" then
    (Ip.execute c.args h.routing).map fun (output, routing) => (output, { h with routing })
  else if c.program = "nft" then
    (Nft.execute c.args c.input h.tables).map fun (output, tables) => (output, { h with tables })
  else if Text.endsWith "nfqlb" c.program then
    (Maglev.execute c.args h.hashing).map fun (output, hashing) => (output, { h with hashing })
  else .error (c.program ++ ": command not found")

def failure (c : Command) (output : String) : Command.Failure :=
  .failed c.line "exit status: 1" output

def injected : String := "injected failure"

def run (c : Command) : StateM Host Outcome := fun h =>
  let h := h.record c
  if h.isFaulty c.line then (.error (failure c injected), h)
  else match h.execute c with
    | .error output => (.error (failure c output), h)
    | .ok (output, h) => (.ok output, h)

/-- A command that is to stay does so unless it is made to fail. -/
def launch (c : Command) : StateM Host Launch := fun h =>
  let h := h.record c
  if h.isFaulty c.line then (.ended (.error (failure c injected)), h) else (.running, h)

instance : Shell Host := ⟨run, launch⟩

def failOn (h : Host) (pattern : String) : Host := { h with faults := h.faults ++ [pattern] }

def clearFaults (h : Host) : Host := { h with faults := [] }

/-- Someone else deletes the policy rules. -/
def dropRules (h : Host) : Host := { h with routing := { h.routing with rules := ∅ } }

/-- Someone else deletes the policy rules and the routes. -/
def dropRoutes (h : Host) : Host :=
  { h with routing := { h.routing with rules := ∅, routes := ∅ } }

def clearJournal (h : Host) : Host := { h with journal := [] }

end Host
end VipSteering
