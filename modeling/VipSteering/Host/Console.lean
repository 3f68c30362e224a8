import VipSteering.Host.Basic

namespace VipSteering

/-- What the console says in the place of the host. -/
inductive Reply where
  | output (text : String)
  | spawn (cause : String)
  | failed (status text : String)
  | timeout (millis : Nat)
  deriving DecidableEq, Repr

namespace Reply

def outcome (line : String) : Reply → Outcome
  | .output text => .ok text
  | .spawn cause => .error (.spawn line cause)
  | .failed status text => .error (.failed line status text)
  | .timeout millis => .error (.timeout line millis)

end Reply

/-- An answer to the commands whose line contains a pattern. -/
structure PreparedReply where
  pattern : String
  /-- How often it is still given; without a number, always. -/
  times : Option Nat
  reply : Reply
  deriving DecidableEq, Repr

/-- A host behind a console that logs the commands. What it answers does not reach the host. -/
structure Console where
  host : Host := { }
  /-- In the order in which they are tried. -/
  prepared : List PreparedReply := []
  /-- The commands that were run, the latest first. -/
  log : List Command := []

namespace Console

/-- The reply after one more use, unless it is used up. -/
def spend (s : PreparedReply) : Option PreparedReply :=
  match s.times with
  | none => some s
  | some (n + 2) => some { s with times := some (n + 1) }
  | some _ => none

/-- The first reply to a line, and the replies that are left. -/
def answer? (line : String) : List PreparedReply → Option (Reply × List PreparedReply)
  | [] => none
  | s :: rest =>
    if Text.occursIn s.pattern line then some (s.reply, (spend s).toList ++ rest)
    else (answer? line rest).map fun (reply, rest) => (reply, s :: rest)

/-- Logs a command, and answers it or hands it to the host. -/
def handle (c : Command) (answered : Outcome → α) (host : StateM Host α) : StateM Console α :=
  fun console =>
    let console := { console with log := c :: console.log }
    match answer? c.line console.prepared with
    | some (reply, prepared) => (answered (reply.outcome c.line), { console with prepared })
    | none =>
      let (result, host) := host console.host
      (result, { console with host })

def run (c : Command) : StateM Console Outcome := handle c id (Host.run c)

/-- A command that is to stay but gets a reply has ended. -/
def launch (c : Command) : StateM Console Launch :=
  handle c (fun outcome => .ended (outcome.map fun _ => ())) (Host.launch c)

instance : Shell Console := ⟨run, launch⟩

def onHost (f : Host → Host) (console : Console) : Console :=
  { console with host := f console.host }

end Console
end VipSteering
