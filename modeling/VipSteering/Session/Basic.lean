import VipSteering.Balancer.Process
import VipSteering.Host.Console
import VipSteering.Session.Watcher

namespace VipSteering

/-- The balancer's process. -/
inductive Process where
  | idle
  /-- The process runs, and the next repair is due at a time. -/
  | running (nextHeal : Nat)
  | ended (result : Except (Report Balancer.Fault) Unit)

/-- A gateway at work on a host in memory. Time passes only when it is told to. -/
structure Session where
  setup : Setup
  watch : WatchSettings
  /-- The path of the watched file. -/
  path : String
  watcher : Watcher.State Lease (Balancer Console)
  file : WatchedFile := none
  /-- Milliseconds. -/
  now : Nat := 0
  process : Process := .idle
  /-- When the file is read next, while it is watched. -/
  nextRead : Option Nat := none

namespace Session

abbrev Fault := Watcher.Fault (Report Balancer.Fault)

def engine (s : Session) : Engine (Balancer Console) Lease (Report Balancer.Fault) :=
  Balancer.engine s.setup.settings

def console (s : Session) : Console := s.watcher.roster.engine.host

def onWatcher {α : Type} (task : StateM (Watcher.State Lease (Balancer Console)) α) :
    StateM Session α := fun s =>
  let (result, watcher) := task s.watcher
  (result, { s with watcher })

def onRoster {α : Type} (task : StateM (Roster Lease (Balancer Console)) α) : StateM Session α :=
  onWatcher (Watcher.onRoster task)

def onBalancer {α : Type} (task : StateM (Balancer Console) α) : StateM Session α :=
  onRoster (Roster.onEngine task)

def onConsole {α : Type} (task : StateM Console α) : StateM Session α :=
  onBalancer (Balancer.onHost task)

/-- Reads the file and applies it. -/
def takeSnapshot : StateM Session (Except Fault Bool) := do
  let s ← get
  onWatcher (Watcher.pass s.engine s.watch s.path s.file)

/-- What recurs: the repairs while the process runs, and the readings of a file that is watched. -/
inductive Recurring where
  | heal
  | read
  deriving DecidableEq, Repr

def nextTime? (s : Session) : Recurring → Option Nat
  | .heal =>
    match s.process with
    | .running time => some time
    | _ => none
  | .read => s.nextRead

def period (s : Session) : Recurring → Nat
  | .heal => s.setup.settings.healPeriod
  | .read => s.watch.period

/-- Lets it happen at a time. It happens again a period later. -/
def happen (time : Nat) : Recurring → StateM Session Unit
  | .heal => do
    onBalancer Balancer.heal
    modify fun s => { s with now := time, process := .running (time + s.period .heal) }
  | .read => do
    discard takeSnapshot
    modify fun s => { s with now := time, nextRead := some (time + s.period .read) }

/-- What happens next, and when, if it is due by a time. A repair comes before a reading. -/
def next? (s : Session) (deadline : Nat) : Option (Recurring × Nat) :=
  match (s.nextTime? .heal).filter (· ≤ deadline), (s.nextTime? .read).filter (· ≤ deadline) with
  | none, none => none
  | some heal, none => some (.heal, heal)
  | none, some read => some (.read, read)
  | some heal, some read => if heal ≤ read then some (.heal, heal) else some (.read, read)

/-- Lets things happen in the order of time, at most `n` of them. -/
def passEvents (deadline : Nat) : Nat → StateM Session Unit
  | 0 => return ()
  | n + 1 => do
    match (← get).next? deadline with
    | none => return ()
    | some (r, time) =>
      happen time r
      passEvents deadline n

/-- Lets time pass. As periods are not zero, each of the two that recur happens at most once in a
millisecond. -/
def sleep (millis : Nat) : StateM Session Unit := do
  let deadline := (← get).now + millis
  passEvents deadline (2 * (millis + 1))
  modify fun s => { s with now := deadline }

/-- The time that it takes for a task to be under way. -/
def settle : StateM Session Unit := sleep 1

/-- Starts the balancer's process. Tells whether it runs. -/
def start : StateM Session Bool := do
  let s ← get
  match ← onConsole (Shell.launch (Balancer.processCommand s.setup)) with
  | .running =>
    modify fun s => { s with process := .running (s.now + s.setup.settings.healPeriod) }
    settle
    return true
  | .ended result =>
    let result ← onConsole (Balancer.tearDown result)
    modify fun s => { s with process := .ended result }
    settle
    return false

/-- Stops the balancer's process, unless it has ended by itself. Returns how it ended. -/
def stop : StateM Session (Except (Report Balancer.Fault) Unit) := do
  match (← get).process with
  | .idle => return .ok ()
  | .running _ =>
    let result ← onConsole (Balancer.tearDown (.ok ()))
    modify fun s => { s with process := .idle }
    return result
  | .ended result =>
    modify fun s => { s with process := .idle }
    return result

/-- Begins to watch the file. It is read at once. -/
def startWatching : StateM Session Unit := do
  happen (← get).now .read
  settle

def stopWatching : StateM Session Unit :=
  modify fun s => { s with nextRead := none }

end Session
end VipSteering
