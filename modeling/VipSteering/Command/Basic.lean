import VipSteering.Text.Decimal
import VipSteering.Text.Split

namespace VipSteering

structure Command where
  program : String
  args : List String
  /-- What the program reads from its standard input. -/
  input : Option String := none
  deriving DecidableEq, Repr

namespace Command

/-- Program and arguments, separated by spaces. -/
def line (c : Command) : String := " ".intercalate (c.program :: c.args)

/-- The line together with the standard input. -/
def entry (c : Command) : String :=
  match c.input with
  | none => c.line
  | some input => c.line ++ " <<< " ++ input

inductive Failure where
  /-- The program could not be started. -/
  | spawn (line cause : String)
  /-- The program ended without success. -/
  | failed (line status output : String)
  /-- The program did not end in time. -/
  | timeout (line : String) (millis : Nat)
  deriving DecidableEq, Repr

namespace Failure

def message : Failure → String
  | .spawn line cause => "failed to run " ++ line ++ ": " ++ cause
  | .failed line status output => line ++ " exited with " ++ status ++ ": " ++ output
  | .timeout line millis => line ++ " did not complete within " ++ Text.elapsed millis

/-- What programs say when the thing to delete does not exist. -/
def absenceMarks : List String :=
  ["No such file or directory", "No such process", "Cannot find"]

/-- Did the program fail because its target does not exist? -/
def isAbsence : Failure → Bool
  | .failed _ _ output => absenceMarks.any (Text.occursIn · output)
  | _ => false

end Failure
end Command

/-- What came of running a command: its standard output, or a failure. -/
abbrev Outcome := Except Command.Failure String

namespace Outcome

/-- A deletion whose target does not exist has nothing left to do. -/
def deleted : Outcome → Except Command.Failure Unit
  | .ok _ => .ok ()
  | .error failure => if failure.isAbsence then .ok () else .error failure

end Outcome

/-- How a command fares that is meant to run until it is stopped. -/
inductive Launch where
  | running
  | ended (result : Except Command.Failure Unit)
  deriving Repr

/-- A system whose states are `σ`. -/
class Shell (σ : Type) where
  /-- Runs a command to its end. -/
  run : Command → StateM σ Outcome
  /-- Starts a command that is to stay. -/
  launch : Command → StateM σ Launch

end VipSteering
