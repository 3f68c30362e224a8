import VipSteering.Net.Address
import VipSteering.Text.Decimal
import VipSteering.Text.Split

namespace VipSteering

structure QueueRange where
  start : UInt16
  stop : UInt16
  start_le_stop : start ≤ stop := by decide
  deriving DecidableEq, Repr

namespace QueueRange

open Text

/-- `start:stop`, or one number for a single queue. -/
def textWith (separator : String) (start stop : UInt16) : String :=
  if start = stop then toString start else toString start ++ separator ++ toString stop

def make (start stop : UInt16) : Except NetFault QueueRange :=
  if h : start ≤ stop then .ok ⟨start, stop, h⟩
  else .error (.invalidQueue (toString start ++ ":" ++ toString stop))

def bound? (s : String) : Option UInt16 :=
  (readUInt16 (trim s)).toOption

/-- One number, or two numbers around the first colon. -/
def parse? (spec : String) : Option QueueRange :=
  let (start, stop) := (cut ':' spec).getD (spec, spec)
  match bound? start, bound? stop with
  | some start, some stop => (make start stop).toOption
  | _, _ => none

def parse (spec : String) : Except NetFault QueueRange :=
  match parse? spec with
  | some q => .ok q
  | none => .error (.invalidQueue spec)

/-- How many queues the range holds, counted in 16 bits: all 65536 of them count as none. -/
def total (q : QueueRange) : Nat := (q.stop - q.start + 1).toNat

def text (q : QueueRange) : String := textWith ":" q.start q.stop

/-- The form of packet filter rules. -/
def ruleText (q : QueueRange) : String := textWith "-" q.start q.stop

end QueueRange
end VipSteering
