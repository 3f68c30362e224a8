namespace VipSteering.Text

/-- The value of a decimal digit; only `0` to `9` are digits. -/
def digit? (c : Char) : Option Nat :=
  if '0' ≤ c ∧ c ≤ '9' then some (c.toNat - '0'.toNat) else none

/-- The value of a hexadecimal digit in either case. -/
def hexDigit? (c : Char) : Option Nat :=
  if 'a' ≤ c ∧ c ≤ 'f' then some (c.toNat - 'a'.toNat + 10)
  else if 'A' ≤ c ∧ c ≤ 'F' then some (c.toNat - 'A'.toNat + 10)
  else digit? c

/-- The number spelled by digits of a base, added behind the digits of `soFar`. -/
def ofDigits? (base : Nat) (value? : Char → Option Nat) : Nat → List Char → Option Nat
  | soFar, [] => some soFar
  | soFar, c :: rest =>
    match value? c with
    | none => none
    | some d => ofDigits? base value? (base * soFar + d) rest

inductive NumberFault where
  | empty
  | invalidDigit
  | tooLarge
  | tooSmall
  deriving DecidableEq, Repr

def NumberFault.message : NumberFault → String
  | .empty => "cannot parse integer from empty string"
  | .invalidDigit => "invalid digit found in string"
  | .tooLarge => "number too large to fit in target type"
  | .tooSmall => "number too small to fit in target type"

/-- Extends `soFar` by the digits, as long as the number stays below `bound`. -/
def readDigits (bound : Nat) (overflow : NumberFault) : Nat → List Char → Except NumberFault Nat
  | soFar, [] => .ok soFar
  | soFar, c :: rest =>
    match digit? c with
    | none => .error .invalidDigit
    | some d =>
      if 10 * soFar + d < bound then readDigits bound overflow (10 * soFar + d) rest
      else .error overflow

/-- A number below `bound`, with an optional plus. -/
def readNatChars (bound : Nat) : List Char → Except NumberFault Nat
  | [] => .error .empty
  | ['+'] => .error .invalidDigit
  | '+' :: digits => readDigits bound .tooLarge 0 digits
  | digits => readDigits bound .tooLarge 0 digits

def readNat (bound : Nat) (s : String) : Except NumberFault Nat :=
  readNatChars bound s.toList

/-- A number from `-bound` to `bound - 1`, with an optional sign. -/
def readIntChars (bound : Nat) : List Char → Except NumberFault Int
  | ['-'] => .error .invalidDigit
  | '-' :: digits => (readDigits (bound + 1) .tooSmall 0 digits).map fun n => -(n : Int)
  | s => (readNatChars bound s).map Int.ofNat

def readUInt16 (s : String) : Except NumberFault UInt16 :=
  (readNat UInt16.size s).map UInt16.ofNat

def readUInt32 (s : String) : Except NumberFault UInt32 :=
  (readNat UInt32.size s).map UInt32.ofNat

def readUInt64 (s : String) : Except NumberFault UInt64 :=
  (readNat UInt64.size s).map UInt64.ofNat

def readInt32 (s : String) : Except NumberFault Int32 :=
  (readIntChars 0x80000000 s.toList).map Int32.ofInt

/-- The three decimals of a number of thousandths, without trailing zeros. -/
private def thousandths (n : Nat) : List Char :=
  let digits := [n / 100, n / 10 % 10, n % 10].map Nat.digitChar
  (digits.reverse.dropWhile (· = '0')).reverse

/-- A span given in milliseconds: `0ns`, `50ms`, `1.5s`, `61.234s`. -/
def elapsed (millis : Nat) : String :=
  if millis = 0 then "0ns"
  else if millis < 1000 then toString millis ++ "ms"
  else match thousandths (millis % 1000) with
    | [] => toString (millis / 1000) ++ "s"
    | decimals => toString (millis / 1000) ++ "." ++ String.ofList decimals ++ "s"

end VipSteering.Text
