import VipSteering.Net.Address
import VipSteering.Text.Decimal
import VipSteering.Text.Split

namespace VipSteering.Address

open Text

/-- What a reader of addresses tolerates. -/
structure Tolerance where
  /-- An octet may begin with zeros. -/
  leadingZeros : Bool
  /-- A gap may leave out no group at all, unless all eight stand before it. -/
  emptyGap : Bool

def strict : Tolerance := ⟨false, false⟩

def lenient : Tolerance := ⟨true, true⟩

/-- One to three digits. -/
def octet? (t : Tolerance) (s : List Char) : Option Nat :=
  if s.isEmpty || 3 < s.length then none
  else if !t.leadingZeros && s.head? = some '0' && s.length ≠ 1 then none
  else (ofDigits? 10 digit? 0 s).filter (· < 256)

def quad? (t : Tolerance) (s : List Char) : Option Nat :=
  match fieldChars (· = '.') s with
  | [a, b, c, d] =>
    match octet? t a, octet? t b, octet? t c, octet? t d with
    | some a, some b, some c, some d => some (((a * 256 + b) * 256 + c) * 256 + d)
    | _, _, _, _ => none
  | _ => none

/-- One to four hexadecimal digits. -/
def group? (s : List Char) : Option Nat :=
  if s.isEmpty || 4 < s.length then none else ofDigits? 16 hexDigit? 0 s

/-- Groups, the last two of which may be given as four octets. -/
def groups? (t : Tolerance) : List (List Char) → Option (List Nat)
  | [] => some []
  | [s] =>
    match quad? t s with
    | some n => some [n / 65536, n % 65536]
    | none => (group? s).map fun g => [g]
  | s :: rest =>
    match group? s with
    | some g => (groups? t rest).map (g :: ·)
    | none => none

/-- The fields between colons; empty text has none. -/
def colonFields (s : List Char) : List (List Char) :=
  if s.isEmpty then [] else fieldChars (· = ':') s

/-- The text before and after the first gap. -/
def cutGap : List Char → Option (List Char × List Char)
  | ':' :: ':' :: rest => some ([], rest)
  | c :: rest => (cutGap rest).map fun (before, after) => (c :: before, after)
  | [] => none

def ofGroups (groups : List Nat) : BitVec 128 :=
  BitVec.ofNat 128 (groups.foldl (fun n g => n * 65536 + g) 0)

def groupsOf? (t : Tolerance) (s : List Char) : Option (List Nat) :=
  match cutGap s with
  | none => (groups? t (colonFields s)).filter (·.length = 8)
  | some (before, after) =>
    match (colonFields before).mapM group?, groups? t (colonFields after) with
    | some front, some back =>
      let known := front.length + back.length
      if known < 8 || (t.emptyGap && known = 8 && front.length < 8) then
        some (front ++ List.replicate (8 - known) 0 ++ back)
      else none
    | _, _ => none

def parseChars? (t : Tolerance) (s : List Char) : Option Address :=
  match quad? t s with
  | some n => some (.v4 (BitVec.ofNat 32 n))
  | none => (groupsOf? t s).map fun groups => .v6 (ofGroups groups)

def parse? (s : String) : Option Address := parseChars? strict s.toList

end VipSteering.Address
