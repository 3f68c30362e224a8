import VipSteering.Net.Address
import VipSteering.Net.Address.Parser
import VipSteering.Text.Split

namespace VipSteering

/-- The addresses that agree with one on their first bits. -/
structure Cidr where
  address : Address
  /-- How many leading bits the addresses of the block share. -/
  length : Nat
  deriving DecidableEq, Repr

namespace Cidr

open Text

/-- The number of bits of an address. -/
def width : Address → Nat
  | .v4 _ => 32
  | .v6 _ => 128

/-- The first address of the block. -/
def first (net : Cidr) : Address :=
  match net.address with
  | .v4 bits => .v4 (bits &&& ~~~(BitVec.allOnes 32 >>> net.length))
  | .v6 bits => .v6 (bits &&& ~~~(BitVec.allOnes 128 >>> net.length))

/-- The last address of the block. -/
def last (net : Cidr) : Address :=
  match net.address with
  | .v4 bits => .v4 (bits ||| (BitVec.allOnes 32 >>> net.length))
  | .v6 bits => .v6 (bits ||| (BitVec.allOnes 128 >>> net.length))

/-- The same block, named by its first address. -/
def truncate (net : Cidr) : Cidr := { net with address := net.first }

/-- A length has no more digits than the greatest length of the family. -/
def length? (address : Address) (s : List Char) : Option Nat :=
  let digits := (Nat.toDigits 10 (width address)).length
  if s.isEmpty || digits < s.length then none
  else (ofDigits? 10 digit? 0 s).filter (· ≤ width address)

/-- An address and a length; addresses are read leniently. -/
def parseChars? (s : List Char) : Option Cidr :=
  match cutChars '/' s with
  | none => none
  | some (address, length) =>
    match Address.parseChars? Address.lenient address with
    | none => none
    | some address => (length? address length).map fun length => ⟨address, length⟩

/-- The block that a text names, blanks around it aside. -/
def parse (spec : String) : Except NetFault Cidr :=
  match parseChars? (trimChars spec.toList) with
  | some net => .ok net.truncate
  | none => .error (.invalidCidr spec)

/-- Does the block hold a single address? -/
def isHost (net : Cidr) : Bool := net.length = width net.address

def text (net : Cidr) : String := net.address.text ++ "/" ++ toString net.length

end Cidr
end VipSteering
