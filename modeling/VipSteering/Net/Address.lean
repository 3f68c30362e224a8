import VipSteering.Ranked
import VipSteering.Text.Printable

namespace VipSteering

/-- Faults in what is asked for in terms of addresses, queues and marks. -/
inductive NetFault where
  | invalidCidr (spec : String)
  | invalidAddress (reason : String)
  | invalidQueue (spec : String)
  | invalidRangeSize (size : UInt32)
  | rangeExhausted (floor size : UInt32)
  deriving DecidableEq, Repr

def NetFault.message : NetFault → String
  | .invalidCidr spec => "invalid CIDR: " ++ spec
  | .invalidAddress reason => "invalid IP address: " ++ reason
  | .invalidQueue spec =>
    "queue must be an integer or in format integer:integer, got " ++ Text.quoted spec
  | .invalidRangeSize size => "invalid range size: " ++ toString size
  | .rangeExhausted floor size =>
    "unable to allocate " ++ toString size ++ " slots above " ++ toString floor

inductive Family where
  | ipv4
  | ipv6
  deriving DecidableEq, Repr

inductive Address where
  | v4 (bits : BitVec 32)
  | v6 (bits : BitVec 128)
  deriving DecidableEq, Repr

namespace Address

def family : Address → Family
  | .v4 _ => .ipv4
  | .v6 _ => .ipv6

def isIpv4 (a : Address) : Bool := a.family = .ipv4

/-- The address after `a`; after the last of the family comes the first. -/
def next : Address → Address
  | .v4 bits => .v4 (bits + 1)
  | .v6 bits => .v6 (bits + 1)

/-- The address before `a`; before the first of the family comes the last. -/
def prev : Address → Address
  | .v4 bits => .v4 (bits - 1)
  | .v6 bits => .v6 (bits - 1)

/-- IPv4 comes before IPv6, and a family is in numerical order. -/
def rank : Address → Nat
  | .v4 bits => bits.toNat
  | .v6 bits => UInt32.size + bits.toNat

/-- How many addresses there are. -/
def count : Nat := 0x100000000000000000000000100000000

theorem rank_lt (a : Address) : a.rank < count := by
  cases a with
  | v4 bits => have := bits.isLt; simp only [rank, count]; omega
  | v6 bits => have := bits.isLt; simp only [rank, count, UInt32.size]; omega

theorem rank_inj {a b : Address} (h : a.rank = b.rank) : a = b := by
  cases a with
  | v4 x =>
    cases b with
    | v4 y => exact congrArg _ (BitVec.eq_of_toNat_eq h)
    | v6 y => have := x.isLt; simp only [rank, UInt32.size] at h; omega
  | v6 x =>
    cases b with
    | v4 y => have := y.isLt; simp only [rank, UInt32.size] at h; omega
    | v6 y =>
      simp only [rank] at h
      exact congrArg _ (BitVec.eq_of_toNat_eq (by omega))

instance : Ranked Address := ⟨rank, rank_inj⟩
instance : Ord Address := Ranked.toOrd
instance : Std.TransOrd Address := Ranked.transOrd
instance : Std.LawfulEqOrd Address := Ranked.lawfulEqOrd

@[simp] theorem prev_next (a : Address) : a.next.prev = a := by
  cases a with
  | v4 bits => exact congrArg v4 (BitVec.add_sub_cancel bits 1)
  | v6 bits => exact congrArg v6 (BitVec.add_sub_cancel bits 1)

@[simp] theorem next_prev (a : Address) : a.prev.next = a := by
  cases a with
  | v4 bits => exact congrArg v4 (BitVec.sub_add_cancel bits 1)
  | v6 bits => exact congrArg v6 (BitVec.sub_add_cancel bits 1)

@[simp] theorem family_next (a : Address) : a.next.family = a.family := by
  cases a <;> rfl

@[simp] theorem family_prev (a : Address) : a.prev.family = a.family := by
  cases a <;> rfl

def quadChars (n : Nat) : List Char :=
  let octet (i : Nat) := Nat.toDigits 10 (n >>> (8 * i) % 256)
  octet 3 ++ '.' :: octet 2 ++ '.' :: octet 1 ++ '.' :: octet 0

/-- The eight groups of 16 bits, the highest first. -/
def groupsOf (n : Nat) : List Nat :=
  (List.range 8).map fun i => n >>> (16 * (7 - i)) % 65536

def groupsChars : List Nat → List Char
  | [] => []
  | [g] => Nat.toDigits 16 g
  | g :: rest => Nat.toDigits 16 g ++ ':' :: groupsChars rest

def zerosAt (groups : List Nat) (i : Nat) : Nat :=
  ((groups.drop i).takeWhile (· = 0)).length

/-- Start and length of the first of the longest runs of zeros. -/
def longestZeros (groups : List Nat) : Nat × Nat :=
  (List.range groups.length).foldl
    (fun best i => if best.2 < zerosAt groups i then (i, zerosAt groups i) else best) (0, 0)

def v6Chars (n : Nat) : List Char :=
  if n / UInt32.size = 0xFFFF then "::ffff:".toList ++ quadChars (n % UInt32.size)
  else
    let groups := groupsOf n
    let (start, length) := longestZeros groups
    if 1 < length then
      groupsChars (groups.take start) ++ "::".toList ++ groupsChars (groups.drop (start + length))
    else groupsChars groups

def chars : Address → List Char
  | .v4 bits => quadChars bits.toNat
  | .v6 bits => v6Chars bits.toNat

def text (a : Address) : String := String.ofList a.chars

end Address
end VipSteering
