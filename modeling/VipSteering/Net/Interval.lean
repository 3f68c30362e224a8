import VipSteering.Net.Cidr

namespace VipSteering

/-- The addresses from `start` up to the one before `stop`. An interval that reaches the last address
of its family stops at the first one. -/
structure Interval where
  start : Address
  stop : Address
  deriving DecidableEq, Repr

namespace Interval

def ofCidr (net : Cidr) : Interval := ⟨net.first, net.last.next⟩

/-- The interval from `start` to `last`, both included. -/
def inclusive (start last : Address) : Except NetFault Interval :=
  if start.family = last.family then .ok ⟨start, last.next⟩
  else .error (.invalidAddress
    ("mixed address families in range " ++ start.text ++ "-" ++ last.text))

def last (i : Interval) : Address := i.stop.prev

def isIpv4 (i : Interval) : Bool := i.start.isIpv4

/-- A single address, or the first and the last one. -/
def text (i : Interval) : String :=
  if i.last = i.start then i.start.text else i.start.text ++ "-" ++ i.last.text

/-- By start, then by end. -/
def rank (i : Interval) : Nat := i.start.rank * Address.count + i.stop.rank

theorem rank_inj {i j : Interval} (h : i.rank = j.rank) : i = j := by
  obtain ⟨hs, ht⟩ := pair_rank_inj i.stop.rank_lt j.stop.rank_lt h
  have hs := Address.rank_inj hs
  have ht := Address.rank_inj ht
  cases i
  cases j
  simp_all

instance : Ranked Interval := ⟨rank, rank_inj⟩
instance : Ord Interval := Ranked.toOrd
instance : Std.TransOrd Interval := Ranked.transOrd
instance : Std.LawfulEqOrd Interval := Ranked.lawfulEqOrd

/-- In order and without repetitions. -/
def sort (intervals : List Interval) : List Interval :=
  (Std.ExtTreeSet.ofList intervals).toList

end Interval
end VipSteering
