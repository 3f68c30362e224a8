import VipSteering.Balancer.Fault
import VipSteering.Balancer.Flow
import VipSteering.Mark.Block
import VipSteering.PolicyRoute
import Std.Data.ExtTreeMap

namespace VipSteering

/-- What a service holds from the time it is added. A service that is deleted and added again gets
another lease; the number tells leases apart. -/
structure Lease where
  number : Nat
  name : String
  block : Block
  deriving DecidableEq, Repr

namespace Lease

def mark (l : Lease) (slot : UInt32) : UInt32 := l.block.start + slot

end Lease

/-- The addresses of the target at each active slot. -/
abbrev Targets := Std.ExtTreeMap UInt32 (List Address)

/-- A balancer and the system on which its program runs. A registered service has a hash table of
its own in the program and leases a block of marks; what carries the mark of a slot is routed to the
addresses of the slot's target. -/
structure Balancer (σ : Type) where
  host : σ
  registered : Std.ExtTreeMap String Lease := ∅
  /-- The targets of each lease, by its number. -/
  targets : Std.ExtTreeMap Nat Targets := ∅
  /-- How many leases there have been. -/
  issued : Nat := 0

namespace Balancer

variable {σ : Type}

def targetsOf (b : Balancer σ) (l : Lease) : Targets := b.targets.getD l.number ∅

def alterTargets (b : Balancer σ) (l : Lease) (change : Targets → Targets) : Balancer σ :=
  { b with targets := b.targets.insert l.number (change (b.targetsOf l)) }

@[simp] theorem targetsOf_alterTargets (b : Balancer σ) (l : Lease) (change : Targets → Targets) :
    (b.alterTargets l change).targetsOf l = change (b.targetsOf l) := by
  simp [targetsOf, alterTargets]

theorem targetsOf_alterTargets_of_ne (b : Balancer σ) {l k : Lease} (h : k.number ≠ l.number)
    (change : Targets → Targets) : (b.alterTargets l change).targetsOf k = b.targetsOf k := by
  simp [targetsOf, alterTargets, Std.ExtTreeMap.getD_insert, Ne.symm h]

/-- The services that are registered, by name. -/
def leases (b : Balancer σ) : List Lease := b.registered.toList.map (·.2)

/-- Runs a task on the host. -/
def onHost {α : Type} (task : StateM σ α) : StateM (Balancer σ) α := fun b =>
  let (result, host) := task b.host
  (result, { b with host })

/-- The size of a hash table for each slot. -/
def tableFactor : Nat := 100

/-- The size of the hash table for a number of slots, as far as such numbers go. -/
def tableSize (slots : UInt32) : Nat := min (slots.toNat * tableFactor) (UInt32.size - 1)

def initCommand (program name : String) (slots : UInt32) : Command :=
  { program, args := ["init", "--ownfw=0", "--shm=" ++ name, "--M=" ++ toString (tableSize slots),
    "--N=" ++ toString slots] }

def deleteCommand (program name : String) : Command :=
  { program, args := ["delete", "--shm=" ++ name] }

def activateCommand (program name : String) (slot mark : UInt32) : Command :=
  { program, args := ["activate", "--index=" ++ toString slot, "--shm=" ++ name, toString mark] }

def deactivateCommand (program name : String) (slot : UInt32) : Command :=
  { program, args := ["deactivate", "--index=" ++ toString slot, "--shm=" ++ name] }

end Balancer
end VipSteering
