import VipSteering.Net.Interval
import VipSteering.Text.Decimal
import VipSteering.Text.Split

namespace VipSteering

structure HostDestinations where
  ipv4 : List Cidr
  ipv6 : List Cidr
  deriving DecidableEq, Repr

namespace HostDestinations

/-- The block that a text names, if it holds a single address. -/
def host? (spec : String) : Option Cidr :=
  match Cidr.parse spec with
  | .ok net => if net.isHost then some net else none
  | .error _ => none

/-- Without repetitions, in the order of first occurrence. -/
def distinct [DecidableEq α] (items : List α) : List α :=
  items.foldl (fun kept item => if item ∈ kept then kept else kept ++ [item]) []

/-- What names no block, or a block of several addresses, is left out. -/
def ofCidrs (specs : List String) : HostDestinations :=
  let hosts := specs.filterMap host?
  { ipv4 := distinct (hosts.filter (·.address.isIpv4))
    ipv6 := distinct (hosts.filter (!·.address.isIpv4)) }

def ofFamily (d : HostDestinations) : Family → List Cidr
  | .ipv4 => d.ipv4
  | .ipv6 => d.ipv6

def intervals (d : HostDestinations) (family : Family) : List Interval :=
  (d.ofFamily family).map Interval.ofCidr

end HostDestinations

namespace Wildcard

open Text

/-- Does a CIDR's mask, the text behind the first slash, read as zero? -/
def hasZeroMask (cidr : String) : Bool :=
  match cut '/' cidr with
  | none => false
  | some (_, mask) =>
    match readNat 256 (trim mask) with
    | .ok n => n = 0
    | .error _ => false

/-- A list that is not empty and in which every mask is zero. One family is enough. -/
def isAnyCidrList (cidrs : List String) : Bool :=
  !cidrs.isEmpty && cidrs.all hasZeroMask

def anyPort : String := "0-65535"

/-- One range of all ports is enough. -/
def isAnyPortList (ports : List String) : Bool :=
  ports.any fun port => trim port = anyPort

end Wildcard
end VipSteering
