namespace VipSteering

/-- The number `mantissa * 2 ^ exponent`. -/
structure Binary64 where
  mantissa : Nat
  exponent : Int
  deriving DecidableEq, Repr

namespace Binary64

/-- The exponent of the least positive number, shared by the subnormal numbers and zero. -/
def minExponent : Int := -1074

def maxExponent : Int := 971

/-- The least mantissa of 53 bits. Below it a number has the least exponent. -/
def leastNormal : Nat := 0x10000000000000

def zero : Binary64 := ⟨0, minExponent⟩

/-- The quotient rounded to the nearest whole number, a tie to the even one. -/
def roundDiv (num den : Nat) : Nat :=
  let q := num / den
  let r := num % den
  if den < 2 * r ∨ (2 * r = den ∧ q % 2 = 1) then q + 1 else q

/-- `num / den / 2 ^ e` as a numerator and a denominator. -/
def scale (num den : Nat) (e : Int) : Nat × Nat :=
  if 0 ≤ e then (num, den <<< e.toNat) else (num <<< (-e).toNat, den)

/-- The exponent with which `num / den` has a mantissa of 53 bits, or the least exponent. -/
def exponentOf (num den : Nat) : Int :=
  let e := (Nat.log2 num : Int) - Nat.log2 den - 52
  let (n, d) := scale num den e
  max (if n < d * leastNormal then e - 1 else e) minExponent

/-- The number nearest to `num / den`. -/
def ofRatio? (num den : Nat) : Option Binary64 :=
  if num = 0 then some zero
  else
    let e := exponentOf num den
    let (n, d) := scale num den e
    let m := roundDiv n d
    let (m, e) := if m = 2 * leastNormal then (leastNormal, e + 1) else (m, e)
    if maxExponent < e then none else some ⟨m, e⟩

/-- The value as a numerator and a denominator. -/
def ratio (x : Binary64) : Nat × Nat := scale x.mantissa 1 (-x.exponent)

def mul? (x y : Binary64) : Option Binary64 :=
  ofRatio? (x.ratio.1 * y.ratio.1) (x.ratio.2 * y.ratio.2)

def div? (x y : Binary64) : Option Binary64 :=
  ofRatio? (x.ratio.1 * y.ratio.2) (x.ratio.2 * y.ratio.1)

/-- Twice the mantissa's distance to the neighbours, in quarters of the last place: below and
above. Under a power of two the numbers lie twice as close. -/
def gaps (x : Binary64) : Nat × Nat :=
  if x.mantissa = leastNormal ∧ minExponent < x.exponent then (1, 2) else (2, 2)

/-- The place of the first digit of `num / den`, units having place zero. -/
def leadingPlace (num den : Nat) : Int :=
  if den ≤ num then (Nat.toDigits 10 (num / den)).length - 1
  else -((Nat.toDigits 10 ((den + num - 1) / num - 1)).length : Int)

/-- The multiple of `10 ^ place` nearest to `x` among those that round to `x`, of two equally near
the even one. -/
def onGrid? (x : Binary64) (place : Int) : Option Nat :=
  let (below, above) := x.gaps
  let (unit, den) := scale 1 1 (2 - x.exponent)
  let up := if place < 0 then Nat.pow 10 (-place).toNat else 1
  let grid := den * if 0 ≤ place then Nat.pow 10 place.toNat else 1
  let value := 4 * x.mantissa * unit * up
  let low := (4 * x.mantissa - below) * unit * up
  let high := (4 * x.mantissa + above) * unit * up
  let fits (n : Nat) : Bool :=
    0 < n && if x.mantissa % 2 = 0 then low ≤ n * grid && n * grid ≤ high
      else low < n * grid && n * grid < high
  let n := value / grid
  match fits n, fits (n + 1) with
  | true, true => some (roundDiv value grid)
  | true, false => some n
  | false, true => some (n + 1)
  | false, false => none

/-- The fewest digits that read back as `x`, the nearest of those to it, and the place of the last
digit. Seventeen digits always do. -/
def shortest (x : Binary64) : Nat × Int :=
  let first := leadingPlace x.ratio.1 x.ratio.2
  let found := (List.range 18).findSome? fun (i : Nat) =>
    (x.onGrid? (first - i)).map fun n => (n, first - (i : Int))
  found.getD (x.mantissa, 0)

end Binary64
end VipSteering
