import VipSteering.Binary64
import VipSteering.Json.Token

namespace VipSteering.Json

/-- A number without point and exponent stays whole as long as 64 bits hold it. -/
inductive Number where
  | whole (n : Int)
  | fraction (negative : Bool) (magnitude : Binary64)
  deriving DecidableEq, Repr

namespace Number

/-- Extends `soFar` by leading digits as long as 64 bits hold the result; also the digits left. -/
def takeDigits (soFar : Nat) : List Char → Nat × List Char
  | [] => (soFar, [])
  | c :: rest =>
    let n := 10 * soFar + (c.toNat - '0'.toNat)
    if n < UInt64.size then takeDigits n rest else (soFar, c :: rest)

def powerOfTen? (n : Nat) : Option Binary64 := Binary64.ofRatio? (Nat.pow 10 n) 1

/-- `x / 10 ^ n`, dividing by `10 ^ 308` as often as the power is too large. Of a number below
`2 ^ 64` two such steps leave nothing. -/
def divTen? (x : Binary64) (n : Nat) : Option Binary64 := do
  if n ≤ 308 then x.div? (← powerOfTen? n)
  else if n ≤ 616 then (← x.div? (← powerOfTen? 308)).div? (← powerOfTen? (n - 308))
  else return Binary64.zero

/-- `digits · 10 ^ power`, unless it is too large. -/
def scaled? (digits : Nat) (power : Int) : Option Binary64 := do
  let x ← Binary64.ofRatio? digits 1
  if power < 0 then divTen? x (-power).toNat
  else if power ≤ 308 then x.mul? (← powerOfTen? power.toNat)
  else if digits = 0 then return x
  else none

def exponentLimit : Nat := 0x80000000

/-- `digits · 10 ^ power` with an exponent from the text on top. -/
def withExponent? (digits : Nat) (power : Int) : Option (Bool × List Char) → Option Binary64
  | none => scaled? digits power
  | some (negative, exponent) =>
    let e := exponent.foldl (fun n c => 10 * n + (c.toNat - '0'.toNat)) 0
    if exponentLimit ≤ e then
      if digits ≠ 0 ∧ !negative then none else some Binary64.zero
    else scaled? digits (if negative then power - e else power + e)

def ofParts? (p : NumberParts) : Option Number :=
  let (digits, dropped) := takeDigits 0 p.whole
  match p.decimals, p.exponent, dropped with
  | none, none, [] =>
    if !p.negative then some (.whole digits)
    else if 1 ≤ digits ∧ digits ≤ 0x8000000000000000 then some (.whole (-(digits : Int)))
    else (Binary64.ofRatio? digits 1).map (.fraction true)
  | none, exponent, _ => (withExponent? digits dropped.length exponent).map (.fraction p.negative)
  | some decimals, exponent, _ =>
    let (digits, unread) := takeDigits digits decimals
    let power := (dropped.length : Int) - (decimals.length - unread.length)
    (withExponent? digits power exponent).map (.fraction p.negative)

/-- Significant digits without trailing zeros, with the place of the last. -/
def trimZeros (digits : List Char) (place : Int) : List Char × Int :=
  let kept := (digits.reverse.dropWhile (· = '0')).reverse
  (kept, place + (digits.length - kept.length))

/-- The least and the greatest place of the first digit with which a fraction is written without
exponent. -/
def plainPlaces : Int × Int := (-5, 15)

/-- A fraction always shows a point or an exponent. -/
def fractionChars (x : Binary64) : List Char :=
  if x.mantissa = 0 then "0.0".toList
  else
    let (n, place) := x.shortest
    let (digits, place) := trimZeros (Nat.toDigits 10 n) place
    let first := place + digits.length - 1
    if plainPlaces.1 ≤ first ∧ first ≤ plainPlaces.2 then
      if 0 ≤ place then digits ++ List.replicate place.toNat '0' ++ ".0".toList
      else if 0 ≤ first then
        digits.take (first.toNat + 1) ++ '.' :: digits.drop (first.toNat + 1)
      else "0.".toList ++ List.replicate (-first - 1).toNat '0' ++ digits
    else
      let lead := match digits with
        | [] => []
        | [d] => [d]
        | d :: more => d :: '.' :: more
      lead ++ 'e' :: (if first < 0 then '-' else '+') :: Nat.toDigits 10 first.natAbs

def chars : Number → List Char
  | .whole (.ofNat n) => Nat.toDigits 10 n
  | .whole (.negSucc n) => '-' :: Nat.toDigits 10 (n + 1)
  | .fraction negative x => if negative then '-' :: fractionChars x else fractionChars x

end Number

/-- The number that a spelling stands for, unless it is too large. -/
def number? (spelling : List Char) : Option Number :=
  (numberParts? spelling).bind Number.ofParts?

end VipSteering.Json
