import VipSteering.Json.Generic

namespace VipSteering.Json

/-- The fields of a record that are present. -/
abbrev Fields := List (String × Json)

/-- The members whose key is a declared field; none where a key spells no text or a field
repeats. -/
def namedFields? (names : List String) : List (Option String × Json) → Option Fields
  | [] => some []
  | (none, _) :: _ => none
  | (some key, value) :: rest =>
    match namedFields? names rest with
    | none => none
    | some fields =>
      if key ∈ names then
        if (fields.lookup key).isSome then none else some ((key, value) :: fields)
      else some fields

def fields? (names : List String) : Json → Option Fields
  | .object members => namedFields? names members
  | .array items => if items.length ≤ names.length then some (names.zip items) else none
  | _ => none

namespace Fields

def required (fields : Fields) (name : String) (read : Json → Option α) : Option α :=
  (fields.lookup name).bind read

def withDefault (fields : Fields) (name : String) (default : α) (read : Json → Option α) :
    Option α :=
  match fields.lookup name with
  | none => some default
  | some value => read value

end Fields

/-- The whole number below `bound` that a spelling stands for, if it is written as one. -/
def natOfSpelling? (bound : Nat) (spelling : List Char) : Option Nat :=
  match number? spelling with
  | some (.whole (.ofNat n)) => if n < bound then some n else none
  | _ => none

def nat? (bound : Nat) : Json → Option Nat
  | .number spelling => natOfSpelling? bound spelling
  | _ => none

def uint16? (j : Json) : Option UInt16 := (j.nat? UInt16.size).map UInt16.ofNat

def uint32? (j : Json) : Option UInt32 := (j.nat? UInt32.size).map UInt32.ofNat

def uint64? (j : Json) : Option UInt64 := (j.nat? UInt64.size).map UInt64.ofNat

def int32? : Json → Option Int32
  | .number spelling =>
    match number? spelling with
    | some (.whole n) =>
      if Int32.minValue.toInt ≤ n ∧ n ≤ Int32.maxValue.toInt then some (Int32.ofInt n) else none
    | _ => none
  | _ => none

def bool? : Json → Option Bool
  | .bool b => some b
  | _ => none

def list? (read : Json → Option α) : Json → Option (List α)
  | .array items => items.mapM read
  | _ => none

/-- Null, or what `read` accepts. -/
def option? (read : Json → Option α) : Json → Option (Option α)
  | .null => some none
  | j => (read j).map some

def strings? : Json → Option (List String) := list? text?

end VipSteering.Json
