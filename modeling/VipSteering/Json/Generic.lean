import VipSteering.Json.Number
import VipSteering.Json.Parser
import Std.Data.ExtTreeMap

namespace VipSteering.Json

/-- How many arrays and objects may be open at once in a generic document. -/
def maxNesting : Nat := 127

/-- Sorts members by key, the last one with a key winning. -/
def sortMembers (members : List (String × Json)) : List (String × Json) :=
  (members.foldl (fun m (key, value) => m.insert key value)
    (∅ : Std.ExtTreeMap String Json)).toList

mutual

def normalize? (depth : Nat) : Json → Option Json
  | .null => some .null
  | .bool b => some (.bool b)
  | .number spelling => (number? spelling).map fun n => .number n.chars
  | .string text => text.map ofString
  | .array items =>
    match depth with
    | 0 => none
    | depth + 1 => (normalizeItems? depth items).map .array
  | .object members =>
    match depth with
    | 0 => none
    | depth + 1 => (normalizeMembers? depth members).map fun members => record (sortMembers members)

def normalizeItems? (depth : Nat) : List Json → Option (List Json)
  | [] => some []
  | item :: rest =>
    match normalize? depth item with
    | none => none
    | some item => (normalizeItems? depth rest).map (item :: ·)

def normalizeMembers? (depth : Nat) :
    List (Option String × Json) → Option (List (String × Json))
  | [] => some []
  | (key, value) :: rest =>
    match key, normalize? depth value with
    | some key, some value => (normalizeMembers? depth rest).map ((key, value) :: ·)
    | _, _ => none

end

/-- Reads a text as a generic document. -/
def parseGeneric? (s : String) : Option Json :=
  (parse? s).bind (normalize? maxNesting)

/-- The value of a member of an object. -/
def member? (key : String) : Json → Option Json
  | .object members => members.lookup (some key)
  | _ => none

def items? : Json → Option (List Json)
  | .array items => some items
  | _ => none

def text? : Json → Option String
  | .string text => text
  | _ => none

end VipSteering.Json
