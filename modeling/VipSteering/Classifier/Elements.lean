import VipSteering.Json.Basic
import VipSteering.Json.Record
import VipSteering.Net.Interval
import VipSteering.Text.Printable

namespace VipSteering.Classifier

inductive ElementFault where
  /-- The listing is no document. -/
  | malformed
  | noObjects
  | noSet
  | prefixWithoutAddress (value : Json)
  | prefixWithoutLength (value : Json)
  | malformedRange (element : Json)
  | unsupported (element : Json)
  | invalidAddress (text : String)
  | network (fault : NetFault)
  deriving Repr

def ElementFault.message : ElementFault → String
  | .malformed => Json.malformedText
  | .noObjects => "missing nftables array"
  | .noSet => "no set in output"
  | .prefixWithoutAddress value => "prefix without address: " ++ value.print
  | .prefixWithoutLength value => "prefix without length: " ++ value.print
  | .malformedRange element => "malformed range: " ++ element.print
  | .unsupported element => "unsupported element: " ++ element.print
  | .invalidAddress text => "invalid address: " ++ Text.quoted text
  | .network fault => fault.message

/-- The elements in the form of a statement. -/
def elementList (intervals : List Interval) : String :=
  "\x7b " ++ ", ".intercalate (intervals.map Interval.text) ++ " \x7d"

def readAddress (text : String) : Except ElementFault Address :=
  match Address.parse? text with
  | some address => .ok address
  | none => .error (.invalidAddress text)

def readInclusive (start last : String) : Except ElementFault Interval := do
  let start ← readAddress start
  let last ← readAddress last
  (Interval.inclusive start last).mapError .network

def readPrefix (value : Json) : Except ElementFault Interval :=
  match (value.member? "addr").bind Json.text? with
  | none => .error (.prefixWithoutAddress value)
  | some address =>
    match (value.member? "len").bind (Json.nat? UInt64.size) with
    | none => .error (.prefixWithoutLength value)
    | some length =>
      match Cidr.parse (address ++ "/" ++ toString length) with
      | .ok net => .ok (Interval.ofCidr net)
      | .error fault => .error (.network fault)

/-- The ends of a range; what is no text stands for the empty text. -/
def readRange (element : Json) : List Json → Except ElementFault Interval
  | [start, last] => readInclusive (start.text?.getD "") (last.text?.getD "")
  | _ => .error (.malformedRange element)

mutual

def readElement : Json → Except ElementFault Interval
  | .string (some text) => readInclusive text text
  | .object members =>
    match members.lookup (some "prefix") with
    | some value => readPrefix value
    | none =>
      match (members.lookup (some "range")).bind Json.items? with
      | some ends => readRange (.object members) ends
      | none => readWrapped (.object members) members
  | other => .error (.unsupported other)

/-- Looks among the members of `element` for a wrapped element. -/
def readWrapped (element : Json) : List (Option String × Json) → Except ElementFault Interval
  | [] => .error (.unsupported element)
  | (key, value) :: rest =>
    if key = some "elem" then readWrapping element value else readWrapped element rest

def readWrapping (element : Json) : Json → Except ElementFault Interval
  | .object members => readValue element members
  | _ => .error (.unsupported element)

def readValue (element : Json) : List (Option String × Json) → Except ElementFault Interval
  | [] => .error (.unsupported element)
  | (key, value) :: rest =>
    if key = some "val" then readElement value else readValue element rest

end

/-- The elements of the first set that a listing shows. An empty set shows no elements. -/
def readListing (output : String) : Except ElementFault (List Interval) :=
  match Json.parseGeneric? output with
  | none => .error .malformed
  | some document =>
    match (document.member? "nftables").bind Json.items? with
    | none => .error .noObjects
    | some objects =>
      match objects.findSome? (Json.member? "set") with
      | none => .error .noSet
      | some set => (((set.member? "elem").bind Json.items?).getD []).mapM readElement

end VipSteering.Classifier
