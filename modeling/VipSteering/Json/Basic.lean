namespace VipSteering

/-- A document as its text has it: numbers as spelled, members in their order and as often as they
occur. A string literal is `none` if its escapes leave half of a surrogate pair. -/
inductive Json where
  | null
  | bool (b : Bool)
  | number (spelling : List Char)
  | string (text : Option String)
  | array (items : List Json)
  | object (members : List (Option String × Json))
  deriving Inhabited, Repr

namespace Json

def ofString (s : String) : Json := .string (some s)

def ofNat (n : Nat) : Json := .number (Nat.toDigits 10 n)

def ofInt : Int → Json
  | .ofNat n => ofNat n
  | .negSucc n => .number ('-' :: Nat.toDigits 10 (n + 1))

def ofStrings (texts : List String) : Json := .array (texts.map ofString)

/-- Stands in a message for what is wrong with a text that spells no document of the wanted
shape. -/
def malformedText : String := "<json>"

/-- An object with the given members, in the given order. -/
def record (members : List (String × Json)) : Json :=
  .object (members.map fun (key, value) => (some key, value))

/-- The quote, the backslash and the control characters are escaped, the latter by a letter where
one is reserved for them. -/
def escapeChar (c : Char) : List Char :=
  if c = '"' then ['\\', '"']
  else if c = '\\' then ['\\', '\\']
  else if c = '\x08' then ['\\', 'b']
  else if c = '\t' then ['\\', 't']
  else if c = '\n' then ['\\', 'n']
  else if c = '\x0c' then ['\\', 'f']
  else if c = '\r' then ['\\', 'r']
  else if c.toNat < 0x20 then
    ['\\', 'u', '0', '0', Nat.digitChar (c.toNat / 16), Nat.digitChar (c.toNat % 16)]
  else [c]

/-- A literal that spells no text is written as half of a pair. -/
def literalChars : Option String → List Char
  | some s => '"' :: s.toList.flatMap escapeChar ++ ['"']
  | none => "\"\\ud800\"".toList

mutual

def chars : Json → List Char
  | .null => "null".toList
  | .bool true => "true".toList
  | .bool false => "false".toList
  | .number spelling => spelling
  | .string text => literalChars text
  | .array items => '[' :: itemsChars items ++ [']']
  | .object members => '\x7b' :: membersChars members ++ ['\x7d']

def itemsChars : List Json → List Char
  | [] => []
  | [item] => chars item
  | item :: rest => chars item ++ ',' :: itemsChars rest

def membersChars : List (Option String × Json) → List Char
  | [] => []
  | [(key, value)] => literalChars key ++ ':' :: chars value
  | (key, value) :: rest => literalChars key ++ ':' :: chars value ++ ',' :: membersChars rest

end

def print (j : Json) : String := String.ofList j.chars

end Json
end VipSteering
