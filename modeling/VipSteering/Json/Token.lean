import VipSteering.Json.Basic
import VipSteering.Text.Decimal

namespace VipSteering.Json

inductive Mark where
  | openArray
  | closeArray
  | openObject
  | closeObject
  | comma
  | colon
  deriving DecidableEq, Repr

def Mark.char : Mark → Char
  | .openArray => '['
  | .closeArray => ']'
  | .openObject => '\x7b'
  | .closeObject => '\x7d'
  | .comma => ','
  | .colon => ':'

def Mark.ofChar? (c : Char) : Option Mark :=
  if c = '[' then some .openArray
  else if c = ']' then some .closeArray
  else if c = '\x7b' then some .openObject
  else if c = '\x7d' then some .closeObject
  else if c = ',' then some .comma
  else if c = ':' then some .colon
  else none

/-- The blanks that may stand between tokens. -/
def isSpace (c : Char) : Bool :=
  c = ' ' || c = '\n' || c = '\t' || c = '\r'

/-- A stretch of text: a punctuation mark, what stands between two quotes, or a word. -/
inductive Lexeme where
  | mark (m : Mark)
  | text (body : List Char)
  | word (chars : List Char)
  deriving DecidableEq, Repr

/-- Where the reader is; gathered characters come last first. -/
inductive Mode where
  | between
  | text (body : List Char)
  | escape (body : List Char)
  | word (chars : List Char)

/-- A character that does not belong to what stands before it. -/
def Mode.enter (c : Char) : Mode × List Lexeme :=
  if isSpace c then (.between, [])
  else if c = '"' then (.text [], [])
  else match Mark.ofChar? c with
    | some m => (.between, [.mark m])
    | none => (.word [c], [])

/-- The next mode, and the lexemes that end here, the latest first. -/
def Mode.step : Mode → Char → Mode × List Lexeme
  | .between, c => enter c
  | .text body, c =>
    if c = '"' then (.between, [.text body.reverse])
    else if c = '\\' then (.escape body, [])
    else (.text (c :: body), [])
  | .escape body, c => (.text (c :: '\\' :: body), [])
  | .word chars, c =>
    if isSpace c || c = '"' || (Mark.ofChar? c).isSome then
      let (mode, ended) := enter c
      (mode, ended ++ [.word chars.reverse])
    else (.word (c :: chars), [])

structure Scan where
  mode : Mode
  /-- The lexemes so far, the latest first. -/
  ended : List Lexeme

def Scan.step (s : Scan) (c : Char) : Scan :=
  let (mode, ended) := s.mode.step c
  ⟨mode, ended ++ s.ended⟩

def Scan.finish (s : Scan) : Option (List Lexeme) :=
  match s.mode with
  | .between => some s.ended.reverse
  | .word chars => some ((.word chars.reverse :: s.ended).reverse)
  | .text _ | .escape _ => none

def lexemes (s : List Char) : Option (List Lexeme) :=
  (s.foldl Scan.step ⟨.between, []⟩).finish

def isDigit (c : Char) : Bool := (Text.digit? c).isSome

/-- One digit or more. -/
def isDigits (s : List Char) : Bool := !s.isEmpty && s.all isDigit

/-- The parts of a number's spelling. -/
structure NumberParts where
  negative : Bool
  whole : List Char
  decimals : Option (List Char)
  /-- The sign of the exponent, minus being `true`, and its digits. -/
  exponent : Option (Bool × List Char)
  deriving DecidableEq, Repr

def takeSign (s : List Char) : Bool × List Char :=
  match s with
  | '-' :: rest => (true, rest)
  | rest => (false, rest)

def takeExponent (s : List Char) : Option (Option (Bool × List Char)) :=
  match s with
  | [] => some none
  | e :: rest =>
    if e = 'e' ∨ e = 'E' then
      let (negative, digits) := match rest with
        | '-' :: digits => (true, digits)
        | '+' :: digits => (false, digits)
        | digits => (false, digits)
      if isDigits digits then some (some (negative, digits)) else none
    else none

/-- Splits a spelling by the grammar of numbers: no leading zero, a digit on both sides of the
point and in the exponent. -/
def numberParts? (s : List Char) : Option NumberParts :=
  let (negative, unsigned) := takeSign s
  let whole := unsigned.takeWhile isDigit
  let rest := unsigned.dropWhile isDigit
  if whole.isEmpty || (whole.head? = some '0' && whole.length ≠ 1) then none
  else match rest with
    | '.' :: rest =>
      let decimals := rest.takeWhile isDigit
      if decimals.isEmpty then none
      else (takeExponent (rest.dropWhile isDigit)).map fun exponent =>
        ⟨negative, whole, some decimals, exponent⟩
    | rest => (takeExponent rest).map fun exponent => ⟨negative, whole, none, exponent⟩

def ofWord? (w : List Char) : Option Json :=
  if w = "null".toList then some .null
  else if w = "true".toList then some (.bool true)
  else if w = "false".toList then some (.bool false)
  else (numberParts? w).map fun _ => .number w

/-- What a string's body spells piece by piece: a character, or a code unit given by its number. -/
inductive Piece where
  | char (c : Char)
  | unit (n : Nat)
  deriving DecidableEq, Repr

def hexUnit? (a b c d : Char) : Option Nat :=
  match Text.hexDigit? a, Text.hexDigit? b, Text.hexDigit? c, Text.hexDigit? d with
  | some a, some b, some c, some d => some (((a * 16 + b) * 16 + c) * 16 + d)
  | _, _, _, _ => none

/-- The character after a backslash, where it stands for one. -/
def escapedChar? (c : Char) : Option Char :=
  if c = '"' ∨ c = '\\' ∨ c = '/' then some c
  else if c = 'b' then some '\x08'
  else if c = 't' then some '\t'
  else if c = 'n' then some '\n'
  else if c = 'f' then some '\x0c'
  else if c = 'r' then some '\r'
  else none

/-- The pieces of a body; raw control characters and unknown escapes are refused. -/
def pieces? : List Char → Option (List Piece)
  | [] => some []
  | '\\' :: 'u' :: a :: b :: c :: d :: rest =>
    match hexUnit? a b c d with
    | some n => (pieces? rest).map (.unit n :: ·)
    | none => none
  | '\\' :: e :: rest =>
    match escapedChar? e with
    | some c => (pieces? rest).map (.char c :: ·)
    | none => none
  | ['\\'] => none
  | c :: rest => if c.toNat < 0x20 then none else (pieces? rest).map (.char c :: ·)

def isHighHalf (n : Nat) : Bool := 0xD800 ≤ n && n < 0xDC00

def isLowHalf (n : Nat) : Bool := 0xDC00 ≤ n && n < 0xE000

/-- Joins surrogate pairs; half of a pair spells nothing. -/
def assemble? : List Piece → Option (List Char)
  | [] => some []
  | .char c :: rest => (assemble? rest).map (c :: ·)
  | .unit n :: rest =>
    if isHighHalf n then
      match rest with
      | .unit m :: rest =>
        if isLowHalf m then
          (assemble? rest).map (Char.ofNat (0x10000 + (n - 0xD800) * 0x400 + (m - 0xDC00)) :: ·)
        else none
      | _ => none
    else if isLowHalf n then none
    else (assemble? rest).map (Char.ofNat n :: ·)

def ofText? (body : List Char) : Option Json :=
  (pieces? body).map fun pieces => .string ((assemble? pieces).map String.ofList)

inductive Token where
  | mark (m : Mark)
  | leaf (value : Json)
  deriving Repr

def Token.ofLexeme? : Lexeme → Option Token
  | .mark m => some (.mark m)
  | .text body => (ofText? body).map .leaf
  | .word chars => (ofWord? chars).map .leaf

def tokens? (s : List Char) : Option (List Token) :=
  (lexemes s).bind (List.mapM Token.ofLexeme?)

end VipSteering.Json
