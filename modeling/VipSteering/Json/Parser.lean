import VipSteering.Json.Token

namespace VipSteering.Json

/-- An open array or object, with what it holds so far, the latest first. -/
inductive Frame where
  | array (done : List Json)
  | object (done : List (Option String × Json)) (key : Option String)

/-- What the next token has to be. -/
inductive Expectation where
  | value
  /-- Right after the bracket that opens an array. -/
  | firstItem
  /-- A key; right after the brace that opens an object, its end too. -/
  | key (done : List (Option String × Json)) (first : Bool)
  | colon (done : List (Option String × Json)) (key : Option String)
  /-- A value has ended. -/
  | after (value : Json)

structure Reader where
  frames : List Frame
  expects : Expectation

namespace Reader

def start : Reader := ⟨[], .value⟩

def readValue (frames : List Frame) : Token → Option Reader
  | .leaf value => some ⟨frames, .after value⟩
  | .mark .openArray => some ⟨frames, .firstItem⟩
  | .mark .openObject => some ⟨frames, .key [] true⟩
  | _ => none

/-- What follows a value inside the innermost open frame. -/
def readAfter (value : Json) : List Frame → Token → Option Reader
  | .array done :: frames, .mark .comma => some ⟨.array (value :: done) :: frames, .value⟩
  | .array done :: frames, .mark .closeArray =>
    some ⟨frames, .after (.array (value :: done).reverse)⟩
  | .object done key :: frames, .mark .comma =>
    some ⟨frames, .key ((key, value) :: done) false⟩
  | .object done key :: frames, .mark .closeObject =>
    some ⟨frames, .after (.object ((key, value) :: done).reverse)⟩
  | _, _ => none

def step (r : Reader) (token : Token) : Option Reader :=
  match r.expects with
  | .value => readValue r.frames token
  | .firstItem =>
    match token with
    | .mark .closeArray => some ⟨r.frames, .after (.array [])⟩
    | token => readValue (.array [] :: r.frames) token
  | .key done first =>
    match token with
    | .leaf (.string key) => some ⟨r.frames, .colon done key⟩
    | .mark .closeObject => if first then some ⟨r.frames, .after (.object [])⟩ else none
    | _ => none
  | .colon done key =>
    match token with
    | .mark .colon => some ⟨.object done key :: r.frames, .value⟩
    | _ => none
  | .after value => readAfter value r.frames token

def finish (r : Reader) : Option Json :=
  match r.frames, r.expects with
  | [], .after value => some value
  | _, _ => none

end Reader

def ofTokens? (tokens : List Token) : Option Json :=
  (tokens.foldlM Reader.step Reader.start).bind Reader.finish

/-- The document that a text spells, the whole text being one. -/
def parse? (s : String) : Option Json :=
  (tokens? s.toList).bind ofTokens?

end VipSteering.Json
