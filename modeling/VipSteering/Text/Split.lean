namespace VipSteering.Text

/-- The text before and after the first `sep`. -/
def cutChars (sep : Char) : List Char → Option (List Char × List Char)
  | [] => none
  | c :: rest =>
    if c = sep then some ([], rest)
    else (cutChars sep rest).map fun (before, after) => (c :: before, after)

def cut (sep : Char) (s : String) : Option (String × String) :=
  (cutChars sep s.toList).map fun (before, after) => (String.ofList before, String.ofList after)

/-- The pieces between separators: one more than there are separators. -/
def fieldChars (isSep : Char → Bool) : List Char → List (List Char)
  | [] => [[]]
  | c :: rest =>
    if isSep c then [] :: fieldChars isSep rest
    else match fieldChars isSep rest with
      | [] => [[c]]
      | f :: fs => (c :: f) :: fs

def fields (sep : Char) (s : String) : List String :=
  (fieldChars (· = sep) s.toList).map String.ofList

/-- What is left after `n` separators, empty when there are fewer. -/
def afterChars (sep : Char) : Nat → List Char → List Char
  | 0, s => s
  | _ + 1, [] => []
  | n + 1, c :: rest => if c = sep then afterChars sep n rest else afterChars sep (n + 1) rest

def occursInChars (pattern : List Char) : List Char → Bool
  | [] => pattern.isEmpty
  | c :: rest => pattern.isPrefixOf (c :: rest) || occursInChars pattern rest

/-- Does `pattern` stand somewhere in `s`? The empty pattern does. -/
def occursIn (pattern s : String) : Bool :=
  occursInChars pattern.toList s.toList

/-- The text after `start`, when `s` begins with it. -/
def dropStartChars : List Char → List Char → Option (List Char)
  | [], s => some s
  | _ :: _, [] => none
  | c :: start, d :: s => if c = d then dropStartChars start s else none

def dropStart (start s : String) : Option String :=
  (dropStartChars start.toList s.toList).map String.ofList

def endsWith (ending s : String) : Bool :=
  ending.toList.reverse.isPrefixOf s.toList.reverse

/-- The characters with the Unicode property White_Space. -/
def isBlank (c : Char) : Bool :=
  let n := c.toNat
  (0x9 ≤ n && n ≤ 0xD) || n == 0x20 || n == 0x85 || n == 0xA0 || n == 0x1680 ||
    (0x2000 ≤ n && n ≤ 0x200A) || n == 0x2028 || n == 0x2029 || n == 0x202F || n == 0x205F ||
    n == 0x3000

def trimChars (s : List Char) : List Char :=
  ((s.dropWhile isBlank).reverse.dropWhile isBlank).reverse

def trim (s : String) : String :=
  String.ofList (trimChars s.toList)

/-- The maximal runs of characters that are not blank. -/
def words (s : String) : List String :=
  ((fieldChars isBlank s.toList).filter (· ≠ [])).map String.ofList

theorem fieldChars_ne_nil (isSep : Char → Bool) (s : List Char) : fieldChars isSep s ≠ [] := by
  cases s with
  | nil => simp [fieldChars]
  | cons c rest =>
    unfold fieldChars
    split
    · simp
    · split <;> simp

theorem fieldChars_of_no_sep {isSep : Char → Bool} {s : List Char}
    (h : ∀ c ∈ s, isSep c = false) : fieldChars isSep s = [s] := by
  induction s with
  | nil => rfl
  | cons c rest ih =>
    simp only [List.mem_cons, forall_eq_or_imp] at h
    simp [fieldChars, h.1, ih h.2]

theorem fieldChars_append {isSep : Char → Bool} {s : List Char} {c : Char} (rest : List Char)
    (h : ∀ d ∈ s, isSep d = false) (hc : isSep c = true) :
    fieldChars isSep (s ++ c :: rest) = s :: fieldChars isSep rest := by
  induction s with
  | nil => simp [fieldChars, hc]
  | cons d s ih =>
    simp only [List.mem_cons, forall_eq_or_imp] at h
    simp [fieldChars, h.1, ih h.2]

theorem cutChars_append {sep : Char} {before : List Char} (after : List Char)
    (h : sep ∉ before) : cutChars sep (before ++ sep :: after) = some (before, after) := by
  induction before with
  | nil => simp [cutChars]
  | cons c before ih =>
    simp only [List.mem_cons, not_or] at h
    simp [cutChars, Ne.symm h.1, ih h.2]

end VipSteering.Text
