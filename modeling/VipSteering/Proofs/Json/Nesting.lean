import VipSteering.Proofs.Json.Normal

namespace VipSteering.Json

mutual

/-- How many arrays and objects are open at once where the document is deepest. -/
def nesting : Json → Nat
  | .array items => nestingItems items + 1
  | .object members => nestingMembers members + 1
  | _ => 0

def nestingItems : List Json → Nat
  | [] => 0
  | item :: rest => max (nesting item) (nestingItems rest)

def nestingMembers : List (Option String × Json) → Nat
  | [] => 0
  | (_, value) :: rest => max (nesting value) (nestingMembers rest)

end

theorem normalizeMembers?_none (depth : Nat) (value : Json) (rest : List (Option String × Json)) :
    normalizeMembers? depth ((none, value) :: rest) = none := by
  simp only [normalizeMembers?]

theorem normalizeMembers?_some (depth : Nat) (key : String) (value : Json)
    (rest : List (Option String × Json)) :
    normalizeMembers? depth ((some key, value) :: rest) =
      (normalize? depth value).bind fun value =>
        (normalizeMembers? depth rest).map ((key, value) :: ·) := by
  cases hvalue : normalize? depth value <;> simp only [normalizeMembers?, hvalue] <;> rfl

mutual

/-- What is too deep has no normal form. -/
theorem normalize?_deep : ∀ (j : Json) {depth : Nat}, depth < j.nesting → normalize? depth j = none
  | .array _, 0, _ => rfl
  | .array items, depth + 1, h => by
    rw [nesting] at h
    rw [normalize?, normalizeItems?_deep items (Nat.lt_of_succ_lt_succ h)]
    rfl
  | .object _, 0, _ => rfl
  | .object members, depth + 1, h => by
    rw [nesting] at h
    rw [normalize?, normalizeMembers?_deep members (Nat.lt_of_succ_lt_succ h)]
    rfl
  | .null, _, h => absurd h (Nat.not_lt_zero _)
  | .bool _, _, h => absurd h (Nat.not_lt_zero _)
  | .number _, _, h => absurd h (Nat.not_lt_zero _)
  | .string _, _, h => absurd h (Nat.not_lt_zero _)

theorem normalizeItems?_deep : ∀ (items : List Json) {depth : Nat}, depth < nestingItems items →
    normalizeItems? depth items = none
  | [], _, h => absurd h (Nat.not_lt_zero _)
  | item :: rest, depth, h => by
    rw [nestingItems] at h
    rcases (by omega : depth < item.nesting ∨ depth < nestingItems rest) with hitem | hrest
    · rw [normalizeItems?, normalize?_deep item hitem]
    · rw [normalizeItems?, normalizeItems?_deep rest hrest]
      cases normalize? depth item <;> rfl

theorem normalizeMembers?_deep : ∀ (members : List (Option String × Json)) {depth : Nat},
    depth < nestingMembers members → normalizeMembers? depth members = none
  | [], _, h => absurd h (Nat.not_lt_zero _)
  | (none, value) :: rest, _, _ => normalizeMembers?_none _ value rest
  | (some key, value) :: rest, depth, h => by
    rw [nestingMembers] at h
    rcases (by omega : depth < value.nesting ∨ depth < nestingMembers rest) with hvalue | hrest
    · rw [normalizeMembers?_some, normalize?_deep value hvalue, Option.bind_none]
    · rw [normalizeMembers?_some, normalizeMembers?_deep rest hrest]
      cases normalize? depth value <;> rfl

end

mutual

/-- What is not too deep has one normal form. -/
theorem normalize?_shallow : ∀ (j : Json) {depth deeper : Nat}, j.nesting ≤ depth →
    j.nesting ≤ deeper → normalize? depth j = normalize? deeper j
  | .array _, 0, _, h, _ => absurd h (Nat.not_succ_le_zero _)
  | .array _, _ + 1, 0, _, h => absurd h (Nat.not_succ_le_zero _)
  | .array items, depth + 1, deeper + 1, h, h' => by
    rw [nesting] at h h'
    rw [normalize?, normalize?, normalizeItems?_shallow items (Nat.le_of_succ_le_succ h)
      (Nat.le_of_succ_le_succ h')]
  | .object _, 0, _, h, _ => absurd h (Nat.not_succ_le_zero _)
  | .object _, _ + 1, 0, _, h => absurd h (Nat.not_succ_le_zero _)
  | .object members, depth + 1, deeper + 1, h, h' => by
    rw [nesting] at h h'
    rw [normalize?, normalize?, normalizeMembers?_shallow members (Nat.le_of_succ_le_succ h)
      (Nat.le_of_succ_le_succ h')]
  | .null, _, _, _, _ => by rw [normalize?, normalize?]
  | .bool _, _, _, _, _ => by rw [normalize?, normalize?]
  | .number _, _, _, _, _ => by rw [normalize?, normalize?]
  | .string _, _, _, _, _ => by rw [normalize?, normalize?]

theorem normalizeItems?_shallow : ∀ (items : List Json) {depth deeper : Nat},
    nestingItems items ≤ depth → nestingItems items ≤ deeper →
    normalizeItems? depth items = normalizeItems? deeper items
  | [], _, _, _, _ => by rw [normalizeItems?, normalizeItems?]
  | item :: rest, depth, deeper, h, h' => by
    rw [nestingItems, Nat.max_le] at h h'
    rw [normalizeItems?, normalizeItems?, normalize?_shallow item h.1 h'.1,
      normalizeItems?_shallow rest h.2 h'.2]

theorem normalizeMembers?_shallow : ∀ (members : List (Option String × Json)) {depth deeper : Nat},
    nestingMembers members ≤ depth → nestingMembers members ≤ deeper →
    normalizeMembers? depth members = normalizeMembers? deeper members
  | [], _, _, _, _ => by rw [normalizeMembers?, normalizeMembers?]
  | (none, value) :: rest, _, _, _, _ => by rw [normalizeMembers?_none, normalizeMembers?_none]
  | (some key, value) :: rest, depth, deeper, h, h' => by
    rw [nestingMembers, Nat.max_le] at h h'
    rw [normalizeMembers?_some, normalizeMembers?_some, normalize?_shallow value h.1 h'.1,
      normalizeMembers?_shallow rest h.2 h'.2]

end

/-- The normal form, however deep the document is. -/
def normal? (j : Json) : Option Json := normalize? j.nesting j

theorem normalize?_eq (depth : Nat) (j : Json) :
    normalize? depth j = if j.nesting ≤ depth then j.normal? else none := by
  split
  · rename_i hle
    exact normalize?_shallow j hle le_rfl
  · rename_i hlt
    exact normalize?_deep j (Nat.lt_of_not_le hlt)

/-- What has a normal form at some depth has that one. -/
theorem normal?_of_normalize? {depth : Nat} {j j' : Json} (h : normalize? depth j = some j') :
    j.normal? = some j' ∧ j.nesting ≤ depth := by
  rw [normalize?_eq] at h
  split at h
  · rename_i hle
    exact ⟨h, hle⟩
  · cases h

/-- A text is read as the normal form of the document that it spells, unless that is too deep. -/
theorem parseGeneric?_eq {s : String} {j : Json} (h : parse? s = some j) :
    parseGeneric? s = if j.nesting ≤ maxNesting then j.normal? else none := by
  rw [parseGeneric?, h, Option.bind_some, normalize?_eq]

end VipSteering.Json
