import VipSteering.Proofs.Json.Numbers
import VipSteering.Proofs.Json.Strings
import VipSteering.Proofs.Text.Pieces

namespace VipSteering.Json

mutual

def Plain : Json → Prop
  | .null => True
  | .bool _ => True
  | .number spelling => ∃ i : Int, ofInt i = .number spelling
  | .string _ => True
  | .array items => PlainItems items
  | .object members => PlainMembers members

def PlainItems : List Json → Prop
  | [] => True
  | item :: rest => Plain item ∧ PlainItems rest

def PlainMembers : List (Option String × Json) → Prop
  | [] => True
  | (_, value) :: rest => Plain value ∧ PlainMembers rest

end

theorem plainItems_iff {items : List Json} : PlainItems items ↔ ∀ j ∈ items, Plain j := by
  induction items with
  | nil => simp [PlainItems]
  | cons item rest ih => simp [PlainItems, ih]

theorem plainMembers_iff {members : List (Option String × Json)} :
    PlainMembers members ↔ ∀ m ∈ members, Plain m.2 := by
  induction members with
  | nil => simp [PlainMembers]
  | cons member rest ih => simp [PlainMembers, ih]

@[simp] theorem plain_ofString (s : String) : Plain (ofString s) := trivial

@[simp] theorem plain_ofInt (i : Int) : Plain (ofInt i) := by
  cases i with
  | ofNat n => exact ⟨.ofNat n, rfl⟩
  | negSucc n => exact ⟨.negSucc n, rfl⟩

@[simp] theorem plain_ofNat (n : Nat) : Plain (ofNat n) := plain_ofInt (.ofNat n)

@[simp] theorem plain_array {items : List Json} : Plain (.array items) ↔ ∀ j ∈ items, Plain j := by
  rw [Plain, plainItems_iff]

@[simp] theorem plain_ofStrings (texts : List String) : Plain (ofStrings texts) := by
  simp [ofStrings]

theorem record_eq (members : List (String × Json)) :
    record members = .object (members.map fun member => (some member.1, member.2)) := rfl

@[simp] theorem plain_record {members : List (String × Json)} :
    Plain (record members) ↔ ∀ m ∈ members, Plain m.2 := by
  rw [record, Plain, plainMembers_iff, List.forall_mem_map]

mutual

def tokensOf : Json → List Token
  | .array items => .mark .openArray :: (itemTokens items ++ [.mark .closeArray])
  | .object members => .mark .openObject :: (memberTokens members ++ [.mark .closeObject])
  | .null => [.leaf .null]
  | .bool b => [.leaf (.bool b)]
  | .number spelling => [.leaf (.number spelling)]
  | .string text => [.leaf (.string text)]

def itemTokens : List Json → List Token
  | [] => []
  | [item] => tokensOf item
  | item :: rest => tokensOf item ++ .mark .comma :: itemTokens rest

def memberTokens : List (Option String × Json) → List Token
  | [] => []
  | [(key, value)] => .leaf (.string key) :: .mark .colon :: tokensOf value
  | (key, value) :: rest =>
    .leaf (.string key) :: .mark .colon :: (tokensOf value ++ .mark .comma :: memberTokens rest)

end

/-- In front of a punctuation mark the text is made up of these tokens. -/
def Spells (s : List Char) (tokens : List Token) : Prop :=
  ∃ ls : List Lexeme,
    (∀ (m : Mark) (ended : List Lexeme), (s ++ [m.char]).foldl Scan.step ⟨.between, ended⟩ =
      ⟨.between, .mark m :: (ls.reverse ++ ended)⟩) ∧
    ls.mapM Token.ofLexeme? = some tokens

namespace Spells

theorem nil : Spells [] [] :=
  ⟨[], fun m ended => by cases m <;> rfl, rfl⟩

/-- Two texts with a mark between them. -/
theorem mark {s rest : List Char} {ts us : List Token} (h : Spells s ts) (m : Mark)
    (k : Spells rest us) : Spells (s ++ m.char :: rest) (ts ++ .mark m :: us) := by
  obtain ⟨ls, hscan, hread⟩ := h
  obtain ⟨ks, kscan, kread⟩ := k
  refine ⟨ls ++ .mark m :: ks, ?_, ?_⟩
  · intro m' ended
    have hsplit : s ++ m.char :: rest ++ [m'.char] = s ++ [m.char] ++ (rest ++ [m'.char]) := by
      simp
    rw [hsplit, List.foldl_append, hscan, kscan]
    simp
  · rw [List.mapM_append, List.mapM_cons, hread, kread]
    rfl

theorem text (key : Option String) : Spells (literalChars key) [.leaf (.string key)] := by
  cases key with
  | none =>
    have hpieces : pieces? "\\ud800".toList = some [.unit 0xD800] := by decide
    have hhalf : assemble? [.unit 0xD800] = none := by
      rw [assemble?.eq_def]
      rfl
    have hread : ofText? "\\ud800".toList = some (.string none) := by
      rw [ofText?, hpieces, Option.map_some, hhalf]
      rfl
    refine ⟨[.text "\\ud800".toList], ?_, ?_⟩
    · intro m ended
      cases m <;> rfl
    · rw [List.mapM_cons, Token.ofLexeme?, hread]
      rfl
  | some s =>
    refine ⟨[.text (s.toList.flatMap escapeChar)], ?_, ?_⟩
    · intro m ended
      have hopen : Scan.step ⟨.between, ended⟩ '"' = ⟨.text [], ended⟩ := rfl
      have hclose (body : List Char) :
          Scan.step ⟨.text body, ended⟩ '"' = ⟨.between, .text body.reverse :: ended⟩ := rfl
      have hmark (ended : List Lexeme) :
          Scan.step ⟨.between, ended⟩ m.char = ⟨.between, .mark m :: ended⟩ := by
        cases m <;> rfl
      have hchars : literalChars (some s) = '"' :: s.toList.flatMap escapeChar ++ ['"'] := rfl
      rw [hchars, List.append_assoc, List.cons_append, List.foldl_cons, hopen,
        List.foldl_append, scan_escaped]
      simp [hclose, hmark]
    · simp [Token.ofLexeme?, ofText?_escaped, String.ofList_toList]

/-- A word is neither empty nor interrupted. -/
theorem word {w : List Char} {value : Json} (hne : w ≠ [])
    (h : ∀ c ∈ w, isSpace c = false ∧ c ≠ '"' ∧ Mark.ofChar? c = none)
    (hread : ofWord? w = some value) : Spells w [.leaf value] := by
  refine ⟨[.word w], ?_, by simp [Token.ofLexeme?, hread]⟩
  intro m ended
  have gather (s chars : List Char)
      (hs : ∀ c ∈ s, isSpace c = false ∧ c ≠ '"' ∧ Mark.ofChar? c = none) :
      s.foldl Scan.step ⟨.word chars, ended⟩ = ⟨.word (s.reverse ++ chars), ended⟩ := by
    induction s generalizing chars with
    | nil => rfl
    | cons c s ih =>
      simp only [List.mem_cons, forall_eq_or_imp] at hs
      obtain ⟨⟨hspace, hquote, hmark⟩, hs⟩ := hs
      have hstep : Scan.step ⟨.word chars, ended⟩ c = ⟨.word (c :: chars), ended⟩ := by
        simp [Scan.step, Mode.step, hspace, hquote, hmark]
      rw [List.foldl_cons, hstep, ih _ hs, List.reverse_cons, List.append_assoc]
      rfl
  have hlast (chars : List Char) : Scan.step ⟨.word chars, ended⟩ m.char =
      ⟨.between, .mark m :: .word chars.reverse :: ended⟩ := by
    cases m <;> rfl
  cases w with
  | nil => exact absurd rfl hne
  | cons c w =>
    simp only [List.mem_cons, forall_eq_or_imp] at h
    obtain ⟨⟨hspace, hquote, hmark⟩, hw⟩ := h
    have hfirst : Scan.step ⟨.between, ended⟩ c = ⟨.word [c], ended⟩ := by
      simp [Scan.step, Mode.step, Mode.enter, hspace, hquote, hmark]
    rw [List.cons_append, List.foldl_cons, hfirst, List.foldl_append, gather w [c] hw]
    simp [hlast]

/-- A text that is well made in front of a mark is so at the end, too. -/
theorem tokens {s : List Char} {ts : List Token} (h : Spells s ts) : tokens? s = some ts := by
  obtain ⟨ls, hscan, hread⟩ := h
  have hlast := hscan .comma []
  rw [List.foldl_append] at hlast
  have hlex : lexemes s = some ls := by
    rw [lexemes]
    generalize s.foldl Scan.step ⟨.between, []⟩ = last at hlast
    obtain ⟨mode, ended⟩ := last
    cases mode with
    | between =>
      simp [Scan.step, Mode.step, Mode.enter, isSpace, Mark.char, Mark.ofChar?] at hlast
      simp [Scan.finish, hlast]
    | word chars =>
      simp [Scan.step, Mode.step, Mode.enter, isSpace, Mark.char, Mark.ofChar?] at hlast
      have := congrArg List.reverse hlast
      simp at this
      simp [Scan.finish, this]
    | text body => simp [Scan.step, Mode.step, Mark.char] at hlast
    | escape body => simp [Scan.step, Mode.step] at hlast
  rw [tokens?, hlex]
  exact hread

end Spells

theorem spells_ofInt {spelling : List Char} {i : Int} (h : ofInt i = .number spelling) :
    Spells spelling [.leaf (.number spelling)] := by
  obtain ⟨s, rfl, parts, hparts, n, hchars⟩ : ∃ s, s = spelling ∧ ∃ parts,
      numberParts? s = some parts ∧ ∃ n, ∀ c ∈ s, c = '-' ∨ c ∈ Nat.toDigits 10 n := by
    cases i with
    | ofNat n =>
      obtain rfl := Json.number.inj h
      exact ⟨_, rfl, _, numberParts?_sign (takeSign_toDigits n), n, fun c hc => .inr hc⟩
    | negSucc n =>
      obtain rfl := Json.number.inj h
      exact ⟨_, rfl, _, numberParts?_sign rfl, n + 1, fun c hc => List.mem_cons.mp hc⟩
  have hdigits : ∀ c ∈ Nat.toDigits 10 n, isSpace c = false ∧ c ≠ '"' ∧ Mark.ofChar? c = none ∧
      c ≠ 'n' ∧ c ≠ 't' ∧ c ≠ 'f' := Text.forall_mem_toDigits (by decide) (by decide) n
  have hword : ∀ c ∈ s, isSpace c = false ∧ c ≠ '"' ∧ Mark.ofChar? c = none ∧ c ≠ 'n' ∧
      c ≠ 't' ∧ c ≠ 'f' := by
    intro c hc
    rcases hchars c hc with rfl | hc
    · decide
    · exact hdigits c hc
  have hne : s ≠ [] := by
    intro heq
    obtain rfl := heq
    simp [numberParts?, takeSign] at hparts
  refine Spells.word hne (fun c hc => ?_) ?_
  · obtain ⟨hspace, hquote, hmark, -⟩ := hword c hc
    exact ⟨hspace, hquote, hmark⟩
  · have hhead {w : List Char} {c : Char} (hw : c ∈ w) (hc : c ∉ s) : s ≠ w := by
      intro heq
      obtain rfl := heq
      exact hc hw
    have hn : 'n' ∉ s := fun hc => (hword _ hc).2.2.2.1 rfl
    have ht : 't' ∉ s := fun hc => (hword _ hc).2.2.2.2.1 rfl
    have hf : 'f' ∉ s := fun hc => (hword _ hc).2.2.2.2.2 rfl
    rw [ofWord?, if_neg (hhead (by decide) hn), if_neg (hhead (by decide) ht),
      if_neg (hhead (by decide) hf), hparts]
    rfl

mutual

theorem spells_chars : ∀ {j : Json}, j.Plain → Spells j.chars (tokensOf j)
  | .null, _ => Spells.word (by decide) (List.all_iff_forall_prop.mp (by decide)) rfl
  | .bool true, _ => Spells.word (by decide) (List.all_iff_forall_prop.mp (by decide)) rfl
  | .bool false, _ => Spells.word (by decide) (List.all_iff_forall_prop.mp (by decide)) rfl
  | .number spelling, h => by
    obtain ⟨i, hi⟩ := h
    exact spells_ofInt hi
  | .string text, _ => Spells.text text
  | .array items, h =>
    Spells.nil.mark .openArray ((spells_itemsChars items h).mark .closeArray Spells.nil)
  | .object members, h =>
    Spells.nil.mark .openObject ((spells_membersChars members h).mark .closeObject Spells.nil)

theorem spells_itemsChars : ∀ items : List Json, PlainItems items →
    Spells (itemsChars items) (itemTokens items)
  | [], _ => Spells.nil
  | [_], h => spells_chars h.1
  | _ :: next :: rest, h => (spells_chars h.1).mark .comma (spells_itemsChars (next :: rest) h.2)

theorem spells_membersChars : ∀ members : List (Option String × Json), PlainMembers members →
    Spells (membersChars members) (memberTokens members)
  | [], _ => Spells.nil
  | [(key, _)], h => (Spells.text key).mark .colon (spells_chars h.1)
  | (key, _) :: next :: rest, h => by
    have := (Spells.text key).mark .colon
      ((spells_chars h.1).mark .comma (spells_membersChars (next :: rest) h.2))
    simpa [membersChars, memberTokens, Mark.char] using this

end

namespace Reader

/-- No document begins with a closing bracket. -/
theorem firstItem_eq (j : Json) (rest : List Token) (frames : List Frame) :
    (tokensOf j ++ rest).foldlM step ⟨frames, .firstItem⟩ =
      (tokensOf j ++ rest).foldlM step ⟨.array [] :: frames, .value⟩ := by
  cases j <;> rfl

mutual

theorem read_value : ∀ (j : Json) (rest : List Token) (frames : List Frame),
    (tokensOf j ++ rest).foldlM step ⟨frames, .value⟩ = rest.foldlM step ⟨frames, .after j⟩
  | .null, _, _ => rfl
  | .bool _, _, _ => rfl
  | .number _, _, _ => rfl
  | .string _, _, _ => rfl
  | .array [], _, _ => rfl
  | .array (item :: more), rest, frames => by
    have hfirst : itemTokens (item :: more) ++ .mark .closeArray :: rest =
        tokensOf item ++ ((itemTokens (item :: more)).drop (tokensOf item).length ++
          .mark .closeArray :: rest) := by
      cases more <;> simp [itemTokens]
    have hread := read_items (item :: more) (by simp) [] rest frames
    rw [tokensOf, List.cons_append, List.append_assoc]
    change (itemTokens (item :: more) ++ .mark .closeArray :: rest).foldlM step
      ⟨frames, .firstItem⟩ = _
    rw [hfirst, firstItem_eq, ← hfirst, hread]
    rfl
  | .object [], _, _ => rfl
  | .object (member :: more), rest, frames => by
    have hread := read_members (member :: more) (by simp) [] true rest frames
    rw [tokensOf, List.cons_append, List.append_assoc]
    exact hread

theorem read_items : ∀ (items : List Json) (_ : items ≠ []) (done : List Json)
    (rest : List Token) (frames : List Frame),
    (itemTokens items ++ .mark .closeArray :: rest).foldlM step ⟨.array done :: frames, .value⟩ =
      rest.foldlM step ⟨frames, .after (.array (done.reverse ++ items))⟩
  | [], hne, _, _, _ => absurd rfl hne
  | [item], _, done, rest, frames => by
    rw [itemTokens, read_value item]
    simp [step, readAfter]
  | item :: next :: more, _, done, rest, frames => by
    have hread := read_items (next :: more) (by simp) (item :: done) rest frames
    rw [itemTokens, List.append_assoc, read_value item]
    · rw [List.reverse_cons, List.append_assoc] at hread
      exact hread
    · simp

theorem read_members : ∀ (members : List (Option String × Json)) (_ : members ≠ [])
    (done : List (Option String × Json)) (first : Bool) (rest : List Token) (frames : List Frame),
    (memberTokens members ++ .mark .closeObject :: rest).foldlM step ⟨frames, .key done first⟩ =
      rest.foldlM step ⟨frames, .after (.object (done.reverse ++ members))⟩
  | [], hne, _, _, _, _ => absurd rfl hne
  | [(key, value)], _, done, first, rest, frames => by
    have hread := read_value value (.mark .closeObject :: rest) (.object done key :: frames)
    simp only [memberTokens, List.cons_append]
    change (tokensOf value ++ .mark .closeObject :: rest).foldlM step _ = _
    rw [hread]
    simp [step, readAfter]
  | (key, value) :: next :: more, _, done, first, rest, frames => by
    have hread := read_members (next :: more) (by simp) ((key, value) :: done) false rest frames
    have hvalue := read_value value
      (.mark .comma :: (memberTokens (next :: more) ++ .mark .closeObject :: rest))
      (.object done key :: frames)
    rw [List.reverse_cons, List.append_assoc] at hread
    simp only [memberTokens, List.cons_append, List.append_assoc]
    change (tokensOf value ++ _).foldlM step _ = _
    rw [hvalue]
    exact hread

end

end Reader

theorem parseChars?_chars {j : Json} (h : j.Plain) :
    (tokens? j.chars).bind ofTokens? = some j := by
  have hread := Reader.read_value j [] []
  rw [List.append_nil] at hread
  rw [(spells_chars h).tokens, Option.bind_some, ofTokens?, Reader.start, hread]
  rfl

theorem parse?_print {j : Json} (h : j.Plain) : parse? j.print = some j := by
  rw [parse?, print, String.toList_ofList]
  exact parseChars?_chars h

/-- An array begins and ends with a bracket. -/
theorem trim_print_array (items : List Json) :
    Text.trim (Json.array items).print = (Json.array items).print := by
  have hopen : Text.isBlank '[' = false := by decide
  have hclose : Text.isBlank ']' = false := by decide
  rw [Text.trim, print, String.toList_ofList, Text.trimChars_eq_self]
  · intro c hc
    rw [chars] at hc
    obtain rfl : '[' = c := Option.some.inj hc
    exact hopen
  · intro c hc
    rw [chars, List.getLast?_concat] at hc
    obtain rfl := Option.some.inj hc
    exact hclose

end VipSteering.Json
