import VipSteering.Json.Basic
import VipSteering.Json.Parser
import VipSteering.Proofs.Text.Digits

namespace VipSteering.Json

/-- The escaped character is one piece, and that piece spells the character. -/
structure PieceOf (c : Char) (p : Piece) : Prop where
  read : ∀ rest, pieces? (escapeChar c ++ rest) = (pieces? rest).map (p :: ·)
  spell : ∀ rest, assemble? (p :: rest) = (assemble? rest).map (c :: ·)

theorem pieces?_plain {c : Char} (hc : c ≠ '\\') (hlow : ¬ c.toNat < 0x20) (rest : List Char) :
    pieces? (c :: rest) = (pieces? rest).map (.char c :: ·) := by
  rw [pieces?, if_neg hlow]
  · intro _ _ _ _ _ heq
    obtain rfl := heq
    exact absurd rfl hc
  · intro _ _ heq
    obtain rfl := heq
    exact absurd rfl hc
  · intro heq
    obtain rfl := heq
    exact absurd rfl hc

theorem hexUnit?_control {n : Nat} (h : n < 0x20) :
    hexUnit? '0' '0' (Nat.digitChar (n / 16)) (Nat.digitChar (n % 16)) = some n := by
  have hzero : Text.hexDigit? '0' = some 0 := by decide
  rw [hexUnit?, hzero, Text.hexDigit?_digitChar _ (by omega), Text.hexDigit?_digitChar _ (by omega)]
  simp only [Option.some.injEq]
  omega

theorem exists_pieceOf (c : Char) : ∃ p, PieceOf c p := by
  by_cases hq : c = '"'
  · exact ⟨.char c, by subst hq; exact fun _ => rfl, fun _ => rfl⟩
  by_cases hb : c = '\\'
  · exact ⟨.char c, by subst hb; exact fun _ => rfl, fun _ => rfl⟩
  by_cases h8 : c = '\x08'
  · exact ⟨.char c, by subst h8; exact fun _ => rfl, fun _ => rfl⟩
  by_cases ht : c = '\t'
  · exact ⟨.char c, by subst ht; exact fun _ => rfl, fun _ => rfl⟩
  by_cases hn : c = '\n'
  · exact ⟨.char c, by subst hn; exact fun _ => rfl, fun _ => rfl⟩
  by_cases hc : c = '\x0c'
  · exact ⟨.char c, by subst hc; exact fun _ => rfl, fun _ => rfl⟩
  by_cases hr : c = '\r'
  · exact ⟨.char c, by subst hr; exact fun _ => rfl, fun _ => rfl⟩
  have hescape : escapeChar c = if c.toNat < 0x20 then
      ['\\', 'u', '0', '0', Nat.digitChar (c.toNat / 16), Nat.digitChar (c.toNat % 16)]
      else [c] := by
    simp only [escapeChar, hq, hb, h8, ht, hn, hc, hr, if_false]
  by_cases hlow : c.toNat < 0x20
  · refine ⟨.unit c.toNat, ?_, ?_⟩
    · intro rest
      rw [hescape, if_pos hlow]
      change pieces? ('\\' :: 'u' :: '0' :: '0' :: _ :: _ :: rest) = _
      rw [pieces?, hexUnit?_control hlow]
    · intro rest
      have hhigh : isHighHalf c.toNat = false := by simp [isHighHalf]; omega
      have hhalf : isLowHalf c.toNat = false := by simp [isLowHalf]; omega
      rw [assemble?.eq_def]
      simp only [hhigh, hhalf, Bool.false_eq_true, if_false, Char.ofNat_toNat]
  · refine ⟨.char c, ?_, fun _ => rfl⟩
    intro rest
    rw [hescape, if_neg hlow]
    exact pieces?_plain hb hlow rest

theorem ofText?_escaped (s : List Char) :
    ofText? (s.flatMap escapeChar) = some (.string (some (String.ofList s))) := by
  have h : ∃ ps, pieces? (s.flatMap escapeChar) = some ps ∧ assemble? ps = some s := by
    induction s with
    | nil => exact ⟨[], rfl, rfl⟩
    | cons c s ih =>
      obtain ⟨ps, hps, hs⟩ := ih
      obtain ⟨p, hp⟩ := exists_pieceOf c
      refine ⟨p :: ps, ?_, ?_⟩
      · rw [List.flatMap_cons, hp.read, hps]
        rfl
      · rw [hp.spell, hs]
        rfl
  obtain ⟨ps, hps, hs⟩ := h
  rw [ofText?, hps, Option.map_some, hs]
  rfl

/-- Between quotes an escaped character is gathered as it stands. -/
theorem scan_escapeChar (c : Char) (body : List Char) (ended : List Lexeme) :
    (escapeChar c).foldl Scan.step ⟨.text body, ended⟩ =
      ⟨.text ((escapeChar c).reverse ++ body), ended⟩ := by
  have plain {d : Char} (hq : d ≠ '"') (hb : d ≠ '\\') (body : List Char) :
      Scan.step ⟨.text body, ended⟩ d = ⟨.text (d :: body), ended⟩ := by
    simp [Scan.step, Mode.step, hq, hb]
  have escape (d : Char) (body : List Char) :
      Scan.step (Scan.step ⟨.text body, ended⟩ '\\') d = ⟨.text (d :: '\\' :: body), ended⟩ := rfl
  have digit (n : Nat) (hn : n < 16) : Nat.digitChar n ≠ '"' ∧ Nat.digitChar n ≠ '\\' :=
    (by decide : ∀ n < 16, Nat.digitChar n ≠ '"' ∧ Nat.digitChar n ≠ '\\') n hn
  unfold escapeChar
  repeat' split
  all_goals try rfl
  · rename_i hlow
    have hhigh := digit (c.toNat / 16) (by omega)
    have hlow := digit (c.toNat % 16) (by omega)
    simp only [List.foldl_cons, List.foldl_nil, escape]
    rw [plain (by decide) (by decide), plain (by decide) (by decide), plain hhigh.1 hhigh.2,
      plain hlow.1 hlow.2]
    rfl
  · rename_i hq hb _ _ _ _ _ _
    exact plain hq hb body

theorem scan_escaped (s : List Char) (body : List Char) (ended : List Lexeme) :
    (s.flatMap escapeChar).foldl Scan.step ⟨.text body, ended⟩ =
      ⟨.text ((s.flatMap escapeChar).reverse ++ body), ended⟩ := by
  induction s generalizing body with
  | nil => rfl
  | cons c s ih =>
    rw [List.flatMap_cons, List.foldl_append, scan_escapeChar, ih, List.reverse_append,
      List.append_assoc]

end VipSteering.Json
