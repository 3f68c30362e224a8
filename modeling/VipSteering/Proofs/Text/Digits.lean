import VipSteering.Text.Decimal

namespace VipSteering.Text

/-- A number is a digit, or a number with a digit behind it. -/
theorem toDigits_induction {base : Nat} (hb : 1 < base) {P : Nat → List Char → Prop}
    (digit : ∀ d < base, P d [Nat.digitChar d])
    (behind : ∀ n d, 0 < n → d < base → P n (Nat.toDigits base n) →
      P (base * n + d) (Nat.toDigits base n ++ [Nat.digitChar d]))
    (n : Nat) : P n (Nat.toDigits base n) := by
  induction n using Nat.strongRecOn with
  | ind n ih =>
    by_cases hn : n < base
    · rw [Nat.toDigits_of_lt_base hn]
      exact digit n hn
    · have hle := Nat.le_of_not_lt hn
      have hpos : 0 < n / base := Nat.div_pos hle (by omega)
      have hlt : n / base < n := Nat.div_lt_self (by omega) hb
      have h := behind (n / base) (n % base) hpos (Nat.mod_lt n (by omega)) (ih _ hlt)
      rwa [Nat.div_add_mod, ← Nat.toDigits_of_base_le hb hle] at h

theorem digit?_digitChar : ∀ d < 10, digit? (Nat.digitChar d) = some d := by
  decide

theorem hexDigit?_digitChar : ∀ d < 16, hexDigit? (Nat.digitChar d) = some d := by
  decide

/-- What holds of each digit of the base holds of all characters of a number. -/
theorem forall_mem_toDigits {base : Nat} (hb : 1 < base) {P : Char → Prop}
    (h : ∀ d < base, P (Nat.digitChar d)) (n : Nat) : ∀ c ∈ Nat.toDigits base n, P c := by
  refine toDigits_induction hb (P := fun _ s => ∀ c ∈ s, P c) ?_ ?_ n
  · intro d hd c hc
    rw [List.mem_singleton.mp hc]
    exact h d hd
  · intro n d _ hd ih c hc
    rcases List.mem_append.mp hc with hc | hc
    · exact ih c hc
    · rw [List.mem_singleton.mp hc]
      exact h d hd

/-- Only zero is written with a zero in front. -/
theorem head?_toDigits_ne {n : Nat} (h : n ≠ 0) : (Nat.toDigits 10 n).head? ≠ some '0' := by
  revert h
  refine toDigits_induction (by decide) (P := fun n s => n ≠ 0 → s.head? ≠ some '0') ?_ ?_ n
  · decide
  · intro n d hpos _ ih _
    have hne : Nat.toDigits 10 n ≠ [] := Nat.toDigits_ne_nil
    rw [List.head?_append, List.head?_eq_some_head hne, Option.some_or]
    rw [List.head?_eq_some_head hne] at ih
    exact ih (by omega)

theorem ofDigits?_append (base : Nat) (value? : Char → Option Nat) (soFar : Nat)
    (s rest : List Char) :
    ofDigits? base value? soFar (s ++ rest) =
      (ofDigits? base value? soFar s).bind fun n => ofDigits? base value? n rest := by
  induction s generalizing soFar with
  | nil => rfl
  | cons c s ih =>
    rw [List.cons_append, ofDigits?, ofDigits?]
    cases value? c with
    | none => rfl
    | some d => exact ih _

theorem ofDigits?_toDigits {base : Nat} (hb : 1 < base) {value? : Char → Option Nat}
    (h : ∀ d < base, value? (Nat.digitChar d) = some d) (n : Nat) :
    ofDigits? base value? 0 (Nat.toDigits base n) = some n := by
  refine toDigits_induction hb (P := fun n s => ofDigits? base value? 0 s = some n) ?_ ?_ n
  · intro d hd
    simp [ofDigits?, h d hd]
  · intro n d _ hd ih
    rw [ofDigits?_append, ih]
    simp [ofDigits?, h d hd]

theorem digit?_eq_some {c : Char} {d : Nat} :
    digit? c = some d ↔ c.isDigit = true ∧ c.toNat - '0'.toNat = d := by
  have hrange : ('0' ≤ c ∧ c ≤ '9') ↔ c.isDigit = true := Char.isDigit_iff_toNat.symm
  rw [digit?, ← hrange]
  split
  · rename_i hdigit
    rw [Option.some.injEq, and_iff_right hdigit]
  · rename_i hother
    exact iff_of_false nofun fun hgiven => hother hgiven.1

/-- Digits make a number no smaller. -/
theorem le_ofDigitChars (s : List Char) (soFar : Nat) : soFar ≤ Nat.ofDigitChars 10 s soFar := by
  rw [Nat.ofDigitChars_eq_ofDigitChars_zero]
  exact Nat.le_add_right_of_le (Nat.le_mul_of_pos_left soFar (Nat.pow_pos (by decide)))

/-- As digits make a number no smaller, the bound is kept on the way if the whole number keeps it. -/
theorem readDigits_eq_ok {bound soFar n : Nat} {overflow : NumberFault} {s : List Char}
    (h : soFar < bound) : readDigits bound overflow soFar s = .ok n ↔
      (∀ c ∈ s, c.isDigit = true) ∧ Nat.ofDigitChars 10 s soFar = n ∧ n < bound := by
  induction s generalizing soFar with
  | nil =>
    rw [readDigits, Nat.ofDigitChars_nil, Except.ok.injEq, and_iff_right (List.forall_mem_nil _)]
    constructor
    · rintro rfl
      exact ⟨rfl, h⟩
    · exact And.left
  | cons c rest ih =>
    rw [readDigits, List.forall_mem_cons, Nat.ofDigitChars_cons]
    cases hdigit : digit? c with
    | none =>
      refine iff_of_false nofun fun hgiven => ?_
      rw [digit?_eq_some.mpr ⟨hgiven.1.1, rfl⟩] at hdigit
      cases hdigit
    | some d =>
      obtain ⟨hc, rfl⟩ := digit?_eq_some.mp hdigit
      dsimp only
      split
      · rename_i hfits
        rw [ih hfits, and_iff_right hc]
      · rename_i hexceeds
        -- What comes behind does not bring the number back below the bound.
        refine iff_of_false nofun fun hgiven => hexceeds ?_
        obtain ⟨-, rfl, hn⟩ := hgiven
        exact Nat.lt_of_le_of_lt (le_ofDigitChars rest _) hn

theorem readDigits_toDigits {bound n : Nat} (overflow : NumberFault) (h : n < bound) :
    readDigits bound overflow 0 (Nat.toDigits 10 n) = .ok n := by
  rw [readDigits_eq_ok (Nat.zero_lt_of_lt h)]
  exact ⟨fun _ => Nat.isDigit_of_mem_toDigits (by decide) (by decide),
    Nat.ofDigitChars_toDigits (by decide) (by decide), h⟩

/-- Decimal digits that make up a number, perhaps with a plus in front. -/
def Numeral (s : List Char) (n : Nat) : Prop :=
  ∃ digits : List Char, (s = digits ∨ s = '+' :: digits) ∧ digits ≠ [] ∧
    (∀ c ∈ digits, c.isDigit = true) ∧ Nat.ofDigitChars 10 digits 0 = n

theorem numeral_toDigits (n : Nat) : Numeral (Nat.toDigits 10 n) n :=
  ⟨_, .inl rfl, Nat.toDigits_ne_nil, fun _ => Nat.isDigit_of_mem_toDigits (by decide) (by decide),
    Nat.ofDigitChars_toDigits (by decide) (by decide)⟩

theorem numeral_plus {digits : List Char} {n : Nat} : Numeral ('+' :: digits) n ↔
    digits ≠ [] ∧ (∀ c ∈ digits, c.isDigit = true) ∧ Nat.ofDigitChars 10 digits 0 = n := by
  constructor
  · rintro ⟨digits', rfl | hplus, hne, hdigits, hvalue⟩
    · exact absurd (hdigits '+' List.mem_cons_self) (by decide)
    · obtain rfl := (List.cons.inj hplus).2
      exact ⟨hne, hdigits, hvalue⟩
  · exact fun hgiven => ⟨digits, .inr rfl, hgiven⟩

theorem numeral_no_plus {s : List Char} (h : ∀ rest, s ≠ '+' :: rest) {n : Nat} : Numeral s n ↔
    s ≠ [] ∧ (∀ c ∈ s, c.isDigit = true) ∧ Nat.ofDigitChars 10 s 0 = n := by
  constructor
  · rintro ⟨digits, rfl | hplus, hgiven⟩
    · exact hgiven
    · exact absurd hplus (h digits)
  · exact fun hgiven => ⟨s, .inl rfl, hgiven⟩

theorem readNatChars_eq_ok {bound n : Nat} (h : 0 < bound) {s : List Char} :
    readNatChars bound s = .ok n ↔ Numeral s n ∧ n < bound := by
  unfold readNatChars
  split
  · rw [numeral_no_plus fun rest => (List.cons_ne_nil '+' rest).symm]
    exact iff_of_false nofun fun hgiven => hgiven.1.1 rfl
  · rw [numeral_plus]
    exact iff_of_false nofun fun hgiven => hgiven.1.1 rfl
  · rename_i digits hne
    rw [readDigits_eq_ok h, numeral_plus, and_iff_right hne, and_assoc]
  · rename_i hne _ hplus
    rw [readDigits_eq_ok h, numeral_no_plus hplus, and_iff_right hne, and_assoc]

theorem readNatChars_toDigits {bound n : Nat} (h : n < bound) :
    readNatChars bound (Nat.toDigits 10 n) = .ok n :=
  (readNatChars_eq_ok (Nat.zero_lt_of_lt h)).mpr ⟨numeral_toDigits n, h⟩

theorem readIntChars_toDigits {bound n : Nat} (h : n < bound) :
    readIntChars bound (Nat.toDigits 10 n) = .ok (n : Int) := by
  have hminus : ∀ c ∈ Nat.toDigits 10 n, c ≠ '-' :=
    forall_mem_toDigits (by decide) (by decide) n
  have hread := readNatChars_toDigits h
  generalize Nat.toDigits 10 n = s at hminus hread
  unfold readIntChars
  split
  · exact absurd rfl (hminus '-' (by simp))
  · exact absurd rfl (hminus '-' (by simp))
  · rw [hread]
    rfl

theorem readIntChars_minus {bound n : Nat} (h : n ≤ bound) :
    readIntChars bound ('-' :: Nat.toDigits 10 n) = .ok (-(n : Int)) := by
  have hread := readDigits_toDigits .tooSmall (Nat.lt_succ_of_le h)
  have hne : Nat.toDigits 10 n ≠ [] := Nat.toDigits_ne_nil
  generalize Nat.toDigits 10 n = s at hne hread
  unfold readIntChars
  split
  · rename_i heq
    exact absurd (List.cons.inj heq).2 hne
  · rename_i heq
    rw [← (List.cons.inj heq).2, hread]
    rfl
  · rename_i hno
    exact absurd rfl (hno s)

theorem readUInt16_eq_ok {s : String} {n : UInt16} :
    readUInt16 s = .ok n ↔ Numeral s.toList n.toNat := by
  have hread (m : Nat) : readNatChars UInt16.size s.toList = .ok m ↔
      Numeral s.toList m ∧ m < UInt16.size := readNatChars_eq_ok (by decide)
  rw [readUInt16, readNat]
  constructor
  · intro h
    cases hm : readNatChars UInt16.size s.toList with
    | error fault =>
      rw [hm] at h
      cases h
    | ok m =>
      rw [hm] at h
      obtain ⟨hnumeral, hlt⟩ := (hread m).mp hm
      rwa [← Except.ok.inj h, UInt16.toNat_ofNat_of_lt' hlt]
  · intro h
    rw [(hread n.toNat).mpr ⟨h, n.toNat_lt⟩]
    exact congrArg Except.ok UInt16.ofNat_toNat

theorem readUInt32_toString (n : UInt32) : readUInt32 (toString n) = .ok n := by
  have h : readNatChars UInt32.size (Nat.toDigits 10 n.toNat) = .ok n.toNat :=
    readNatChars_toDigits n.toNat_lt
  have hs : (toString n).toList = Nat.toDigits 10 n.toNat := Nat.toList_repr
  rw [readUInt32, readNat, hs, h]
  simp [Except.map]

theorem readInt32_toString (n : Int32) : readInt32 (toString n.toInt) = .ok n := by
  have hlow := n.le_toInt
  have hhigh := n.toInt_lt
  have hread : readIntChars 0x80000000 (toString n.toInt).toList = .ok n.toInt := by
    cases hn : n.toInt with
    | ofNat m =>
      have hs : (toString (Int.ofNat m)).toList = Nat.toDigits 10 m := Nat.toList_repr
      have hm : Int.ofNat m < 2147483648 := hn ▸ hhigh
      rw [hs]
      exact readIntChars_toDigits (Int.ofNat_lt.mp hm)
    | negSucc m =>
      have hs : (toString (Int.negSucc m)).toList = '-' :: Nat.toDigits 10 (m + 1) := by
        change ("-" ++ Nat.repr (m + 1)).toList = _
        rw [String.toList_append, Nat.toList_repr]
        rfl
      rw [hs]
      exact readIntChars_minus (by omega)
  rw [readInt32, hread]
  exact congrArg Except.ok n.ofInt_toInt

end VipSteering.Text
