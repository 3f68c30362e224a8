import Mathlib.Data.List.TakeWhile
import VipSteering.Json.Record
import VipSteering.Proofs.Text.Digits

namespace VipSteering.Json

theorem isDigit_digitChar : ∀ d < 10, isDigit (Nat.digitChar d) = true := by decide

theorem isDigit_toDigits (n : Nat) : ∀ c ∈ Nat.toDigits 10 n, isDigit c = true :=
  Text.forall_mem_toDigits (by decide) isDigit_digitChar n

theorem takeSign_toDigits (n : Nat) :
    takeSign (Nat.toDigits 10 n) = (false, Nat.toDigits 10 n) := by
  have hminus : ∀ c ∈ Nat.toDigits 10 n, c ≠ '-' :=
    Text.forall_mem_toDigits (by decide) (by decide) n
  generalize Nat.toDigits 10 n = s at hminus
  unfold takeSign
  split
  · exact absurd rfl (hminus '-' List.mem_cons_self)
  · rfl

/-- A spelling with a sign and no zero in front is a number. -/
theorem numberParts?_sign {s : List Char} {negative : Bool} {n : Nat}
    (hs : takeSign s = (negative, Nat.toDigits 10 n)) :
    numberParts? s = some ⟨negative, Nat.toDigits 10 n, none, none⟩ := by
  have hdigits := isDigit_toDigits n
  have hwhole : (Nat.toDigits 10 n).takeWhile isDigit = Nat.toDigits 10 n :=
    List.takeWhile_eq_self_iff.mpr hdigits
  have hrest : (Nat.toDigits 10 n).dropWhile isDigit = [] :=
    List.dropWhile_eq_nil_iff.mpr hdigits
  have hempty : (Nat.toDigits 10 n).isEmpty = false := by
    rw [List.isEmpty_eq_false_iff]
    exact Nat.toDigits_ne_nil
  have hzero : (Nat.toDigits 10 n).head? = some '0' → (Nat.toDigits 10 n).length = 1 := by
    intro h
    by_cases hn : n = 0
    · rw [hn]
      rfl
    · exact absurd h (Text.head?_toDigits_ne hn)
  rw [numberParts?, hs]
  dsimp only
  rw [hwhole, hrest, hempty, if_neg]
  · rfl
  · simp only [Bool.false_or, Bool.and_eq_true, decide_eq_true_eq]
    intro hgiven
    obtain ⟨hhead, hlong⟩ := hgiven
    exact hlong (hzero hhead)

namespace Number

theorem takeDigits_append {soFar n : Nat} {s : List Char} (h : takeDigits soFar s = (n, []))
    (rest : List Char) : takeDigits soFar (s ++ rest) = takeDigits n rest := by
  induction s generalizing soFar with
  | nil =>
    cases h
    rfl
  | cons c s ih =>
    rw [List.cons_append, takeDigits]
    rw [takeDigits] at h
    split
    · rename_i hlt
      rw [if_pos hlt] at h
      exact ih h
    · rename_i hge
      rw [if_neg hge] at h
      cases h

theorem takeDigits_toDigits {n : Nat} (h : n < UInt64.size) :
    takeDigits 0 (Nat.toDigits 10 n) = (n, []) := by
  have value : ∀ d < 10, (Nat.digitChar d).toNat - '0'.toNat = d := by decide
  revert h
  refine Text.toDigits_induction (by decide)
    (P := fun n s => n < UInt64.size → takeDigits 0 s = (n, [])) ?_ ?_ n
  · intro d hd h
    simp only [takeDigits, value d hd, Nat.mul_zero, Nat.zero_add]
    rw [if_pos h]
  · intro n d _ hd ih h
    rw [takeDigits_append (ih (by omega))]
    simp only [takeDigits, value d hd]
    rw [if_pos h]

end Number

/-- The whole numbers that 64 bits hold, with or without a sign. -/
def IsWide (i : Int) : Prop := -0x8000000000000000 ≤ i ∧ i < 0x10000000000000000

/-- A whole number is read back, and its spelling is the normal one. -/
theorem number?_ofInt {i : Int} (h : IsWide i) :
    ∃ s, ofInt i = .number s ∧ number? s = some (.whole i) ∧ (Number.whole i).chars = s := by
  obtain ⟨hlow, hhigh⟩ := h
  cases i with
  | ofNat n =>
    have hn : n < UInt64.size := by simp only [Int.ofNat_eq_natCast, UInt64.size] at *; omega
    refine ⟨Nat.toDigits 10 n, rfl, ?_, rfl⟩
    rw [number?, numberParts?_sign (takeSign_toDigits n)]
    simp [Number.ofParts?, Number.takeDigits_toDigits hn]
  | negSucc n =>
    have hn : n + 1 ≤ 0x8000000000000000 := by simp only [Int.negSucc_eq] at *; omega
    refine ⟨'-' :: Nat.toDigits 10 (n + 1), rfl, ?_, rfl⟩
    have hparts : numberParts? ('-' :: Nat.toDigits 10 (n + 1)) =
        some ⟨true, Nat.toDigits 10 (n + 1), none, none⟩ := numberParts?_sign rfl
    rw [number?, hparts]
    simp [Number.ofParts?, Number.takeDigits_toDigits (n := n + 1) (by rw [UInt64.size]; omega), hn,
      Int.negSucc_eq]

theorem nat?_ofNat {bound n : Nat} (h : n < bound) (hb : bound ≤ UInt64.size) :
    nat? bound (ofNat n) = some n := by
  obtain ⟨s, hs, hread, -⟩ := number?_ofInt (i := (n : Int))
    ⟨by omega, by simp only [UInt64.size] at hb; omega⟩
  have hn : ofNat n = .number s := hs
  rw [hn, nat?, natOfSpelling?, hread]
  exact if_pos h

theorem int32?_ofInt (n : Int32) : int32? (ofInt n.toInt) = some n := by
  have hlow := n.le_toInt
  have hhigh := n.toInt_lt
  obtain ⟨s, hs, hread, -⟩ := number?_ofInt (i := n.toInt) ⟨by omega, by omega⟩
  have hmin : Int32.minValue.toInt = -2147483648 := by decide
  have hmax : Int32.maxValue.toInt = 2147483647 := by decide
  rw [hs, int32?, hread]
  simp only [hmin, hmax]
  rw [if_pos ⟨by omega, by omega⟩, Int32.ofInt_toInt]

end VipSteering.Json
