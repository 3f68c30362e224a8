import VipSteering.Net.Interval
import VipSteering.Proofs.Net.AddressText

namespace VipSteering

open Text

/-- The number of an address within its family. -/
def Address.value : Address → Nat
  | .v4 bits => bits.toNat
  | .v6 bits => bits.toNat

namespace Interval

/-- The interval has all the addresses that agree with its first one on the leading bits. -/
structure IsBlock (i : Interval) (length : Nat) : Prop where
  length_le : length ≤ Cidr.width i.start
  aligned : 1 <<< (Cidr.width i.start - length) ∣ i.start.value
  full : i.last.value + 1 = i.start.value + 1 <<< (Cidr.width i.start - length)

end Interval

/-- A smaller number has no more digits. -/
theorem length_toDigits_le {m n : Nat} (h : m ≤ n) :
    (Nat.toDigits 10 m).length ≤ (Nat.toDigits 10 n).length := by
  have hpos : 0 < (Nat.toDigits 10 n).length := List.length_pos_iff.mpr Nat.toDigits_ne_nil
  have hlt := (Nat.length_toDigits_le_iff (b := 10) (by decide) hpos).mp (Nat.le_refl _)
  exact (Nat.length_toDigits_le_iff (by decide) hpos).mpr (Nat.lt_of_le_of_lt h hlt)

section Masks

variable {w length : Nat} {bits : BitVec w}

/-- The bits behind the leading ones make the greatest number that they can. -/
theorem toNat_hostBits (h : length ≤ w) :
    (BitVec.allOnes w >>> length).toNat + 1 = 1 <<< (w - length) := by
  obtain ⟨rest, rfl⟩ := Nat.exists_eq_add_of_le h
  obtain ⟨most, hmost⟩ := Nat.exists_eq_add_one.mpr (Nat.two_pow_pos rest)
  have hpos := Nat.two_pow_pos length
  rw [Nat.add_sub_cancel_left, Nat.one_shiftLeft, BitVec.toNat_ushiftRight, BitVec.toNat_allOnes,
    Nat.shiftRight_eq_div_pow, Nat.pow_add, hmost, Nat.mul_succ, Nat.add_sub_assoc hpos,
    Nat.mul_add_div hpos, Nat.div_eq_of_lt (Nat.sub_one_lt_of_lt hpos), Nat.add_zero]

/-- The first address of a block has no bits behind the leading ones. -/
theorem and_not_hostBits (h : 1 <<< (w - length) ∣ bits.toNat) :
    bits &&& ~~~(BitVec.allOnes w >>> length) = bits := by
  rw [Nat.one_shiftLeft] at h
  obtain ⟨lead, hlead⟩ := h
  ext i hi
  have hbit : length + i < w → bits[i] = false := by
    intro hlow
    rw [BitVec.getElem_eq_testBit_toNat, hlead, Nat.testBit_two_pow_mul,
      decide_eq_false (by omega), Bool.false_and]
  by_cases hlow : length + i < w
  · simp [hbit hlow]
  · simp [hlow]

/-- The last address of a block has all of them. -/
theorem toNat_or_hostBits (hle : length ≤ w) (h : 1 <<< (w - length) ∣ bits.toNat) :
    (bits ||| (BitVec.allOnes w >>> length)).toNat + 1 = bits.toNat + 1 <<< (w - length) := by
  have hmask := toNat_hostBits hle
  rw [Nat.one_shiftLeft] at h hmask
  obtain ⟨lead, hlead⟩ := h
  have hlow : (BitVec.allOnes w >>> length).toNat < 2 ^ (w - length) :=
    Nat.lt_of_succ_le (Nat.le_of_eq hmask)
  rw [BitVec.toNat_or, hlead, ← Nat.two_pow_add_eq_or_of_lt hlow, Nat.one_shiftLeft, Nat.add_assoc,
    hmask]

end Masks

theorem Address.value_inj {a b : Address} (hf : a.family = b.family) (h : a.value = b.value) :
    a = b := by
  cases a with
  | v4 bits =>
    cases b with
    | v4 bits' => exact congrArg Address.v4 (BitVec.eq_of_toNat_eq h)
    | v6 bits' => cases hf
  | v6 bits =>
    cases b with
    | v4 bits' => cases hf
    | v6 bits' => exact congrArg Address.v6 (BitVec.eq_of_toNat_eq h)

section Block

variable {i : Interval} {length : Nat} (h : i.IsBlock length)

include h

theorem Interval.IsBlock.first_eq : (⟨i.start, length⟩ : Cidr).first = i.start := by
  obtain ⟨start, stop⟩ := i
  have haligned := h.aligned
  cases start with
  | v4 bits => exact congrArg Address.v4 (and_not_hostBits haligned)
  | v6 bits => exact congrArg Address.v6 (and_not_hostBits haligned)

theorem Interval.IsBlock.last_eq (hf : i.start.family = i.last.family) :
    (⟨i.start, length⟩ : Cidr).last = i.last := by
  obtain ⟨start, stop⟩ := i
  have hle := h.length_le
  have haligned := h.aligned
  have hfull := h.full
  cases start with
  | v4 bits =>
    have hlast := toNat_or_hostBits hle haligned
    exact Address.value_inj hf (Nat.add_right_cancel (hlast.trans hfull.symm))
  | v6 bits =>
    have hlast := toNat_or_hostBits hle haligned
    exact Address.value_inj hf (Nat.add_right_cancel (hlast.trans hfull.symm))

theorem Interval.IsBlock.length?_eq :
    Cidr.length? i.start (Nat.toDigits 10 length) = some length := by
  have hle := h.length_le
  have hne : Nat.toDigits 10 length ≠ [] := Nat.toDigits_ne_nil
  have hshort := length_toDigits_le hle
  rw [Cidr.length?, if_neg, ofDigits?_toDigits (by decide) digit?_digitChar, Option.filter_some,
    if_pos (decide_eq_true hle)]
  simp only [Bool.or_eq_true, List.isEmpty_iff, decide_eq_true_eq, not_or]
  exact ⟨hne, Nat.not_lt_of_le hshort⟩

/-- A block is read from its first address and its length. -/
theorem Interval.IsBlock.parse_eq :
    Cidr.parse (i.start.text ++ "/" ++ toString length) = .ok ⟨i.start, length⟩ := by
  have hlength : (toString length).toList = Nat.toDigits 10 length := Nat.toList_repr
  have hchars : (i.start.text ++ "/" ++ toString length).toList =
      i.start.chars ++ '/' :: Nat.toDigits 10 length := by
    rw [String.toList_append, String.toList_append, Address.toList_text, hlength]
    simp
  have hslash : '/' ∉ i.start.chars := fun hmem =>
    absurd (Address.chars_alphabet i.start '/' hmem) (by decide)
  have hblank : ∀ c ∈ i.start.chars ++ '/' :: Nat.toDigits 10 length, isBlank c = false := by
    have halphabet : ∀ c ∈ Address.alphabet, isBlank c = false :=
      List.all_iff_forall_prop.mp (by decide)
    intro c hc
    simp only [List.mem_append, List.mem_cons] at hc
    rcases hc with hc | rfl | hc
    · exact halphabet c (Address.chars_alphabet i.start c hc)
    · decide
    · exact forall_mem_toDigits (by decide) (P := (isBlank · = false)) (by decide) length c hc
  have htrim := trimChars_eq_self (fun c hc => hblank c (List.mem_of_head? hc))
    (fun c hc => hblank c (List.mem_of_getLast? hc))
  rw [Cidr.parse, hchars, htrim, Cidr.parseChars?, cutChars_append _ hslash]
  simp only [Address.parseChars?_chars, h.length?_eq, Option.map_some, Cidr.truncate, h.first_eq]

theorem Interval.IsBlock.ofCidr_eq (hf : i.start.family = i.last.family) :
    Interval.ofCidr ⟨i.start, length⟩ = i := by
  rw [Interval.ofCidr, h.first_eq, h.last_eq hf, Interval.last, Address.next_prev]

end Block

end VipSteering
