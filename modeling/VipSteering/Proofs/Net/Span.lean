import Mathlib.Algebra.Group.Nat.Defs
import VipSteering.Proofs.Net.Block

namespace VipSteering

open Text

section Words

variable {w length : Nat}

/-- The first of them has zeros behind the leading bits. -/
theorem toNat_firstWord (bits : BitVec w) (h : length ≤ w) :
    (bits &&& ~~~(BitVec.allOnes w >>> length)).toNat =
      bits.toNat / 2 ^ (w - length) * 2 ^ (w - length) := by
  refine Nat.eq_of_testBit_eq fun i => ?_
  rw [Nat.testBit_mul_two_pow, Nat.testBit_div_two_pow, BitVec.testBit_toNat, BitVec.testBit_toNat,
    BitVec.getLsbD_and, BitVec.getLsbD_not, BitVec.getLsbD_ushiftRight, BitVec.getLsbD_allOnes]
  by_cases hlead : w - length ≤ i
  · have hplace : i - (w - length) + (w - length) = i := by omega
    have hhost : ¬ length + i < w := by omega
    rw [hplace, decide_eq_true hlead, decide_eq_false hhost, Bool.not_false, Bool.and_true,
      Bool.true_and]
    by_cases hi : i < w
    · rw [decide_eq_true hi, Bool.and_true]
    · rw [decide_eq_false hi, Bool.and_false, BitVec.getLsbD_of_ge bits i (Nat.le_of_not_lt hi)]
  · have hhost : length + i < w := by omega
    rw [decide_eq_false hlead, decide_eq_true hhost, Bool.not_true, Bool.and_false, Bool.and_false,
      Bool.false_and]

theorem and_not_or (bits mask : BitVec w) : (bits &&& ~~~mask) ||| mask = bits ||| mask := by
  ext i hi
  rw [BitVec.getElem_or, BitVec.getElem_or, BitVec.getElem_and, BitVec.getElem_not]
  cases bits[i] <;> cases mask[i] <;> rfl

/-- The last of them has ones there. -/
theorem toNat_lastWord (bits : BitVec w) (h : length ≤ w) :
    (bits ||| (BitVec.allOnes w >>> length)).toNat + 1 =
      bits.toNat / 2 ^ (w - length) * 2 ^ (w - length) + 2 ^ (w - length) := by
  have hfirst := toNat_firstWord bits h
  have haligned : 1 <<< (w - length) ∣ (bits &&& ~~~(BitVec.allOnes w >>> length)).toNat := by
    rw [Nat.one_shiftLeft, hfirst]
    exact Nat.dvd_mul_left _ _
  rw [← and_not_or, toNat_or_hostBits h haligned, hfirst, Nat.one_shiftLeft]

/-- The leading bits are a number of their own. -/
theorem div_eq_iff_getMsbD (bits : BitVec w) (h : length ≤ w) (x : BitVec w) :
    x.toNat / 2 ^ (w - length) = bits.toNat / 2 ^ (w - length) ↔
      ∀ i < length, x.getMsbD i = bits.getMsbD i := by
  have hbit (y : BitVec w) {i : Nat} (hi : i < length) :
      (y.toNat / 2 ^ (w - length)).testBit (length - 1 - i) = y.getMsbD i := by
    have hplace : length - 1 - i + (w - length) = w - 1 - i := by omega
    rw [Nat.testBit_div_two_pow, hplace, BitVec.testBit_toNat, BitVec.getMsbD_eq_getLsbD,
      decide_eq_true (by omega), Bool.true_and]
  constructor
  · intro heq i hi
    rw [← hbit x hi, ← hbit bits hi, heq]
  · intro hbits
    refine Nat.eq_of_testBit_eq fun i => ?_
    by_cases hi : i < length
    · have hplace : length - 1 - (length - 1 - i) = i := by omega
      have hsame := hbits (length - 1 - i) (by omega)
      rwa [← hbit x (by omega), ← hbit bits (by omega), hplace] at hsame
    · rw [Nat.testBit_div_two_pow, Nat.testBit_div_two_pow, BitVec.testBit_toNat,
        BitVec.testBit_toNat, BitVec.getLsbD_of_ge x _ (by omega),
        BitVec.getLsbD_of_ge bits _ (by omega)]

/-- They are the words from the first to the last. -/
theorem between_iff_getMsbD (bits : BitVec w) (h : length ≤ w) (x : BitVec w) :
    ((bits &&& ~~~(BitVec.allOnes w >>> length)).toNat ≤ x.toNat ∧
        x.toNat ≤ (bits ||| (BitVec.allOnes w >>> length)).toNat) ↔
      ∀ i < length, x.getMsbD i = bits.getMsbD i := by
  have hlast := toNat_lastWord bits h
  have hpos := Nat.two_pow_pos (w - length)
  rw [← div_eq_iff_getMsbD bits h x, Nat.div_eq_iff hpos, toNat_firstWord bits h]
  omega

end Words

namespace Address

/-- A bit of an address, counted from the front. -/
def bit (a : Address) (i : Nat) : Bool :=
  match a with
  | .v4 bits => bits.getMsbD i
  | .v6 bits => bits.getMsbD i

/-- The addresses are of one family and share their leading bits. -/
structure Agree (a b : Address) (length : Nat) : Prop where
  family : a.family = b.family
  bits : ∀ i < length, a.bit i = b.bit i

/-- Within a family the order is that of the numbers. -/
theorem rank_le_iff {a b : Address} (h : a.family = b.family) :
    a.rank ≤ b.rank ↔ a.value ≤ b.value := by
  cases a with
  | v4 x =>
    cases b with
    | v4 y => rfl
    | v6 y => cases h
  | v6 x =>
    cases b with
    | v4 y => cases h
    | v6 y => exact Nat.add_le_add_iff_left

/-- Between two addresses of a family there are none of the other. -/
theorem family_of_between {a b x : Address} (h : a.family = b.family) (hlow : a.rank ≤ x.rank)
    (hhigh : x.rank ≤ b.rank) : x.family = a.family := by
  have below (bits : BitVec 32) : (Address.v4 bits).rank < UInt32.size := bits.isLt
  have above (bits : BitVec 128) : UInt32.size ≤ (Address.v6 bits).rank := Nat.le_add_right _ _
  cases a with
  | v4 bits =>
    cases b with
    | v4 bits' =>
      cases x with
      | v4 _ => rfl
      | v6 own => exact absurd (below bits') (Nat.not_lt.mpr ((above own).trans hhigh))
    | v6 _ => cases h
  | v6 bits =>
    cases x with
    | v4 own => exact absurd (below own) (Nat.not_lt.mpr ((above bits).trans hlow))
    | v6 _ => rfl

theorem value_next (a : Address) : a.next.value = (a.value + 1) % 2 ^ Cidr.width a := by
  cases a with
  | v4 bits => exact BitVec.toNat_add bits 1
  | v6 bits => exact BitVec.toNat_add bits 1

end Address

namespace Cidr

section Bounds

variable (net : Cidr)

@[simp] theorem family_first : net.first.family = net.address.family := by
  obtain ⟨address, length⟩ := net
  cases address <;> rfl

@[simp] theorem family_last : net.last.family = net.address.family := by
  obtain ⟨address, length⟩ := net
  cases address <;> rfl

end Bounds

variable {net : Cidr} (h : net.length ≤ width net.address)

include h

/-- From the first address to the last there are as many as there are ways to fill the other bits. -/
theorem value_last : net.last.value + 1 =
    net.first.value + 2 ^ (width net.address - net.length) := by
  obtain ⟨address, length⟩ := net
  cases address with
  | v4 bits => exact (toNat_lastWord bits h).trans (congrArg (· + _) (toNat_firstWord bits h).symm)
  | v6 bits => exact (toNat_lastWord bits h).trans (congrArg (· + _) (toNat_firstWord bits h).symm)

theorem between_iff {x : Address} (hx : x.family = net.address.family) :
    (net.first.value ≤ x.value ∧ x.value ≤ net.last.value) ↔
      ∀ i < net.length, x.bit i = net.address.bit i := by
  obtain ⟨address, length⟩ := net
  cases address with
  | v4 bits =>
    cases x with
    | v4 own => exact between_iff_getMsbD bits h own
    | v6 _ => cases hx
  | v6 bits =>
    cases x with
    | v4 _ => cases hx
    | v6 own => exact between_iff_getMsbD bits h own

end Cidr

namespace Interval

/-- The address is none before the first and none after the last one. -/
def Covers (i : Interval) (x : Address) : Prop := i.start.rank ≤ x.rank ∧ x.rank ≤ i.last.rank

/-- The interval covers the addresses that share the leading bits of the given one. -/
structure Spans (i : Interval) (a : Address) (length : Nat) : Prop where
  family : i.start.family = a.family ∧ i.last.family = a.family
  ordered : i.start.rank ≤ i.last.rank
  covers : ∀ x, i.Covers x ↔ x.Agree a length
  /-- The end is the next address, or the first one of the family. -/
  stop : i.stop.family = a.family ∧ i.stop.value = (i.last.value + 1) % 2 ^ Cidr.width a
  single : (∃ x : Address, i.text = x.text) ↔ length = Cidr.width a

/-- Only an interval of one address is written as an address. -/
theorem text_eq_iff (i : Interval) : (∃ x : Address, i.text = x.text) ↔ i.last = i.start := by
  rw [text]
  split
  · rename_i hsame
    exact iff_of_true ⟨i.start, rfl⟩ hsame
  · rename_i hdiffer
    refine iff_of_false (fun hgiven => ?_) hdiffer
    obtain ⟨x, hx⟩ := hgiven
    have hdash : '-' ∈ x.chars := by
      rw [← Address.toList_text, ← hx, String.toList_append, String.toList_append]
      simp
    exact absurd (Address.chars_alphabet x '-' hdash) (by decide)

theorem spans_ofCidr {net : Cidr} (h : net.length ≤ Cidr.width net.address) :
    (ofCidr net).Spans net.address net.length := by
  have hlast : (ofCidr net).last = net.last := Address.prev_next net.last
  have hstart : (ofCidr net).start = net.first := rfl
  have hstop : (ofCidr net).stop = net.last.next := rfl
  have hfamily : net.first.family = net.last.family :=
    net.family_first.trans net.family_last.symm
  have hvalue := Cidr.value_last h
  have hpos := Nat.two_pow_pos (Cidr.width net.address - net.length)
  have hwidth : Cidr.width net.last = Cidr.width net.address := by
    obtain ⟨address, length⟩ := net
    cases address <;> rfl
  refine ⟨⟨net.family_first, by rw [hlast, net.family_last]⟩, ?_, fun x => ?_, ?_, ?_⟩
  · rw [hlast, hstart, Address.rank_le_iff hfamily]
    omega
  · rw [Covers, hlast, hstart]
    constructor
    · intro hbetween
      have hx := (Address.family_of_between hfamily hbetween.1 hbetween.2).trans net.family_first
      rw [Address.rank_le_iff (net.family_first.trans hx.symm),
        Address.rank_le_iff (hx.trans net.family_last.symm), Cidr.between_iff h hx] at hbetween
      exact ⟨hx, hbetween⟩
    · intro hagree
      rw [Address.rank_le_iff (net.family_first.trans hagree.family.symm),
        Address.rank_le_iff (hagree.family.trans net.family_last.symm),
        Cidr.between_iff h hagree.family]
      exact hagree.bits
  · rw [hlast, hstop, Address.family_next, Address.value_next, hwidth]
    exact ⟨net.family_last, rfl⟩
  · rw [text_eq_iff, hlast, hstart]
    constructor
    · intro hsame
      rw [hsame] at hvalue
      have hone : 2 ^ (Cidr.width net.address - net.length) = 2 ^ 0 := by omega
      have hnone := Nat.pow_right_injective (Nat.le_refl 2) hone
      omega
    · intro hfull
      rw [hfull, Nat.sub_self] at hvalue
      exact Address.value_inj hfamily.symm (by omega)

end Interval

namespace Cidr

/-- To name a block by its first address changes nothing about it. -/
theorem ofCidr_truncate (net : Cidr) : Interval.ofCidr net.truncate = Interval.ofCidr net := by
  have hfirst {w : Nat} (bits mask : BitVec w) : bits &&& ~~~mask &&& ~~~mask = bits &&& ~~~mask := by
    rw [BitVec.and_assoc, BitVec.and_self]
  obtain ⟨address, length⟩ := net
  cases address with
  | v4 bits => simp only [Interval.ofCidr, truncate, first, last, hfirst, and_not_or]
  | v6 bits => simp only [Interval.ofCidr, truncate, first, last, hfirst, and_not_or]

theorem width_truncate (net : Cidr) : width net.truncate.address = width net.address := by
  obtain ⟨address, length⟩ := net
  cases address <;> rfl

/-- A length that is read is one that the family has. -/
theorem length_le_of_parseChars? {s : List Char} {net : Cidr} (h : parseChars? s = some net) :
    net.length ≤ width net.address := by
  rw [parseChars?] at h
  split at h
  · cases h
  split at h
  · cases h
  rename_i address _
  obtain ⟨length, hlength, rfl⟩ := Option.map_eq_some_iff.mp h
  rw [length?] at hlength
  split at hlength
  · cases hlength
  · exact of_decide_eq_true (Option.filter_eq_some_iff.mp hlength).2

/-- The interval of a block that is read from a text starts and ends in the family of the address that
the text names, and covers just the addresses that share as many leading bits with it as the text
says. It is written as a single address exactly if these are all bits. -/
theorem parse_spans {spec : String} {net : Cidr} (h : parse spec = .ok net) :
    ∃ named, parseChars? (trimChars spec.toList) = some ⟨named, net.length⟩ ∧
      net.address.Agree named net.length ∧
      (Interval.ofCidr net).Spans named net.length ∧
      (Interval.ofCidr net).Spans net.address net.length := by
  rw [parse] at h
  split at h
  · rename_i written hread
    cases h
    have hle := length_le_of_parseChars? hread
    have hnamed := Interval.spans_ofCidr hle
    have hlength : written.truncate.length ≤ width written.truncate.address := by
      rw [width_truncate]
      exact hle
    have hown := Interval.spans_ofCidr hlength
    rw [← ofCidr_truncate written] at hnamed
    refine ⟨written.address, hread, ?_, hnamed, hown⟩
    exact (hnamed.covers _).mp ((hown.covers _).mpr ⟨rfl, fun _ _ => rfl⟩)
  · cases h

/-- A block at the top of the family: the end that is stored is the first address of all. -/
theorem topBlock_spans :
    parse " 255.255.255.9/24" = .ok ⟨.v4 0xFFFFFF00#32, 24⟩ ∧
    (Interval.ofCidr ⟨.v4 0xFFFFFF00#32, 24⟩).stop = .v4 0#32 ∧
    ∃ named, parseChars? (trimChars " 255.255.255.9/24".toList) = some ⟨named, 24⟩ ∧
      (Address.v4 0xFFFFFF00#32).Agree named 24 ∧
      (Interval.ofCidr ⟨.v4 0xFFFFFF00#32, 24⟩).Spans named 24 ∧
      (Interval.ofCidr ⟨.v4 0xFFFFFF00#32, 24⟩).Spans (.v4 0xFFFFFF00#32) 24 := by
  have hparse : parse " 255.255.255.9/24" = .ok ⟨.v4 0xFFFFFF00#32, 24⟩ := by decide
  exact ⟨hparse, by decide, parse_spans hparse⟩

end Cidr
end VipSteering
