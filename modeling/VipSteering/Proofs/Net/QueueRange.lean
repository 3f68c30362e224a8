import VipSteering.Net.QueueRange
import VipSteering.Proofs.Text.Digits
import VipSteering.Proofs.Text.Pieces

namespace VipSteering.QueueRange

open Text

/-- A text with one queue number in it and nothing else but blanks around it. -/
def NamesQueue (part : String) (n : UInt16) : Prop :=
  ∃ before number after : List Char, part.toList = before ++ number ++ after ∧
    (∀ c ∈ before, isBlank c = true) ∧ (∀ c ∈ after, isBlank c = true) ∧ Numeral number n.toNat

/-- The bounds that a text gives: one number for both, or two numbers with a colon in between. No
number has a colon in it, so this colon is the first one. -/
inductive Bounds : String → UInt16 → UInt16 → Prop
  | single {part : String} {n : UInt16} (h : NamesQueue part n) : Bounds part n n
  | pair {first last : String} {start stop : UInt16} (hstart : NamesQueue first start)
    (hstop : NamesQueue last stop) : Bounds (first ++ ":" ++ last) start stop

/-- The count is off only where it overflows. -/
theorem total_eq (q : QueueRange) : q.total =
    if q.start = 0 ∧ q.stop = 65535 then 0 else q.stop.toNat - q.start.toNat + 1 := by
  have hle : q.start.toNat ≤ q.stop.toNat := UInt16.le_iff_toNat_le.mp q.start_le_stop
  have hlt : q.stop.toNat < 65536 := q.stop.toNat_lt
  have hall : q.start = 0 ∧ q.stop = 65535 ↔ q.start.toNat = 0 ∧ q.stop.toNat = 65535 := by
    rw [← UInt16.toNat_inj, ← UInt16.toNat_inj]
    rfl
  have hdiff : (q.stop - q.start).toNat = q.stop.toNat - q.start.toNat :=
    UInt16.toNat_sub_of_le _ _ q.start_le_stop
  have hone : (1 : UInt16).toNat = 1 := rfl
  rw [total, UInt16.toNat_add, hdiff, hone]
  split
  · rename_i hends
    obtain ⟨hstart, hstop⟩ := hall.mp hends
    rw [hstart, hstop]
  · rename_i hends
    rw [hall] at hends
    omega

theorem toOption_eq_some {ε α : Type} {result : Except ε α} {a : α} :
    result.toOption = some a ↔ result = .ok a := by
  cases result <;> simp [Except.toOption]

/-- The characters of numbers are neither blanks nor colons. -/
theorem clean_of_numeral {s : List Char} {n : Nat} (h : Numeral s n) :
    ∀ c ∈ s, isBlank c = false ∧ c ≠ ':' := by
  obtain ⟨digits, hs, -, hdigits, -⟩ := h
  have hclean : ∀ c ∈ digits, isBlank c = false ∧ c ≠ ':' := by
    intro c hc
    obtain ⟨hlow, hhigh⟩ := Char.isDigit_iff_toNat.mp (hdigits c hc)
    have hzero : '0'.toNat = 48 := rfl
    have hnine : '9'.toNat = 57 := rfl
    refine ⟨?_, fun hcolon => ?_⟩
    · simp only [isBlank, Bool.or_eq_false_iff, Bool.and_eq_false_iff, beq_eq_false_iff_ne,
        decide_eq_false_iff_not]
      omega
    · rw [hcolon] at hhigh
      exact absurd hhigh (by decide)
  rcases hs with rfl | rfl
  · exact hclean
  · exact List.forall_mem_cons.mpr ⟨by decide, hclean⟩

theorem bound?_eq_some {part : String} {n : UInt16} : bound? part = some n ↔ NamesQueue part n := by
  have hread : bound? part = some n ↔ Numeral (trimChars part.toList) n.toNat := by
    rw [bound?, toOption_eq_some, readUInt16_eq_ok, trim, String.toList_ofList]
  rw [hread]
  constructor
  · intro h
    obtain ⟨before, after, hpart, hbefore, hafter⟩ := exists_padding part.toList
    exact ⟨before, _, after, hpart, hbefore, hafter, h⟩
  · rintro ⟨before, number, after, hpart, hbefore, hafter, hnumber⟩
    rwa [hpart, trimChars_padded hbefore (fun c hc => (clean_of_numeral hnumber c hc).1) hafter]

theorem NamesQueue.eq {part : String} {m n : UInt16} (hm : NamesQueue part m)
    (hn : NamesQueue part n) : m = n := by
  rw [← bound?_eq_some] at hm hn
  exact Option.some.inj (hm.symm.trans hn)

theorem NamesQueue.colon_not_mem {part : String} {n : UInt16} (h : NamesQueue part n) :
    ':' ∉ part.toList := by
  obtain ⟨before, number, after, hpart, hbefore, hafter, hnumber⟩ := h
  have hcolon : isBlank ':' = false := by decide
  rw [hpart, List.mem_append, List.mem_append]
  rintro ((hmem | hmem) | hmem)
  · rw [hbefore _ hmem] at hcolon
    cases hcolon
  · exact (clean_of_numeral hnumber _ hmem).2 rfl
  · rw [hafter _ hmem] at hcolon
    cases hcolon

theorem namesQueue_toString (n : UInt16) : NamesQueue (toString n) n := by
  have hs : (toString n).toList = [] ++ Nat.toDigits 10 n.toNat ++ [] := by
    rw [List.nil_append, List.append_nil]
    exact Nat.toList_repr
  exact ⟨[], _, [], hs, List.forall_mem_nil _, List.forall_mem_nil _, numeral_toDigits n.toNat⟩

theorem bounds_text (q : QueueRange) : Bounds q.text q.start q.stop := by
  rw [text, textWith]
  split
  · rename_i hsame
    rw [← hsame]
    exact .single (namesQueue_toString q.start)
  · exact .pair (namesQueue_toString q.start) (namesQueue_toString q.stop)

/-- The bounds are the numbers around the first colon. -/
theorem bounds_iff {spec : String} {start stop : UInt16} : Bounds spec start stop ↔
    let parts := (cut ':' spec).getD (spec, spec)
    NamesQueue parts.1 start ∧ NamesQueue parts.2 stop := by
  constructor
  · intro h
    cases h with
    | single h =>
      rw [cut_eq_none.mpr h.colon_not_mem]
      exact ⟨h, h⟩
    | @pair first last _ _ hstart hstop =>
      have hcut : cut ':' (first ++ ":" ++ last) = some (first, last) :=
        cut_eq_some.mpr ⟨by simp, hstart.colon_not_mem⟩
      rw [hcut]
      exact ⟨hstart, hstop⟩
  · cases hcut : cut ':' spec with
    | none =>
      -- The whole text is read twice, and it names one number only.
      rintro ⟨hstart, hstop⟩
      rw [Option.getD_none] at hstart hstop
      rw [hstop.eq hstart]
      exact .single hstart
    | some parts =>
      obtain ⟨first, last⟩ := parts
      rintro ⟨hstart, hstop⟩
      have hspec : spec = first ++ ":" ++ last := by
        rw [← String.toList_inj, (cut_eq_some.mp hcut).1]
        simp
      rw [hspec]
      exact .pair hstart hstop

theorem make_eq_ok {start stop : UInt16} {q : QueueRange} :
    make start stop = .ok q ↔ start = q.start ∧ stop = q.stop := by
  rw [make]
  split
  · constructor
    · intro h
      cases h
      exact ⟨rfl, rfl⟩
    · rintro ⟨rfl, rfl⟩
      rfl
  · rename_i hreversed
    refine iff_of_false nofun ?_
    rintro ⟨rfl, rfl⟩
    exact hreversed q.start_le_stop

theorem parse?_eq_some {spec : String} {q : QueueRange} :
    parse? spec = some q ↔ Bounds spec q.start q.stop := by
  rw [parse?, bounds_iff]
  generalize (cut ':' spec).getD (spec, spec) = parts
  obtain ⟨first, last⟩ := parts
  dsimp only
  rw [← bound?_eq_some, ← bound?_eq_some]
  split
  · rename_i start stop hstart hstop
    rw [toOption_eq_some, make_eq_ok, hstart, hstop, Option.some.injEq, Option.some.injEq]
  · rename_i hnone
    exact iff_of_false nofun fun hgiven => hnone _ _ hgiven.1 hgiven.2

theorem parse_eq_ok {spec : String} {q : QueueRange} :
    parse spec = .ok q ↔ Bounds spec q.start q.stop := by
  rw [← parse?_eq_some]
  unfold parse
  cases parse? spec with
  | none => simp
  | some other => simp

theorem parse_eq_error {spec : String} : parse spec = .error (.invalidQueue spec) ↔
    ¬ ∃ q : QueueRange, Bounds spec q.start q.stop := by
  simp only [← parse?_eq_some]
  unfold parse
  cases parse? spec with
  | none => simp
  | some other => simp

/-- A text is read exactly if it gives the bounds of a range, and then as this range. Every other
text is refused as it stands. The text of a range is read as the range. -/
theorem parse_reads_bounds :
    (∀ spec : String,
      (∀ q, parse spec = .ok q ↔ Bounds spec q.start q.stop) ∧
      (parse spec = .error (.invalidQueue spec) ↔
        ¬ ∃ q : QueueRange, Bounds spec q.start q.stop)) ∧
    ∀ q : QueueRange, parse q.text = .ok q :=
  ⟨fun _ => ⟨fun _ => parse_eq_ok, parse_eq_error⟩, fun q => parse_eq_ok.mpr (bounds_text q)⟩

example : parse " +007 :\t12 " = .ok ⟨7, 12, by decide⟩ := by decide

end VipSteering.QueueRange
