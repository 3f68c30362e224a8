import Std.Data.ExtTreeSet

namespace VipSteering

/-- Numbers the values of a type without using a number twice. -/
class Ranked (α : Type) where
  rank : α → Nat
  rank_inj : ∀ {a b : α}, rank a = rank b → a = b

namespace Ranked

variable {α : Type} [Ranked α]

/-- The order of the numbers. -/
@[reducible] def toOrd : Ord α := ⟨fun a b => compare (rank a) (rank b)⟩

theorem compare_def (a b : α) : toOrd.compare a b = compare (rank a) (rank b) := rfl

theorem transOrd : @Std.TransOrd α toOrd :=
  letI := toOrd (α := α)
  { eq_swap := by
      intro a b
      rw [compare_def, compare_def]
      exact Std.OrientedOrd.eq_swap
    isLE_trans := by
      intro a b c h k
      rw [compare_def] at h k ⊢
      exact Std.TransOrd.isLE_trans h k }

theorem lawfulEqOrd : @Std.LawfulEqOrd α toOrd :=
  letI := toOrd (α := α)
  { compare_self := by
      intro a
      rw [compare_def]
      exact Std.ReflOrd.compare_self
    eq_of_compare := by
      intro a b h
      rw [compare_def] at h
      exact rank_inj (Std.LawfulEqOrd.eq_of_compare h) }

end Ranked

/-- Numbers of pairs: the first counts before the second, which stays below `base`. -/
theorem pair_rank_inj {base a b c d : Nat} (hb : b < base) (hd : d < base)
    (h : a * base + b = c * base + d) : a = c ∧ b = d := by
  have hm : (b + a * base) % base = (d + c * base) % base := by rw [Nat.add_comm, h, Nat.add_comm]
  rw [Nat.add_mul_mod_self_right, Nat.add_mul_mod_self_right, Nat.mod_eq_of_lt hb,
    Nat.mod_eq_of_lt hd] at hm
  subst hm
  exact ⟨Nat.eq_of_mul_eq_mul_right (by omega) (Nat.add_right_cancel h), rfl⟩

end VipSteering
