import VipSteering.Net.Address

namespace VipSteering

/-- The marks of a service, one for each of its slots. -/
structure Block where
  start : UInt32
  size : UInt32
  deriving DecidableEq, Repr

namespace Block

/-- The number of marks there are. -/
def limit : Nat := UInt32.size

/-- The last mark. A block that runs past the last mark there is ends with it. -/
def last? (b : Block) : Option UInt32 :=
  if b.size = 0 then none
  else some (UInt32.ofNat (min (b.start.toNat + b.size.toNat - 1) (limit - 1)))

/-- Do two blocks share a mark? -/
def overlaps (a b : Block) : Bool :=
  match a.last?, b.last? with
  | some aLast, some bLast => a.start ≤ bLast && b.start ≤ aLast
  | _, _ => false

def contains (b : Block) (mark : UInt32) : Bool :=
  match b.last? with
  | some last => b.start ≤ mark && mark ≤ last
  | none => false

/-- The mark behind the block, if there is one. -/
def behind? (b : Block) : Option UInt32 :=
  if b.start.toNat + b.size.toNat < limit then
    some (UInt32.ofNat (b.start.toNat + b.size.toNat))
  else none

/-- Is the block a stretch of existing marks that no other block uses? -/
def isFree (existing : List Block) (b : Block) : Bool :=
  b.start.toNat + b.size.toNat ≤ limit && !existing.any b.overlaps

theorem last?_eq_some {b : Block} {last : UInt32} :
    b.last? = some last ↔
      b.size ≠ 0 ∧ last.toNat = min (b.start.toNat + b.size.toNat - 1) (limit - 1) := by
  rw [last?]
  by_cases h : b.size = 0
  · simp [h]
  · rw [if_neg h, Option.some.injEq, ← UInt32.toNat_inj, UInt32.toNat_ofNat', and_iff_right h,
      Nat.mod_eq_of_lt (by simp only [limit, UInt32.size]; omega), eq_comm]

theorem size_ne_zero {b : Block} : b.size ≠ 0 ↔ 0 < b.size.toNat := by
  rw [← UInt32.pos_iff_ne_zero, UInt32.lt_iff_toNat_lt, UInt32.toNat_zero]

/-- Neither of two blocks that share a mark ends before the other starts. -/
theorem overlaps_iff_lt {a b : Block} : a.overlaps b = true ↔
    (a.size ≠ 0 ∧ b.size ≠ 0) ∧ a.start.toNat < b.start.toNat + b.size.toNat ∧
      b.start.toNat < a.start.toNat + a.size.toNat := by
  have ha := a.start.toNat_lt
  have hb := b.start.toNat_lt
  rw [overlaps]
  split
  · rename_i aLast bLast haLast hbLast
    obtain ⟨hasize, halast⟩ := last?_eq_some.mp haLast
    obtain ⟨hbsize, hblast⟩ := last?_eq_some.mp hbLast
    have hapos := size_ne_zero.mp hasize
    have hbpos := size_ne_zero.mp hbsize
    rw [and_iff_right ⟨hasize, hbsize⟩, Bool.and_eq_true, decide_eq_true_eq, decide_eq_true_eq,
      UInt32.le_iff_toNat_le, UInt32.le_iff_toNat_le, halast, hblast, limit, UInt32.size]
    omega
  · rename_i hnone
    refine iff_of_false Bool.false_ne_true fun hgiven => ?_
    exact hnone _ _ (if_neg hgiven.1.1) (if_neg hgiven.1.2)

theorem behind?_eq_some {b : Block} {next : UInt32} :
    b.behind? = some next ↔ next.toNat = b.start.toNat + b.size.toNat := by
  have hnext := next.toNat_lt
  rw [behind?]
  split
  · rename_i hlt
    rw [Option.some.injEq, ← UInt32.toNat_inj, UInt32.toNat_ofNat_of_lt' hlt, eq_comm]
  · rename_i hge
    refine iff_of_false nofun fun heq => hge ?_
    rwa [← heq]

/-- Behind a block that is in its way, a search has got further. -/
theorem lt_behind {b obstacle : Block} {next : UInt32} (hoverlap : b.overlaps obstacle = true)
    (hnext : obstacle.behind? = some next) : b.start.toNat < next.toNat := by
  rw [behind?_eq_some.mp hnext]
  exact (overlaps_iff_lt.mp hoverlap).2.1

/-- Searches from `start` upwards for a free block of `size` marks. If an existing block is in the
way, the search goes on right behind it. -/
@[semireducible] def search (existing : List Block) (size start : UInt32) : Option UInt32 :=
  if start.toNat + size.toNat ≤ limit then
    match _hobstacle : existing.find? (overlaps ⟨start, size⟩) with
    | none => some start
    | some obstacle =>
      match _hnext : obstacle.behind? with
      | none => none
      | some next => search existing size next
  else none
termination_by limit - start.toNat
decreasing_by
  have hfurther : start.toNat < next.toNat := lt_behind (List.find?_some _hobstacle) _hnext
  have hlimit : next.toNat < limit := next.toNat_lt
  omega

/-- The lowest free block of `size` marks from `floor` on. -/
def allocate (floor : UInt32) (existing : List Block) (size : UInt32) : Except NetFault Block :=
  if size = 0 then .error (.invalidRangeSize size)
  else
    match search existing size floor with
    | some start => .ok ⟨start, size⟩
    | none => .error (.rangeExhausted floor size)

end Block
end VipSteering
