import VipSteering.Mark.Block

namespace VipSteering.Block

theorem contains_iff (b : Block) (mark : UInt32) :
    b.contains mark = true ↔ b.start ≤ mark ∧ mark.toNat < b.start.toNat + b.size.toNat := by
  have hm := mark.toNat_lt
  have hs := b.start.toNat_lt
  simp only [contains, last?]
  by_cases h : b.size = 0
  · simp only [h, if_true, UInt32.toNat_zero, Nat.add_zero, Bool.false_eq_true, false_iff]
    rw [UInt32.le_iff_toNat_le]
    omega
  · have hpos : 0 < b.size.toNat := size_ne_zero.mp h
    simp only [h, if_false, Bool.and_eq_true, decide_eq_true_eq, UInt32.le_iff_toNat_le,
      UInt32.toNat_ofNat', limit, UInt32.size]
    omega

theorem overlaps_iff (a b : Block) :
    a.overlaps b = true ↔ ∃ mark, a.contains mark = true ∧ b.contains mark = true := by
  simp only [overlaps_iff_lt, size_ne_zero, contains_iff, UInt32.le_iff_toNat_le]
  constructor
  · intro hgiven
    -- The greater of the two starts lies in both blocks.
    by_cases hab : a.start.toNat ≤ b.start.toNat
    · exact ⟨b.start, by omega⟩
    · exact ⟨a.start, by omega⟩
  · intro hgiven
    obtain ⟨mark, hm⟩ := hgiven
    omega

theorem contains_mark {b : Block} {slot : UInt32} (hb : b.start.toNat + b.size.toNat ≤ limit)
    (hs : slot < b.size) :
    (b.start + slot).toNat = b.start.toNat + slot.toNat ∧ b.contains (b.start + slot) = true := by
  have hlt : slot.toNat < b.size.toNat := UInt32.lt_iff_toNat_lt.mp hs
  have hadd : (b.start + slot).toNat = b.start.toNat + slot.toNat := by
    rw [UInt32.toNat_add, Nat.mod_eq_of_lt]
    simp only [limit, UInt32.size] at hb
    omega
  refine ⟨hadd, ?_⟩
  rw [contains_iff, UInt32.le_iff_toNat_le, hadd]
  omega

theorem contains_iff_sub_lt (b : Block) (mark : UInt32) :
    b.contains mark = true ↔ b.start ≤ mark ∧ mark - b.start < b.size := by
  rw [contains_iff]
  refine and_congr_right fun hle => ?_
  rw [UInt32.lt_iff_toNat_lt, UInt32.toNat_sub_of_le _ _ hle]
  rw [UInt32.le_iff_toNat_le] at hle
  omega

theorem overlaps_comm (a b : Block) : a.overlaps b = b.overlaps a := by
  rw [Bool.eq_iff_iff, overlaps_iff, overlaps_iff]
  simp only [and_comm]

/-- No mark of a block is behind its last one, also where the block is cut off with the last mark
there is. -/
theorem greatest_of_last? {b : Block} {last : UInt32} (h : b.last? = some last) :
    b.contains last = true ∧ ∀ mark, b.contains mark = true → mark ≤ last := by
  obtain ⟨hsize, hlast⟩ := last?_eq_some.mp h
  have hpos : 0 < b.size.toNat := size_ne_zero.mp hsize
  have hs := b.start.toNat_lt
  simp only [contains_iff, UInt32.le_iff_toNat_le, hlast, limit, UInt32.size]
  refine ⟨by omega, fun mark hmark => ?_⟩
  have hm := mark.toNat_lt
  omega

theorem last?_eq_some_iff {b : Block} {last : UInt32} : b.last? = some last ↔
    b.contains last = true ∧ ∀ mark, b.contains mark = true → mark ≤ last := by
  refine ⟨greatest_of_last?, fun hgiven => ?_⟩
  obtain ⟨hin, hgreatest⟩ := hgiven
  cases hlast : b.last? with
  | none =>
    rw [contains, hlast] at hin
    cases hin
  | some other =>
    obtain ⟨hin', hgreatest'⟩ := greatest_of_last? hlast
    rw [UInt32.le_antisymm (hgreatest other hin') (hgreatest' last hin)]

/-- A block of any start and size stands for the marks from its start on that are less than its size
behind it. Its last mark is the greatest of them, and two blocks overlap exactly if they have a mark
in common, so whichever of them comes first. -/
theorem stands_for_marks (a b : Block) :
    (∀ mark, a.contains mark = true ↔ a.start ≤ mark ∧ mark - a.start < a.size) ∧
    (∀ last, a.last? = some last ↔
      a.contains last = true ∧ ∀ mark, a.contains mark = true → mark ≤ last) ∧
    (a.overlaps b = true ↔ ∃ mark, a.contains mark = true ∧ b.contains mark = true) ∧
    a.overlaps b = b.overlaps a :=
  ⟨contains_iff_sub_lt a, fun _ => last?_eq_some_iff, overlaps_iff a b, overlaps_comm a b⟩

/-- The last mark there is lies in a block that would go on behind it. -/
example : overlaps ⟨4294967290, 10⟩ ⟨4294967295, 1⟩ = true := by decide

theorem isFree_iff (existing : List Block) (b : Block) :
    isFree existing b = true ↔
      b.start.toNat + b.size.toNat ≤ limit ∧ ∀ e ∈ existing, b.overlaps e = false := by
  simp [isFree]

section Search

variable {existing : List Block} {size start : UInt32}

/-- What is in the way of a block is in the way of every later one, until it is left behind. -/
theorem not_free_of_obstacle {obstacle : Block} (hobstacle : obstacle ∈ existing)
    (hoverlap : overlaps ⟨start, size⟩ obstacle = true) {later : UInt32} (hle : start ≤ later)
    (hbefore : ∀ next, obstacle.behind? = some next → later < next) :
    isFree existing ⟨later, size⟩ = false := by
  obtain ⟨hsizes, -, hstart⟩ := overlaps_iff_lt.mp hoverlap
  rw [UInt32.le_iff_toNat_le] at hle
  have hend : later.toNat < obstacle.start.toNat + obstacle.size.toNat := by
    by_cases hlimit : obstacle.start.toNat + obstacle.size.toNat < limit
    · have hnext := hbefore _ (if_pos hlimit)
      rwa [UInt32.lt_iff_toNat_lt, UInt32.toNat_ofNat_of_lt' hlimit] at hnext
    · have hlater : later.toNat < limit := later.toNat_lt
      omega
  have hstill : overlaps ⟨later, size⟩ obstacle = true :=
    overlaps_iff_lt.mpr ⟨hsizes, hend, Nat.lt_of_lt_of_le hstart (Nat.add_le_add_right hle _)⟩
  rw [Bool.eq_false_iff, ne_eq, isFree_iff]
  intro hfree
  rw [hfree.2 obstacle hobstacle] at hstill
  cases hstill

/-- A search finds the first start from which a block is free, or there is none. -/
theorem search_spec (existing : List Block) (size start : UInt32) :
    match search existing size start with
    | some found => start ≤ found ∧ isFree existing ⟨found, size⟩ = true ∧
      ∀ t, start ≤ t → isFree existing ⟨t, size⟩ = true → found ≤ t
    | none => ∀ t, start ≤ t → isFree existing ⟨t, size⟩ = false := by
  fun_induction search existing size start with
  | case1 start hfits hnone =>
    refine ⟨UInt32.le_refl start, isFree_iff existing _ |>.mpr ⟨hfits, fun e he => ?_⟩,
      fun t ht _ => ht⟩
    exact Bool.eq_false_iff.mpr (List.find?_eq_none.mp hnone e he)
  | case2 start _ obstacle hobstacle hnone =>
    intro t ht
    refine not_free_of_obstacle (List.mem_of_find?_eq_some hobstacle) (List.find?_some hobstacle) ht
      fun next hnext => ?_
    rw [hnone] at hnext
    cases hnext
  | case3 start _ obstacle hobstacle next hnext ih =>
    -- No start between this one and the next will do.
    have hskipped {t : UInt32} (ht : start ≤ t) (hfree : isFree existing ⟨t, size⟩ = true) :
        next ≤ t := by
      refine UInt32.not_lt.mp fun hlt => ?_
      rw [not_free_of_obstacle (List.mem_of_find?_eq_some hobstacle) (List.find?_some hobstacle) ht
        fun n hn => by rwa [← Option.some.inj (hnext.symm.trans hn)]] at hfree
      cases hfree
    have hfurther : start ≤ next := by
      rw [UInt32.le_iff_toNat_le]
      exact Nat.le_of_lt (lt_behind (List.find?_some hobstacle) hnext)
    split
    · rename_i found hfound
      rw [hfound] at ih
      obtain ⟨hle, hfree, hleast⟩ := ih
      exact ⟨UInt32.le_trans hfurther hle, hfree, fun t ht ht' => hleast t (hskipped ht ht') ht'⟩
    · rename_i hfound
      rw [hfound] at ih
      intro t ht
      refine Bool.eq_false_iff.mpr fun hfree => ?_
      rw [ih t (hskipped ht hfree)] at hfree
      cases hfree
  | case4 start hfits =>
    intro t ht
    refine Bool.eq_false_iff.mpr fun hfree => hfits ?_
    exact Nat.le_trans (Nat.add_le_add_right (UInt32.le_iff_toNat_le.mp ht) _)
      (isFree_iff existing _ |>.mp hfree).1

end Search

theorem allocate_ok {floor size : UInt32} {existing : List Block} {block : Block}
    (h : allocate floor existing size = .ok block) :
    block.size = size ∧ size ≠ 0 ∧ floor ≤ block.start ∧ isFree existing block = true := by
  rw [allocate] at h
  split at h
  · cases h
  rename_i hsize
  have hspec := search_spec existing size floor
  split at h
  · rename_i start hfound
    rw [hfound] at hspec
    cases h
    exact ⟨rfl, hsize, hspec.1, hspec.2.1⟩
  · cases h

/-- The block starts at the floor or above it, ends with a mark that there is, and shares none with
an existing block. -/
structure Available (floor : UInt32) (existing : List Block) (b : Block) : Prop where
  floor_le : floor ≤ b.start
  inside : b.start.toNat + b.size.toNat ≤ limit
  apart : ∀ e ∈ existing, ∀ mark, b.contains mark = true → e.contains mark = false

theorem available_iff {floor : UInt32} {existing : List Block} {b : Block} :
    Available floor existing b ↔ floor ≤ b.start ∧ isFree existing b = true := by
  have hapart (e : Block) : b.overlaps e = false ↔
      ∀ mark, b.contains mark = true → e.contains mark = false := by
    rw [Bool.eq_false_iff, ne_eq, overlaps_iff, not_exists]
    refine forall_congr' fun mark => ?_
    rw [not_and, Bool.eq_false_iff]
  rw [isFree_iff]
  constructor
  · intro h
    exact ⟨h.floor_le, h.inside, fun e he => (hapart e).mpr (h.apart e he)⟩
  · intro h
    exact ⟨h.1, h.2.1, fun e he => (hapart e).mp (h.2.2 e he)⟩

/-- Whatever the existing blocks are like, a block is found if and only if one is available, and it
is the lowest one of its size. -/
theorem allocate_lowest (floor size : UInt32) (existing : List Block) :
    (allocate floor existing size = .error (.invalidRangeSize size) ↔ size = 0) ∧
    (size ≠ 0 →
      ((∃ b, allocate floor existing size = .ok b) ↔
        ∃ start, Available floor existing ⟨start, size⟩) ∧
      (∀ b, allocate floor existing size = .ok b → b.size = size ∧ Available floor existing b ∧
        ∀ start, Available floor existing ⟨start, size⟩ → b.start ≤ start) ∧
      (allocate floor existing size = .error (.rangeExhausted floor size) ↔
        ∀ start, ¬ Available floor existing ⟨start, size⟩)) := by
  have hspec := search_spec existing size floor
  rw [allocate]
  by_cases hsize : size = 0
  · simp [hsize]
  rw [if_neg hsize]
  cases hfound : search existing size floor with
  | some found =>
    rw [hfound] at hspec
    obtain ⟨hle, hfree, hleast⟩ := hspec
    have havailable : Available floor existing ⟨found, size⟩ := available_iff.mpr ⟨hle, hfree⟩
    refine ⟨iff_of_false nofun hsize, fun _ => ⟨iff_of_true ⟨_, rfl⟩ ⟨found, havailable⟩,
      fun b hb => ?_, iff_of_false nofun fun hnone => hnone found havailable⟩⟩
    cases hb
    refine ⟨rfl, havailable, fun start hstart => ?_⟩
    exact hleast start (available_iff.mp hstart).1 (available_iff.mp hstart).2
  | none =>
    rw [hfound] at hspec
    have hnone (start : UInt32) : ¬ Available floor existing ⟨start, size⟩ := by
      intro havailable
      obtain ⟨hle, hfree⟩ := available_iff.mp havailable
      rw [hspec start hle] at hfree
      cases hfree
    exact ⟨iff_of_false nofun hsize, fun _ =>
      ⟨iff_of_false nofun fun hgiven => hnone _ hgiven.choose_spec, nofun, iff_of_true rfl hnone⟩⟩

end VipSteering.Block
