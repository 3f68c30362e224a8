import VipSteering.Proofs.Balancer.Books
import VipSteering.Proofs.Mark.Block

namespace VipSteering.Balancer

variable {σ : Type}

structure Sound (floor : UInt32) (b : Balancer σ) : Prop where
  name : ∀ {n : String} {l : Lease}, b.registered[n]? = some l → l.name = n
  number_lt : ∀ {n : String} {l : Lease}, b.registered[n]? = some l → l.number < b.issued
  number_inj : ∀ {n m : String} {l k : Lease}, b.registered[n]? = some l →
    b.registered[m]? = some k → l.number = k.number → n = m
  /-- Leases yet to be issued have no targets. -/
  fresh : ∀ l : Lease, b.issued ≤ l.number → b.targetsOf l = ∅
  floor_le : ∀ {n : String} {l : Lease}, b.registered[n]? = some l → floor ≤ l.block.start
  within : ∀ {n : String} {l : Lease}, b.registered[n]? = some l →
    l.block.start.toNat + l.block.size.toNat ≤ Block.limit
  disjoint : ∀ {n m : String} {l k : Lease} {mark : UInt32}, b.registered[n]? = some l →
    b.registered[m]? = some k → l.block.contains mark = true → k.block.contains mark = true → n = m
  slot_lt : ∀ {n : String} {l : Lease} {slot : UInt32}, b.registered[n]? = some l →
    slot ∈ b.targetsOf l → slot < l.block.size

/-- The lease has been issued, and a service that goes by its number is registered under it. Its own
service may be gone. -/
structure Knows (b : Balancer σ) (l : Lease) : Prop where
  number_lt : l.number < b.issued
  unique : ∀ {n : String} {k : Lease}, b.registered[n]? = some k → k.number = l.number → k = l

theorem mem_leases {b : Balancer σ} {l : Lease} :
    l ∈ b.leases ↔ ∃ n : String, b.registered[n]? = some l := by
  simp only [leases, List.mem_map, Prod.exists, exists_eq_right,
    Std.ExtTreeMap.mem_toList_iff_getElem?_eq_some]

namespace Sound

variable {floor : UInt32} {b b' : Balancer σ} {l : Lease} {n : String}

theorem empty (floor : UInt32) (host : σ) : Sound floor ({ host } : Balancer σ) where
  name h := by simp at h
  number_lt h := by simp at h
  number_inj h := by simp at h
  fresh l _ := by simp [targetsOf]
  floor_le h := by simp at h
  within h := by simp at h
  disjoint h := by simp at h
  slot_lt h := by simp at h

/-- The books may be those of a balancer on another system. -/
theorem host {τ : Type} (h : Sound floor b) (host : τ) :
    Sound floor ({ b with host } : Balancer τ) :=
  ⟨h.name, h.number_lt, h.number_inj, h.fresh, h.floor_le, h.within, h.disjoint, h.slot_lt⟩

/-- A mark belongs to one slot of one service. -/
theorem mark_inj (h : Sound floor b) {m : String} {k : Lease} {s t : UInt32}
    (hl : b.registered[n]? = some l) (hk : b.registered[m]? = some k) (hs : s < l.block.size)
    (ht : t < k.block.size) (heq : l.mark s = k.mark t) : l = k ∧ s = t := by
  obtain ⟨hsum, hin⟩ := Block.contains_mark (h.within hl) hs
  obtain ⟨ksum, kin⟩ := Block.contains_mark (h.within hk) ht
  rw [Lease.mark, Lease.mark] at heq
  rw [heq] at hin hsum
  obtain rfl := h.disjoint hl hk hin kin
  obtain rfl : l = k := Option.some.inj (hl.symm.trans hk)
  refine ⟨rfl, UInt32.toNat_inj.mp ?_⟩
  omega

/-- Two leases of one number have the same targets, so it is enough to look at numbers. -/
theorem releases (h : Sound floor b) (hr : Releases l b b') : Sound floor b' := by
  have hreg := hr.registered
  have hiss := hr.issued
  have hmem {k : Lease} {slot : UInt32} (hs : slot ∈ b'.targetsOf k) : slot ∈ b.targetsOf k := by
    by_cases hk : k.number = l.number
    · rw [targetsOf_congr b hk]
      rw [targetsOf_congr b' hk] at hs
      exact hr.mem hs
    · rwa [hr.others k hk] at hs
  refine ⟨?_, ?_, ?_, ?_, ?_, ?_, ?_, ?_⟩
  · rw [hreg]; exact h.name
  · rw [hreg, hiss]; exact h.number_lt
  · rw [hreg]; exact h.number_inj
  · intro k hk
    rw [hiss] at hk
    apply Std.ExtTreeMap.eq_empty_iff_forall_not_mem.mpr
    intro slot hs
    have := hmem hs
    simp [h.fresh k hk] at this
  · rw [hreg]; exact h.floor_le
  · rw [hreg]; exact h.within
  · rw [hreg]; exact h.disjoint
  · rw [hreg]; exact fun hn hs => h.slot_lt hn (hmem hs)

/-- The lease that a service is registered under. -/
theorem knows (h : Sound floor b) (hl : b.registered[n]? = some l) : Knows b l := by
  refine ⟨h.number_lt hl, fun {m k} hk hnumber => ?_⟩
  obtain rfl := h.number_inj hk hl hnumber
  exact Option.some.inj (hk.symm.trans hl)

/-- A target may be recorded under a lease whose service is gone: targets go by the number. -/
theorem record (h : Sound floor b) (hl : Knows b l) {slot : UInt32}
    (hs : slot < l.block.size) (addresses : List Address) :
    Sound floor (b.alterTargets l (·.insert slot addresses)) where
  name := h.name
  number_lt := h.number_lt
  number_inj := h.number_inj
  fresh k hk := by
    have hne : k.number ≠ l.number := by
      have : b.issued ≤ k.number := hk
      have := hl.number_lt
      omega
    rw [targetsOf_alterTargets_of_ne b hne]
    exact h.fresh k hk
  floor_le := h.floor_le
  within := h.within
  disjoint := h.disjoint
  slot_lt {m k s} hm hmem := by
    by_cases hk : k.number = l.number
    · obtain rfl := hl.unique hm hk
      rw [targetsOf_alterTargets, Std.ExtTreeMap.mem_insert] at hmem
      rcases hmem with hmem | hmem
      · rwa [← Std.LawfulEqOrd.eq_of_compare hmem]
      · exact h.slot_lt hm hmem
    · rw [targetsOf_alterTargets_of_ne b hk] at hmem
      exact h.slot_lt hm hmem

theorem unregister (h : Sound floor b) (n : String) :
    Sound floor { b with registered := b.registered.erase n } := by
  have still {m : String} {k : Lease} (hm : (b.registered.erase n)[m]? = some k) :
      b.registered[m]? = some k := (of_getElem?_erase hm).2
  exact ⟨fun hm => h.name (still hm), fun hm => h.number_lt (still hm),
    fun hm hk => h.number_inj (still hm) (still hk), h.fresh, fun hm => h.floor_le (still hm),
    fun hm => h.within (still hm), fun hm hk => h.disjoint (still hm) (still hk),
    fun hm => h.slot_lt (still hm)⟩

/-- The block of the new lease is free, so it shares no mark with those of the others. -/
theorem register (h : Sound floor b) {slots : UInt32} {block : Block}
    (hblock : Block.allocate floor (b.leases.map (·.block)) slots = .ok block) (n : String) :
    Sound floor (register b n block).2 := by
  obtain ⟨-, -, hfloor, hfree⟩ := Block.allocate_ok hblock
  obtain ⟨hwithin, hfree⟩ := (Block.isFree_iff _ _).mp hfree
  have hfree {m : String} {k : Lease} (hm : b.registered[m]? = some k) (mark : UInt32)
      (hmark : block.contains mark = true) : k.block.contains mark ≠ true := by
    intro hk
    have hov := hfree k.block (List.mem_map.mpr ⟨k, mem_leases.mpr ⟨m, hm⟩, rfl⟩)
    rw [(Block.overlaps_iff _ _).mpr ⟨mark, hmark, hk⟩] at hov
    cases hov
  have cases_of {m : String} {k : Lease}
      (hm : (Balancer.register b n block).2.registered[m]? = some k) :
      (m = n ∧ k = ⟨b.issued, n, block⟩) ∨ (m ≠ n ∧ b.registered[m]? = some k) :=
    of_getElem?_insert hm
  refine ⟨?_, ?_, ?_, ?_, ?_, ?_, ?_, ?_⟩
  · intro m k hm
    rcases cases_of hm with ⟨rfl, rfl⟩ | ⟨-, old⟩
    · rfl
    · exact h.name old
  · intro m k hm
    change k.number < b.issued + 1
    rcases cases_of hm with ⟨rfl, rfl⟩ | ⟨-, old⟩
    · exact Nat.lt_succ_self _
    · exact Nat.lt_succ_of_lt (h.number_lt old)
  · intro m m' k k' hm hm' he
    rcases cases_of hm with ⟨rfl, rfl⟩ | ⟨-, old⟩ <;>
      rcases cases_of hm' with ⟨rfl, rfl⟩ | ⟨-, old'⟩
    · rfl
    · exact absurd (h.number_lt old') (by rw [← he]; exact Nat.lt_irrefl _)
    · exact absurd (h.number_lt old) (by rw [he]; exact Nat.lt_irrefl _)
    · exact h.number_inj old old' he
  · exact fun k hk => h.fresh k (Nat.le_of_succ_le hk)
  · intro m k hm
    rcases cases_of hm with ⟨rfl, rfl⟩ | ⟨-, old⟩
    · exact hfloor
    · exact h.floor_le old
  · intro m k hm
    rcases cases_of hm with ⟨rfl, rfl⟩ | ⟨-, old⟩
    · exact hwithin
    · exact h.within old
  · intro m m' k k' mark hm hm' hmark hmark'
    rcases cases_of hm with ⟨rfl, rfl⟩ | ⟨-, old⟩ <;>
      rcases cases_of hm' with ⟨rfl, rfl⟩ | ⟨-, old'⟩
    · rfl
    · exact absurd hmark' (hfree old' mark hmark)
    · exact absurd hmark (hfree old mark hmark')
    · exact h.disjoint old old' hmark hmark'
  · intro m k slot hm hs
    change slot ∈ b.targetsOf k at hs
    rcases cases_of hm with ⟨rfl, rfl⟩ | ⟨-, old⟩
    · simp [h.fresh ⟨b.issued, m, block⟩ (Nat.le_refl _)] at hs
    · exact h.slot_lt old hs

end Sound

variable [Shell σ] {floor : UInt32} {b : Balancer σ}

theorem addService_sound {settings : Settings} (h : Sound settings.firstMark b) (name : String)
    (slots : UInt32) : Sound settings.firstMark (addService settings name slots b).2 := by
  cases hn : b.registered[name]? with
  | some l =>
    rw [addService_eq, hn]
    exact h
  | none =>
    rcases addService_cases settings slots hn with ⟨_, host, he⟩ | ⟨block, host, hblock, he⟩
    · rw [he]; exact h.host host
    · rw [he]; exact (h.register hblock name).host host

theorem deleteService_sound (settings : Settings) (h : Sound floor b) (name : String) :
    Sound floor (deleteService settings name b).2 := by
  cases hn : b.registered[name]? with
  | none =>
    rw [deleteService_eq, hn]
    exact h
  | some l =>
    rcases deleteService_cases settings hn with ⟨_, _, he, hr⟩ | ⟨_, he, hr⟩
    · rw [he]; exact h.releases hr
    · rw [he]; exact (h.releases hr).unregister name

theorem addTarget_sound (program : String) {l : Lease} (h : Sound floor b) (hl : Knows b l)
    (addresses : List Address) (slot : UInt32) :
    Sound floor (addTarget program l addresses slot b).2 := by
  rw [addTarget_eq]
  split
  · exact h
  rename_i hslot
  split
  · exact h
  split
  · exact h.host _
  · exact (h.record hl (by simpa using hslot) addresses).host _

theorem deleteTarget_sound (program : String) (l : Lease) (h : Sound floor b) (slot : UInt32) :
    Sound floor (deleteTarget program l slot b).2 :=
  h.releases (deleteTarget_releases program l slot b)

/-- The books are sound, and the service is registered under the lease. -/
structure Leased (floor : UInt32) (n : String) (l : Lease) (b : Balancer σ) : Prop where
  sound : Sound floor b
  registered : b.registered[n]? = some l

section Leased

variable {n : String} {l : Lease}

theorem Leased.deleteTarget (h : Leased floor n l b) (program : String) (slot : UInt32) :
    Leased floor n l (deleteTarget program l slot b).2 := by
  refine ⟨deleteTarget_sound program l h.sound slot, ?_⟩
  rw [(deleteTarget_releases program l slot b).registered]
  exact h.registered

theorem Leased.addTarget (h : Leased floor n l b) (program : String) (addresses : List Address)
    (slot : UInt32) : Leased floor n l (addTarget program l addresses slot b).2 := by
  refine ⟨addTarget_sound program h.sound (h.sound.knows h.registered) addresses slot, ?_⟩
  rw [(addTarget_confined program l addresses slot b).registered]
  exact h.registered

end Leased

theorem heal_sound (h : Sound floor b) : Sound floor (heal b).2 := by
  obtain ⟨host, he⟩ := heal_eq b
  rw [he]
  exact h.host host

end VipSteering.Balancer
