import VipSteering.Proofs.Classifier.Sets
import VipSteering.Proofs.Net.Block

namespace VipSteering

open Host

namespace Interval

/-- The interval of a single address. -/
def single (a : Address) : Interval := ⟨a, a.next⟩

theorem isPlain_single (a : Address) : (single a).IsPlain := (Address.family_next a).symm

@[simp] theorem text_single (a : Address) : (single a).text = a.text := by
  rw [text, last, single, Address.prev_next, if_pos rfl]

/-- A single address is a block of the greatest length. -/
theorem isBlock_single (a : Address) : (single a).IsBlock (Cidr.width a) where
  length_le := Nat.le_refl (Cidr.width a)
  aligned := by
    change 1 <<< (Cidr.width a - Cidr.width a) ∣ a.value
    rw [Nat.sub_self]
    exact Nat.one_dvd _
  full := by
    have hlast : (single a).last = a := Address.prev_next a
    change (single a).last.value + 1 = a.value + 1 <<< (Cidr.width a - Cidr.width a)
    rw [hlast, Nat.sub_self, Nat.shiftLeft_zero]

end Interval

namespace Cidr

variable {net : Cidr}

theorem ofCidr_of_isHost (h : net.isHost = true) :
    Interval.ofCidr net = Interval.single net.address := by
  obtain ⟨address, length⟩ := net
  obtain rfl : length = width address := of_decide_eq_true h
  exact (Interval.isBlock_single address).ofCidr_eq (Interval.isPlain_single address).family_last

end Cidr

namespace HostDestinations

/-- The single address that a text names. -/
def address? (spec : String) : Option Address := (host? spec).map (·.address)

theorem isHost_of_host? {spec : String} {net : Cidr} (h : host? spec = some net) :
    net.isHost = true := by
  rw [host?] at h
  split at h
  · split at h
    · rename_i hhost
      rwa [← Option.some.inj h]
    · cases h
  · cases h

theorem mem_distinct {α : Type} [DecidableEq α] {a : α} {items : List α} :
    a ∈ distinct items ↔ a ∈ items := by
  have step (kept items : List α) :
      a ∈ items.foldl (fun kept item => if item ∈ kept then kept else kept ++ [item]) kept ↔
        a ∈ kept ∨ a ∈ items := by
    induction items generalizing kept with
    | nil => simp
    | cons item rest ih =>
      rw [List.foldl_cons, ih]
      split
      · rename_i hmem
        constructor
        · intro hgiven
          rcases hgiven with h | h
          · exact .inl h
          · exact .inr (List.mem_cons_of_mem _ h)
        · intro hgiven
          rcases hgiven with h | h
          · exact .inl h
          · rcases List.mem_cons.mp h with rfl | h
            · exact .inl hmem
            · exact .inr h
      · simp [or_assoc]
  rw [distinct, step]
  simp

theorem mem_intervals {i : Interval} {specs : List String} {family : Family} :
    i ∈ (ofCidrs specs).intervals family ↔
      ∃ spec ∈ specs, ∃ a, address? spec = some a ∧ a.family = family ∧ i = .single a := by
  have hfamily (net : Cidr) : net ∈ (ofCidrs specs).ofFamily family ↔
      net ∈ specs.filterMap host? ∧ net.address.family = family := by
    cases family with
    | ipv4 => simp [ofFamily, ofCidrs, mem_distinct, Address.isIpv4]
    | ipv6 =>
      have hne : net.address.family ≠ .ipv4 ↔ net.address.family = .ipv6 := by
        cases net.address.family <;> decide
      simp [ofFamily, ofCidrs, mem_distinct, Address.isIpv4, hne]
  rw [intervals, List.mem_map]
  constructor
  · intro hgiven
    obtain ⟨net, hnet, rfl⟩ := hgiven
    obtain ⟨hmem, hfam⟩ := (hfamily net).mp hnet
    obtain ⟨spec, hspec, hhost⟩ := List.mem_filterMap.mp hmem
    exact ⟨spec, hspec, net.address, by rw [address?, hhost]; rfl, hfam,
      Cidr.ofCidr_of_isHost (isHost_of_host? hhost)⟩
  · intro hgiven
    obtain ⟨spec, hspec, a, ha, hfam, rfl⟩ := hgiven
    obtain ⟨net, hhost, rfl⟩ := Option.map_eq_some_iff.mp ha
    exact ⟨net, (hfamily net).mpr ⟨List.mem_filterMap.mpr ⟨spec, hspec, hhost⟩, hfam⟩,
      Cidr.ofCidr_of_isHost (isHost_of_host? hhost)⟩

theorem isPlain_of_mem_intervals {i : Interval} {specs : List String} {family : Family}
    (h : i ∈ (ofCidrs specs).intervals family) : i.IsPlain := by
  obtain ⟨-, -, a, -, -, rfl⟩ := mem_intervals.mp h
  exact Interval.isPlain_single a

theorem mem_texts {e : String} {specs : List String} {family : Family} :
    e ∈ ((ofCidrs specs).intervals family).map Interval.text ↔
      ∃ a, (∃ spec ∈ specs, address? spec = some a) ∧ a.family = family ∧ a.text = e := by
  rw [List.mem_map]
  constructor
  · intro hgiven
    obtain ⟨i, hi, rfl⟩ := hgiven
    obtain ⟨spec, hspec, a, ha, hfam, rfl⟩ := mem_intervals.mp hi
    exact ⟨a, ⟨spec, hspec, ha⟩, hfam, (Interval.text_single a).symm⟩
  · intro hgiven
    obtain ⟨a, ⟨spec, hspec, ha⟩, hfam, rfl⟩ := hgiven
    exact ⟨.single a, mem_intervals.mpr ⟨spec, hspec, a, ha, hfam, rfl⟩, Interval.text_single a⟩

end HostDestinations

namespace Classifier

/-- The set of a family holds its share of some addresses. -/
def HoldsShare (tables : FilterTables) (family : Family) (addresses : Address → Prop) : Prop :=
  ∃ set, setOf tables family = some set ∧
    ∀ e, e ∈ set ↔ ∃ a, addresses a ∧ a.family = family ∧ a.text = e

/-- The set of each family holds its share of some addresses. -/
def Holds (tables : FilterTables) (addresses : Address → Prop) : Prop :=
  ∀ family, HoldsShare tables family addresses

/-- Each set holds addresses of its family. -/
def HoldsOwnFamily (tables : FilterTables) : Prop :=
  ∀ family, ∃ addresses, HoldsShare tables family addresses

section Share

variable {tables tables' : FilterTables} {family : Family} {addresses others : Address → Prop}

theorem Holds.ownFamily (h : Holds tables addresses) : HoldsOwnFamily tables :=
  fun family => ⟨_, h family⟩

theorem HoldsShare.congr (h : HoldsShare tables family addresses)
    (hsame : setOf tables' family = setOf tables family) :
    HoldsShare tables' family addresses := by
  obtain ⟨set, hset, hmem⟩ := h
  exact ⟨set, hsame.trans hset, hmem⟩

/-- A set holds the addresses of one share only. -/
theorem HoldsShare.iff (h : HoldsShare tables family addresses) :
    HoldsShare tables family others ↔ ∀ a, a.family = family → (others a ↔ addresses a) := by
  obtain ⟨set, hset, hmem⟩ := h
  have htext {a b : Address} (heq : a.text = b.text) : a = b := by
    have := congrArg Address.parse? heq
    rw [Address.parse?_text, Address.parse?_text] at this
    exact Option.some.inj this
  constructor
  · intro hother a hfam
    obtain ⟨set', hset', hmem'⟩ := hother
    obtain rfl : set = set' := Option.some.inj (hset.symm.trans hset')
    constructor
    · intro ha
      obtain ⟨b, hb, -, heq⟩ := (hmem a.text).mp ((hmem' a.text).mpr ⟨a, ha, hfam, rfl⟩)
      rwa [← htext heq]
    · intro ha
      obtain ⟨b, hb, -, heq⟩ := (hmem' a.text).mp ((hmem a.text).mpr ⟨a, ha, hfam, rfl⟩)
      rwa [← htext heq]
  · intro hsame
    refine ⟨set, hset, fun e => (hmem e).trans ?_⟩
    constructor
    · intro hgiven
      obtain ⟨a, ha, hfam, rfl⟩ := hgiven
      exact ⟨a, (hsame a hfam).mpr ha, hfam, rfl⟩
    · intro hgiven
      obtain ⟨a, ha, hfam, rfl⟩ := hgiven
      exact ⟨a, (hsame a hfam).mp ha, hfam, rfl⟩

end Share

/-- The host refuses a command without which the set of the family cannot be altered. -/
def RefusesSet (h : Host) (family : Family) : Prop :=
  h.Refuses (listCommand family) ∨ RefusesScripts h

/-- The addresses that some texts name. -/
def Named (cidrs : List String) (a : Address) : Prop :=
  ∃ spec ∈ cidrs, HostDestinations.address? spec = some a

section Update

variable {h : Host} {family : Family} {before : Address → Prop}

theorem updateSet_share (hbefore : HoldsShare h.tables family before) (cidrs : List String) :
    ∃ result tables journal,
      updateSet ((HostDestinations.ofCidrs cidrs).intervals family) family h =
        (result, { h with tables, journal }) ∧
      (∀ other, other ≠ family → setOf tables other = setOf h.tables other) ∧
      (RefusesSet h family → setOf tables family = setOf h.tables family) ∧
      (¬ RefusesSet h family → result = .ok ()) ∧
      (result = .ok () → HoldsShare tables family (Named cidrs)) := by
  obtain ⟨set, hset, hmem⟩ := hbefore
  have hplain : ∀ e ∈ set, ∃ i : Interval, i.IsPlain ∧ i.text = e := by
    intro e he
    obtain ⟨a, -, -, rfl⟩ := (hmem e).mp he
    exact ⟨.single a, Interval.isPlain_single a, Interval.text_single a⟩
  by_cases hl : h.Refuses (listCommand family)
  · obtain ⟨fault, journal, hrun⟩ := updateSet_unlisted hl
      ((HostDestinations.ofCidrs cidrs).intervals family)
    exact ⟨_, h.tables, journal, hrun, fun _ _ => rfl, fun _ => rfl,
      fun hopen => absurd (.inl hl) hopen, nofun⟩
  by_cases hs : RefusesScripts h → ∀ e, e ∈ set ↔
      e ∈ ((HostDestinations.ofCidrs cidrs).intervals family).map Interval.text
  · obtain ⟨set', tables, journal, hrun, hset', hmem', hother⟩ := updateSet_accepted hset hplain hl hs
      fun i => HostDestinations.isPlain_of_mem_intervals
    refine ⟨_, tables, journal, hrun, hother, fun hshut => ?_, fun _ => rfl, fun _ =>
      ⟨set', hset', fun e => (hmem' e).trans HostDestinations.mem_texts⟩⟩
    -- Without scripts nothing is altered, so nothing differed.
    have hsame := hs (hshut.resolve_left hl)
    rw [hset, hset', Std.ExtTreeSet.ext_mem fun e => (hmem' e).trans (hsame e).symm]
  · obtain ⟨hr, hdiffers⟩ := Classical.not_imp.mp hs
    obtain ⟨fault, journal, hrun⟩ := updateSet_refused hset hplain hl hr hdiffers
    exact ⟨_, h.tables, journal, hrun, fun _ _ => rfl, fun _ => rfl,
      fun hopen => absurd (.inr hr) hopen, nofun⟩

theorem setDestinations_share (hbefore : HoldsOwnFamily h.tables) (cidrs : List String) :
    ∃ tables journal, (setDestinations cidrs h).2 = { h with tables, journal } ∧
      (∀ family, (RefusesSet h family → setOf tables family = setOf h.tables family) ∧
        (¬ RefusesSet h family → HoldsShare tables family (Named cidrs))) ∧
      ((∀ family, ¬ RefusesSet h family) → (setDestinations cidrs h).1 = .ok ()) ∧
      ((setDestinations cidrs h).1 = .ok () → Holds tables (Named cidrs)) := by
  obtain ⟨before4, hbefore4⟩ := hbefore .ipv4
  obtain ⟨before6, hbefore6⟩ := hbefore .ipv6
  obtain ⟨result4, tables4, journal4, hrun4, hother4, hshut4, hopen4, hok4⟩ :=
    updateSet_share hbefore4 cidrs
  have hold6 : HoldsShare tables4 .ipv6 before6 := hbefore6.congr (hother4 .ipv6 (by decide))
  obtain ⟨result6, tables6, journal6, hrun6, hother6, hshut6, hopen6, hok6⟩ :=
    updateSet_share (h := { h with tables := tables4, journal := journal4 }) hold6 cidrs
  have hset4 : setOf tables6 .ipv4 = setOf tables4 .ipv4 := hother6 .ipv4 (by decide)
  have hstate : (setDestinations cidrs h).2 = { h with tables := tables6, journal := journal6 } := by
    rw [setDestinations]
    simp only [Task.bind_apply, attemptAll_cons, attemptAll_nil, hrun4, hrun6, Task.pure_apply]
  have hresult : (setDestinations cidrs h).1 = .ok () ↔ result4 = .ok () ∧ result6 = .ok () := by
    rw [setDestinations]
    simp only [Task.bind_apply, attemptAll_cons, attemptAll_nil, hrun4, hrun6, Task.pure_apply,
      Report.ofFaults_eq_ok]
    cases result4 <;> cases result6 <;> simp
  refine ⟨tables6, journal6, hstate, fun family => ?_, fun hopen => ?_, fun hok family => ?_⟩
  · cases family with
    | ipv4 => exact ⟨fun hshut => hset4.trans (hshut4 hshut),
        fun hopen => (hok4 (hopen4 hopen)).congr hset4⟩
    | ipv6 => exact ⟨fun hshut => (hshut6 hshut).trans (hother4 .ipv6 (by decide)),
        fun hopen => hok6 (hopen6 hopen)⟩
  · exact hresult.mpr ⟨hopen4 (hopen .ipv4), hopen6 (hopen .ipv6)⟩
  · obtain ⟨ok4, ok6⟩ := hresult.mp hok
    cases family with
    | ipv4 => exact (hok4 ok4).congr hset4
    | ipv6 => exact hok6 ok6

/-- Sets that hold what they are to hold are only listed. -/
theorem setDestinations_holds {cidrs : List String} (hholds : Holds h.tables (Named cidrs)) :
    (setDestinations cidrs h).2 = (h.record (listCommand .ipv4)).record (listCommand .ipv6) ∧
      ((∀ family, ¬ h.Refuses (listCommand family)) → (setDestinations cidrs h).1 = .ok ()) := by
  have hone (family : Family) (h' : Host) (htables : h'.tables = h.tables) :
      updateSet ((HostDestinations.ofCidrs cidrs).intervals family) family h' =
        (if h'.Refuses (listCommand family)
          then .error (.list family (failure (listCommand family) injected)) else .ok (),
          h'.record (listCommand family)) := by
    obtain ⟨set, hset, hmem⟩ := hholds family
    refine updateSet_eq_list (htables ▸ hset) (fun e he => ?_)
      (fun i => HostDestinations.isPlain_of_mem_intervals)
      fun e => (hmem e).trans HostDestinations.mem_texts.symm
    obtain ⟨a, -, -, rfl⟩ := (hmem e).mp he
    exact ⟨.single a, Interval.isPlain_single a, Interval.text_single a⟩
  have hrun4 := hone .ipv4 h rfl
  have hrun6 := hone .ipv6 (h.record (listCommand .ipv4)) rfl
  rw [setDestinations]
  simp only [Task.bind_apply, Task.pure_apply, attemptAll_cons, attemptAll_nil, hrun4, hrun6,
    true_and]
  intro hopen
  have hopen6 : ¬ (h.record (listCommand .ipv4)).Refuses (listCommand .ipv6) := hopen .ipv6
  rw [if_neg (hopen .ipv4), if_neg hopen6]
  rfl

theorem HoldsOwnFamily.of_share {tables : FilterTables} {addresses : Address → Prop}
    (hbefore : HoldsOwnFamily h.tables)
    (hafter : ∀ family, (RefusesSet h family → setOf tables family = setOf h.tables family) ∧
      (¬ RefusesSet h family → HoldsShare tables family addresses)) : HoldsOwnFamily tables := by
  intro family
  by_cases hshut : RefusesSet h family
  · obtain ⟨before, hb⟩ := hbefore family
    exact ⟨before, hb.congr ((hafter family).1 hshut)⟩
  · exact ⟨addresses, (hafter family).2 hshut⟩

end Update

theorem setDestinations_healthy {h : Host} (hf : h.faults = []) {before : Address → Prop}
    (hbefore : Holds h.tables before) (cidrs : List String) :
    ∃ tables journal, setDestinations cidrs h = (.ok (), { h with tables, journal }) ∧
      Holds tables fun a => ∃ spec ∈ cidrs, HostDestinations.address? spec = some a := by
  have hopen (family : Family) : ¬ RefusesSet h family := by
    intro hshut
    rcases hshut with hl | hs
    · exact not_refuses hf _ hl
    · exact not_refuses hf _ hs
  obtain ⟨tables, journal, hstate, -, hresult, hholds⟩ :=
    setDestinations_share hbefore.ownFamily cidrs
  exact ⟨tables, journal, Prod.ext (hresult hopen) hstate, hholds (hresult hopen)⟩

end Classifier
end VipSteering
