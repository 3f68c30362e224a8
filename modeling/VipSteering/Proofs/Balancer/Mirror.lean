import VipSteering.Balancer.Service
import VipSteering.Proofs.Balancer.Flows
import VipSteering.Proofs.Balancer.Routes
import VipSteering.Proofs.Balancer.Sound

namespace VipSteering.Balancer

open Host

variable {σ : Type}

/-- The addresses behind the mark of a recorded target. -/
def Held (b : Balancer σ) (mark : UInt32) (addresses : List Address) : Prop :=
  ∃ (n : String) (l : Lease) (slot : UInt32), b.registered[n]? = some l ∧
    (b.targetsOf l)[slot]? = some addresses ∧ mark = l.mark slot

/-- The slots of the recorded targets of a service, with their marks. -/
def marksOf (b : Balancer σ) (l : Lease) : Std.ExtTreeMap UInt32 UInt32 :=
  (b.targetsOf l).map fun slot _ => l.mark slot

theorem getElem?_marksOf (b : Balancer σ) (l : Lease) (slot : UInt32) :
    (b.marksOf l)[slot]? = (b.targetsOf l)[slot]?.map fun _ => l.mark slot :=
  Std.ExtTreeMap.getElem?_map

section Marks

variable {floor : UInt32} {b : Balancer σ} (h : Sound floor b)

include h

theorem Held.free {n : String} {l : Lease} {slot : UInt32} (hl : b.registered[n]? = some l)
    (hs : slot < l.block.size) (hfree : slot ∉ b.targetsOf l) (addresses : List Address) :
    ¬ Held b (l.mark slot) addresses := by
  intro hgiven
  obtain ⟨m, k, t, hk, hget, heq⟩ := hgiven
  have hmem : t ∈ b.targetsOf k := mem_of_getElem? hget
  obtain ⟨rfl, rfl⟩ := h.mark_inj hl hk hs (h.slot_lt hk hmem) heq
  exact hfree hmem

theorem held_record {n : String} {l : Lease} {slot : UInt32} (hl : b.registered[n]? = some l)
    (addresses : List Address) (hfree : slot ∉ b.targetsOf l) (m : UInt32) (as : List Address) :
    Held (b.alterTargets l (·.insert slot addresses)) m as ↔
      extend (Held b) (l.mark slot) addresses m as := by
  have hother {k : Lease} {name : String} (hk : b.registered[name]? = some k) (hne : k ≠ l) :
      k.number ≠ l.number := by
    intro heq
    obtain rfl := h.number_inj hk hl heq
    exact hne (Option.some.inj (hk.symm.trans hl))
  constructor
  · intro hgiven
    obtain ⟨name, k, t, hk, hget, rfl⟩ := hgiven
    by_cases hkl : k = l
    · subst hkl
      rw [targetsOf_alterTargets] at hget
      rcases of_getElem?_insert hget with ⟨rfl, rfl⟩ | ⟨-, hget⟩
      · exact .inr ⟨rfl, rfl⟩
      · exact .inl ⟨name, k, t, hk, hget, rfl⟩
    · rw [targetsOf_alterTargets_of_ne b (hother hk hkl)] at hget
      exact .inl ⟨name, k, t, hk, hget, rfl⟩
  · intro hgiven
    rcases hgiven with ⟨name, k, t, hk, hget, rfl⟩ | ⟨rfl, rfl⟩
    · refine ⟨name, k, t, hk, ?_, rfl⟩
      by_cases hkl : k = l
      · subst hkl
        have hne : slot ≠ t := by
          intro heq
          rw [heq] at hfree
          exact hfree (mem_of_getElem? hget)
        rw [targetsOf_alterTargets, getElem?_insert_of_ne hne, hget]
      · rw [targetsOf_alterTargets_of_ne b (hother hk hkl)]
        exact hget
    · refine ⟨n, l, slot, hl, ?_, rfl⟩
      rw [targetsOf_alterTargets, Std.ExtTreeMap.getElem?_insert_self]

end Marks

/-- Only services and targets matter. -/
theorem held_congr {b b' : Balancer σ} (hreg : b'.registered = b.registered)
    (htargets : ∀ l, b'.targetsOf l = b.targetsOf l) (m : UInt32) (as : List Address) :
    Held b' m as ↔ Held b m as := by
  simp only [Held, hreg, htargets]

theorem targetsOf_erase_insert (b : Balancer σ) {l : Lease} {slot : UInt32}
    {addresses : List Address} (h : (b.targetsOf l)[slot]? = some addresses) (k : Lease) :
    ((b.alterTargets l (·.erase slot)).alterTargets l (·.insert slot addresses)).targetsOf k =
      b.targetsOf k := by
  by_cases hk : k.number = l.number
  · rw [targetsOf_congr _ hk, targetsOf_congr b hk, targetsOf_alterTargets, targetsOf_alterTargets]
    refine Std.ExtTreeMap.ext_getElem? fun t => ?_
    rw [Std.ExtTreeMap.getElem?_insert, Std.ExtTreeMap.getElem?_erase]
    split
    · rename_i heq
      rw [← Std.LawfulEqOrd.eq_of_compare heq, h]
    · rfl
  · rw [targetsOf_alterTargets_of_ne _ hk, targetsOf_alterTargets_of_ne _ hk]

/-- A target that is given up is one mark less. -/
theorem held_erase {floor : UInt32} {b : Balancer σ} (h : Sound floor b) {n : String} {l : Lease}
    (hl : b.registered[n]? = some l) {slot : UInt32} {addresses : List Address}
    (hget : (b.targetsOf l)[slot]? = some addresses) :
    (∀ as, ¬ Held (b.alterTargets l (·.erase slot)) (l.mark slot) as) ∧
      ∀ m as, Held b m as ↔
        extend (Held (b.alterTargets l (·.erase slot))) (l.mark slot) addresses m as := by
  have hslot := h.slot_lt hl (mem_of_getElem? hget)
  have herased : Sound floor (b.alterTargets l (·.erase slot)) :=
    h.releases (Releases.erase l b slot b.host)
  have hfree : slot ∉ (b.alterTargets l (·.erase slot)).targetsOf l := by
    rw [targetsOf_alterTargets]
    simp
  refine ⟨Held.free herased hl hslot hfree, fun m as => ?_⟩
  exact (held_congr (b := b) (by rfl) (targetsOf_erase_insert b hget) m as).symm.trans
    (held_record herased hl addresses hfree m as)

/-- A service without targets holds no mark. -/
theorem held_unregister {b : Balancer σ} {n : String} {l : Lease} (hl : b.registered[n]? = some l)
    (hempty : b.targetsOf l = ∅) (m : UInt32) (as : List Address) :
    Held { b with registered := b.registered.erase n } m as ↔ Held b m as := by
  constructor
  · intro hgiven
    obtain ⟨name, k, slot, hk, hget, rfl⟩ := hgiven
    exact ⟨name, k, slot, (of_getElem?_erase hk).2, hget, rfl⟩
  · intro hgiven
    obtain ⟨name, k, slot, hk, hget, rfl⟩ := hgiven
    have hne : n ≠ name := by
      intro heq
      rw [heq] at hl
      obtain rfl : l = k := Option.some.inj (hl.symm.trans hk)
      rw [hempty] at hget
      simp at hget
    exact ⟨name, k, slot, (getElem?_erase_of_ne hne).trans hk, hget, rfl⟩

/-- A service holds no mark at first. -/
theorem held_register {floor : UInt32} {b : Balancer σ} (h : Sound floor b) {n : String}
    (hn : b.registered[n]? = none) (block : Block) (m : UInt32) (as : List Address) :
    Held (register b n block).2 m as ↔ Held b m as := by
  constructor
  · intro hgiven
    obtain ⟨name, k, slot, hk, hget, rfl⟩ := hgiven
    change (b.targetsOf k)[slot]? = some as at hget
    change (b.registered.insert n ⟨b.issued, n, block⟩)[name]? = some k at hk
    rcases of_getElem?_insert hk with ⟨-, rfl⟩ | ⟨-, hk⟩
    · rw [h.fresh _ (Nat.le_refl _)] at hget
      simp at hget
    · exact ⟨name, k, slot, hk, hget, rfl⟩
  · intro hgiven
    obtain ⟨name, k, slot, hk, hget, rfl⟩ := hgiven
    have hne : n ≠ name := by
      intro heq
      rw [heq, hk] at hn
      cases hn
    exact ⟨name, k, slot, (getElem?_insert_of_ne hne _).trans hk, hget, rfl⟩

structure Mirrored (b : Balancer Host) : Prop where
  faults : b.host.faults = []
  segments : ∀ n : String, b.host.hashing.segments[n]? = b.registered[n]?.map b.marksOf
  routed : Routed (Held b) b.host.routing
  readable : AllReadable b.host.hashing.flows
  vips : Classifier.Holds b.host.tables (Destined b.host.hashing.flows)

section Targets

variable {floor : UInt32} {b : Balancer Host} {program : String}
  (hp : Text.endsWith "nfqlb" program = true) (h : Sound floor b) (hm : Mirrored b) {n : String}
  {l : Lease} (hl : b.registered[n]? = some l)

include h hm hl

/-- The segment of a service follows its targets; the other segments stay. -/
theorem Mirrored.segments_alter (change : Targets → Targets)
    {slots : Std.ExtTreeMap UInt32 UInt32}
    (hslots : ∀ slot, slots[slot]? = ((change (b.targetsOf l))[slot]?).map fun _ => l.mark slot)
    (m : String) : (b.host.hashing.segments.insert n slots)[m]? =
      b.registered[m]?.map (b.alterTargets l change).marksOf := by
  rw [Std.ExtTreeMap.getElem?_insert]
  split
  · rename_i heq
    obtain rfl := Std.LawfulEqOrd.eq_of_compare heq
    rw [hl, Option.map_some]
    refine congrArg some (Std.ExtTreeMap.ext_getElem? fun slot => ?_)
    rw [hslots, getElem?_marksOf, targetsOf_alterTargets]
  · rename_i hne
    rw [hm.segments]
    cases hk : b.registered[m]? with
    | none => rfl
    | some k =>
      have hnum : k.number ≠ l.number := by
        intro heq
        obtain rfl := h.number_inj hk hl heq
        exact hne Std.ReflOrd.compare_self
      rw [Option.map_some, Option.map_some, marksOf, marksOf,
        targetsOf_alterTargets_of_ne b hnum]

include hp

theorem addTarget_mirrored (addresses : List Address) (slot : UInt32) :
    Mirrored (addTarget program l addresses slot b).2 ∧
      (addTarget program l addresses slot b).2.host.hashing.flows = b.host.hashing.flows := by
  by_cases hslot : l.block.size ≤ slot
  · rw [addTarget_eq, if_pos hslot]
    exact ⟨hm, rfl⟩
  by_cases hfree : slot ∈ b.targetsOf l
  · rw [addTarget_eq, if_neg hslot, if_pos hfree]
    exact ⟨hm, rfl⟩
  have hlt : slot < l.block.size := by simpa using hslot
  obtain rfl := h.name hl
  obtain ⟨journal, hrun⟩ := run_maglev (c := activateCommand program l.name slot (l.mark slot))
    hm.faults hp (Maglev.parse_activateCommand program l.name slot (l.mark slot))
  have hsegment : b.host.hashing.segments[l.name]? = some (b.marksOf l) := by
    rw [hm.segments, hl, Option.map_some]
  simp only [Maglev.perform, hsegment] at hrun
  obtain ⟨routing, journal, hroutes, hrouted⟩ := createRoutes_healthy (h := { b.host with
    hashing := { b.host.hashing with
      segments := b.host.hashing.segments.insert l.name ((b.marksOf l).insert slot (l.mark slot)) }
    journal }) hm.faults (Held.free h hl hlt hfree) hm.routed addresses
  have hadd : addTarget program l addresses slot b = (.ok (), { b.alterTargets l
      (·.insert slot addresses) with
        host := { b.host with
          hashing := { b.host.hashing with
            segments := b.host.hashing.segments.insert l.name
              ((b.marksOf l).insert slot (l.mark slot)) }
          routing
          journal } }) := by
    rw [addTarget_eq, if_neg hslot, if_neg hfree, hrun]
    simp only [hroutes]
  rw [hadd]
  refine ⟨⟨hm.faults, ?_, ?_, hm.readable, hm.vips⟩, rfl⟩
  · refine hm.segments_alter h hl (·.insert slot addresses) fun t => ?_
    rw [Std.ExtTreeMap.getElem?_insert, Std.ExtTreeMap.getElem?_insert, getElem?_marksOf]
    split
    · rename_i heq
      rw [Std.LawfulEqOrd.eq_of_compare heq]
      rfl
    · rfl
  · exact hrouted.congr (held_record h hl addresses hfree)

theorem deleteTarget_mirrored (slot : UInt32) :
    (deleteTarget program l slot b).1 = .ok () ∧ Mirrored (deleteTarget program l slot b).2 ∧
      (deleteTarget program l slot b).2.host.hashing.flows = b.host.hashing.flows := by
  by_cases hmem : (b.targetsOf l)[slot]? = none
  · rw [deleteTarget_eq, hmem]
    exact ⟨rfl, hm, rfl⟩
  obtain ⟨addresses, hget⟩ := Option.ne_none_iff_exists'.mp hmem
  obtain rfl := h.name hl
  obtain ⟨hfree, hheld⟩ := held_erase h hl hget
  have hrouted := hm.routed.congr fun m as => (hheld m as).symm
  obtain ⟨journal, hrun⟩ := run_maglev (c := deactivateCommand program l.name slot) hm.faults hp
    (Maglev.parse_deactivateCommand program l.name slot)
  have hsegment : b.host.hashing.segments[l.name]? = some (b.marksOf l) := by
    rw [hm.segments, hl, Option.map_some]
  simp only [Maglev.perform, hsegment] at hrun
  obtain ⟨routing, journal, hroutes, hrouted⟩ := deleteRoutes_healthy (h := { b.host with
    hashing := { b.host.hashing with
      segments := b.host.hashing.segments.insert l.name ((b.marksOf l).erase slot) }
    journal }) hm.faults hfree hrouted
  have hdelete : deleteTarget program l slot b = (.ok (), { b.alterTargets l (·.erase slot) with
      host := { b.host with
        hashing := { b.host.hashing with
          segments := b.host.hashing.segments.insert l.name ((b.marksOf l).erase slot) }
        routing
        journal } }) := by
    rw [deleteTarget_eq, hget]
    simp only [hrun, Outcome.deleted, hroutes]
  rw [hdelete]
  refine ⟨rfl, ⟨hm.faults, ?_, hrouted, hm.readable, hm.vips⟩, rfl⟩
  refine hm.segments_alter h hl (·.erase slot) fun t => ?_
  rw [Std.ExtTreeMap.getElem?_erase, Std.ExtTreeMap.getElem?_erase, getElem?_marksOf]
  split
  · rfl
  · rfl

/-- Whatever slots are given up, no fault is met. -/
theorem releaseAll_mirrored (slots : List UInt32) :
    (attemptAll (deleteTarget program l) slots b).1 = [] ∧
      Mirrored (attemptAll (deleteTarget program l) slots b).2 ∧
      (attemptAll (deleteTarget program l) slots b).2.host.hashing.flows =
        b.host.hashing.flows := by
  induction slots generalizing b with
  | nil => exact ⟨rfl, hm, rfl⟩
  | cons slot rest ih =>
    obtain ⟨hok, hmirrored, hflows⟩ := deleteTarget_mirrored hp h hm hl slot
    have hreg := (deleteTarget_releases program l slot b).registered
    obtain ⟨hnil, hmirrored, hflows'⟩ := ih (deleteTarget_sound program l h slot) hmirrored
      (by rw [hreg]; exact hl)
    rw [attemptAll_cons]
    simp only [hok]
    exact ⟨hnil, hmirrored, hflows'.trans hflows⟩

theorem releaseTargets_mirrored :
    (releaseTargets program l b).1 = [] ∧ Mirrored (releaseTargets program l b).2 ∧
      (releaseTargets program l b).2.host.hashing.flows = b.host.hashing.flows :=
  releaseAll_mirrored hp h hm hl (b.targetsOf l).keys

end Targets

section Services

variable {floor : UInt32} {b : Balancer Host} {n : String} {l : Lease}

theorem marksOf_empty (h : b.targetsOf l = ∅) : b.marksOf l = ∅ := by
  refine Std.ExtTreeMap.ext_getElem? fun slot => ?_
  rw [getElem?_marksOf, h]
  simp

/-- A service without targets can be taken off the books. -/
theorem Mirrored.unregister (hm : Mirrored b) (hl : b.registered[n]? = some l)
    (hempty : b.targetsOf l = ∅) : Mirrored { b with
      registered := b.registered.erase n
      host := { b.host with
        hashing := { b.host.hashing with segments := b.host.hashing.segments.erase n } } } where
  faults := hm.faults
  segments m := by
    change (b.host.hashing.segments.erase n)[m]? = (b.registered.erase n)[m]?.map b.marksOf
    rw [Std.ExtTreeMap.getElem?_erase, Std.ExtTreeMap.getElem?_erase, hm.segments]
    split
    · rfl
    · rfl
  routed := hm.routed.congr (held_unregister hl hempty)
  readable := hm.readable
  vips := hm.vips

theorem Mirrored.register (hm : Mirrored b) (h : Sound floor b) (hn : b.registered[n]? = none)
    (block : Block) : Mirrored { (register b n block).2 with
      host := { b.host with
        hashing := { b.host.hashing with segments := b.host.hashing.segments.insert n ∅ } } } where
  faults := hm.faults
  segments m := by
    change (b.host.hashing.segments.insert n ∅)[m]? =
      (b.registered.insert n ⟨b.issued, n, block⟩)[m]?.map b.marksOf
    rw [Std.ExtTreeMap.getElem?_insert, Std.ExtTreeMap.getElem?_insert, hm.segments]
    split
    · rw [Option.map_some, marksOf_empty (h.fresh _ (Nat.le_refl _))]
    · rfl
  routed := hm.routed.congr (held_register h hn block)
  readable := hm.readable
  vips := hm.vips

variable {settings : Settings} (hp : Text.endsWith "nfqlb" settings.program = true)

include hp

theorem addService_mirrored (hm : Mirrored b) (h : Sound floor b) (hn : b.registered[n]? = none)
    (slots : UInt32) : Mirrored (addService settings n slots b).2 ∧
      (addService settings n slots b).2.host.hashing.flows = b.host.hashing.flows := by
  rw [addService_eq, hn]
  cases Block.allocate settings.firstMark (b.leases.map (·.block)) slots with
  | error fault => exact ⟨hm, rfl⟩
  | ok block =>
    obtain ⟨journal, hrun⟩ := run_maglev (c := initCommand settings.program n slots) hm.faults hp
      (Maglev.parse_initCommand settings.program n slots)
    simp only [Maglev.perform] at hrun
    rw [hrun]
    obtain ⟨-, segments, routed, -, -⟩ := hm.register h hn block
    exact ⟨⟨hm.faults, segments, routed, hm.readable, hm.vips⟩, rfl⟩

theorem clearHost_healthy {h : Host} (hf : h.faults = []) (hreadable : AllReadable h.hashing.flows)
    (hvips : Classifier.Holds h.tables (Destined h.hashing.flows)) {name : String}
    (hsegment : name ∈ h.hashing.segments) :
    ∃ flows tables journal, clearHost settings.program name h = (([], []), { h with
        hashing := ⟨h.hashing.segments.erase name, flows⟩, tables, journal }) ∧
      AllReadable flows ∧ Classifier.Holds tables (Destined flows) ∧
      ∀ key : String, flows[key]? = h.hashing.flows[key]?.filter (·.target ≠ name) := by
  obtain ⟨flows, tables, journal, hflows, hreadable, hvips, hget⟩ :=
    deleteFlows_healthy hf hp hreadable hvips name
  obtain ⟨journal, hrun⟩ := run_maglev (h := { h with
    hashing := { h.hashing with flows }, tables, journal }) (c := deleteCommand settings.program name)
    hf hp (Maglev.parse_deleteCommand settings.program name)
  simp only [Maglev.perform, if_pos hsegment] at hrun
  refine ⟨flows, tables, journal, ?_, hreadable, hvips, hget⟩
  rw [clearHost, deleteSegment]
  simp only [Task.bind_apply, hflows, hrun]
  rfl

/-- A service goes with its flows. -/
theorem deleteService_mirrored (hm : Mirrored b) (h : Sound floor b)
    (hl : b.registered[n]? = some l) :
    (deleteService settings n b).1 = .ok () ∧ Mirrored (deleteService settings n b).2 ∧
      ∀ key : String, (deleteService settings n b).2.host.hashing.flows[key]? =
        b.host.hashing.flows[key]?.filter (·.target ≠ n) := by
  obtain ⟨hnil, hreleased, hflows⟩ := releaseTargets_mirrored hp h hm hl
  have hempty := releaseTargets_empty hnil
  have hreg := (releaseTargets_releases settings.program l b).registered
  have hl' : (releaseTargets settings.program l b).2.registered[n]? = some l := by rw [hreg, hl]
  have hsegment : n ∈ (releaseTargets settings.program l b).2.host.hashing.segments := by
    rw [Std.ExtTreeMap.mem_iff_isSome_getElem?, hreleased.segments, hl']
    rfl
  obtain ⟨flows, tables, journal, hclear, hreadable, hvips, hget⟩ :=
    clearHost_healthy hp hreleased.faults hreleased.readable hreleased.vips hsegment
  obtain ⟨hfaults, hsegments, hrouted, -, -⟩ := hreleased.unregister hl' hempty
  rw [deleteService_eq, hl]
  simp only [hnil, hclear]
  refine ⟨rfl, ⟨hfaults, hsegments, hrouted, hreadable, hvips⟩, fun key => ?_⟩
  rw [← hflows]
  exact hget key

theorem addFlow_mirrored (hm : Mirrored b) (service : String) (flow : Flow) :
    Mirrored { b with host := (addFlow settings.program service flow b.host).2 } ∧
      (addFlow settings.program service flow b.host).2.hashing.flows =
        b.host.hashing.flows.insert flow.name (Maglev.entryOf service flow) := by
  obtain ⟨tables, journal, hadd, hreadable, hvips⟩ :=
    addFlow_healthy hm.faults hp hm.readable hm.vips service flow
  rw [hadd]
  exact ⟨⟨hm.faults, hm.segments, hm.routed, hreadable, hvips⟩, rfl⟩

theorem deleteFlow_mirrored (hm : Mirrored b) (name : String) :
    Mirrored { b with host := (deleteFlow settings.program name b.host).2 } ∧
      (deleteFlow settings.program name b.host).2.hashing.flows =
        b.host.hashing.flows.erase name := by
  obtain ⟨tables, journal, hdelete, hreadable, hvips⟩ :=
    deleteFlow_healthy hm.faults hp hm.readable hm.vips name
  rw [hdelete]
  exact ⟨⟨hm.faults, hm.segments, hm.routed, hreadable, hvips⟩, rfl⟩

end Services

end VipSteering.Balancer
