import VipSteering.Proofs.Balancer.Identified
import VipSteering.Proofs.Balancer.Mirror
import VipSteering.Proofs.Balancer.Refusals

namespace VipSteering.Balancer

open Host

theorem heal_frame (b : Balancer Host) :
    ∃ routing journal, (heal b).2 = { b with host := { b.host with routing, journal } } := by
  refine Task.forM_keeps
    (P := fun c => ∃ routing journal, c = { b with host := { b.host with routing, journal } })
    (fun l _ c hgiven => ?_) ⟨b.host.routing, b.host.journal, rfl⟩
  obtain ⟨routing, journal, rfl⟩ := hgiven
  have hroutes : Only (·.program = "ip") (((b.targetsOf l).toList.forM fun target =>
      createRoutes (l.mark target.1) target.2 : StateM Host Unit)) :=
    .forM fun target _ => createRoutes_ip (l.mark target.1) target.2
  obtain ⟨routing, journal, heq⟩ := only_ip_frame hroutes { b.host with routing, journal }
  exact ⟨routing, journal, congrArg (fun host => { b with host }) heq⟩

/-- Each segment is that of a registered service, and its slots carry the marks of the recorded
targets. -/
structure SegmentsMatch (settings : Settings) (b : Balancer Host) : Prop where
  sound : Sound settings.firstMark b
  /-- Services are only set up by a program that has segments. -/
  program : ∀ {n : String} {l : Lease}, b.registered[n]? = some l →
    Text.endsWith "nfqlb" settings.program = true
  segment : ∀ {n : String} {slots : Std.ExtTreeMap UInt32 UInt32},
    b.host.hashing.segments[n]? = some slots →
      ∃ l, b.registered[n]? = some l ∧ slots = b.marksOf l

namespace SegmentsMatch

variable {settings : Settings} {b b' : Balancer Host} {n : String} {l : Lease}

/-- Of the host only the segments matter. -/
theorem host (h : SegmentsMatch settings b) {host : Host}
    (hsegments : host.hashing.segments = b.host.hashing.segments) :
    SegmentsMatch settings { b with host } where
  sound := h.sound.host host
  program := h.program
  segment hslots := h.segment (hsegments ▸ hslots)

/-- One service may get other targets, if its segment, as far as there is one, follows. -/
theorem confined (h : SegmentsMatch settings b) (hl : b.registered[n]? = some l)
    (hb : Confined l b b') (hs : Sound settings.firstMark b')
    (hown : ∀ slots, b'.host.hashing.segments[n]? = some slots → slots = b'.marksOf l)
    (hothers : ∀ m, m ≠ n →
      b'.host.hashing.segments[m]? = b.host.hashing.segments[m]?) : SegmentsMatch settings b' where
  sound := hs
  program hk := h.program (hb.registered ▸ hk)
  segment {m slots} hslots := by
    by_cases hm : m = n
    · subst hm
      exact ⟨l, by rw [hb.registered, hl], hown slots hslots⟩
    · rw [hothers m hm] at hslots
      obtain ⟨k, hk, rfl⟩ := h.segment hslots
      have hnum : k.number ≠ l.number := fun heq => hm (h.sound.number_inj hk hl heq)
      exact ⟨k, by rw [hb.registered, hk], by rw [marksOf, marksOf, hb.others k hnum]⟩

theorem unregister (h : SegmentsMatch settings b) (hn : n ∉ b.host.hashing.segments) :
    SegmentsMatch settings { b with registered := b.registered.erase n } where
  sound := h.sound.unregister n
  program hk := h.program (of_getElem?_erase hk).2
  segment {m slots} hslots := by
    obtain ⟨k, hk, rfl⟩ := h.segment hslots
    have hne : n ≠ m := by
      intro heq
      rw [heq] at hn
      exact hn (mem_of_getElem? hslots)
    exact ⟨k, (getElem?_erase_of_ne hne).trans hk, rfl⟩

theorem register (h : SegmentsMatch settings b) (hn : b.registered[n]? = none)
    (hp : Text.endsWith "nfqlb" settings.program = true) {slots : UInt32} {block : Block}
    (hblock : Block.allocate settings.firstMark (b.leases.map (·.block)) slots = .ok block)
    {host : Host} (hsegments : host.hashing.segments = b.host.hashing.segments.insert n ∅) :
    SegmentsMatch settings { (Balancer.register b n block).2 with host } where
  sound := (h.sound.register hblock n).host host
  program _ := hp
  segment {m found} hfound := by
    change host.hashing.segments[m]? = some found at hfound
    rw [hsegments] at hfound
    rcases of_getElem?_insert hfound with ⟨rfl, rfl⟩ | ⟨hne, hfound⟩
    · refine ⟨⟨b.issued, m, block⟩, Std.ExtTreeMap.getElem?_insert_self, ?_⟩
      exact (marksOf_empty (h.sound.fresh _ (Nat.le_refl _))).symm
    · obtain ⟨k, hk, rfl⟩ := h.segment hfound
      exact ⟨k, (getElem?_insert_of_ne (Ne.symm hne) _).trans hk, rfl⟩

end SegmentsMatch

section Targets

variable {settings : Settings} {b : Balancer Host} {n : String} {l : Lease}

theorem marksOf_insert (b : Balancer Host) (l : Lease) (slot : UInt32) (addresses : List Address) :
    (b.alterTargets l (·.insert slot addresses)).marksOf l =
      (b.marksOf l).insert slot (l.mark slot) := by
  refine Std.ExtTreeMap.ext_getElem? fun t => ?_
  rw [getElem?_marksOf, targetsOf_alterTargets, Std.ExtTreeMap.getElem?_insert,
    Std.ExtTreeMap.getElem?_insert, getElem?_marksOf]
  split
  · rename_i heq
    rw [Std.LawfulEqOrd.eq_of_compare heq]
    rfl
  · rfl

theorem marksOf_erase (b : Balancer Host) (l : Lease) (slot : UInt32) :
    (b.alterTargets l (·.erase slot)).marksOf l = (b.marksOf l).erase slot := by
  refine Std.ExtTreeMap.ext_getElem? fun t => ?_
  rw [getElem?_marksOf, targetsOf_alterTargets, Std.ExtTreeMap.getElem?_erase,
    Std.ExtTreeMap.getElem?_erase, getElem?_marksOf]
  split
  · rfl
  · rfl

theorem addTarget_segmentsMatch (h : SegmentsMatch settings b) (hl : b.registered[n]? = some l)
    (addresses : List Address) (slot : UInt32) :
    SegmentsMatch settings (addTarget settings.program l addresses slot b).2 := by
  obtain rfl := h.sound.name hl
  rw [addTarget_eq]
  split
  · exact h
  rename_i hslot
  split
  · exact h
  rw [run_maglev_eq (h.program hl)
    (Maglev.parse_activateCommand settings.program l.name slot (l.mark slot))]
  by_cases href : b.host.Refuses (activateCommand settings.program l.name slot (l.mark slot))
  · rw [if_pos href]
    exact h.host rfl
  rw [if_neg href]
  cases hsegment : b.host.hashing.segments[l.name]? with
  | none =>
    simp only [Maglev.perform, hsegment]
    exact h.host rfl
  | some slots =>
    simp only [Maglev.perform, hsegment]
    obtain ⟨k, hk, rfl⟩ := h.segment hsegment
    obtain rfl : l = k := Option.some.inj (hl.symm.trans hk)
    obtain ⟨routing, journal, hroutes⟩ := only_ip_frame (createRoutes_ip (l.mark slot) addresses)
      { b.host.record (activateCommand settings.program l.name slot (l.mark slot)) with
        hashing := { b.host.hashing with
          segments := b.host.hashing.segments.insert l.name
            ((b.marksOf l).insert slot (l.mark slot)) } }
    rw [hroutes]
    refine h.confined hl (.alter l b _ _)
      ((h.sound.record (h.sound.knows hl) (by simpa using hslot) addresses).host _)
      (fun found hfound => ?_) fun m hne => getElem?_insert_of_ne (Ne.symm hne) _
    change (b.host.hashing.segments.insert l.name _)[l.name]? = some found at hfound
    rw [Std.ExtTreeMap.getElem?_insert_self] at hfound
    exact (Option.some.inj hfound).symm.trans (marksOf_insert b l slot addresses).symm

/-- A slot of a segment that is gone is as good as deactivated. -/
theorem deleteTarget_segmentsMatch (h : SegmentsMatch settings b) (hl : b.registered[n]? = some l)
    (slot : UInt32) : SegmentsMatch settings (deleteTarget settings.program l slot b).2 := by
  obtain rfl := h.sound.name hl
  rw [deleteTarget_eq]
  split
  · exact h
  rename_i addresses hget
  rw [run_maglev_eq (h.program hl)
    (Maglev.parse_deactivateCommand settings.program l.name slot)]
  by_cases href : b.host.Refuses (deactivateCommand settings.program l.name slot)
  · simp only [if_pos href, deleted_injected]
    exact h.host rfl
  simp only [if_neg href]
  have erased {host : Host} (hown : ∀ slots, host.hashing.segments[l.name]? = some slots →
      slots = (b.marksOf l).erase slot)
      (hothers : ∀ m, m ≠ l.name → host.hashing.segments[m]? = b.host.hashing.segments[m]?) :
      SegmentsMatch settings { b.alterTargets l (·.erase slot) with
        host := (deleteRoutes (l.mark slot) addresses host).2 } := by
    obtain ⟨routing, journal, hroutes⟩ := only_ip_frame (deleteRoutes_ip (l.mark slot) addresses) host
    rw [hroutes]
    exact h.confined hl (.alter l b _ _) (h.sound.releases (.erase l b slot _))
      (fun found hfound => (hown found hfound).trans (marksOf_erase b l slot).symm) hothers
  cases hsegment : b.host.hashing.segments[l.name]? with
  | none =>
    simp only [Maglev.perform, hsegment, Maglev.absentSegment, Outcome.deleted_absent]
    refine erased (fun slots hslots => ?_) fun m _ => rfl
    change b.host.hashing.segments[l.name]? = some slots at hslots
    rw [hsegment] at hslots
    cases hslots
  | some slots =>
    simp only [Maglev.perform, hsegment, Outcome.deleted]
    obtain ⟨k, hk, rfl⟩ := h.segment hsegment
    obtain rfl : l = k := Option.some.inj (hl.symm.trans hk)
    refine erased (fun found hfound => ?_) fun m hne => getElem?_insert_of_ne (Ne.symm hne) _
    change (b.host.hashing.segments.insert l.name _)[l.name]? = some found at hfound
    rw [Std.ExtTreeMap.getElem?_insert_self] at hfound
    exact (Option.some.inj hfound).symm

theorem releaseTargets_segmentsMatch (h : SegmentsMatch settings b) (hl : b.registered[n]? = some l) :
    SegmentsMatch settings (releaseTargets settings.program l b).2 := by
  refine (attemptAll_keeps (P := fun c => SegmentsMatch settings c ∧ c.registered[n]? = some l)
    (fun slot _ c hgiven => ?_) ⟨h, hl⟩).1
  obtain ⟨hc, hcl⟩ := hgiven
  refine ⟨deleteTarget_segmentsMatch hc hcl slot, ?_⟩
  rw [(deleteTarget_releases settings.program l slot c).registered]
  exact hcl

end Targets

section Services

variable {settings : Settings} {b : Balancer Host} {n : String} {l : Lease}

theorem addService_segmentsMatch (h : SegmentsMatch settings b) (name : String) (slots : UInt32) :
    SegmentsMatch settings (addService settings name slots b).2 := by
  rw [addService_eq]
  split
  · exact h
  rename_i hn
  split
  · exact h
  rename_i block hblock
  cases hran : (Shell.run (initCommand settings.program name slots) b.host).1 with
  | error cause =>
    have hstate := run_error hran
    rw [← Prod.mk.eta (p := Shell.run (initCommand settings.program name slots) b.host), hran,
      hstate]
    exact h.host rfl
  | ok output =>
    have hp := endsWith_of_init hran
    have hrun := run_maglev_eq hp (Maglev.parse_initCommand settings.program name slots) b.host
    by_cases href : b.host.Refuses (initCommand settings.program name slots)
    · rw [run_refused href] at hran
      cases hran
    · rw [hrun, if_neg href]
      exact h.register hn hp hblock rfl

/-- Flows and segment of a service, as far as they are deleted. -/
theorem clearHost_segmentsMatch (h : SegmentsMatch settings b) (hl : b.registered[n]? = some l) :
    SegmentsMatch settings { b with host := (clearHost settings.program n b.host).2 } := by
  obtain ⟨flows, tables, journal, hcleared, -⟩ := clearHost_frame (h.program hl) b.host n
  rw [hcleared]
  refine h.confined hl (.host l b _) (h.sound.host _) (fun slots hslots => ?_) fun m hne => ?_
  · have hslots : b.host.hashing.segments[n]? = some slots := by
      change (if b.host.Refuses (deleteCommand settings.program n) then b.host.hashing.segments
        else b.host.hashing.segments.erase n)[n]? = some slots at hslots
      split at hslots
      · exact hslots
      · exact (of_getElem?_erase hslots).2
    obtain ⟨k, hk, rfl⟩ := h.segment hslots
    obtain rfl : l = k := Option.some.inj (hl.symm.trans hk)
    rfl
  · change (if b.host.Refuses (deleteCommand settings.program n) then b.host.hashing.segments
      else b.host.hashing.segments.erase n)[m]? = _
    split
    · rfl
    · exact getElem?_erase_of_ne (Ne.symm hne)

/-- A service is off the books only if its segment is gone. -/
theorem deleteService_segmentsMatch (h : SegmentsMatch settings b) (name : String) :
    SegmentsMatch settings (deleteService settings name b).2 := by
  cases hl : b.registered[name]? with
  | none =>
    rw [deleteService_absent settings hl, erase_absent hl]
    exact h
  | some l =>
    have hreleased := releaseTargets_segmentsMatch h hl
    have hl' : (releaseTargets settings.program l b).2.registered[name]? = some l := by
      rw [(releaseTargets_releases settings.program l b).registered, hl]
    have hcleared := clearHost_segmentsMatch hreleased hl'
    rw [deleteService_eq, hl]
    dsimp only
    split
    · exact hcleared
    · rename_i hgather
      refine hcleared.unregister ?_
      rw [Report.gather_eq_ok, List.append_eq_nil_iff, List.map_eq_nil_iff] at hgather
      obtain ⟨flows, tables, journal, hleft, hnil⟩ :=
        clearHost_frame (h.program hl) (releaseTargets settings.program l b).2.host name
      rw [hleft]
      simp [hnil.mp hgather.2]

end Services

/-- Something is asked of a balancer, or its host is disturbed. -/
inductive Operation.Step where
  | operate (op : Operation)
  | disturb (d : Disturbance)

def Operation.Step.apply (settings : Settings) (b : Balancer Host) :
    Operation.Step → Balancer Host
  | operate op => op.perform settings b
  | disturb d => { b with host := d.apply b.host }

/-- What is left after steps in turn. -/
def Operation.afterSteps (settings : Settings) (steps : List Step) (b : Balancer Host) :
    Balancer Host :=
  steps.foldl (Step.apply settings) b

section Run

variable {settings : Settings} {b : Balancer Host}

theorem perform_segmentsMatch (h : SegmentsMatch settings b) (op : Operation) :
    SegmentsMatch settings (op.perform settings b) := by
  cases op with
  | addService name slots => exact addService_segmentsMatch h name slots
  | deleteService name => exact deleteService_segmentsMatch h name
  | addFlow name flow =>
    refine Operation.withLease_keeps h fun l hl => ?_
    obtain ⟨tables, journal, hadd⟩ := addFlow_frame (h.program hl) b.host l.name flow
    exact h.host (congrArg (·.hashing.segments) hadd)
  | deleteFlow name flow =>
    refine Operation.withLease_keeps h fun l hl => ?_
    obtain ⟨tables, journal, hdelete⟩ := deleteFlow_frame (h.program hl) b.host flow.name
    exact h.host (congrArg (·.hashing.segments) hdelete)
  | addTarget name addresses slot =>
    exact Operation.withLease_keeps h fun l hl => addTarget_segmentsMatch h hl addresses slot
  | deleteTarget name addresses slot =>
    exact Operation.withLease_keeps h fun l hl => deleteTarget_segmentsMatch h hl slot
  | heal =>
    obtain ⟨routing, journal, hheal⟩ := heal_frame b
    change SegmentsMatch settings (heal b).2
    rw [hheal]
    exact h.host rfl

theorem afterSteps_segmentsMatch (h : SegmentsMatch settings b) (steps : List Operation.Step) :
    SegmentsMatch settings (Operation.afterSteps settings steps b) := by
  induction steps generalizing b with
  | nil => exact h
  | cons step rest ih =>
    cases step with
    | operate op => exact ih (perform_segmentsMatch h op)
    | disturb d =>
      obtain ⟨faults, hd⟩ := d.apply_frame b.host
      exact ih (h.host (congrArg (·.hashing.segments) hd))

/-- Books and segments agree on the active slots. -/
structure Agreed (b : Balancer Host) : Prop where
  /-- A segment is that of a registered service, and its active slots are those of the recorded
  targets, each with the mark at its place in the block. -/
  segment : ∀ (n : String) (slots : Std.ExtTreeMap UInt32 UInt32),
    b.host.hashing.segments[n]? = some slots → ∃ l, b.registered[n]? = some l ∧
      ∀ slot mark : UInt32, slots[slot]? = some mark ↔
        slot ∈ b.targetsOf l ∧ mark.toNat = l.block.start.toNat + slot.toNat
  /-- The marks of a service without a segment are active nowhere. -/
  gone : ∀ (n : String) (l : Lease), b.registered[n]? = some l → n ∉ b.host.hashing.segments →
    ∀ (m : String) (slot mark : UInt32), Active b.host.hashing m slot mark →
      l.block.contains mark = false

theorem SegmentsMatch.agreed (h : SegmentsMatch settings b) : Agreed b where
  segment n slots hslots := by
    obtain ⟨l, hl, rfl⟩ := h.segment hslots
    refine ⟨l, hl, fun slot mark => ?_⟩
    rw [getElem?_marksOf, Option.map_eq_some_iff]
    constructor
    · intro hgiven
      obtain ⟨addresses, hget, rfl⟩ := hgiven
      have hmem : slot ∈ b.targetsOf l := mem_of_getElem? hget
      exact ⟨hmem, (Block.contains_mark (h.sound.within hl) (h.sound.slot_lt hl hmem)).1⟩
    · intro hgiven
      obtain ⟨hmem, hmark⟩ := hgiven
      obtain ⟨addresses, hget⟩ := exists_of_mem hmem
      refine ⟨addresses, hget, UInt32.toNat_inj.mp ?_⟩
      rw [hmark]
      exact (Block.contains_mark (h.sound.within hl) (h.sound.slot_lt hl hmem)).1
  gone n l hl hn m slot mark hactive := by
    obtain ⟨slots, hslots, hmark⟩ := hactive
    obtain ⟨k, hk, rfl⟩ := h.segment hslots
    rw [getElem?_marksOf, Option.map_eq_some_iff] at hmark
    obtain ⟨addresses, hget, rfl⟩ := hmark
    have hin := (Block.contains_mark (h.sound.within hk)
      (h.sound.slot_lt hk (mem_of_getElem? hget))).2
    cases hother : l.block.contains (k.mark slot) with
    | false => rfl
    | true =>
      obtain rfl := h.sound.disjoint hl hk hother hin
      exact absurd (mem_of_getElem? hslots) hn

/-- From a host without segments on, books and segments agree, whatever a balancer is asked to do and
whatever commands its host refuses. -/
theorem afterSteps_agreed (settings : Settings) (h : Host) (steps : List Operation.Step) :
    Agreed (Operation.afterSteps settings steps
      { host := { h with hashing := { h.hashing with segments := ∅ } } }) := by
  have hempty : SegmentsMatch settings
      { host := { h with hashing := { h.hashing with segments := ∅ } } } :=
    ⟨.empty _ _, fun hl => by simp at hl, fun hslots => by simp at hslots⟩
  exact (afterSteps_segmentsMatch hempty steps).agreed

end Run

end VipSteering.Balancer
