import VipSteering.Proofs.Balancer.Routes
import VipSteering.Proofs.Balancer.Sound
import VipSteering.Proofs.Classifier.Commands
import VipSteering.Proofs.Host.Maglev

namespace VipSteering

open Host

/-- What the service of a lease may ask of the program that hashes packets. -/
def Host.Maglev.Request.IsOf (l : Lease) : Maglev.Request → Prop
  | .init _ => False
  | .delete segment => segment = l.name
  | .activate segment slot mark => segment = l.name ∧ slot < l.block.size ∧ mark = l.mark slot
  | .deactivate segment _ => segment = l.name
  | .setFlow .. | .deleteFlow _ | .listFlows => True

namespace Balancer

/-- `ip` would not know what to make of the command. -/
def IsUnroutable (c : Command) : Prop := ∀ answer, Ip.parse c.args ≠ .ok answer

theorem isUnroutable_of_head {c : Command} {word : String} {rest : List String}
    (hargs : c.args = word :: rest) (hword : word ∉ ["-j", "-4", "-6"]) : IsUnroutable c := by
  simp only [List.mem_cons, List.not_mem_nil, or_false, not_or] at hword
  obtain ⟨hj, h4, h6⟩ := hword
  intro answer
  have hparse : Ip.parse (word :: rest) = .error "address family required" := by
    rw [Ip.parse]
    · intro rest' heq
      exact hj (List.cons.inj heq).1
    · intro rest' heq
      exact h4 (List.cons.inj heq).1
    · intro rest' heq
      exact h6 (List.cons.inj heq).1
  rw [hargs, hparse]
  intro heq
  cases heq

/-- A command that the service of a lease gives rise to. -/
inductive Issued (program : String) (l : Lease) (c : Command) : Prop where
  | routes (slot : UInt32) (hslot : slot < l.block.size)
    (habout : PolicyRoute.IsAbout (l.mark slot) c)
  | hashing (hprogram : c.program = program) (hunroutable : IsUnroutable c)
    (request : Maglev.Request) (hparse : Maglev.parse c.args = .ok request) (hof : request.IsOf l)
  | filter (hprogram : c.program = "nft")

/-- A command that makes a target of the service of a lease, or gives one up. -/
inductive Places (program : String) (l : Lease) (c : Command) : Prop where
  | routes (slot : UInt32) (hslot : slot < l.block.size)
    (habout : PolicyRoute.IsAbout (l.mark slot) c)
  | activate (slot : UInt32) (hslot : slot < l.block.size)
    (heq : c = activateCommand program l.name slot (l.mark slot))
  | deactivate (slot : UInt32) (heq : c = deactivateCommand program l.name slot)

theorem Places.issued {program : String} {l : Lease} {c : Command} (h : Places program l c) :
    Issued program l c := by
  cases h with
  | routes slot hslot habout => exact .routes slot hslot habout
  | activate slot hslot heq =>
    rw [heq]
    exact .hashing rfl (isUnroutable_of_head rfl (by decide)) _
      (Maglev.parse_activateCommand program l.name slot (l.mark slot)) ⟨rfl, hslot, rfl⟩
  | deactivate slot heq =>
    rw [heq]
    exact .hashing rfl (isUnroutable_of_head rfl (by decide)) _
      (Maglev.parse_deactivateCommand program l.name slot) rfl

/-- A command that brings the virtual addresses in line with the flows. -/
def Refreshes (program : String) (c : Command) : Prop :=
  c = Flow.listCommand program ∨ Classifier.Filters c

theorem Refreshes.issued {program : String} {c : Command} (h : Refreshes program c) (l : Lease) :
    Issued program l c := by
  rcases h with rfl | hfilters
  · exact .hashing rfl (isUnroutable_of_head rfl (by decide)) _ (Maglev.parse_flowList program)
      trivial
  · exact .filter hfilters.program

/-- A command that sets a flow, or brings the virtual addresses in line with it. -/
def Sets (program service : String) (flow : Flow) (c : Command) : Prop :=
  c = flow.setCommand program service ∨ Refreshes program c

theorem Sets.issued {program : String} {l : Lease} {flow : Flow} {c : Command}
    (h : Sets program l.name flow c) : Issued program l c := by
  rcases h with rfl | hrefreshes
  · exact .hashing rfl (isUnroutable_of_head rfl (by decide)) _
      (Maglev.parse_setCommand program l.name flow) trivial
  · exact hrefreshes.issued l

/-- A command that deletes a flow, or brings the virtual addresses in line with those left. -/
def Removes (program name : String) (c : Command) : Prop :=
  c = Flow.deleteCommand program name ∨ Refreshes program c

theorem Removes.issued {program name : String} {c : Command} (h : Removes program name c)
    (l : Lease) : Issued program l c := by
  rcases h with rfl | hrefreshes
  · exact .hashing rfl (isUnroutable_of_head rfl (by decide)) _
      (Maglev.parse_flowDelete program name) trivial
  · exact hrefreshes.issued l

/-- A command about the policy routes of a recorded target. -/
def Repairs {σ : Type} (b : Balancer σ) (c : Command) : Prop :=
  ∃ (n : String) (l : Lease) (slot : UInt32), b.registered[n]? = some l ∧ slot ∈ b.targetsOf l ∧
    PolicyRoute.IsAbout (l.mark slot) c

variable {σ : Type} [Shell σ]

section Host

variable (program : String) (l : Lease)

theorem createRoutes_only {slot : UInt32} (hslot : slot < l.block.size) (addresses : List Address) :
    Only (Places program l) (createRoutes (σ := σ) (l.mark slot) addresses) :=
  (createRoutes_about (l.mark slot) addresses).mono fun _ => .routes slot hslot

theorem deleteRoutes_only {slot : UInt32} (hslot : slot < l.block.size) (addresses : List Address) :
    Only (Places program l) (deleteRoutes (σ := σ) (l.mark slot) addresses) :=
  (deleteRoutes_about (l.mark slot) addresses).mono fun _ => .routes slot hslot

theorem setDestinations_only (cidrs : List String) :
    Only (·.program = "nft") (Classifier.setDestinations (σ := σ) cidrs) :=
  (Classifier.setDestinations_filters cidrs).mono fun _ => Classifier.Filters.program

theorem listFlows_only :
    Only (· = Flow.listCommand program) (listFlows (σ := σ) program) := by
  rw [listFlows]
  refine .bind (.run rfl) fun outcome => ?_
  cases outcome with
  | error _ => exact .pure _
  | ok output =>
    dsimp only
    split
    · exact .pure _
    · exact .pure _

theorem refreshDestinations_only :
    Only (Refreshes program) (refreshDestinations (σ := σ) program) := by
  rw [refreshDestinations]
  refine .bind ((listFlows_only program).mono fun _ => .inl) fun flows => ?_
  cases flows with
  | error _ => exact .pure _
  | ok flows =>
    exact .bind ((Classifier.setDestinations_filters _).mono fun _ => .inr) fun _ => .pure _

theorem addFlow_sets (service : String) (flow : Flow) :
    Only (Sets program service flow) (addFlow (σ := σ) program service flow) := by
  rw [addFlow]
  refine .bind (.run (.inl rfl)) fun outcome => ?_
  cases outcome with
  | error _ => exact .pure _
  | ok _ => exact (refreshDestinations_only program).mono fun _ => .inr

theorem addFlow_only (flow : Flow) :
    Only (Issued program l) (addFlow (σ := σ) program l.name flow) :=
  (addFlow_sets program l.name flow).mono fun _ => Sets.issued

theorem deleteFlow_removes (name : String) :
    Only (Removes program name) (deleteFlow (σ := σ) program name) := by
  rw [deleteFlow]
  refine .bind (.run (.inl rfl)) fun outcome => ?_
  split
  · exact .pure _
  · exact (refreshDestinations_only program).mono fun _ => .inr

theorem deleteFlow_only (name : String) :
    Only (Issued program l) (deleteFlow (σ := σ) program name) :=
  (deleteFlow_removes program name).mono fun _ hc => hc.issued l

theorem deleteFlows_removes (service : String) :
    Only (fun c => ∃ name, Removes program name c) (deleteFlows (σ := σ) program service) := by
  rw [deleteFlows]
  have hlist : Only (fun c => ∃ name, Removes program name c) (listFlows (σ := σ) program) :=
    (listFlows_only program).mono fun _ hc => ⟨service, .inr (.inl hc)⟩
  refine .bind hlist fun flows => ?_
  cases flows with
  | error _ => exact .pure _
  | ok flows =>
    exact .attemptAll fun name _ => (deleteFlow_removes program name).mono fun _ hc => ⟨name, hc⟩

theorem deleteFlows_only (service : String) :
    Only (Issued program l) (deleteFlows (σ := σ) program service) :=
  (deleteFlows_removes program service).mono fun _ hgiven =>
    have ⟨_, hc⟩ := hgiven
    hc.issued l

theorem deleteSegment_only : Only (Issued program l) (deleteSegment (σ := σ) program l.name) := by
  have hdelete : Issued program l (deleteCommand program l.name) :=
    .hashing rfl (isUnroutable_of_head rfl (by decide)) _
      (Maglev.parse_deleteCommand program l.name) rfl
  rw [deleteSegment]
  refine .bind (.run hdelete) fun outcome => ?_
  split
  · exact .pure _
  · exact .pure _

theorem clearHost_only : Only (Issued program l) (clearHost (σ := σ) program l.name) :=
  .bind (deleteFlows_only program l l.name) fun _ => .bind (deleteSegment_only program l) fun _ =>
    .pure _

end Host

section Operations

variable {floor : UInt32} {settings : Settings} {b : Balancer σ} {n : String} {l : Lease}

theorem addTarget_reaches (program : String) (l : Lease) (addresses : List Address) (slot : UInt32)
    (b : Balancer σ) : Reaches (Places program l) b.host
      (addTarget program l addresses slot b).2.host := by
  rw [addTarget_eq]
  split
  · exact .refl
  rename_i hslot
  have hslot : slot < l.block.size := by simpa using hslot
  split
  · exact .refl
  have hactivate : Places program l (activateCommand program l.name slot (l.mark slot)) :=
    .activate slot hslot rfl
  have hran := Reaches.run hactivate b.host
  split
  · rename_i heq
    rw [heq] at hran
    exact hran
  · rename_i heq
    rw [heq] at hran
    exact hran.trans (createRoutes_only program l hslot addresses _)

theorem deleteTarget_reaches (program : String) {slot : UInt32}
    (hslot : slot ∈ b.targetsOf l → slot < l.block.size) :
    Reaches (Places program l) b.host (deleteTarget program l slot b).2.host := by
  rw [deleteTarget_eq]
  cases hget : (b.targetsOf l)[slot]? with
  | none => exact .refl
  | some addresses =>
    have hmem : slot ∈ b.targetsOf l := mem_of_getElem? hget
    have hdeactivate : Places program l (deactivateCommand program l.name slot) :=
      .deactivate slot rfl
    have hran := Reaches.run hdeactivate b.host
    dsimp only
    split
    · exact hran
    · exact hran.trans (deleteRoutes_only program l (hslot hmem) addresses _)

theorem releaseTargets_reaches (program : String) (h : Sound floor b)
    (hl : b.registered[n]? = some l) :
    Reaches (Places program l) b.host (releaseTargets program l b).2.host := by
  refine (attemptAll_keeps (P := fun c : Balancer σ => Leased floor n l c ∧
      Reaches (Places program l) b.host c.host)
    (fun slot _ c hgiven => ?_) ⟨⟨h, hl⟩, .refl⟩).2
  obtain ⟨hc, hreach⟩ := hgiven
  exact ⟨hc.deleteTarget program slot,
    hreach.trans (deleteTarget_reaches program (hc.sound.slot_lt hc.registered))⟩

theorem deleteService_reaches (h : Sound floor b) (hl : b.registered[n]? = some l) :
    Reaches (Issued settings.program l) b.host (deleteService settings n b).2.host := by
  obtain rfl := h.name hl
  have hall := ((releaseTargets_reaches settings.program h hl).mono fun _ => Places.issued).trans
    (clearHost_only settings.program l _)
  rw [deleteService_eq, hl]
  dsimp only
  split
  · exact hall
  · exact hall

theorem heal_reaches (b : Balancer σ) : Reaches (Repairs b) b.host (heal b).2.host := by
  refine (Task.forM_keeps (P := fun c : Balancer σ => (∃ host, c = { b with host }) ∧
    Reaches (Repairs b) b.host c.host) ?_ ⟨⟨b.host, rfl⟩, .refl⟩).2
  intro l hmem _ hgiven
  obtain ⟨⟨host, rfl⟩, hreach⟩ := hgiven
  obtain ⟨n, hl⟩ := mem_leases.mp hmem
  refine ⟨⟨_, rfl⟩, hreach.trans ?_⟩
  refine Only.forM (fun hgiven hslot => ?_) host
  obtain ⟨slot, addresses⟩ := hgiven
  have hget : (b.targetsOf l)[slot]? = some addresses :=
    Std.ExtTreeMap.mem_toList_iff_getElem?_eq_some.mp hslot
  exact (createRoutes_about (l.mark slot) addresses).mono
    fun _ habout => ⟨n, l, slot, hl, mem_of_getElem? hget, habout⟩

omit [Shell σ] in
theorem Repairs.issued (h : Sound floor b) {c : Command} (hc : Repairs b c) (program : String) :
    ∃ (n : String) (l : Lease), b.registered[n]? = some l ∧ Issued program l c := by
  obtain ⟨n, l, slot, hl, hslot, habout⟩ := hc
  exact ⟨n, l, hl, .routes slot (h.slot_lt hl hslot) habout⟩

end Operations

end Balancer
end VipSteering
