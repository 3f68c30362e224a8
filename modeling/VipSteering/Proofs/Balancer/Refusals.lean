import VipSteering.Proofs.Balancer.Commands
import VipSteering.Proofs.Balancer.Flows
import VipSteering.Proofs.Balancer.Routes

namespace VipSteering.Balancer

open Host

section Readable

variable {flows : Std.ExtTreeMap String FlowEntry}

theorem AllReadable.empty : AllReadable ∅ := by
  intro key e hget
  simp at hget

theorem AllReadable.insertEntry (h : AllReadable flows) (name : String) {entry : FlowEntry}
    (hentry : ListedFlow.IsReadable entry) : AllReadable (flows.insert name entry) := by
  intro key e hget
  rcases of_getElem?_insert hget with ⟨-, rfl⟩ | ⟨-, hget⟩
  · exact hentry
  · exact h hget

theorem AllReadable.insert (h : AllReadable flows) (service : String) (flow : Flow) :
    AllReadable (flows.insert flow.name (Maglev.entryOf service flow)) :=
  h.insertEntry flow.name (ListedFlow.isReadable_entryOf service flow)

theorem AllReadable.erase (h : AllReadable flows) (key : String) :
    AllReadable (flows.erase key) := fun hget => h (of_getElem?_erase hget).2

end Readable

section Flows

variable {program : String} (hp : Text.endsWith "nfqlb" program = true) (h : Host)

include hp

theorem listFlows_state : (listFlows program h).2 = h.record (Flow.listCommand program) := by
  have hrun := run_maglev_eq (c := Flow.listCommand program) hp (Maglev.parse_flowList program) h
  have hstate : (Shell.run (Flow.listCommand program) h).2 =
      h.record (Flow.listCommand program) := by
    rw [hrun]
    split <;> rfl
  rw [listFlows, ← hstate]
  simp only [Task.bind_apply]
  cases (Shell.run (Flow.listCommand program) h).1 with
  | error _ => rfl
  | ok output =>
    dsimp only
    cases ListedFlow.readAll? output <;> rfl

theorem listFlows_eq (hreadable : AllReadable h.hashing.flows) :
    listFlows program h =
      (if h.Refuses (Flow.listCommand program)
        then .error (.listFlows (failure (Flow.listCommand program) injected))
        else .ok (heldFlows h.hashing.flows), h.record (Flow.listCommand program)) := by
  have hall : ∀ p ∈ h.hashing.flows.toList, ListedFlow.IsReadable p.2 := fun p hmem =>
    hreadable (Std.ExtTreeMap.mem_toList_iff_getElem?_eq_some.mp hmem)
  have hread := ListedFlow.readAll?_listing hall
  refine Prod.ext ?_ (listFlows_state hp h)
  rw [listFlows]
  simp only [Task.bind_apply]
  rw [run_maglev_eq (c := Flow.listCommand program) hp (Maglev.parse_flowList program)]
  split
  · rfl
  · simp only [Maglev.perform]
    rw [hread]
    rfl

/-- Only the sets of virtual addresses may change. -/
theorem refreshDestinations_frame :
    ∃ tables journal, (refreshDestinations program h).2 = { h with tables, journal } := by
  rw [refreshDestinations]
  simp only [Task.bind_apply, listFlows_state hp h]
  cases (listFlows program h).1 with
  | error _ => exact ⟨h.tables, _, rfl⟩
  | ok flows => exact only_nft_frame (setDestinations_only _) _

theorem addFlow_eq (service : String) (flow : Flow) :
    addFlow program service flow h =
      if h.Refuses (flow.setCommand program service) then
        (.error (.setFlow flow.name (failure (flow.setCommand program service) injected)),
          h.record (flow.setCommand program service))
      else refreshDestinations program { h.record (flow.setCommand program service) with
        hashing := { h.hashing with
          flows := h.hashing.flows.insert flow.name (Maglev.entryOf service flow) } } := by
  rw [addFlow]
  simp only [Task.bind_apply]
  rw [run_maglev_eq (c := flow.setCommand program service) hp
    (Maglev.parse_setCommand program service flow)]
  split <;> rfl

/-- Deleting a flow that is not there leaves the flows as they are. -/
theorem deleteFlow_eq (name : String) :
    deleteFlow program name h =
      if h.Refuses (Flow.deleteCommand program name) then
        (.error (.deleteFlow name (failure (Flow.deleteCommand program name) injected)),
          h.record (Flow.deleteCommand program name))
      else refreshDestinations program { h.record (Flow.deleteCommand program name) with
        hashing := { h.hashing with flows := h.hashing.flows.erase name } } := by
  rw [deleteFlow]
  simp only [Task.bind_apply]
  rw [run_maglev_eq (c := Flow.deleteCommand program name) hp (Maglev.parse_flowDelete program name)]
  split
  · rw [deleted_injected]
    rfl
  by_cases hmem : name ∈ h.hashing.flows
  · simp only [Maglev.perform, if_pos hmem]
    rfl
  · simp only [Maglev.perform, if_neg hmem, Outcome.deleted_absent]
    rw [erase_absent (Std.ExtTreeMap.getElem?_eq_none hmem)]
    rfl

theorem addFlow_frame (service : String) (flow : Flow) :
    ∃ tables journal, (addFlow program service flow h).2 = { h with
      hashing := { h.hashing with
        flows := if h.Refuses (flow.setCommand program service) then h.hashing.flows
          else h.hashing.flows.insert flow.name (Maglev.entryOf service flow) }
      tables
      journal } := by
  rw [addFlow_eq hp]
  split
  · exact ⟨h.tables, _, rfl⟩
  · exact refreshDestinations_frame hp _

theorem deleteFlow_frame (name : String) :
    ∃ tables journal, (deleteFlow program name h).2 = { h with
      hashing := { h.hashing with
        flows := if h.Refuses (Flow.deleteCommand program name) then h.hashing.flows
          else h.hashing.flows.erase name }
      tables
      journal } := by
  rw [deleteFlow_eq hp]
  split
  · exact ⟨h.tables, _, rfl⟩
  · exact refreshDestinations_frame hp _

theorem not_refuses_of_deleteFlow {name : String} (hok : (deleteFlow program name h).1 = .ok ()) :
    ¬ h.Refuses (Flow.deleteCommand program name) := by
  intro href
  rw [deleteFlow_eq hp, if_pos href] at hok
  cases hok

theorem not_refuses_of_addFlow {service : String} {flow : Flow}
    (hok : (addFlow program service flow h).1 = .ok ()) :
    ¬ h.Refuses (flow.setCommand program service) := by
  intro href
  rw [addFlow_eq hp, if_pos href] at hok
  cases hok

/-- Those of the flows go whose deletion is not refused. -/
theorem deleteAll_frame (names : List String) :
    ∃ flows tables journal, (attemptAll (deleteFlow program) names h).2 = { h with
        hashing := { h.hashing with flows }, tables, journal } ∧
      ∀ key : String, flows[key]? =
        if key ∈ names ∧ ¬ h.Refuses (Flow.deleteCommand program key) then none
        else h.hashing.flows[key]? := by
  induction names generalizing h with
  | nil => exact ⟨h.hashing.flows, h.tables, h.journal, rfl, by simp⟩
  | cons name rest ih =>
    obtain ⟨tables, journal, hone⟩ := deleteFlow_frame hp h name
    obtain ⟨flows, tables', journal', hrest, hget⟩ := ih (deleteFlow program name h).2
    refine ⟨flows, tables', journal', ?_, fun key => ?_⟩
    · rw [attemptAll_cons, hrest, hone]
    · rw [hget, hone]
      change (if key ∈ rest ∧ ¬ h.Refuses (Flow.deleteCommand program key) then none else _) = _
      by_cases hk : key = name
      · subst hk
        by_cases href : h.Refuses (Flow.deleteCommand program key)
        · simp [href]
        · simp [href]
      · by_cases href : h.Refuses (Flow.deleteCommand program name)
        · simp [href, hk]
        · simp [href, hk, Std.ExtTreeMap.getElem?_erase, Ne.symm hk]

theorem deleteFlows_frame (service : String) :
    ∃ flows tables journal, (deleteFlows program service h).2 = { h with
      hashing := { h.hashing with flows }, tables, journal } := by
  rw [deleteFlows]
  simp only [Task.bind_apply, listFlows_state hp h]
  cases (listFlows program h).1 with
  | error _ => exact ⟨h.hashing.flows, h.tables, _, rfl⟩
  | ok flows =>
    obtain ⟨flows, tables, journal, heq, -⟩ := deleteAll_frame hp
      (h.record (Flow.listCommand program)) ((flows.filter (·.service = service)).map (·.flow.name))
    exact ⟨flows, tables, journal, heq⟩

/-- A segment that is not there is as good as deleted. -/
theorem deleteSegment_refusals (name : String) :
    deleteSegment program name h =
      if h.Refuses (deleteCommand program name) then
        ([.deleteSegment name (failure (deleteCommand program name) injected)],
          h.record (deleteCommand program name))
      else ([], { h.record (deleteCommand program name) with
        hashing := { h.hashing with segments := h.hashing.segments.erase name } }) := by
  rw [deleteSegment_eq, run_maglev_eq (c := deleteCommand program name) hp
    (Maglev.parse_deleteCommand program name)]
  by_cases href : h.Refuses (deleteCommand program name)
  · rw [if_pos href, if_pos href, deleted_injected]
  rw [if_neg href, if_neg href]
  by_cases hmem : name ∈ h.hashing.segments
  · simp only [Maglev.perform, if_pos hmem]
    rfl
  · simp only [Maglev.perform, if_neg hmem, Maglev.absentSegment, Outcome.deleted_absent]
    rw [erase_absent (Std.ExtTreeMap.getElem?_eq_none hmem)]
    rfl

theorem clearHost_frame (name : String) :
    ∃ flows tables journal, (clearHost program name h).2 = { h with
        hashing := ⟨if h.Refuses (deleteCommand program name) then h.hashing.segments
          else h.hashing.segments.erase name, flows⟩
        tables
        journal } ∧
      ((clearHost program name h).1.2 = [] ↔ ¬ h.Refuses (deleteCommand program name)) := by
  obtain ⟨flows, tables, journal, hflows⟩ := deleteFlows_frame hp h name
  have hsegment := deleteSegment_refusals hp (deleteFlows program name h).2 name
  have hrefuses : (deleteFlows program name h).2.Refuses (deleteCommand program name) ↔
      h.Refuses (deleteCommand program name) := by rw [hflows]; exact Iff.rfl
  refine ⟨flows, tables, (deleteSegment program name (deleteFlows program name h).2).2.journal,
    ?_, ?_⟩
  · change (deleteSegment program name (deleteFlows program name h).2).2 = _
    rw [hsegment]
    by_cases href : h.Refuses (deleteCommand program name)
    · rw [if_pos (hrefuses.mpr href), if_pos href, hflows]
      rfl
    · rw [if_neg (mt hrefuses.mp href), if_neg href, hflows]
      rfl
  · change (deleteSegment program name (deleteFlows program name h).2).1 = [] ↔ _
    rw [hsegment]
    by_cases href : h.Refuses (deleteCommand program name)
    · rw [if_pos (hrefuses.mpr href)]
      simp [href]
    · rw [if_neg (mt hrefuses.mp href)]
      simp [href]

end Flows

/-- What neither `ip` nor `nft` knows is carried out by a program that has segments only. -/
theorem endsWith_of_run {c : Command} (hip : IsUnroutable c)
    (hnft : ∀ tables answer, Nft.execute c.args c.input tables ≠ .ok answer) {h : Host}
    {output : String} (hok : (Shell.run c h).1 = .ok output) :
    Text.endsWith "nfqlb" c.program = true := by
  by_cases href : h.Refuses c
  · rw [run_refused href] at hok
    cases hok
  rw [run_accepted href] at hok
  cases hexecute : (h.record c).execute c with
  | error _ => rw [hexecute] at hok; cases hok
  | ok answer =>
    rcases execute_cases hexecute with ⟨_, -, hran, -⟩ | ⟨_, -, hran, -⟩ | ⟨_, hp, -, -⟩
    · rw [Ip.execute] at hran
      split at hran
      · cases hran
      · rename_i hparse
        exact absurd hparse (hip _)
    · exact absurd hran (hnft _ _)
    · exact hp

/-- Only a program that has segments sets one up. -/
theorem endsWith_of_init {program name : String} {slots : UInt32} {h : Host} {output : String}
    (hok : (Shell.run (initCommand program name slots) h).1 = .ok output) :
    Text.endsWith "nfqlb" program = true :=
  endsWith_of_run (c := initCommand program name slots) (isUnroutable_of_head rfl (by decide))
    (fun _ _ => nofun) hok

section Operations

variable {settings : Settings} {l : Lease}

theorem init_alike (program name : String) (slots : UInt32) (h : Host) :
    Alike h (Shell.run (initCommand program name slots) h).2 := by
  cases hran : (Shell.run (initCommand program name slots) h).1 with
  | error cause =>
    rw [run_error hran]
    exact .record h _
  | ok output =>
    exact run_segmental (c := initCommand program name slots) (endsWith_of_init hran)
      (Maglev.parse_initCommand program name slots) trivial h

theorem init_frame (program name : String) (slots : UInt32) (h : Host) :
    ∃ hashing journal,
      (Shell.run (initCommand program name slots) h).2 = { h with hashing, journal } := by
  cases hran : (Shell.run (initCommand program name slots) h).1 with
  | error cause => exact ⟨h.hashing, _, run_error hran⟩
  | ok output =>
    exact run_maglev_frame (c := initCommand program name slots) (endsWith_of_init hran)
      (Maglev.parse_initCommand program name slots) h

theorem endsWith_of_addService {name : String} {slots : UInt32} {b : Balancer Host}
    (hn : b.registered[name]? = none) (hok : (addService settings name slots b).1 = .ok l) :
    Text.endsWith "nfqlb" settings.program = true := by
  rw [addService_eq, hn] at hok
  dsimp only at hok
  split at hok
  · cases hok
  split at hok
  · cases hok
  · rename_i heq
    exact endsWith_of_init (congrArg Prod.fst heq)

theorem addService_alike (settings : Settings) (name : String) (slots : UInt32)
    (b : Balancer Host) : Alike b.host (addService settings name slots b).2.host := by
  have hinit := init_alike settings.program name slots b.host
  rw [addService_eq]
  split
  · exact .refl b.host
  split
  · exact .refl b.host
  split
  · rename_i heq
    rw [heq] at hinit
    exact hinit
  · rename_i heq
    rw [heq] at hinit
    exact hinit

variable {program : String} (hp : Text.endsWith "nfqlb" program = true)

include hp

theorem addTarget_alike (l : Lease) (addresses : List Address) (slot : UInt32)
    (b : Balancer Host) : Alike b.host (addTarget program l addresses slot b).2.host := by
  have hactivate := run_segmental (c := activateCommand program l.name slot (l.mark slot)) hp
    (Maglev.parse_activateCommand program l.name slot (l.mark slot)) trivial b.host
  rw [addTarget_eq]
  split
  · exact .refl b.host
  split
  · exact .refl b.host
  split
  · rename_i heq
    rw [heq] at hactivate
    exact hactivate
  · rename_i heq
    rw [heq] at hactivate
    exact hactivate.trans (only_ip_alike (createRoutes_ip (l.mark slot) addresses) _)

/-- Either the books and the routes stay as they are, or the slot is recorded and its routes are
made. -/
theorem addTarget_left (l : Lease) (addresses : List Address) (slot : UInt32)
    (b : Balancer Host) : ∃ hashing journal,
      (addTarget program l addresses slot b).2 =
          { b with host := { b.host with hashing, journal } } ∨
        slot < l.block.size ∧ slot ∉ b.targetsOf l ∧
          (addTarget program l addresses slot b).2 =
            { b.alterTargets l (·.insert slot addresses) with
              host := (createRoutes (l.mark slot) addresses
                { b.host with hashing, journal }).2 } := by
  rw [addTarget_eq]
  split
  · exact ⟨b.host.hashing, b.host.journal, .inl rfl⟩
  rename_i hslot
  split
  · exact ⟨b.host.hashing, b.host.journal, .inl rfl⟩
  rename_i hfree
  obtain ⟨hashing, journal, hran⟩ := run_maglev_frame
    (c := activateCommand program l.name slot (l.mark slot)) hp
    (Maglev.parse_activateCommand program l.name slot (l.mark slot)) b.host
  refine ⟨hashing, journal, ?_⟩
  split
  · rename_i hrun
    rw [hrun] at hran
    exact .inl (congrArg (fun host => { b with host }) hran)
  · rename_i hrun
    rw [hrun] at hran
    obtain rfl := hran
    exact .inr ⟨UInt32.not_le.mp hslot, hfree, rfl⟩

theorem deleteTarget_alike (l : Lease) (slot : UInt32) (b : Balancer Host) :
    Alike b.host (deleteTarget program l slot b).2.host := by
  have hdeactivate := run_segmental (c := deactivateCommand program l.name slot) hp
    (Maglev.parse_deactivateCommand program l.name slot) trivial b.host
  rw [deleteTarget_eq]
  split
  · exact .refl b.host
  rename_i addresses _
  dsimp only
  split
  · exact hdeactivate
  · exact hdeactivate.trans (only_ip_alike (deleteRoutes_ip (l.mark slot) addresses) _)

/-- A slot of a segment that is gone is as good as deactivated. -/
theorem deleteTarget_ok {l : Lease} {slot : UInt32} {b : Balancer Host}
    (hacc : ¬ b.host.Refuses (deactivateCommand program l.name slot)) :
    (deleteTarget program l slot b).1 = .ok () := by
  rw [deleteTarget_eq]
  split
  · rfl
  rw [run_maglev_eq hp (Maglev.parse_deactivateCommand program l.name slot), if_neg hacc]
  cases hsegment : b.host.hashing.segments[l.name]? with
  | none => simp only [Maglev.perform, hsegment, Maglev.absentSegment, Outcome.deleted_absent]
  | some slots => simp only [Maglev.perform, hsegment, Outcome.deleted]

theorem releaseTargets_ok {l : Lease} {b : Balancer Host} (hf : b.host.faults = []) :
    (releaseTargets program l b).1 = [] :=
  attemptAll_eq_nil (I := fun c : Balancer Host => c.host.faults = [])
    (fun slot _ c hc => ⟨deleteTarget_ok hp (not_refuses hc _),
      (deleteTarget_alike hp l slot c).faults.trans hc⟩) hf

theorem releaseTargets_alike (l : Lease) (b : Balancer Host) :
    Alike b.host (releaseTargets program l b).2.host :=
  attemptAll_keeps (P := fun c : Balancer Host => Alike b.host c.host)
    (fun slot _ c hc => hc.trans (deleteTarget_alike hp l slot c)) (.refl b.host)

theorem deleteSegment_alike (name : String) (h : Host) :
    Alike h (deleteSegment program name h).2 := by
  rw [deleteSegment_eq]
  exact run_segmental (c := deleteCommand program name) hp
    (Maglev.parse_deleteCommand program name) trivial h

end Operations

end VipSteering.Balancer
