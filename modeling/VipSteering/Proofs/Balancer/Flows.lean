import VipSteering.Balancer.Service
import VipSteering.Proofs.Balancer.Listing
import VipSteering.Proofs.Classifier.Configure

namespace VipSteering

open Host

/-- What ends with the name of an absence is an absence. -/
theorem Outcome.deleted_absent (c : Command) (s : String) :
    Outcome.deleted (.error (Host.failure c (s ++ absent))) = .ok () := by
  have habsence : (Host.failure c (s ++ absent)).isAbsence = true := by
    change Command.Failure.absenceMarks.any (Text.occursIn · (s ++ absent)) = true
    rw [List.any_eq_true]
    exact ⟨absent, by decide, Text.occursIn_append s absent⟩
  change (if (Host.failure c (s ++ absent)).isAbsence = true then _ else _) = _
  rw [if_pos habsence]

namespace Balancer

/-- The flows that the program holds, as a balancer reads them. -/
def heldFlows (flows : Std.ExtTreeMap String FlowEntry) : List ListedFlow :=
  flows.toList.map fun (name, e) => ListedFlow.ofEntry name e

theorem mem_heldFlows {flows : Std.ExtTreeMap String FlowEntry} {f : ListedFlow} :
    f ∈ heldFlows flows ↔ ∃ key e, flows[key]? = some e ∧ f = ListedFlow.ofEntry key e := by
  rw [heldFlows, List.mem_map]
  constructor
  · intro h
    obtain ⟨⟨key, e⟩, hmem, rfl⟩ := h
    exact ⟨key, e, Std.ExtTreeMap.mem_toList_iff_getElem?_eq_some.mp hmem, rfl⟩
  · intro h
    obtain ⟨key, e, hget, rfl⟩ := h
    exact ⟨(key, e), Std.ExtTreeMap.mem_toList_iff_getElem?_eq_some.mpr hget, rfl⟩

/-- The names of the flows of a service. -/
def flowNames (flows : Std.ExtTreeMap String FlowEntry) (service : String) : List String :=
  ((heldFlows flows).filter (·.service = service)).map (·.flow.name)

theorem mem_flowNames {flows : Std.ExtTreeMap String FlowEntry} {service key : String} :
    key ∈ flowNames flows service ↔ ∃ e : FlowEntry, flows[key]? = some e ∧ e.target = service := by
  rw [flowNames, List.mem_map]
  constructor
  · intro hgiven
    obtain ⟨f, hmem, rfl⟩ := hgiven
    obtain ⟨hmem, hservice⟩ := List.mem_filter.mp hmem
    obtain ⟨key, e, hget, rfl⟩ := mem_heldFlows.mp hmem
    exact ⟨e, hget, of_decide_eq_true hservice⟩
  · intro hgiven
    obtain ⟨e, hget, htarget⟩ := hgiven
    exact ⟨ListedFlow.ofEntry key e, List.mem_filter.mpr
      ⟨mem_heldFlows.mpr ⟨key, e, hget, rfl⟩, decide_eq_true htarget⟩, rfl⟩

/-- If those flows of a service go of which `C` holds, the others of the service stay, and all that
are not the service's. -/
theorem held_of_rest {flows flows' : Std.ExtTreeMap String FlowEntry} {service key : String}
    {C : Prop} [Decidable C] (hrest : flows'[key]? =
      if key ∈ flowNames flows service ∧ C then none else flows[key]?) (e : FlowEntry) :
    flows'[key]? = some e ↔ flows[key]? = some e ∧ (e.target = service → ¬ C) := by
  rw [hrest]
  constructor
  · intro hgiven
    split at hgiven
    · cases hgiven
    rename_i hkept
    exact ⟨hgiven, fun htarget hc => hkept ⟨mem_flowNames.mpr ⟨e, hgiven, htarget⟩, hc⟩⟩
  · intro hgiven
    obtain ⟨hbefore, hkept⟩ := hgiven
    rw [if_neg]
    · exact hbefore
    · intro hgone
      obtain ⟨other, hother, htarget⟩ := mem_flowNames.mp hgone.1
      obtain rfl : e = other := Option.some.inj (hbefore.symm.trans hother)
      exact hkept htarget hgone.2

/-- The addresses among the destinations of flows. -/
def Destined (flows : Std.ExtTreeMap String FlowEntry) (a : Address) : Prop :=
  ∃ (key : String) (e : FlowEntry), flows[key]? = some e ∧
    ∃ spec ∈ e.destinations, HostDestinations.address? spec = some a

/-- The addresses that the flows as they are read name are those among their destinations. -/
theorem named_heldFlows {flows : Std.ExtTreeMap String FlowEntry} {a : Address} :
    Classifier.Named ((heldFlows flows).flatMap (·.flow.selectors.destinationCidrs)) a ↔
      Destined flows a := by
  constructor
  · intro hgiven
    obtain ⟨spec, hspec, ha⟩ := hgiven
    obtain ⟨f, hmem, hspec⟩ := List.mem_flatMap.mp hspec
    obtain ⟨key, e, hget, rfl⟩ := mem_heldFlows.mp hmem
    exact ⟨key, e, hget, spec, hspec, ha⟩
  · intro hgiven
    obtain ⟨key, e, hget, spec, hspec, ha⟩ := hgiven
    exact ⟨spec, List.mem_flatMap.mpr ⟨_, mem_heldFlows.mpr ⟨key, e, hget, rfl⟩, hspec⟩, ha⟩

/-- A balancer can read every one of the flows. -/
def AllReadable (flows : Std.ExtTreeMap String FlowEntry) : Prop :=
  ∀ {key : String} {e : FlowEntry}, flows[key]? = some e → ListedFlow.IsReadable e

variable {h : Host} {program : String} (hf : h.faults = [])
  (hp : Text.endsWith "nfqlb" program = true)

include hf hp

theorem listFlows_healthy (hreadable : AllReadable h.hashing.flows) :
    ∃ journal, listFlows program h = (.ok (heldFlows h.hashing.flows), { h with journal }) := by
  obtain ⟨journal, hrun⟩ := run_maglev hf hp (Maglev.parse_flowList program)
  have hall : ∀ p ∈ h.hashing.flows.toList, ListedFlow.IsReadable p.2 := fun p hmem =>
    hreadable (Std.ExtTreeMap.mem_toList_iff_getElem?_eq_some.mp hmem)
  have hread := ListedFlow.readAll?_listing hall
  refine ⟨journal, ?_⟩
  rw [listFlows]
  simp only [Task.bind_apply, hrun, Maglev.perform]
  rw [hread]
  rfl

theorem refreshDestinations_healthy (hreadable : AllReadable h.hashing.flows)
    {before : Address → Prop} (hbefore : Classifier.Holds h.tables before) :
    ∃ tables journal, refreshDestinations program h = (.ok (), { h with tables, journal }) ∧
      Classifier.Holds tables (Destined h.hashing.flows) := by
  obtain ⟨journal, hlist⟩ := listFlows_healthy hf hp hreadable
  obtain ⟨tables, journal, hset, hholds⟩ :=
    Classifier.setDestinations_healthy (h := { h with journal }) hf hbefore
      ((heldFlows h.hashing.flows).flatMap (·.flow.selectors.destinationCidrs))
  refine ⟨tables, journal, ?_, fun family => ?_⟩
  · rw [refreshDestinations]
    simp only [Task.bind_apply, hlist, hset]
    rfl
  · have hdestined (a : Address) :
        Classifier.Named ((heldFlows h.hashing.flows).flatMap
          (·.flow.selectors.destinationCidrs)) a ↔ Destined h.hashing.flows a := named_heldFlows
    simp only [Classifier.Named] at hdestined
    obtain ⟨set, hset, hmem⟩ := hholds family
    exact ⟨set, hset, fun e => by simp only [hmem e, hdestined]⟩

theorem addFlow_healthy (hreadable : AllReadable h.hashing.flows) {before : Address → Prop}
    (hbefore : Classifier.Holds h.tables before) (service : String) (flow : Flow) :
    ∃ tables journal, addFlow program service flow h = (.ok (), { h with
        hashing := { h.hashing with
          flows := h.hashing.flows.insert flow.name (Maglev.entryOf service flow) }
        tables
        journal }) ∧
      AllReadable (h.hashing.flows.insert flow.name (Maglev.entryOf service flow)) ∧
      Classifier.Holds tables
        (Destined (h.hashing.flows.insert flow.name (Maglev.entryOf service flow))) := by
  obtain ⟨journal, hrun⟩ := run_maglev hf hp (Maglev.parse_setCommand program service flow)
  simp only [Maglev.perform] at hrun
  have hreadable' :
      AllReadable (h.hashing.flows.insert flow.name (Maglev.entryOf service flow)) := by
    intro key e hget
    rcases of_getElem?_insert hget with ⟨-, rfl⟩ | ⟨-, hget⟩
    · exact ListedFlow.isReadable_entryOf service flow
    · exact hreadable hget
  obtain ⟨tables, journal, hrefresh, hholds⟩ := refreshDestinations_healthy (h := { h with
    hashing := { h.hashing with
      flows := h.hashing.flows.insert flow.name (Maglev.entryOf service flow) }
    journal }) hf hp hreadable' hbefore
  refine ⟨tables, journal, ?_, hreadable', hholds⟩
  rw [addFlow]
  simp only [Task.bind_apply, hrun, hrefresh]

/-- A flow that is not there is as good as deleted. -/
theorem deleteFlow_healthy (hreadable : AllReadable h.hashing.flows) {before : Address → Prop}
    (hbefore : Classifier.Holds h.tables before) (name : String) :
    ∃ tables journal, deleteFlow program name h = (.ok (), { h with
        hashing := { h.hashing with flows := h.hashing.flows.erase name }
        tables
        journal }) ∧
      AllReadable (h.hashing.flows.erase name) ∧
      Classifier.Holds tables (Destined (h.hashing.flows.erase name)) := by
  have hreadable' : AllReadable (h.hashing.flows.erase name) :=
    fun hget => hreadable (of_getElem?_erase hget).2
  obtain ⟨journal, hrun⟩ := run_maglev hf hp (Maglev.parse_flowDelete program name)
  have hdeleted : ∃ outcome : Outcome, outcome.deleted = .ok () ∧
      Shell.run (Flow.deleteCommand program name) h = (outcome, { h with
        hashing := { h.hashing with flows := h.hashing.flows.erase name }
        journal }) := by
    by_cases hmem : name ∈ h.hashing.flows
    · simp only [Maglev.perform, if_pos hmem] at hrun
      exact ⟨_, rfl, hrun⟩
    · simp only [Maglev.perform, if_neg hmem] at hrun
      rw [erase_absent (Std.ExtTreeMap.getElem?_eq_none hmem)]
      exact ⟨_, Outcome.deleted_absent _ _, hrun⟩
  obtain ⟨outcome, hok, hrun⟩ := hdeleted
  obtain ⟨tables, journal, hrefresh, hholds⟩ := refreshDestinations_healthy (h := { h with
    hashing := { h.hashing with flows := h.hashing.flows.erase name }, journal }) hf hp hreadable'
    hbefore
  refine ⟨tables, journal, ?_, hreadable', hholds⟩
  rw [deleteFlow]
  simp only [Task.bind_apply, hrun, hok, hrefresh]

theorem deleteAllFlows_healthy (hreadable : AllReadable h.hashing.flows)
    (hbefore : Classifier.Holds h.tables (Destined h.hashing.flows)) (names : List String) :
    ∃ flows tables journal, attemptAll (deleteFlow program) names h =
        ([], { h with hashing := { h.hashing with flows }, tables, journal }) ∧
      AllReadable flows ∧ Classifier.Holds tables (Destined flows) ∧
      ∀ key : String, flows[key]? = if key ∈ names then none else h.hashing.flows[key]? := by
  induction names generalizing h with
  | nil => exact ⟨h.hashing.flows, h.tables, h.journal, rfl, hreadable, hbefore, by simp⟩
  | cons name rest ih =>
    obtain ⟨tables, journal, hone, hreadable, hholds⟩ :=
      deleteFlow_healthy hf hp hreadable hbefore name
    obtain ⟨flows, tables, journal, hrest, hreadable, hholds, hget⟩ := ih (h := { h with
      hashing := { h.hashing with flows := h.hashing.flows.erase name }, tables, journal }) hf
      hreadable hholds
    refine ⟨flows, tables, journal, ?_, hreadable, hholds, fun key => ?_⟩
    · rw [attemptAll_cons]
      simp only [hone, hrest]
    · rw [hget, Std.ExtTreeMap.getElem?_erase]
      by_cases hk : name = key
      · simp [hk]
      · simp [hk, Ne.symm hk]

/-- The flows of a service go, and no others. -/
theorem deleteFlows_healthy (hreadable : AllReadable h.hashing.flows)
    (hbefore : Classifier.Holds h.tables (Destined h.hashing.flows)) (service : String) :
    ∃ flows tables journal, deleteFlows program service h =
        ([], { h with hashing := { h.hashing with flows }, tables, journal }) ∧
      AllReadable flows ∧ Classifier.Holds tables (Destined flows) ∧
      ∀ key : String, flows[key]? = h.hashing.flows[key]?.filter (·.target ≠ service) := by
  obtain ⟨journal, hlist⟩ := listFlows_healthy hf hp hreadable
  obtain ⟨flows, tables, journal, hdelete, hreadable, hholds, hget⟩ :=
    deleteAllFlows_healthy (h := { h with journal }) hf hp hreadable hbefore
      (flowNames h.hashing.flows service)
  refine ⟨flows, tables, journal, ?_, hreadable, hholds, fun key => ?_⟩
  · rw [deleteFlows]
    simp only [Task.bind_apply, hlist]
    exact hdelete
  · rw [hget]
    simp only [mem_flowNames]
    cases he : h.hashing.flows[key]? with
    | none => simp
    | some e => by_cases ht : e.target = service <;> simp [ht, Option.filter]

end Balancer
end VipSteering
