import VipSteering.Proofs.Balancer.Refusals

namespace VipSteering.Balancer

open Host

/-- The set of the family cannot be brought in line with the flows. -/
def Blocked (program : String) (h : Host) (family : Family) : Prop :=
  h.Refuses (Flow.listCommand program) ∨ Classifier.RefusesSet h family

/-- Nothing is in the way on a host that refuses nothing. -/
theorem not_blocked {program : String} {h : Host} (hf : h.faults = []) {family : Family} :
    ¬ Blocked program h family := by
  intro hblocked
  rcases hblocked with hlist | hset | hscript
  · exact not_refuses hf _ hlist
  · exact not_refuses hf _ hset
  · exact not_refuses hf _ hscript

/-- The sets hold the destinations of the flows. -/
def Current (h : Host) : Prop := Classifier.Holds h.tables (Destined h.hashing.flows)

/-- The flows can be read, and the sets hold addresses. -/
def ReadableWithSets (h : Host) : Prop :=
  AllReadable h.hashing.flows ∧ Classifier.HoldsOwnFamily h.tables

theorem ReadableWithSets.disturb {h : Host} (hreadable : ReadableWithSets h) (d : Disturbance) :
    ReadableWithSets (d.apply h) := by
  obtain ⟨faults, heq⟩ := d.apply_frame h
  rw [heq]
  exact ⟨hreadable.1, hreadable.2⟩

theorem current_congr {h h' : Host} (halike : Alike h h') : Current h' ↔ Current h := by
  rw [Current, Current, halike.tables, halike.flows]

/-- The sets have followed the flows, as far as they can. -/
structure SetsFollow (program : String) (h h' : Host) : Prop where
  faults : h'.faults = h.faults
  blocked : ∀ family, Blocked program h family →
    Classifier.setOf h'.tables family = Classifier.setOf h.tables family
  free : ∀ family, ¬ Blocked program h family →
    Classifier.HoldsShare h'.tables family (Destined h'.hashing.flows)

/-- What comes of bringing the sets up to date. -/
structure RefreshOutcome (program : String) (h : Host) (outcome : Except Fault Unit × Host) :
    Prop where
  followed : SetsFollow program h outcome.2
  ownFamily : Classifier.HoldsOwnFamily outcome.2.tables
  hashing : outcome.2.hashing = h.hashing
  current : outcome.1 = .ok () → Current outcome.2
  done : (∀ family, ¬ Blocked program h family) → outcome.1 = .ok ()

section Destinations

variable {program : String} (hp : Text.endsWith "nfqlb" program = true) {h : Host}
  (hreadable : AllReadable h.hashing.flows) (hown : Classifier.HoldsOwnFamily h.tables)

include hp hreadable hown

theorem refreshDestinations_refreshOutcome :
    RefreshOutcome program h (refreshDestinations program h) := by
  have hlist := listFlows_eq hp h hreadable
  by_cases href : h.Refuses (Flow.listCommand program)
  · rw [if_pos href] at hlist
    rw [refreshDestinations]
    simp only [Task.bind_apply, hlist]
    refine ⟨⟨rfl, fun _ _ => rfl, fun family hfree => absurd (.inl href) hfree⟩, hown, rfl,
      fun hok => ?_, fun hfree => absurd (.inl href) (hfree .ipv4)⟩
    cases hok
  · rw [if_neg href] at hlist
    have hnamed : Classifier.Named ((heldFlows h.hashing.flows).flatMap
        (·.flow.selectors.destinationCidrs)) = Destined h.hashing.flows :=
      funext fun a => propext named_heldFlows
    obtain ⟨tables, journal, hstate, hshare, hopen, hholds⟩ :=
      Classifier.setDestinations_share (h := h.record (Flow.listCommand program)) hown
        ((heldFlows h.hashing.flows).flatMap (·.flow.selectors.destinationCidrs))
    have hafter := Classifier.HoldsOwnFamily.of_share hown hshare
    rw [hnamed] at hshare hholds
    rw [refreshDestinations]
    simp only [Task.bind_apply, hlist, hstate, Task.pure_apply]
    refine ⟨⟨rfl, fun family hblocked => (hshare family).1 (hblocked.resolve_left href),
      fun family hfree => (hshare family).2 fun hshut => hfree (.inr hshut)⟩, hafter, rfl,
      fun hok => hholds (mapError_eq_ok.mp hok), fun hfree => mapError_eq_ok.mpr (hopen ?_)⟩
    exact fun family hshut => hfree family (.inr hshut)

end Destinations

namespace SetsFollow

variable {program : String} {h h' h'' : Host}

/-- What is not blocked is what is free of it, whatever has happened since. -/
theorem blocked_iff (hsame : h'.faults = h.faults) {family : Family} :
    Blocked program h' family ↔ Blocked program h family := by
  simp only [Blocked, Classifier.RefusesSet, Classifier.RefusesScripts, Refuses, isFaulty, hsame]

/-- Sets that are up to date follow the flows already. -/
theorem refl (hcurrent : Current h) : SetsFollow program h h :=
  ⟨rfl, fun _ _ => rfl, fun family _ => hcurrent family⟩

theorem alike (hfollowed : SetsFollow program h h') (halike : Alike h' h'') :
    SetsFollow program h h'' where
  faults := halike.faults.trans hfollowed.faults
  blocked family hblocked := by
    rw [halike.tables]
    exact hfollowed.blocked family hblocked
  free family hfree := by
    rw [halike.tables, halike.flows]
    exact hfollowed.free family hfree

theorem trans (hfollowed : SetsFollow program h h') (hnext : SetsFollow program h' h'') :
    SetsFollow program h h'' where
  faults := hnext.faults.trans hfollowed.faults
  blocked family hblocked :=
    (hnext.blocked family ((blocked_iff hfollowed.faults).mpr hblocked)).trans
      (hfollowed.blocked family hblocked)
  free family hfree := hnext.free family (mt (blocked_iff hfollowed.faults).mp hfree)

/-- Sets that have been up to date are so after the flows have changed exactly if the destinations
of the families whose sets are blocked have not. -/
theorem current_iff (hfollowed : SetsFollow program h h') (hcurrent : Current h) :
    Current h' ↔ ∀ family, Blocked program h family → ∀ a : Address, a.family = family →
      (Destined h'.hashing.flows a ↔ Destined h.hashing.flows a) := by
  have hshare {family : Family} (hblocked : Blocked program h family) :
      Classifier.HoldsShare h'.tables family (Destined h.hashing.flows) :=
    .congr (hcurrent family) (hfollowed.blocked family hblocked)
  constructor
  · intro hafter family hblocked
    exact (hshare hblocked).iff.mp (hafter family)
  · intro hsame family
    by_cases hblocked : Blocked program h family
    · exact (hshare hblocked).iff.mpr (hsame family hblocked)
    · exact hfollowed.free family hblocked

end SetsFollow

/-- What comes of an operation on a flow. -/
structure FlowOutcome (program : String) (h : Host) (outcome : Except Fault Unit × Host) : Prop where
  readable : AllReadable outcome.2.hashing.flows
  ownFamily : Classifier.HoldsOwnFamily outcome.2.tables
  sets : Alike h outcome.2 ∨ SetsFollow program h outcome.2
  current : outcome.1 = .ok () → Current outcome.2

/-- Once the flows have changed, the sets are brought up to date. -/
theorem RefreshOutcome.flowOutcome {program : String} {h h' : Host}
    {outcome : Except Fault Unit × Host} (hrefreshed : RefreshOutcome program h' outcome)
    (hfaults : h'.faults = h.faults) (htables : h'.tables = h.tables)
    (hreadable : AllReadable h'.hashing.flows) :
    FlowOutcome program h outcome where
  readable := by
    rw [hrefreshed.hashing]
    exact hreadable
  ownFamily := hrefreshed.ownFamily
  sets := .inr
    { faults := hrefreshed.followed.faults.trans hfaults
      blocked := fun family hblocked => by
        rw [← htables]
        exact hrefreshed.followed.blocked family ((SetsFollow.blocked_iff hfaults).mpr hblocked)
      free := fun family hfree =>
        hrefreshed.followed.free family (mt (SetsFollow.blocked_iff hfaults).mp hfree) }
  current := hrefreshed.current

section Flows

variable {program : String} (hp : Text.endsWith "nfqlb" program = true) {h : Host}
  (hreadable : AllReadable h.hashing.flows) (hown : Classifier.HoldsOwnFamily h.tables)

include hp hreadable hown

theorem addFlow_flowOutcome (service : String) (flow : Flow) :
    FlowOutcome program h (addFlow program service flow h) := by
  rw [addFlow_eq hp]
  split
  · exact ⟨hreadable, hown, .inl (.record h _), nofun⟩
  · have hinserted :
        AllReadable (h.hashing.flows.insert flow.name (Maglev.entryOf service flow)) :=
      hreadable.insert service flow
    exact RefreshOutcome.flowOutcome (refreshDestinations_refreshOutcome hp hinserted hown) rfl rfl
      hinserted

theorem deleteFlow_flowOutcome (name : String) :
    FlowOutcome program h (deleteFlow program name h) := by
  rw [deleteFlow_eq hp]
  split
  · exact ⟨hreadable, hown, .inl (.record h _), nofun⟩
  · have herased : AllReadable (h.hashing.flows.erase name) := hreadable.erase name
    exact RefreshOutcome.flowOutcome (refreshDestinations_refreshOutcome hp herased hown) rfl rfl
      herased

theorem addFlow_ok (hf : h.faults = []) (service : String) (flow : Flow) :
    (addFlow program service flow h).1 = .ok () := by
  have hinserted :
      AllReadable (h.hashing.flows.insert flow.name (Maglev.entryOf service flow)) :=
    hreadable.insert service flow
  rw [addFlow_eq hp, if_neg (not_refuses hf _)]
  exact RefreshOutcome.done (refreshDestinations_refreshOutcome hp hinserted hown)
    fun _ => not_blocked hf

theorem deleteFlow_ok (hf : h.faults = []) (name : String) :
    (deleteFlow program name h).1 = .ok () := by
  have herased : AllReadable (h.hashing.flows.erase name) := hreadable.erase name
  rw [deleteFlow_eq hp, if_neg (not_refuses hf _)]
  exact RefreshOutcome.done (refreshDestinations_refreshOutcome hp herased hown)
    fun _ => not_blocked hf

end Flows

/-- What operations on flows keep, and what does not depend on anything but the flows, the virtual
addresses and what is refused. -/
structure FlowInvariant (program : String) (P : Host → Prop) : Prop where
  alike : ∀ {h h' : Host}, Alike h h' → P h → P h'
  addFlow : Text.endsWith "nfqlb" program = true → ∀ (service : String) (flow : Flow) {h : Host},
    P h → P (Balancer.addFlow program service flow h).2
  deleteFlow : Text.endsWith "nfqlb" program = true → ∀ (name : String) {h : Host},
    P h → P (Balancer.deleteFlow program name h).2

section FlowInvariant

variable (program : String)

theorem flowInvariant_faults (faults : List String) :
    FlowInvariant program fun h => h.faults = faults where
  alike halike h := halike.faults.trans h
  addFlow hp service flow h hsame := by
    obtain ⟨tables, journal, hadd⟩ := addFlow_frame hp h service flow
    rw [hadd]
    exact hsame
  deleteFlow hp name h hsame := by
    obtain ⟨tables, journal, hdelete⟩ := deleteFlow_frame hp h name
    rw [hdelete]
    exact hsame

theorem flowInvariant_readable : FlowInvariant program fun h => AllReadable h.hashing.flows where
  alike halike hreadable := by
    rw [halike.flows]
    exact hreadable
  addFlow hp service flow h hreadable := by
    obtain ⟨tables, journal, hadd⟩ := addFlow_frame hp h service flow
    rw [hadd]
    dsimp only
    split
    · exact hreadable
    · exact hreadable.insert service flow
  deleteFlow hp name h hreadable := by
    obtain ⟨tables, journal, hdelete⟩ := deleteFlow_frame hp h name
    rw [hdelete]
    dsimp only
    split
    · exact hreadable
    · exact hreadable.erase name

theorem flowInvariant_readableWithSets : FlowInvariant program ReadableWithSets where
  alike halike hgiven := by
    rw [ReadableWithSets, halike.flows, halike.tables]
    exact hgiven
  addFlow hp service flow h hgiven :=
    have houtcome := addFlow_flowOutcome hp hgiven.1 hgiven.2 service flow
    ⟨houtcome.readable, houtcome.ownFamily⟩
  deleteFlow hp name h hgiven :=
    have houtcome := deleteFlow_flowOutcome hp hgiven.1 hgiven.2 name
    ⟨houtcome.readable, houtcome.ownFamily⟩

theorem FlowOutcome.follow {h₀ h : Host} {outcome : Except Fault Unit × Host}
    (houtcome : FlowOutcome program h outcome) (hfollowed : SetsFollow program h₀ h) :
    ReadableWithSets outcome.2 ∧ SetsFollow program h₀ outcome.2 := by
  refine ⟨⟨houtcome.readable, houtcome.ownFamily⟩, ?_⟩
  rcases houtcome.sets with halike | hnext
  · exact hfollowed.alike halike
  · exact hfollowed.trans hnext

/-- The sets follow the flows through any operations. -/
theorem flowInvariant_setsFollow (h₀ : Host) :
    FlowInvariant program fun h => ReadableWithSets h ∧ SetsFollow program h₀ h where
  alike halike hgiven :=
    ⟨(flowInvariant_readableWithSets program).alike halike hgiven.1, hgiven.2.alike halike⟩
  addFlow hp service flow _ hgiven :=
    (addFlow_flowOutcome hp hgiven.1.1 hgiven.1.2 service flow).follow program hgiven.2
  deleteFlow hp name _ hgiven :=
    (deleteFlow_flowOutcome hp hgiven.1.1 hgiven.1.2 name).follow program hgiven.2

variable {program}

theorem FlowInvariant.and {P Q : Host → Prop} (hP : FlowInvariant program P)
    (hQ : FlowInvariant program Q) :
    FlowInvariant program fun h => P h ∧ Q h where
  alike halike h := ⟨hP.alike halike h.1, hQ.alike halike h.2⟩
  addFlow hp service flow _ h := ⟨hP.addFlow hp service flow h.1, hQ.addFlow hp service flow h.2⟩
  deleteFlow hp name _ h := ⟨hP.deleteFlow hp name h.1, hQ.deleteFlow hp name h.2⟩

theorem deleteFlows_steady (hp : Text.endsWith "nfqlb" program = true) {P : Host → Prop}
    (hP : FlowInvariant program P) (service : String) {h : Host} (h₀ : P h) :
    P (deleteFlows program service h).2 := by
  have hlisted : P (h.record (Flow.listCommand program)) := hP.alike (.record h _) h₀
  rw [deleteFlows]
  simp only [Task.bind_apply, listFlows_state hp h]
  cases (listFlows program h).1 with
  | error _ => exact hlisted
  | ok flows => exact attemptAll_keeps (fun name _ _ hs => hP.deleteFlow hp name hs) hlisted

end FlowInvariant

section Service

variable {program : String} (hp : Text.endsWith "nfqlb" program = true) {h : Host}
  (hreadable : AllReadable h.hashing.flows)

include hp hreadable

theorem deleteFlows_eq (service : String) (hl : ¬ h.Refuses (Flow.listCommand program)) :
    deleteFlows program service h = attemptAll (deleteFlow program)
      (flowNames h.hashing.flows service)
      (h.record (Flow.listCommand program)) := by
  have hlist := listFlows_eq hp h hreadable
  rw [if_neg hl] at hlist
  rw [deleteFlows]
  simp only [Task.bind_apply, hlist]
  rfl

omit hreadable in
theorem not_refuses_of_deleteAll {names : List String}
    (hnil : (attemptAll (deleteFlow program) names h).1 = []) :
    ∀ name ∈ names, ¬ h.Refuses (Flow.deleteCommand program name) := by
  intro name hmem
  obtain ⟨h', hfaults, hok⟩ := attemptAll_succeeds (I := fun h' : Host => h'.faults = h.faults)
    (fun key _ h' hsame => by
      obtain ⟨tables, journal, hdelete⟩ := deleteFlow_frame hp h' key
      rw [hdelete]
      exact hsame) rfl hnil name hmem
  have hacc := not_refuses_of_deleteFlow hp h' hok
  rwa [Refuses, isFaulty, hfaults] at hacc

omit hp hreadable in
theorem not_refuses_of_deleteFlows {service : String}
    (hnil : (deleteFlows program service h).1 = []) :
    ¬ h.Refuses (Flow.listCommand program) := by
  intro href
  rw [deleteFlows, listFlows] at hnil
  simp only [Task.bind_apply, run_refused href] at hnil
  cases hnil

theorem deleteFlows_ok (hown : Classifier.HoldsOwnFamily h.tables) (hf : h.faults = [])
    (service : String) :
    (deleteFlows program service h).1 = [] := by
  rw [deleteFlows_eq hp hreadable service (not_refuses hf _)]
  refine attemptAll_eq_nil (s := h.record (Flow.listCommand program))
    (I := fun h' : Host => ReadableWithSets h' ∧ h'.faults = [])
    (fun name _ h' hs => ⟨deleteFlow_ok hp hs.1.1 hs.1.2 hs.2 name,
      ((flowInvariant_readableWithSets program).and
        (flowInvariant_faults program [])).deleteFlow hp name hs⟩)
    ⟨⟨hreadable, hown⟩, hf⟩

/-- The flows of other services stay, and so do those whose deletion is refused. -/
theorem deleteFlows_held (service : String) (key : String) (e : FlowEntry) :
    (deleteFlows program service h).2.hashing.flows[key]? = some e ↔
      h.hashing.flows[key]? = some e ∧ (e.target = service →
        h.Refuses (Flow.listCommand program) ∨ h.Refuses (Flow.deleteCommand program key)) := by
  by_cases hl : h.Refuses (Flow.listCommand program)
  · have hlist := listFlows_eq hp h hreadable
    rw [if_pos hl] at hlist
    rw [deleteFlows]
    simp only [Task.bind_apply, hlist, hl, true_or, implies_true, and_true]
    rfl
  obtain ⟨flows, tables, journal, hstate, hflows⟩ := deleteAll_frame hp
    (h.record (Flow.listCommand program)) (flowNames h.hashing.flows service)
  have hget : (deleteFlows program service h).2.hashing.flows[key]? =
      if key ∈ flowNames h.hashing.flows service ∧ ¬ h.Refuses (Flow.deleteCommand program key)
        then none else h.hashing.flows[key]? := by
    rw [deleteFlows_eq hp hreadable service hl, hstate]
    exact hflows key
  rw [held_of_rest hget, not_not]
  simp only [hl, false_or]

/-- All flows of the service go if no fault is met. -/
theorem deleteFlows_gone {service : String} (hnil : (deleteFlows program service h).1 = [])
    {key : String} {e : FlowEntry}
    (hget : (deleteFlows program service h).2.hashing.flows[key]? = some e) :
    e.target ≠ service := by
  have hl := not_refuses_of_deleteFlows hnil
  obtain ⟨hbefore, hrefused⟩ := (deleteFlows_held hp hreadable service key e).mp hget
  rw [deleteFlows_eq hp hreadable service hl] at hnil
  intro htarget
  have hname := mem_flowNames.mpr ⟨e, hbefore, htarget⟩
  exact not_refuses_of_deleteAll hp hnil key hname ((hrefused htarget).resolve_left hl)

/-- If flows have been deleted without fault, the sets are up to date, unless there were none. -/
theorem deleteFlows_current (hown : Classifier.HoldsOwnFamily h.tables) {service : String}
    (hnil : (deleteFlows program service h).1 = []) :
    ((∃ (key : String) (e : FlowEntry), h.hashing.flows[key]? = some e ∧ e.target = service) →
      Current (deleteFlows program service h).2) ∧
    ((¬ ∃ (key : String) (e : FlowEntry), h.hashing.flows[key]? = some e ∧ e.target = service) →
      Alike h (deleteFlows program service h).2) := by
  have hl := not_refuses_of_deleteFlows hnil
  rw [deleteFlows_eq hp hreadable service hl] at hnil ⊢
  constructor
  · intro hgiven
    obtain ⟨key, e, hget, htarget⟩ := hgiven
    have hkey := mem_flowNames.mpr ⟨e, hget, htarget⟩
    refine (attemptAll_iff (T := fun _ _ => True) (s := h.record (Flow.listCommand program))
      (I := ReadableWithSets)
      (fun name _ h' hs => (flowInvariant_readableWithSets program).deleteFlow hp name hs)
      (fun name _ h' hs hok _ => (deleteFlow_flowOutcome hp hs.1 hs.2 name).current hok)
      (fun _ _ _ _ _ hnot => absurd trivial hnot) ⟨hreadable, hown⟩ hnil).mpr ?_
    exact .inr ⟨key, hkey, trivial⟩
  · intro hnone
    have hnames : flowNames h.hashing.flows service = [] := by
      rw [List.eq_nil_iff_forall_not_mem]
      intro key hkey
      obtain ⟨e, hget, htarget⟩ := mem_flowNames.mp hkey
      exact hnone ⟨key, e, hget, htarget⟩
    rw [hnames]
    exact .record h _

end Service

section Deletion

variable {settings : Settings} {b : Balancer Host} {name : String} {l : Lease}
  (hp : Text.endsWith "nfqlb" settings.program = true) (hl : b.registered[name]? = some l)

include hp hl

/-- Beside its flows, the deletion of a service leaves flows and virtual addresses alone. -/
theorem deleteService_host : ∃ h : Host, Alike b.host h ∧
    Alike (deleteFlows settings.program name h).2 (deleteService settings name b).2.host ∧
    ((deleteService settings name b).1 = .ok () → (deleteFlows settings.program name h).1 = []) := by
  refine ⟨(releaseTargets settings.program l b).2.host, releaseTargets_alike hp l b, ?_, ?_⟩
  · have hsegment := deleteSegment_alike hp name
      (deleteFlows settings.program name (releaseTargets settings.program l b).2.host).2
    rw [deleteService_eq, hl]
    dsimp only
    split
    · exact hsegment
    · exact hsegment
  · intro hok
    rw [deleteService_eq, hl] at hok
    dsimp only at hok
    split at hok
    · cases hok
    · rename_i hgather
      rw [Report.gather_eq_ok, List.append_eq_nil_iff, List.append_eq_nil_iff,
        List.map_eq_nil_iff] at hgather
      exact hgather.1.2

/-- What is left of a service can be deleted on a host that refuses nothing, whatever it refused
before. -/
theorem deleteService_ok (hf : b.host.faults = []) (hreadable : AllReadable b.host.hashing.flows)
    (hown : Classifier.HoldsOwnFamily b.host.tables) :
    (deleteService settings name b).1 = .ok () := by
  have hreleased := releaseTargets_alike hp l b
  generalize hheld : (releaseTargets settings.program l b).2 = held at hreleased
  have hflows : (clearHost settings.program name held.host).1.1 = [] :=
    deleteFlows_ok hp (hreleased.flows ▸ hreadable) (hreleased.tables ▸ hown)
      (hreleased.faults.trans hf) name
  have hsegment : (clearHost settings.program name held.host).1.2 = [] := by
    obtain ⟨_, _, _, -, hnil⟩ := clearHost_frame hp held.host name
    exact hnil.mpr (not_refuses (hreleased.faults.trans hf) _)
  rw [deleteService_eq, hl]
  simp only [hheld, releaseTargets_ok hp hf, hflows, hsegment]
  rfl

theorem deleteService_steady {P : Host → Prop} (hP : FlowInvariant settings.program P)
    (h₀ : P b.host) :
    P (deleteService settings name b).2.host := by
  obtain ⟨h, hbefore, hafter, -⟩ := deleteService_host hp hl
  exact hP.alike hafter (deleteFlows_steady hp hP name (hP.alike hbefore h₀))

theorem deleteService_held (hreadable : AllReadable b.host.hashing.flows) (key : String)
    (e : FlowEntry) : (deleteService settings name b).2.host.hashing.flows[key]? = some e ↔
      b.host.hashing.flows[key]? = some e ∧ (e.target = name →
        b.host.Refuses (Flow.listCommand settings.program) ∨
          b.host.Refuses (Flow.deleteCommand settings.program key)) := by
  obtain ⟨h, hbefore, hafter, -⟩ := deleteService_host hp hl
  rw [← hbefore.flows] at hreadable
  rw [hafter.flows, deleteFlows_held hp hreadable, hbefore.flows]
  simp only [Refuses, isFaulty, hbefore.faults]

theorem deleteService_gone (hreadable : AllReadable b.host.hashing.flows)
    (hok : (deleteService settings name b).1 = .ok ()) {key : String} {e : FlowEntry}
    (hget : (deleteService settings name b).2.host.hashing.flows[key]? = some e) :
    e.target ≠ name := by
  obtain ⟨h, hbefore, hafter, hnil⟩ := deleteService_host hp hl
  rw [← hbefore.flows] at hreadable
  rw [hafter.flows] at hget
  exact deleteFlows_gone hp hreadable (hnil hok) hget

end Deletion

end VipSteering.Balancer
