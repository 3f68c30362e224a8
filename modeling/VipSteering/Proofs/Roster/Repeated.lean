import VipSteering.Proofs.Roster.Apply
import VipSteering.Proofs.Roster.Steady

namespace VipSteering.Roster

variable {σ H ε : Type} (engine : Engine σ H ε)

theorem addServices_present {specs : List ServiceSpec} {r : Roster H σ}
    (h : ∀ spec ∈ specs, spec.name ∈ r.services) : addServices engine specs r = (.ok (), r) := by
  induction specs with
  | nil => rfl
  | cons spec rest ih =>
    simp only [List.mem_cons, forall_eq_or_imp] at h
    rw [addServices_cons, addService_eq, if_pos h.1]
    exact ih h.2

variable {engine} in
theorem Consistent.forgetFlows_eq {r : Roster H σ} (h : Consistent engine r) :
    forgetFlows r = r := by
  have hflows : (forgetFlows r).flows = r.flows := by
    refine Std.ExtTreeMap.ext_getElem? fun key => ?_
    rw [getElem?_forgetFlows]
    cases hspec : r.flows[key]? with
    | none => rfl
    | some spec =>
      have hserved := Std.ExtTreeMap.contains_iff_mem.mpr (h.served key spec hspec)
      simp [Option.filter, hserved]
  change { r with flows := (forgetFlows r).flows } = r
  rw [hflows]

/-- If the services on record are those that are wanted, the engine is not told of any. -/
theorem setServices_present {specs : List ServiceSpec} {r : Roster H σ}
    (h : Consistent engine r) (hnames : ∀ n, n ∈ r.services ↔ ∃ spec ∈ specs, spec.name = n) :
    setServices engine specs r = (.ok (), r) := by
  have hstale : r.staleServices specs = [] := by
    rw [List.eq_nil_iff_forall_not_mem]
    intro name hname
    obtain ⟨hmem, hunwanted⟩ := mem_staleServices.mp hname
    exact hunwanted (mem_byName.mpr ((hnames name).mp hmem))
  have hthere : ∀ spec ∈ (byName specs).values, spec.name ∈ r.services := fun spec hspec =>
    (hnames spec.name).mpr ⟨spec, of_mem_byName_values hspec, rfl⟩
  rw [setServices_eq, hstale]
  simp only [attemptAll_nil, h.forgetFlows_eq, addServices_present engine hthere,
    Report.ofFaults_nil]

theorem establishes_atRest : Establishes engine AtRest := by
  intro service handle previous specs s hreachable hnil
  refine ⟨converge_stays engine service handle (hnil ▸ quiet_nil), ?_⟩
  rw [List.eq_nil_iff_forall_not_mem]
  intro spec hspec
  obtain ⟨hwanted, hnew, hready, haddresses⟩ := mem_newcomers.mp hspec
  exact hnew ((converge_due engine service handle hreachable hnil spec.identity).mpr
    ⟨spec, hwanted, hready, haddresses⟩)

theorem setEndpoints_atRest {service : DesiredService} {r : Roster H σ}
    (hserved : service.name ∈ r.services) (h : Holding AtRest service r) :
    setEndpoints engine service.name service.endpoints r = (.ok (), r) := by
  obtain ⟨handle, hhandle⟩ := exists_of_mem hserved
  obtain ⟨es, hes, hrest⟩ := h
  exact (hrest.onlyRefusals service.name (engine.slots handle)).setEndpoints_eq engine hhandle hes

theorem setServiceEndpoints_atRest {known : Std.ExtTreeMap String H}
    {services : List DesiredService} {r : Roster H σ}
    (hserved : ∀ s ∈ services, s.name ∈ r.services) (h : ∀ s ∈ services, Holding AtRest s r) :
    attemptAll (setServiceEndpoints engine known) services r = ([], r) := by
  induction services with
  | nil => rfl
  | cons s rest ih =>
    simp only [List.mem_cons, forall_eq_or_imp] at hserved h
    have hone : setServiceEndpoints engine known s r = (.ok (), r) := by
      rw [setServiceEndpoints_eq]
      split
      · exact setEndpoints_atRest engine hserved.1 h.1
      · rfl
    rw [attemptAll_cons, hone, ih hserved.2 h.2]

theorem setFlows_frame (specs : List FlowSpec) (r : Roster H σ) :
    ∃ s flows, (setFlows engine specs r).2 = { r with engine := s, flows } := by
  refine setFlows_keeps engine
    (P := fun r' : Roster H σ => ∃ s flows, r' = { r with engine := s, flows })
    (fun key r' hr => ?_) (fun spec r' hr => ?_) specs ⟨r.engine, r.flows, rfl⟩
  · obtain ⟨s, flows, rfl⟩ := hr
    rw [dropFlow_eq]
    split
    · exact ⟨s, flows, rfl⟩
    · split
      · exact ⟨s, _, rfl⟩
      · exact ⟨_, _, rfl⟩
  · obtain ⟨s, flows, rfl⟩ := hr
    rw [putFlow_eq]
    split
    · exact ⟨s, flows, rfl⟩
    · exact ⟨_, _, rfl⟩

/-- Nothing is deleted if the flows on record are those that are wanted. -/
theorem setFlows_present {specs : List FlowSpec} {r : Roster H σ} (h : r.flows = byKey r specs) :
    setFlows engine specs r =
      (Report.ofFaults (attemptAll (putFlow engine) r.flows.values r).1,
        (attemptAll (putFlow engine) r.flows.values r).2) := by
  have hstale : r.staleFlows specs = [] := by
    rw [List.eq_nil_iff_forall_not_mem]
    intro key hkey
    obtain ⟨hmem, hunwanted⟩ := mem_staleFlows.mp hkey
    exact hunwanted (h ▸ hmem)
  rw [setFlows_eq, hstale, ← h]
  rfl

/-- Once a snapshot whose services have names of their own is applied without a fault, to apply it
again is to set its flows again. -/
theorem apply_again {d : Snapshot} {slots : UInt32} {r : Roster H σ} (h : Consistent engine r)
    (hnames : (d.services.map (·.name)).Nodup) (hok : (apply engine d slots r).1 = .ok ()) :
    apply engine d slots (apply engine d slots r).2 =
      setFlows engine d.flows (apply engine d slots r).2 := by
  have hserved := apply_services engine hok
  have hrest := apply_holding engine (establishes_atRest engine) h hnames hok
  have hconsistent := apply_consistent engine h d slots
  generalize (apply engine d slots r).2 = left at *
  have hservices : setServices engine (d.services.map (·.spec slots)) left = (.ok (), left) := by
    refine setServices_present engine hconsistent fun n => ?_
    rw [hserved]
    simp only [List.mem_map, exists_exists_and_eq_and]
    rfl
  obtain ⟨s, flows, hframe⟩ := setFlows_frame engine d.flows left
  have hendpoints : attemptAll
      (setServiceEndpoints engine (setFlows engine d.flows left).2.services) d.services
      (setFlows engine d.flows left).2 = ([], (setFlows engine d.flows left).2) := by
    rw [hframe]
    exact setServiceEndpoints_atRest engine (fun s hs => (hserved s.name).mpr ⟨s, hs, rfl⟩) hrest
  rw [apply_eq, hservices]
  dsimp only
  rw [hendpoints]
  refine Prod.ext ?_ rfl
  cases (setFlows engine d.flows left).1 <;> rfl

end VipSteering.Roster
