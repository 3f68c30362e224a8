import VipSteering.Proofs.Roster.Undisturbed
import VipSteering.Session.Watcher

namespace VipSteering

/-- The flows of a snapshot by key, as far as their services are in it; the last of several wins. -/
def Snapshot.flowTable (d : Snapshot) : Std.ExtTreeMap String FlowSpec :=
  .ofList ((d.flows.filter fun spec => d.services.any (·.name = spec.service)).map fun spec =>
    (spec.key, spec))

theorem Snapshot.mem_flowTable {d : Snapshot} {key : String} : key ∈ d.flowTable ↔
    ∃ spec ∈ d.flows, (∃ s ∈ d.services, s.name = spec.service) ∧ spec.key = key := by
  rw [flowTable, Std.ExtTreeMap.mem_ofList, List.contains_iff_mem, List.map_map, List.mem_map]
  simp only [List.mem_filter, List.any_eq_true, decide_eq_true_eq, and_assoc, Function.comp_apply]

namespace Roster

variable {σ H ε : Type} (engine : Engine σ H ε)

theorem setServiceEndpoints_eq (known : Std.ExtTreeMap String H) (service : DesiredService)
    (r : Roster H σ) : setServiceEndpoints engine known service r =
      if service.name ∈ known then setEndpoints engine service.name service.endpoints r
      else (.ok (), r) := by
  rw [setServiceEndpoints]
  split <;> rfl

theorem apply_eq (d : Snapshot) (slots : UInt32) (r : Roster H σ) :
    apply engine d slots r =
      let services := setServices engine (d.services.map (·.spec slots)) r
      let flows := setFlows engine d.flows services.2
      let endpoints :=
        attemptAll (setServiceEndpoints engine flows.2.services) d.services flows.2
      (Report.gather (reports services.1 ++ reports flows.1 ++ endpoints.1), endpoints.2) := rfl

omit engine in
theorem reports_eq_nil {α : Type} {result : Except (Report α) Unit} :
    reports result = [] ↔ result = .ok () := by
  cases result <;> simp [reports]

omit engine in
theorem mem_reports {α : Type} {result : Except (Report α) Unit} {report : Report α} :
    report ∈ reports result ↔ result = .error report := by
  cases result <;> simp [reports, eq_comm]

omit engine in
theorem faultsOf_reports {α : Type} (result : Except (Report α) Unit) :
    Report.faultsOf (reports result) = Report.leaves result := by
  cases result with
  | ok _ => rfl
  | error report => simp [reports, Report.leaves, Report.faultsOf]

/-- A snapshot is applied without a fault exactly if each of the three steps is. -/
theorem apply_eq_ok {d : Snapshot} {slots : UInt32} {r : Roster H σ} :
    let services := setServices engine (d.services.map (·.spec slots)) r
    let flows := setFlows engine d.flows services.2
    (apply engine d slots r).1 = .ok () ↔ services.1 = .ok () ∧ flows.1 = .ok () ∧
      (attemptAll (setServiceEndpoints engine flows.2.services) d.services flows.2).1 = [] := by
  rw [apply_eq]
  dsimp only
  rw [Report.gather_eq_ok, List.append_eq_nil_iff, List.append_eq_nil_iff, reports_eq_nil,
    reports_eq_nil, and_assoc]

/-- What each of the requests keeps, the whole keeps. -/
theorem apply_keeps {P : Roster H σ → Prop}
    (hservices : ∀ specs r, P r → P (setServices engine specs r).2)
    (hflows : ∀ specs r, P r → P (setFlows engine specs r).2)
    (hendpoints : ∀ service specs r, P r → P (setEndpoints engine service specs r).2)
    (d : Snapshot) (slots : UInt32) {r : Roster H σ} (h : P r) : P (apply engine d slots r).2 := by
  rw [apply_eq]
  refine attemptAll_keeps (P := P) (fun service _ r' hr => ?_) (hflows _ _ (hservices _ _ h))
  rw [setServiceEndpoints_eq]
  split
  · exact hendpoints _ _ _ hr
  · exact hr

theorem apply_consistent {r : Roster H σ} (h : Consistent engine r) (d : Snapshot)
    (slots : UInt32) : Consistent engine (apply engine d slots r).2 :=
  apply_keeps engine (P := Consistent engine) (fun specs _ hr => setServices_consistent hr specs)
    (fun specs _ hr => setFlows_consistent hr specs)
    (fun service specs _ hr => setEndpoints_consistent hr service specs) d slots h

section Holding

variable {Q : List EndpointSpec → List ActiveEndpoint → Prop}

omit engine in
/-- What is wanted of the endpoints of the service and those on record for it are related by `Q`. -/
def Holding (Q : List EndpointSpec → List ActiveEndpoint → Prop) (service : DesiredService)
    (r : Roster H σ) : Prop :=
  ∃ es, r.endpoints[service.name]? = some es ∧ Q service.endpoints es

/-- What is wanted and what is active are related by `Q` once both passes have met no fault. -/
def Establishes (engine : Engine σ H ε) (Q : List EndpointSpec → List ActiveEndpoint → Prop) : Prop :=
  ∀ (service : String) (handle : H) (previous : List ActiveEndpoint) (specs : List EndpointSpec)
    (s : σ), (∀ e ∈ previous, e.addresses ≠ []) →
    (converge engine service handle previous specs s).1.2 = [] →
      Q specs (converge engine service handle previous specs s).1.1

theorem setEndpoints_others (service : String) (specs : List EndpointSpec) (r : Roster H σ)
    {n : String} (hn : service ≠ n) :
    (setEndpoints engine service specs r).2.endpoints[n]? = r.endpoints[n]? := by
  rw [setEndpoints_eq]
  split
  · exact getElem?_insert_of_ne hn _
  · rfl

theorem setEndpoints_holding (hQ : Establishes engine Q) {service : DesiredService}
    {r : Roster H σ} (h : Consistent engine r)
    (hok : (setEndpoints engine service.name service.endpoints r).1 = .ok ()) :
    Holding Q service (setEndpoints engine service.name service.endpoints r).2 := by
  rw [setEndpoints_eq] at hok ⊢
  split at hok
  · rename_i handle previous hservice hprevious
    have hseated := h.seated service.name handle previous hservice hprevious
    exact ⟨_, Std.ExtTreeMap.getElem?_insert_self,
      hQ service.name handle previous service.endpoints r.engine hseated.addresses
        (Report.ofFaults_eq_ok.mp hok)⟩
  · cases hok

/-- As the services have names of their own, no two of them get in each other's way. -/
theorem setServiceEndpoints_holding (hQ : Establishes engine Q) {known : Std.ExtTreeMap String H}
    {services : List DesiredService} {r : Roster H σ} (h : Consistent engine r)
    (hnames : (services.map (·.name)).Nodup) (hknown : ∀ s ∈ services, s.name ∈ known)
    (hok : (attemptAll (setServiceEndpoints engine known) services r).1 = []) :
    (∀ s ∈ services, Holding Q s (attemptAll (setServiceEndpoints engine known) services r).2) ∧
      ∀ n, n ∉ services.map (·.name) →
        (attemptAll (setServiceEndpoints engine known) services r).2.endpoints[n]? =
          r.endpoints[n]? := by
  induction services generalizing r with
  | nil => exact ⟨by simp, fun _ _ => rfl⟩
  | cons s rest ih =>
    rw [List.map_cons, List.nodup_cons] at hnames
    simp only [List.mem_cons, forall_eq_or_imp] at hknown ⊢
    have htask : setServiceEndpoints engine known s r =
        setEndpoints engine s.name s.endpoints r := by
      rw [setServiceEndpoints_eq, if_pos hknown.1]
    obtain ⟨hfirst, hrest⟩ := attemptAll_cons_eq_nil.mp hok
    rw [htask] at hfirst hrest
    obtain ⟨hall, hothers⟩ := ih (setEndpoints_consistent h s.name s.endpoints) hnames.2 hknown.2
      hrest
    rw [attemptAll_cons, htask]
    refine ⟨⟨?_, hall⟩, fun n hn => ?_⟩
    · obtain ⟨es, hes, hrelated⟩ := setEndpoints_holding engine hQ h hfirst
      exact ⟨es, (hothers s.name hnames.1).trans hes, hrelated⟩
    · rw [List.map_cons, List.mem_cons, not_or] at hn
      exact (hothers n hn.2).trans
        (setEndpoints_others engine s.name s.endpoints r fun heq => hn.1 heq.symm)

/-- Services and flows stay on record as they are. -/
theorem setServiceEndpoints_frame (known : Std.ExtTreeMap String H) (services : List DesiredService)
    (r : Roster H σ) : ∃ s endpoints,
      (attemptAll (setServiceEndpoints engine known) services r).2 =
        { r with engine := s, endpoints } := by
  refine attemptAll_keeps
    (P := fun r' : Roster H σ => ∃ s endpoints, r' = { r with engine := s, endpoints })
    (fun service _ r' hr => ?_) ⟨r.engine, r.endpoints, rfl⟩
  obtain ⟨s, endpoints, rfl⟩ := hr
  rw [setServiceEndpoints_eq]
  split
  · exact setEndpoints_frame engine service.name service.endpoints _
  · exact ⟨s, endpoints, rfl⟩

end Holding

/-- The last step leaves services and flows as the two steps before do. -/
theorem apply_frame (d : Snapshot) (slots : UInt32) (r : Roster H σ) : ∃ s endpoints,
    (apply engine d slots r).2 =
      { (setFlows engine d.flows (setServices engine (d.services.map (·.spec slots)) r).2).2 with
        engine := s, endpoints } :=
  setServiceEndpoints_frame engine _ d.services _

theorem mem_setServices_ok {d : Snapshot} {slots : UInt32} {r : Roster H σ}
    (hok : (setServices engine (d.services.map (·.spec slots)) r).1 = .ok ()) (n : String) :
    n ∈ (setServices engine (d.services.map (·.spec slots)) r).2.services ↔
      ∃ s ∈ d.services, s.name = n := by
  rw [setServices_ok engine hok]
  constructor
  · intro hgiven
    obtain ⟨spec, hspec, rfl⟩ := hgiven
    obtain ⟨s, hs, rfl⟩ := List.mem_map.mp hspec
    exact ⟨s, hs, rfl⟩
  · intro hgiven
    obtain ⟨s, hs, rfl⟩ := hgiven
    exact ⟨s.spec slots, List.mem_map.mpr ⟨s, hs, rfl⟩, rfl⟩

section Apply

variable {d : Snapshot} {slots : UInt32} {r : Roster H σ}

theorem apply_services (hok : (apply engine d slots r).1 = .ok ()) (n : String) :
    n ∈ (apply engine d slots r).2.services ↔ ∃ s ∈ d.services, s.name = n := by
  obtain ⟨hservices, -, -⟩ := (apply_eq_ok engine).mp hok
  obtain ⟨s, endpoints, hframe⟩ := apply_frame engine d slots r
  rw [hframe, setFlows_services]
  exact mem_setServices_ok engine hservices n

/-- The flows on record are those of the snapshot for services on record. -/
theorem apply_flows (d : Snapshot) (slots : UInt32) (r : Roster H σ) :
    (apply engine d slots r).2.flows = byKey (apply engine d slots r).2 d.flows := by
  obtain ⟨s, endpoints, hframe⟩ := apply_frame engine d slots r
  rw [hframe, byKey, setFlows_flows, byKey, setFlows_services]

/-- Once a snapshot whose services have names of their own is applied without a fault, what is
wanted of the endpoints of each service has been brought about. -/
theorem apply_holding {Q : List EndpointSpec → List ActiveEndpoint → Prop}
    (hQ : Establishes engine Q) (h : Consistent engine r)
    (hnames : (d.services.map (·.name)).Nodup) (hok : (apply engine d slots r).1 = .ok ()) :
    ∀ s ∈ d.services, Holding Q s (apply engine d slots r).2 := by
  obtain ⟨hservices, -, hendpoints⟩ := (apply_eq_ok engine).mp hok
  have hconsistent := setFlows_consistent (setServices_consistent h (d.services.map (·.spec slots)))
    d.flows
  refine (setServiceEndpoints_holding engine hQ hconsistent hnames (fun s hs => ?_) hendpoints).1
  rw [setFlows_services, mem_setServices_ok engine hservices]
  exact ⟨s, hs, rfl⟩

omit engine in
/-- The endpoints on record for the service are those that are due. -/
def Staffed (service : DesiredService) (r : Roster H σ) : Prop :=
  ∃ es, r.endpoints[service.name]? = some es ∧
    ∀ identity, identity ∈ es.map (·.identity) ↔ Due service.endpoints identity

omit engine in
/-- What is on record is what the snapshot asks for. -/
structure Converged (d : Snapshot) (r : Roster H σ) : Prop where
  services : ∀ n : String, n ∈ r.services ↔ ∃ s ∈ d.services, s.name = n
  flows : r.flows = d.flowTable
  endpoints : ∀ s ∈ d.services, Staffed s r

theorem establishes_due : Establishes engine fun specs es =>
    ∀ identity, identity ∈ es.map (·.identity) ↔ Due specs identity :=
  fun service handle _ _ _ hreachable hnil => converge_due engine service handle hreachable hnil

theorem setEndpoints_staffed {service : DesiredService} (h : Consistent engine r)
    (hok : (setEndpoints engine service.name service.endpoints r).1 = .ok ()) :
    Staffed service (setEndpoints engine service.name service.endpoints r).2 :=
  setEndpoints_holding engine (establishes_due engine) h hok

/-- Once a snapshot whose services have names of their own is applied without a fault, the record is
in line with it. -/
theorem apply_converged (h : Consistent engine r) (hnames : (d.services.map (·.name)).Nodup)
    (hok : (apply engine d slots r).1 = .ok ()) : Converged d (apply engine d slots r).2 := by
  have hserved := apply_services engine hok
  refine ⟨hserved, ?_, apply_holding engine (establishes_due engine) h hnames hok⟩
  have hasked (spec : FlowSpec) : spec.service ∈ (apply engine d slots r).2.services ↔
      (d.services.any fun s => s.name = spec.service) = true := by
    rw [hserved, List.any_eq_true]
    simp only [decide_eq_true_eq]
  rw [apply_flows, byKey, Snapshot.flowTable]
  simp only [hasked, Bool.decide_eq_true]

end Apply

end Roster
end VipSteering
