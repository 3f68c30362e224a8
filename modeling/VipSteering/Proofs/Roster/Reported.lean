import VipSteering.Balancer.Service
import VipSteering.Host.Basic
import VipSteering.Proofs.Roster.Logged

namespace VipSteering.Roster

open Setback (heard Mixed)

variable {σ H ε : Type}

/-- What may be asked of a roster at one time. -/
inductive Demand where
  | request (request : Request)
  | snapshot (d : Snapshot) (slots : UInt32)

def Demand.perform (engine : Engine σ H ε) :
    Demand → StateM (Roster H σ) (Except (Report (Fault ε)) Unit)
  | request q => q.perform engine
  | snapshot d slots => apply engine d slots

/-- The requests for the endpoints of services, as far as these are on record. -/
def endpointRequests (known : Std.ExtTreeMap String H) (services : List DesiredService) :
    List Request :=
  (services.filter (·.name ∈ known)).map fun s => .endpoints s.name s.endpoints

/-- The requests that a demand comes to. -/
def Demand.requests (engine : Engine σ H ε) (r : Roster H σ) : Demand → List Request
  | request q => [q]
  | snapshot d slots =>
    let specs := d.services.map (·.spec slots)
    .services specs :: .flows d.flows ::
      endpointRequests (setServices engine specs r).2.services d.services

/-- The fault is told by one of several requests that are performed in turn. -/
def TellsAmong (engine : Engine σ H ε) : List Request → Roster H σ → Setback H ε → Fault ε → Prop
  | [], _, _, _ => False
  | q :: rest, r, b, f => q.Tells r b f ∨ TellsAmong engine rest (q.perform engine r).2 b f

/-- After each of several requests in turn, a service whose endpoints are asked for has those that
are due. -/
def MetAmong (engine : Engine σ H ε) : List Request → Roster H σ → Prop
  | [], _ => True
  | .endpoints service specs :: rest, r =>
    Staffed ⟨service, none, specs⟩ (setEndpoints engine service specs r).2 ∧
      MetAmong engine rest (setEndpoints engine service specs r).2
  | q :: rest, r => MetAmong engine rest (q.perform engine r).2

section Demands

variable (engine : Engine σ H ε)

/-- Only requests for services tell of services. -/
theorem Request.Tells.of_endpoints {r : Roster H σ} {service : String} {specs : List EndpointSpec}
    {b : Setback H ε} {f : Fault ε} (h : Request.Tells r (.endpoints service specs) b f) :
    b.addsService = false ∧ b.deletesService = false := by
  cases h <;> exact ⟨rfl, rfl⟩

theorem Request.Tells.of_flows {r : Roster H σ} {specs : List FlowSpec} {b : Setback H ε}
    {f : Fault ε} (h : Request.Tells r (.flows specs) b f) :
    b.addsService = false ∧ b.deletesService = false := by
  cases h <;> exact ⟨rfl, rfl⟩

theorem told_of_no_service {tells : Setback H ε → Fault ε → Prop}
    (h : ∀ b f, tells b f → b.addsService = false ∧ b.deletesService = false)
    {setbacks : List (Setback H ε)} {faults : List (Fault ε)}
    (htold : List.Forall₂ tells setbacks faults) :
    ∀ b ∈ setbacks, b.addsService = false ∧ b.deletesService = false := by
  induction htold with
  | nil => simp
  | cons hfirst _ ih =>
    rw [List.forall_mem_cons]
    exact ⟨h _ _ hfirst, ih⟩

theorem perform_logged (q : Request) (r : Roster H σ) (log : List (Setback H ε)) :
    ∃ setbacks, q.perform engine.logged (r.logged log) =
        ((q.perform engine r).1, (q.perform engine r).2.logged (log ++ setbacks)) ∧
      List.Forall₂ (q.Tells r) (heard setbacks)
        (engineFaults (Report.leaves (q.perform engine r).1)) := by
  cases q with
  | services specs => exact setServices_logged engine specs r log
  | flows specs =>
    obtain ⟨setbacks, heq, htold⟩ := recounts_setFlows engine specs r log
    refine ⟨setbacks, heq, ?_⟩
    rw [Setback.heard_of_none fun b hb => (told_of_no_service (fun _ _ h => h.of_flows) htold b hb).1]
    exact htold
  | endpoints service specs =>
    obtain ⟨setbacks, heq, htold⟩ := recounts_setEndpoints engine service specs r log
    refine ⟨setbacks, heq, ?_⟩
    rw [Setback.heard_of_none fun b hb =>
      (told_of_no_service (fun _ _ h => h.of_endpoints) htold b hb).1]
    exact htold

omit engine in
theorem faultsOf_attemptAll_cons {S α : Type} (task : α → StateM S (Except (Report (Fault ε)) Unit))
    (a : α) (rest : List α) (s : S) :
    Report.faultsOf (attemptAll task (a :: rest) s).1 =
      Report.leaves (task a s).1 ++ Report.faultsOf (attemptAll task rest (task a s).2).1 := by
  rw [attemptAll_cons]
  cases (task a s).1 <;> rfl

theorem recounts_endpointRequests (known : Std.ExtTreeMap String H) (services : List DesiredService)
    (r : Roster H σ) :
    Recounts Roster.logged
      (fun b f => (b.addsService = false ∧ b.deletesService = false) ∧
        TellsAmong engine (endpointRequests known services) r b f)
      (attemptAll (setServiceEndpoints engine known) services)
      (attemptAll (setServiceEndpoints engine.logged known) services) r
      (Report.faultsOf (attemptAll (setServiceEndpoints engine known) services r).1) := by
  induction services generalizing r with
  | nil => exact .pure [] r
  | cons s rest ih =>
    intro log
    rw [faultsOf_attemptAll_cons, attemptAll_cons, attemptAll_cons, setServiceEndpoints_eq,
      setServiceEndpoints_eq]
    by_cases hknown : s.name ∈ known
    · have hrequests : endpointRequests known (s :: rest) =
          .endpoints s.name s.endpoints :: endpointRequests known rest := by
        simp [endpointRequests, hknown]
      rw [if_pos hknown, if_pos hknown, hrequests]
      obtain ⟨first, heq, htold⟩ := recounts_setEndpoints engine s.name s.endpoints r log
      obtain ⟨second, heq', htold'⟩ :=
        ih (setEndpoints engine s.name s.endpoints r).2 (log ++ first)
      rw [heq, heq']
      refine ⟨first ++ second, by rw [List.append_assoc], ?_⟩
      rw [engineFaults_append]
      refine List.rel_append (htold.imp fun b f h => ⟨h.of_endpoints, .inl h⟩) ?_
      exact htold'.imp fun b f h => ⟨h.1, .inr h.2⟩
    · have hrequests : endpointRequests known (s :: rest) = endpointRequests known rest := by
        simp [endpointRequests, hknown]
      rw [if_neg hknown, if_neg hknown, hrequests]
      exact ih r log

theorem apply_logged (d : Snapshot) (slots : UInt32) (r : Roster H σ) (log : List (Setback H ε)) :
    ∃ setbacks, apply engine.logged d slots (r.logged log) =
        ((apply engine d slots r).1, (apply engine d slots r).2.logged (log ++ setbacks)) ∧
      List.Forall₂ (TellsAmong engine ((Demand.snapshot d slots).requests engine r) r)
        (heard setbacks) (engineFaults (Report.leaves (apply engine d slots r).1)) := by
  obtain ⟨first, heq, htold⟩ := setServices_logged engine (d.services.map (·.spec slots)) r log
  rw [Demand.requests]
  generalize hr : setServices engine (d.services.map (·.spec slots)) r = services at heq htold
  obtain ⟨second, heq', htold'⟩ := recounts_setFlows engine d.flows services.2 (log ++ first)
  obtain ⟨third, heq'', htold''⟩ := recounts_endpointRequests engine services.2.services d.services
    (setFlows engine d.flows services.2).2 (log ++ first ++ second)
  refine ⟨first ++ (second ++ third), ?_, ?_⟩
  · rw [apply_eq, apply_eq, heq, hr]
    dsimp only
    rw [heq', logged_services, setFlows_services, heq'']
    simp only [List.append_assoc]
  · have hothers : ∀ b ∈ second ++ third, b.addsService = false ∧ b.deletesService = false := by
      rw [List.forall_mem_append]
      exact ⟨told_of_no_service (fun _ _ h => h.of_flows) htold',
        told_of_no_service (fun _ _ h => h.1) htold''⟩
    rw [Setback.heard_append hothers, apply_eq, hr]
    dsimp only
    rw [setFlows_services, Report.leaves_gather, Report.faultsOf_append, Report.faultsOf_append,
      faultsOf_reports, faultsOf_reports, engineFaults_append, engineFaults_append,
      ← List.append_assoc]
    refine List.rel_append (List.rel_append (htold.imp fun b f h => .inl h) ?_) ?_
    · refine htold'.imp fun b f h => .inr (.inl ?_)
      rw [Request.perform, hr]
      exact h
    · refine htold''.imp fun b f h => .inr (.inr ?_)
      rw [Request.perform, Request.perform, hr]
      exact h.2

theorem endpointRequests_met (known : Std.ExtTreeMap String H) {services : List DesiredService}
    {r : Roster H σ} (h : Consistent engine r)
    (hok : (attemptAll (setServiceEndpoints engine known) services r).1 = []) :
    MetAmong engine (endpointRequests known services) r := by
  induction services generalizing r with
  | nil => trivial
  | cons s rest ih =>
    obtain ⟨hfirst, hrest⟩ := attemptAll_cons_eq_nil.mp hok
    rw [setServiceEndpoints_eq] at hfirst hrest
    by_cases hknown : s.name ∈ known
    · have hrequests : endpointRequests known (s :: rest) =
          .endpoints s.name s.endpoints :: endpointRequests known rest := by
        simp [endpointRequests, hknown]
      rw [if_pos hknown] at hfirst hrest
      rw [hrequests, MetAmong]
      exact ⟨setEndpoints_staffed engine h hfirst,
        ih (setEndpoints_consistent h s.name s.endpoints) hrest⟩
    · have hrequests : endpointRequests known (s :: rest) = endpointRequests known rest := by
        simp [endpointRequests, hknown]
      rw [if_neg hknown] at hrest
      rw [hrequests]
      exact ih h hrest

/-- What is asked for is done if there is no fault. -/
theorem met_of_ok {r : Roster H σ} (h : Consistent engine r) (demand : Demand)
    (hok : (demand.perform engine r).1 = .ok ()) : MetAmong engine (demand.requests engine r) r := by
  match demand with
  | .request (.services _) => trivial
  | .request (.flows _) => trivial
  | .request (.endpoints service specs) =>
    let asked : DesiredService := ⟨service, none, specs⟩
    have hstaffed : Staffed asked (setEndpoints engine asked.name asked.endpoints r).2 :=
      setEndpoints_staffed engine h hok
    exact ⟨hstaffed, trivial⟩
  | .snapshot d slots =>
    obtain ⟨-, -, hendpoints⟩ := (apply_eq_ok engine).mp hok
    rw [setFlows_services] at hendpoints
    exact endpointRequests_met engine _
      (setFlows_consistent (setServices_consistent h _) _) hendpoints

theorem Demand.perform_logged (demand : Demand) (r : Roster H σ) (log : List (Setback H ε)) :
    ∃ setbacks, demand.perform engine.logged (r.logged log) =
        ((demand.perform engine r).1, (demand.perform engine r).2.logged (log ++ setbacks)) ∧
      List.Forall₂ (TellsAmong engine (demand.requests engine r) r) (heard setbacks)
        (engineFaults (Report.leaves (demand.perform engine r).1)) := by
  cases demand with
  | request q =>
    obtain ⟨setbacks, heq, htold⟩ := Roster.perform_logged engine q r log
    exact ⟨setbacks, heq, htold.imp fun _ _ h => .inl h⟩
  | snapshot d slots => exact apply_logged engine d slots r log

/-- The calls that fail while a demand is met. -/
def Demand.setbacks (demand : Demand) (r : Roster H σ) : List (Setback H ε) :=
  (demand.perform engine.logged (r.logged [])).2.engine.2

/-- Whatever is on record, whatever is asked for and whatever the engine says: the faults in which the
engine has its say are told by the calls that failed, one each and in their order, but for the
services that could not be deleted when another could not be added. So every call that failed is
reported exactly if there are not both. Success is only reported if no call failed and every endpoint
that is due is active. -/
theorem failures_reported (s : σ) (turns : List (Turn σ)) (now : σ) (demand : Demand) :
    let r : Roster H σ := { afterTurns engine s turns with engine := now }
    let setbacks := demand.setbacks engine r
    let told := engineFaults (Report.leaves (demand.perform engine r).1)
    demand.perform engine.logged (r.logged []) =
        ((demand.perform engine r).1, (demand.perform engine r).2.logged setbacks) ∧
      List.Forall₂ (TellsAmong engine (demand.requests engine r) r) (heard setbacks) told ∧
      (List.Forall₂ (TellsAmong engine (demand.requests engine r) r) setbacks told ↔
        ¬ Mixed setbacks) ∧
      ((demand.perform engine r).1 = .ok () →
        setbacks = [] ∧ MetAmong engine (demand.requests engine r) r) := by
  intro r setbacks told
  have hconsistent : Consistent engine r := (afterTurns_consistent engine s turns).withEngine now
  obtain ⟨logged, heq, htold⟩ := demand.perform_logged engine r []
  have hsetbacks : setbacks = logged := by
    change (demand.perform engine.logged (r.logged [])).2.engine.2 = logged
    rw [heq]
    rfl
  rw [← hsetbacks] at heq htold
  refine ⟨heq, htold, ⟨fun hall => ?_, fun hunmixed => ?_⟩, fun hok => ⟨?_, ?_⟩⟩
  · rw [← Setback.length_heard, htold.length_eq, hall.length_eq]
  · rwa [Setback.heard_of_not_mixed hunmixed] at htold
  · rw [hok] at htold
    exact Setback.heard_eq_nil.mp (List.forall₂_nil_right_iff.mp htold)
  · exact met_of_ok engine hconsistent demand hok

end Demands

/-- A balancer with one service, on a host that has stopped to create and to delete segments. -/
def cutOff : Roster Lease (Balancer Host) :=
  let r := afterTurns (Balancer.engine { }) { host := { } } [⟨id, .services [⟨"svc-a", 10⟩]⟩]
  { r with engine := { r.engine with host := Host.failOn r.engine.host "--shm" } }

/-- One service is to take the place of the other. -/
def replacement : Demand := .request (.services [⟨"svc-b", 10⟩])

/-- The service cannot be deleted and the other cannot be added, but a single fault is reported. -/
theorem cutOff_silent :
    ¬ List.Forall₂
      (TellsAmong (Balancer.engine { }) (replacement.requests (Balancer.engine { }) cutOff) cutOff)
      (replacement.setbacks (Balancer.engine { }) cutOff)
      (engineFaults (Report.leaves (replacement.perform (Balancer.engine { }) cutOff).1)) := by
  have hlengths : (replacement.setbacks (Balancer.engine { }) cutOff).length = 2 ∧
      (engineFaults (Report.leaves
        (replacement.perform (Balancer.engine { }) cutOff).1)).length = 1 := by
    decide +kernel
  intro htold
  have hsame := htold.length_eq
  rw [hlengths.1, hlengths.2] at hsame
  exact absurd hsame (by decide)

end VipSteering.Roster
