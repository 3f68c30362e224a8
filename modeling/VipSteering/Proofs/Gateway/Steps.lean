import VipSteering.Proofs.Gateway.Flows
import VipSteering.Proofs.Gateway.Live

namespace VipSteering.Gateway

open Balancer Roster Host

/-- Roster and balancer are matched, and the host has a property. -/
structure MatchedOn (settings : Settings) (P : Host → Prop) (g : Gateway Host) : Prop where
  matched : Matched settings.firstMark g
  /-- Services are only set up by a program that has segments. -/
  program : ∀ {n : String} {l : Lease}, g.services[n]? = some l →
    Text.endsWith "nfqlb" settings.program = true
  host : P g.engine.host

variable {settings : Settings} {P Q : Host → Prop} {g : Gateway Host}

namespace MatchedOn

theorem mono (h : MatchedOn settings P g) (hq : Q g.engine.host) : MatchedOn settings Q g :=
  ⟨h.matched, h.program, hq⟩

theorem registered (h : MatchedOn settings P g) {n : String} {l : Lease}
    (hl : g.services[n]? = some l) : g.engine.registered[n]? = some l := by
  rw [← h.matched.services]
  exact hl

/-- Neither the host nor the flows matter for the rest. -/
theorem congr (h : MatchedOn settings P g) {host : Host} (flows : Std.ExtTreeMap String FlowSpec)
    (hp : P host) : MatchedOn settings P { g with engine := { g.engine with host }, flows } :=
  ⟨h.matched.congr host flows, h.program, hp⟩

end MatchedOn

/-- A flow on record for a service on record is taken off the record, and deleted by its name. -/
theorem dropFlow_flow {key : String} {spec : FlowSpec} {l : Lease} (hspec : g.flows[key]? = some spec)
    (hl : g.services[spec.service]? = some l) :
    dropFlow (Balancer.engine settings) key g =
      (((Balancer.deleteFlow settings.program spec.key g.engine.host).1.mapError .one).mapError
          (.deleteFlow key),
        { g with
          flows := g.flows.erase key
          engine := { g.engine with
            host := (Balancer.deleteFlow settings.program spec.key g.engine.host).2 } }) := by
  rw [dropFlow_eq, hspec]
  dsimp only
  rw [hl]
  rfl

theorem putFlow_flow {spec : FlowSpec} {l : Lease} (hl : g.services[spec.service]? = some l)
    (hname : l.name = spec.service) :
    putFlow (Balancer.engine settings) spec g =
      (((Balancer.addFlow settings.program spec.service spec.flow g.engine.host).1.mapError
          .one).mapError (.addFlow spec.key),
        { g with
          flows := g.flows.insert spec.key spec
          engine := { g.engine with
            host :=
              (Balancer.addFlow settings.program spec.service spec.flow g.engine.host).2 } }) := by
  rw [putFlow_served hl, hname]

/-- With other flows on record, and other flows and virtual addresses on the host. -/
def withFlows (g : Gateway Host) (flows : Std.ExtTreeMap String FlowSpec)
    (held : Std.ExtTreeMap String FlowEntry) (tables : FilterTables) (journal : List Command) :
    Gateway Host :=
  { g with
    flows
    engine := { g.engine with host := { g.engine.host with
      hashing := { g.engine.host.hashing with flows := held }
      tables
      journal } } }

section Keeps

variable (hP : FlowInvariant settings.program P)

include hP

theorem dropFlow_matchedOn (h : MatchedOn settings P g) (key : String) :
    MatchedOn settings P (dropFlow (Balancer.engine settings) key g).2 := by
  cases hspec : g.flows[key]? with
  | none =>
    rw [dropFlow_eq, hspec]
    exact h
  | some spec =>
    cases hl : g.services[spec.service]? with
    | none =>
      rw [dropFlow_eq, hspec]
      dsimp only
      rw [hl]
      exact h.congr _ h.host
    | some l =>
      rw [dropFlow_flow hspec hl]
      exact h.congr _ (hP.deleteFlow (h.program hl) spec.key h.host)

theorem putFlow_matchedOn (h : MatchedOn settings P g) (spec : FlowSpec) :
    MatchedOn settings P (putFlow (Balancer.engine settings) spec g).2 := by
  cases hl : g.services[spec.service]? with
  | none =>
    rw [putFlow_eq, hl]
    exact h
  | some l =>
    rw [putFlow_flow hl (h.matched.sound.name (h.registered hl))]
    exact h.congr _ (hP.addFlow (h.program hl) spec.service spec.flow h.host)

theorem setFlows_matchedOn (h : MatchedOn settings P g) (specs : List FlowSpec) :
    MatchedOn settings P (setFlows (Balancer.engine settings) specs g).2 :=
  setFlows_keeps _ (P := MatchedOn settings P) (fun key _ hr => dropFlow_matchedOn hP hr key)
    (fun spec _ hr => putFlow_matchedOn hP hr spec) specs h

omit hP in
/-- Flows concern neither segments nor routes, and not the books of the balancer. -/
theorem setFlows_frame (h : MatchedOn settings P g) (specs : List FlowSpec) :
    ∃ flows held tables journal, (setFlows (Balancer.engine settings) specs g).2 =
      withFlows g flows held tables journal := by
  refine setFlows_keeps _
    (P := fun r => ∃ flows held tables journal, r = withFlows g flows held tables journal)
    (fun key r hr => ?_) (fun spec r hr => ?_) specs
    ⟨g.flows, g.engine.host.hashing.flows, g.engine.host.tables, g.engine.host.journal, rfl⟩
  · obtain ⟨flows, held, tables, journal, rfl⟩ := hr
    rw [dropFlow_eq]
    split
    · exact ⟨flows, held, tables, journal, rfl⟩
    rename_i spec hspec
    split
    · exact ⟨flows.erase key, held, tables, journal, rfl⟩
    · rename_i l hl
      obtain ⟨tables', journal', heq⟩ := deleteFlow_frame (h.program hl)
        (withFlows g flows held tables journal).engine.host spec.flow.name
      rw [engine_deleteFlow]
      dsimp only
      rw [heq]
      exact ⟨flows.erase key, _, tables', journal', rfl⟩
  · obtain ⟨flows, held, tables, journal, rfl⟩ := hr
    rw [putFlow_eq]
    split
    · exact ⟨flows, held, tables, journal, rfl⟩
    · rename_i l hl
      obtain ⟨tables', journal', heq⟩ := addFlow_frame (h.program hl)
        (withFlows g flows held tables journal).engine.host l.name spec.flow
      rw [engine_addFlow]
      dsimp only
      rw [heq]
      exact ⟨flows.insert spec.key spec, _, tables', journal', rfl⟩

theorem dropService_matchedOn (h : MatchedOn settings P g) (name : String) :
    MatchedOn settings P (dropService (Balancer.engine settings) name g).2 := by
  have hmatched : Matched settings.firstMark (dropService (Balancer.engine settings) name g).2 :=
    dropService_matched h.matched name
  have hhost : P (deleteService settings name g.engine).2.host := by
    cases hl : g.services[name]? with
    | none =>
      rw [deleteService_absent settings (by rw [← h.matched.services]; exact hl)]
      exact h.host
    | some l => exact deleteService_steady (h.program hl) (h.registered hl) hP h.host
  rw [dropService_eq, engine_deleteService] at hmatched ⊢
  dsimp only at hmatched ⊢
  split at hmatched
  · exact ⟨hmatched, h.program, hhost⟩
  · exact ⟨hmatched, fun hk => h.program (of_getElem?_erase hk).2, hhost⟩

theorem addService_matchedOn (h : MatchedOn settings P g) (spec : ServiceSpec) :
    MatchedOn settings P (Roster.addService (Balancer.engine settings) spec g).2 := by
  have hmatched := addService_matched h.matched spec
  have hhost : P (Balancer.addService settings spec.name spec.maxEndpoints g.engine).2.host :=
    hP.alike (addService_alike settings spec.name spec.maxEndpoints g.engine) h.host
  rw [Roster.addService_eq] at hmatched ⊢
  split at hmatched
  · rename_i hold
    rw [if_pos hold]
    exact h
  rename_i hnew
  have hn : g.engine.registered[spec.name]? = none := by
    rw [← h.matched.services]
    exact Std.ExtTreeMap.getElem?_eq_none hnew
  rw [if_neg hnew, engine_addService]
  rw [engine_addService] at hmatched
  dsimp only at hmatched ⊢
  cases hadd : (Balancer.addService settings spec.name spec.maxEndpoints g.engine).1 with
  | error fault =>
    rw [hadd] at hmatched
    exact ⟨hmatched, h.program, hhost⟩
  | ok l =>
    rw [hadd] at hmatched
    exact ⟨hmatched, fun _ => endsWith_of_addService hn hadd, hhost⟩

omit hP in
theorem setServices_state (specs : List ServiceSpec) (g : Gateway Host) :
    (setServices (Balancer.engine settings) specs g).2 =
      (addServices (Balancer.engine settings) (byName specs).values
        (forgetFlows (dropped settings (g.staleServices specs) g))).2 := by
  rw [setServices_eq]
  rfl

omit hP in
/-- New services leave the flows alone, on record and on the host. -/
theorem addServices_alike (settings : Settings) (specs : List ServiceSpec) (g : Gateway Host) :
    (addServices (Balancer.engine settings) specs g).2.flows = g.flows ∧
      Alike g.engine.host (addServices (Balancer.engine settings) specs g).2.engine.host := by
  refine addServices_keeps (Balancer.engine settings)
    (P := fun r => r.flows = g.flows ∧ Alike g.engine.host r.engine.host)
    (fun spec _ r hr => ?_) ⟨rfl, .refl g.engine.host⟩
  have halike := hr.2.trans (addService_alike settings spec.name spec.maxEndpoints r.engine)
  rw [Roster.addService_eq]
  split
  · exact hr
  rw [engine_addService]
  dsimp only
  cases (Balancer.addService settings spec.name spec.maxEndpoints r.engine).1 with
  | error fault => exact ⟨hr.1, halike⟩
  | ok l => exact ⟨hr.1, halike⟩

theorem setServices_matchedOn (h : MatchedOn settings P g) (specs : List ServiceSpec) :
    MatchedOn settings P (setServices (Balancer.engine settings) specs g).2 :=
  setServices_keeps _ (P := MatchedOn settings P)
    (fun name _ hr => dropService_matchedOn hP hr name)
    (fun _ hr => hr.congr _ hr.host) (fun spec _ hr => addService_matchedOn hP hr spec) specs h

omit hP in
/-- Endpoints concern neither flows nor virtual addresses. -/
theorem setEndpoints_alike_of (hp : Text.endsWith "nfqlb" settings.program = true)
    (g : Gateway Host) (service : String) (specs : List EndpointSpec) :
    Alike g.engine.host (setEndpoints (Balancer.engine settings) service specs g).2.engine.host := by
  rw [setEndpoints_eq]
  split
  · rename_i l previous _ _
    exact converge_engine_keeps (Balancer.engine settings) service l
      (P := fun b => Alike g.engine.host b.host)
      (fun _ slot b hb => hb.trans (deleteTarget_alike hp l slot b))
      (fun addresses slot b hb => hb.trans (addTarget_alike hp l addresses slot b))
      previous specs (.refl g.engine.host)
  · exact .refl g.engine.host

omit hP in
theorem setEndpoints_alike (h : MatchedOn settings P g) (service : String)
    (specs : List EndpointSpec) :
    Alike g.engine.host (setEndpoints (Balancer.engine settings) service specs g).2.engine.host := by
  cases hl : g.services[service]? with
  | some l => exact setEndpoints_alike_of (h.program hl) g service specs
  | none =>
    rw [setEndpoints_eq, hl]
    exact .refl g.engine.host

theorem setEndpoints_matchedOn (h : MatchedOn settings P g) (service : String)
    (specs : List EndpointSpec) :
    MatchedOn settings P (setEndpoints (Balancer.engine settings) service specs g).2 := by
  refine ⟨setEndpoints_matched h.matched service specs, fun hl => ?_,
    hP.alike (setEndpoints_alike h service specs) h.host⟩
  obtain ⟨b, endpoints, heq⟩ := setEndpoints_frame (Balancer.engine settings) service specs g
  rw [heq] at hl
  exact h.program hl

theorem Call.perform_matchedOn (h : MatchedOn settings P g) (c : Call) :
    MatchedOn settings P (c.perform (Balancer.engine settings) g).2 := by
  cases c with
  | setServices specs => exact setServices_matchedOn hP h specs
  | setFlows specs => exact setFlows_matchedOn hP h specs
  | setEndpoints service specs => exact setEndpoints_matchedOn hP h service specs

end Keeps

/-- A gateway is called, or its host is disturbed. -/
inductive Step where
  | call (c : Call)
  | disturb (d : Disturbance)

def Step.event : Step → Event Host
  | call c => .call c
  | disturb d => .outside d.apply

/-- What is left after steps in turn. -/
def afterSteps (settings : Settings) (steps : List Step) (host : Host) : Gateway Host :=
  run (Balancer.engine settings) (steps.map Step.event) (fresh host)

theorem afterSteps_snoc (settings : Settings) (steps : List Step) (step : Step) (host : Host) :
    afterSteps settings (steps ++ [step]) host =
      step.event.apply (Balancer.engine settings) (afterSteps settings steps host) := by
  rw [afterSteps, List.map_append]
  exact run_snoc _ _ _ _

theorem afterSteps_setFlows (settings : Settings) (steps : List Step) (specs : List FlowSpec)
    (host : Host) : afterSteps settings (steps ++ [.call (.setFlows specs)]) host =
      (setFlows (Balancer.engine settings) specs (afterSteps settings steps host)).2 :=
  afterSteps_snoc ..

theorem afterSteps_setServices (settings : Settings) (steps : List Step)
    (specs : List ServiceSpec) (host : Host) :
    afterSteps settings (steps ++ [.call (.setServices specs)]) host =
      (setServices (Balancer.engine settings) specs (afterSteps settings steps host)).2 :=
  afterSteps_snoc ..

theorem afterSteps_disturb (settings : Settings) (steps : List Step) (d : Disturbance)
    (host : Host) : afterSteps settings (steps ++ [.disturb d]) host =
      { afterSteps settings steps host with
        engine := { (afterSteps settings steps host).engine with
          host := d.apply (afterSteps settings steps host).engine.host } } :=
  afterSteps_snoc ..

/-- What holds of a gateway at first and is kept by calls and disturbances always holds. -/
theorem afterSteps_keeps {I : Gateway Host → Prop} {host : Host} (hfresh : I (fresh host))
    (hcall : ∀ (c : Call) (g : Gateway Host), I g → I (c.perform (Balancer.engine settings) g).2)
    (hdisturb : ∀ (faults : List String) (g : Gateway Host), I g →
      I { g with engine := { g.engine with host := { g.engine.host with faults } } })
    (steps : List Step) : I (afterSteps settings steps host) := by
  induction steps using List.reverseRecOn with
  | nil => exact hfresh
  | append_singleton steps step ih =>
    rw [afterSteps_snoc]
    cases step with
    | call c => exact hcall c _ ih
    | disturb d =>
      obtain ⟨faults, heq⟩ := d.apply_frame (afterSteps settings steps host).engine.host
      change I { afterSteps settings steps host with
        engine := { (afterSteps settings steps host).engine with host := d.apply _ } }
      rw [heq]
      exact hdisturb faults _ ih

theorem afterSteps_matchedOn (hP : FlowInvariant settings.program P)
    (hfaults : ∀ (h : Host) (faults : List String), P h → P { h with faults }) {host : Host}
    (h₀ : P host) (steps : List Step) : MatchedOn settings P (afterSteps settings steps host) := by
  refine afterSteps_keeps (I := MatchedOn settings P) ⟨.fresh _ host, fun hl => ?_, h₀⟩
    (fun c _ hg => c.perform_matchedOn hP hg)
    (fun faults g hg => hg.congr g.flows (hfaults _ faults hg.host)) steps
  simp [fresh] at hl

theorem afterSteps_consistent (settings : Settings) (steps : List Step) (host : Host) :
    Consistent (Balancer.engine settings) (afterSteps settings steps host) := by
  refine afterSteps_keeps (.empty _ _) (fun c g hg => ?_) (fun _ g hg => hg.withEngine _) steps
  exact c.perform_consistent hg

/-- What every step keeps unless it is a bad one holds at all times exactly if there is no bad
step. -/
theorem prefixes_iff {α : Type} {Q : List α → Prop} {bad : List α → α → Prop} (hnil : Q [])
    (hsnoc : ∀ prior a, Q prior → (Q (prior ++ [a]) ↔ ¬ bad prior a)) (items : List α) :
    (∀ prior, prior <+: items → Q prior) ↔
      ∀ prior a, prior ++ [a] <+: items → ¬ bad prior a := by
  constructor
  · intro hall prior a hp
    have hbefore := hall prior ((List.prefix_append prior [a]).trans hp)
    exact (hsnoc prior a hbefore).mp (hall _ hp)
  · intro hnone prior hp
    induction prior using List.reverseRecOn with
    | nil => exact hnil
    | append_singleton prior a ih =>
      have hbefore := ih ((List.prefix_append prior [a]).trans hp)
      exact (hsnoc prior a hbefore).mpr (hnone prior a hp)

end VipSteering.Gateway
