import VipSteering.Proofs.Gateway.Matched

namespace VipSteering.Gateway

open Balancer Roster

variable {σ : Type} [Shell σ] {floor : UInt32} {settings : Settings} {g : Gateway σ}

theorem dropService_matched (h : Matched floor g) (name : String) :
    Matched floor (dropService (Balancer.engine settings) name g).2 := by
  rw [dropService_eq, engine_deleteService]
  cases hn : g.engine.registered[name]? with
  | none =>
    rw [deleteService_absent settings hn]
    exact h.drop name
  | some l =>
    rcases deleteService_cases settings hn with ⟨_, b, hd, hr⟩ | ⟨b, hd, hr⟩
    · rw [hd]
      exact h.releases hr
    · rw [hd]
      exact (h.releases hr).drop name

/-- The balancer is only asked for services that it has not got either. -/
theorem addService_matched (h : Matched settings.firstMark g) (spec : ServiceSpec) :
    Matched settings.firstMark (Roster.addService (Balancer.engine settings) spec g).2 := by
  rw [Roster.addService_eq]
  split
  · exact h
  rename_i hnew
  have hn : g.engine.registered[spec.name]? = none := by
    rw [← h.services]
    exact Std.ExtTreeMap.getElem?_eq_none hnew
  rw [engine_addService]
  rcases addService_cases settings spec.maxEndpoints hn with
    ⟨_, host, he⟩ | ⟨block, host, hblock, he⟩
  · rw [he]
    exact h.congr host g.flows
  · rw [he]
    exact h.add host hblock

theorem setServices_matched (h : Matched settings.firstMark g) (specs : List ServiceSpec) :
    Matched settings.firstMark (setServices (Balancer.engine settings) specs g).2 :=
  setServices_keeps _ (P := Matched settings.firstMark)
    (fun name _ hr => dropService_matched hr name) (fun _ hr => hr.congr _ _)
    (fun spec _ hr => addService_matched hr spec) specs h

theorem setFlows_matched (h : Matched floor g) (specs : List FlowSpec) :
    Matched floor (setFlows (Balancer.engine settings) specs g).2 := by
  refine setFlows_keeps _ (fun key r hr => ?_) (fun spec r hr => ?_) specs h
  · rw [dropFlow_eq]
    split
    · exact hr
    · split
      · exact hr.congr _ _
      · exact hr.congr _ _
  · rw [putFlow_eq]
    split
    · exact hr
    · exact hr.congr _ _

theorem setEndpoints_matched (h : Matched floor g) (service : String)
    (specs : List EndpointSpec) :
    Matched floor (setEndpoints (Balancer.engine settings) service specs g).2 := by
  rw [setEndpoints_eq]
  split
  · rename_i l previous hl hes
    have hd := h.slots_nodup hes
    have hreg : g.engine.registered[service]? = some l := by rw [← h.services]; exact hl
    obtain ⟨hconf, hcov, -⟩ := converge_keeps settings service l specs hd (h.holdsAll hl hes)
    exact h.converge hl hconf (converge_sound settings service previous specs h.sound hreg)
      (converge_slots_nodup _ service l specs g.engine hd) hcov
  · exact h

theorem Event.apply_matched (h : Matched settings.firstMark g) (e : Event σ) :
    Matched settings.firstMark (e.apply (Balancer.engine settings) g) := by
  match e with
  | .call (.setServices specs) => exact setServices_matched h specs
  | .call (.setFlows specs) => exact setFlows_matched h specs
  | .call (.setEndpoints service specs) => exact setEndpoints_matched h service specs
  | .outside change => exact h.congr _ g.flows

theorem run_matched (h : Matched settings.firstMark g) (events : List (Event σ)) :
    Matched settings.firstMark (run (Balancer.engine settings) events g) := by
  induction events generalizing g with
  | nil => exact h
  | cons e rest ih => exact ih (e.apply_matched h)

end VipSteering.Gateway
