import VipSteering.Proofs.Balancer.Confirmed
import VipSteering.Proofs.Gateway.Happenings

namespace VipSteering

namespace Roster

variable {σ H : Type}

/-- What is wanted goes by the keys of the table. -/
theorem keys_byKey (r : Roster H σ) (specs : List FlowSpec) :
    (byKey r specs).values.map (·.key) = (byKey r specs).keys := by
  rw [values_eq, List.map_map, ← Std.ExtTreeMap.map_fst_toList_eq_keys]
  refine List.map_congr_left fun p hp => ?_
  exact key_of_getElem?_byKey (Std.ExtTreeMap.mem_toList_iff_getElem?_eq_some.mp hp)

theorem keys_byKey_nodup (r : Roster H σ) (specs : List FlowSpec) :
    ((byKey r specs).values.map (·.key)).Nodup := by
  rw [keys_byKey]
  exact Std.ExtTreeMap.nodup_keys

end Roster

namespace Gateway

open Balancer Roster Host

variable {settings : Settings} {g : Gateway Host}

section Put

variable (hp : Text.endsWith "nfqlb" settings.program = true)

/-- A flow of a service on record is set for the lease, and put on record. -/
theorem putFlow_served {spec : FlowSpec} {l : Lease} (hl : g.services[spec.service]? = some l) :
    putFlow (Balancer.engine settings) spec g =
      (((Balancer.addFlow settings.program l.name spec.flow g.engine.host).1.mapError
          .one).mapError (.addFlow spec.key),
        { g with
          flows := g.flows.insert spec.key spec
          engine := { g.engine with
            host := (Balancer.addFlow settings.program l.name spec.flow g.engine.host).2 } }) := by
  rw [putFlow_eq, hl]
  rfl

theorem addFlow_of_putFlow {spec : FlowSpec} {l : Lease} (hl : g.services[spec.service]? = some l)
    (hok : (putFlow (Balancer.engine settings) spec g).1 = .ok ()) :
    (Balancer.addFlow settings.program l.name spec.flow g.engine.host).1 = .ok () := by
  rw [putFlow_served hl] at hok
  exact mapError_eq_ok.mp (mapError_eq_ok.mp hok)

/-- A flow that is set without a fault is there. -/
theorem putFlow_placed {spec : FlowSpec} {l : Lease} (hl : g.services[spec.service]? = some l)
    (hok : (putFlow (Balancer.engine settings) spec g).1 = .ok ()) :
    (putFlow (Balancer.engine settings) spec g).2.engine.host.hashing.flows[spec.key]? =
      some (Maglev.entryOf l.name spec.flow) := by
  have hadded := addFlow_of_putFlow hl hok
  have hp := endsWith_of_addFlow hadded
  obtain ⟨tables, journal, hframe⟩ := addFlow_frame hp g.engine.host l.name spec.flow
  rw [putFlow_served hl]
  dsimp only
  rw [hframe, if_neg (not_refuses_of_addFlow hp _ hadded)]
  exact Std.ExtTreeMap.getElem?_insert_self

include hp

theorem putFlow_others {spec : FlowSpec} {key : String} (hkey : spec.key ≠ key) :
    (putFlow (Balancer.engine settings) spec g).2.engine.host.hashing.flows[key]? =
      g.engine.host.hashing.flows[key]? := by
  cases hl : g.services[spec.service]? with
  | none => rw [putFlow_eq, hl]
  | some l =>
    obtain ⟨tables, journal, hframe⟩ := addFlow_frame hp g.engine.host l.name spec.flow
    rw [putFlow_served hl]
    dsimp only
    rw [hframe]
    split
    · rfl
    · exact getElem?_insert_of_ne hkey _

theorem putFlows_others {specs : List FlowSpec} {key : String}
    (hkey : key ∉ specs.map (·.key)) :
    (attemptAll (putFlow (Balancer.engine settings)) specs g).2.engine.host.hashing.flows[key]? =
      g.engine.host.hashing.flows[key]? := by
  refine attemptAll_keeps (P := fun r : Gateway Host =>
    r.engine.host.hashing.flows[key]? = g.engine.host.hashing.flows[key]?)
    (fun spec hspec r hr => ?_) rfl
  exact (putFlow_others hp fun heq => hkey (List.mem_map.mpr ⟨spec, hspec, heq⟩)).trans hr

theorem putFlows_placed {specs : List FlowSpec} (hkeys : (specs.map (·.key)).Nodup)
    (hok : (attemptAll (putFlow (Balancer.engine settings)) specs g).1 = []) :
    ∀ spec ∈ specs, ∀ l : Lease, g.services[spec.service]? = some l →
      (attemptAll (putFlow (Balancer.engine settings)) specs
          g).2.engine.host.hashing.flows[spec.key]? =
        some (Maglev.entryOf l.name spec.flow) := by
  induction specs generalizing g with
  | nil => simp
  | cons first rest ih =>
    rw [List.map_cons, List.nodup_cons] at hkeys
    obtain ⟨hfirst, hrest⟩ := attemptAll_cons_eq_nil.mp hok
    simp only [List.mem_cons, forall_eq_or_imp]
    rw [attemptAll_cons]
    refine ⟨fun l hl => ?_, fun spec hspec l hl => ih hkeys.2 hrest spec hspec l ?_⟩
    · exact (putFlows_others hp hkeys.1).trans (putFlow_placed hl hfirst)
    · rw [putFlow_services]
      exact hl

end Put

theorem endsWith_of_putFlows {specs : List FlowSpec} {spec : FlowSpec} (hspec : spec ∈ specs)
    (hserved : spec.service ∈ g.services)
    (hok : (attemptAll (putFlow (Balancer.engine settings)) specs g).1 = []) :
    Text.endsWith "nfqlb" settings.program = true := by
  obtain ⟨r, hservices, hput⟩ := attemptAll_succeeds
    (I := fun r : Gateway Host => r.services = g.services)
    (fun other _ r hr => (putFlow_services _ other r).trans hr) rfl hok spec hspec
  obtain ⟨l, hl⟩ := exists_of_mem hserved
  exact endsWith_of_addFlow (addFlow_of_putFlow (hservices ▸ hl) hput)

/-- The last of the flows brings the virtual addresses up to date. -/
theorem putFlows_uptodate (hw : ReadableContents g.engine.host) {specs : List FlowSpec}
    (hne : specs ≠ [])
    (hserved : ∀ spec ∈ specs, spec.service ∈ g.services)
    (hok : (attemptAll (putFlow (Balancer.engine settings)) specs g).1 = []) :
    Current (attemptAll (putFlow (Balancer.engine settings)) specs g).2.engine.host := by
  induction specs generalizing g with
  | nil => exact absurd rfl hne
  | cons first rest ih =>
    simp only [List.mem_cons, forall_eq_or_imp] at hserved
    obtain ⟨hfirst, hrest⟩ := attemptAll_cons_eq_nil.mp hok
    rw [attemptAll_cons]
    by_cases hlast : rest = []
    · obtain ⟨l, hl⟩ := exists_of_mem hserved.1
      have hcurrent := addFlow_current hw (addFlow_of_putFlow hl hfirst)
      rw [hlast, attemptAll_nil, putFlow_served hl]
      exact hcurrent
    · refine ih ?_ hlast (fun spec hspec => ?_) hrest
      · exact hw.reaches (putFlow_balancerCommand g first)
      · rw [putFlow_services]
        exact hserved.2 spec hspec

section Set

variable {specs : List FlowSpec}
  (hok : (setFlows (Balancer.engine settings) specs g).1 = .ok ()) {key : String} {spec : FlowSpec}
  (hspec : (setFlows (Balancer.engine settings) specs g).2.flows[key]? = some spec)

include hok hspec

omit hok in
theorem setFlows_served : spec.service ∈ g.services := by
  rw [setFlows_flows] at hspec
  exact (of_mem_byKey_values (mem_values.mpr ⟨key, hspec⟩)).2

/-- If flows are set without a fault, the host holds every flow that is on record then. -/
theorem setFlows_placed {l : Lease} (hl : g.services[spec.service]? = some l) :
    Text.endsWith "nfqlb" settings.program = true ∧
      (setFlows (Balancer.engine settings) specs g).2.engine.host.hashing.flows[key]? =
        some (Maglev.entryOf l.name spec.flow) := by
  rw [setFlows_flows] at hspec
  obtain rfl := key_of_getElem?_byKey hspec
  have hmem : spec ∈ (byKey g specs).values := mem_values.mpr ⟨spec.key, hspec⟩
  rw [setFlows_eq] at hok ⊢
  obtain ⟨-, hput⟩ := List.append_eq_nil_iff.mp (Report.ofFaults_eq_ok.mp hok)
  rw [← dropFlows_services (Balancer.engine settings) (g.staleFlows specs)] at hl
  have hp := endsWith_of_putFlows hmem (mem_of_getElem? hl) hput
  exact ⟨hp, putFlows_placed hp (keys_byKey_nodup g specs) hput spec hmem l hl⟩

theorem setFlows_uptodate (hw : ReadableContents g.engine.host) :
    Current (setFlows (Balancer.engine settings) specs g).2.engine.host := by
  rw [setFlows_flows] at hspec
  rw [setFlows_eq] at hok ⊢
  obtain ⟨-, hput⟩ := List.append_eq_nil_iff.mp (Report.ofFaults_eq_ok.mp hok)
  have hdropped : ReadableContents
      (attemptAll (dropFlow (Balancer.engine settings)) (g.staleFlows specs) g).2.engine.host :=
    attemptAll_keeps (P := fun r : Gateway Host => ReadableContents r.engine.host)
      (fun key _ r hr => hr.reaches (dropFlow_balancerCommand r key)) hw
  refine putFlows_uptodate hdropped (List.ne_nil_of_mem (mem_values.mpr ⟨key, hspec⟩))
    (fun other hother => ?_) hput
  rw [dropFlows_services]
  exact (of_mem_byKey_values hother).2

end Set

end Gateway
end VipSteering
