import VipSteering.Proofs.Balancer.Strays
import VipSteering.Proofs.Gateway.Steps

namespace VipSteering.Gateway

open Balancer Roster Host PolicyRoute

variable {settings : Settings} {P : Host → Prop} {g : Gateway Host}

theorem dropService_engine (settings : Settings) (name : String) (g : Gateway Host) :
    (dropService (Balancer.engine settings) name g).2.engine =
      (deleteService settings name g.engine).2 := by
  rw [dropService_eq, engine_deleteService]
  dsimp only
  split
  · rfl
  · rfl

theorem dropService_sheds (h : MatchedOn settings P g) (e : Entry) (name : String) :
    Sheds e g.engine (dropService (Balancer.engine settings) name g).2.engine := by
  rw [dropService_engine]
  refine deleteService_sheds h.matched.sound (fun l hl => ?_) e
  rw [← h.matched.services] at hl
  exact h.program hl

theorem addService_gains (h : MatchedOn settings P g) (e : Entry) (spec : ServiceSpec) :
    Gains e g.engine (Roster.addService (Balancer.engine settings) spec g).2.engine := by
  have hunmoved := addService_unmoved h.matched.sound spec.name spec.maxEndpoints
  rw [Roster.addService_eq]
  split
  · exact (Unmoved.refl g.engine).gains e
  rw [engine_addService]
  dsimp only
  split
  · exact hunmoved.gains e
  · exact hunmoved.gains e

theorem setServices_turns (hP : FlowInvariant settings.program P) (h : MatchedOn settings P g)
    (e : Entry)
    (specs : List ServiceSpec) :
    Turns e g.engine (setServices (Balancer.engine settings) specs g).2.engine := by
  have hdropped : MatchedOn settings P (dropped settings (g.staleServices specs) g) ∧
      Sheds e g.engine (dropped settings (g.staleServices specs) g).engine :=
    attemptAll_keeps (P := fun r => MatchedOn settings P r ∧ Sheds e g.engine r.engine)
      (fun name _ r hr => ⟨dropService_matchedOn hP hr.1 name,
        hr.2.trans (dropService_sheds hr.1 e name)⟩) ⟨h, (Unmoved.refl g.engine).sheds e⟩
  rw [setServices_state]
  generalize dropped settings (g.staleServices specs) g = left at hdropped
  obtain ⟨hmatched, hsheds⟩ := hdropped
  have hforgot : MatchedOn settings P (forgetFlows left) := hmatched.congr _ hmatched.host
  refine ⟨left.engine, hsheds, ?_⟩
  exact (addServices_keeps _ (P := fun r => MatchedOn settings P r ∧ Gains e left.engine r.engine)
    (fun spec _ r hr => ⟨addService_matchedOn hP hr.1 spec,
      hr.2.trans (addService_gains hr.1 e spec)⟩)
    ⟨hforgot, (Unmoved.refl left.engine).gains e⟩).2

theorem setFlows_turns (h : MatchedOn settings P g) (e : Entry) (specs : List FlowSpec) :
    Turns e g.engine (setFlows (Balancer.engine settings) specs g).2.engine := by
  obtain ⟨flows, held, tables, journal, heq⟩ := setFlows_frame h specs
  rw [heq]
  exact (Unmoved.host g.engine (by rfl) (by rfl)).turns e

/-- The first pass gives up targets, the second takes on others. -/
theorem converge_turns {service : String} {l : Lease} {b : Balancer Host}
    (hp : Text.endsWith "nfqlb" settings.program = true) (hb : Sound settings.firstMark b)
    (hl : b.registered[service]? = some l) (e : Entry) (previous : List ActiveEndpoint)
    (specs : List EndpointSpec) :
    Turns e b (converge (Balancer.engine settings) service l previous specs b).2 := by
  have hreleased := release_engine_keeps (Balancer.engine settings) service l
    (P := fun c => Leased settings.firstMark service l c ∧ Sheds e b c)
    (fun _ slot c hc => ⟨hc.1.deleteTarget settings.program slot,
      hc.2.trans (deleteTarget_sheds hp hc.1.sound hc.1.registered e slot)⟩)
    specs previous ⟨⟨hb, hl⟩, (Unmoved.refl b).sheds e⟩
  rw [converge_eq]
  generalize release (Balancer.engine settings) service l specs previous b = left at hreleased
  obtain ⟨hleased, hsheds⟩ := hreleased
  have hadd (addresses : List Address) (slot : UInt32) (c : Balancer Host)
      (hc : Leased settings.firstMark service l c ∧ Gains e left.2 c) :
      Leased settings.firstMark service l (addTarget settings.program l addresses slot c).2 ∧
        Gains e left.2 (addTarget settings.program l addresses slot c).2 :=
    ⟨hc.1.addTarget settings.program addresses slot,
      hc.2.trans (addTarget_gains hp hc.1.sound hc.1.registered e addresses slot)⟩
  refine ⟨left.2, hsheds, ?_⟩
  exact (activate_induction (Balancer.engine settings) service l
    (P := fun _ c => Leased settings.firstMark service l c ∧ Gains e left.2 c) previous
    (fun _ c addresses slot hc _ _ _ _ => hadd addresses slot c hc)
    (fun _ c _ addresses slot hc _ _ _ => hadd addresses slot c hc) _ _ _
    ⟨hleased, (Unmoved.refl left.2).gains e⟩).2

theorem setEndpoints_turns (h : MatchedOn settings P g) (e : Entry) (service : String)
    (specs : List EndpointSpec) :
    Turns e g.engine (setEndpoints (Balancer.engine settings) service specs g).2.engine := by
  rw [setEndpoints_eq]
  split
  · rename_i l previous hl hes
    exact converge_turns (h.program hl) h.matched.sound (h.registered hl) e previous specs
  · exact (Unmoved.refl g.engine).turns e

theorem Call.perform_turns (hP : FlowInvariant settings.program P) (h : MatchedOn settings P g)
    (e : Entry)
    (c : Call) : Turns e g.engine (c.perform (Balancer.engine settings) g).2.engine := by
  cases c with
  | setServices specs => exact setServices_turns hP h e specs
  | setFlows specs => exact setFlows_turns h e specs
  | setEndpoints service specs => exact setEndpoints_turns h e service specs

/-- The step gives up the target that an entry of the host belongs to and leaves the entry: it is not
part of the target's policy routes, or the host refuses to delete it. -/
def Abandons (settings : Settings) (g : Gateway Host) (step : Step) (e : Entry) : Prop :=
  Has g.engine e ∧ Upholds g.engine e ∧
    ¬ Upholds (step.event.apply (Balancer.engine settings) g).engine e ∧
    (NamesEntry g.engine e → g.engine.host.Refuses e.deletion)

/-- A step has abandoned the entry, and since then it has belonged to no target. -/
def Stranded (settings : Settings) (host : Host) (steps : List Step) (e : Entry) : Prop :=
  ∃ done step rest, steps = done ++ step :: rest ∧
    Abandons settings (afterSteps settings done host) step e ∧
    ∀ part, part <+: rest →
      ¬ Upholds (afterSteps settings (done ++ step :: part) host).engine e

theorem flowInvariant_trivial (program : String) : FlowInvariant program fun _ => True :=
  ⟨fun _ _ => trivial, fun _ _ _ _ _ => trivial, fun _ _ _ _ => trivial⟩

theorem afterSteps_matchedOn_trivial (settings : Settings) (steps : List Step) (host : Host) :
    MatchedOn settings (fun _ => True) (afterSteps settings steps host) :=
  afterSteps_matchedOn (flowInvariant_trivial settings.program) (fun _ _ _ => trivial) trivial steps

/-- An entry that belongs to no target after a step is there if it was before and has not been
deleted. -/
theorem Step.apply_has (h : MatchedOn settings (fun _ => True) g) {e : Entry} (step : Step)
    (hnot : ¬ Upholds (step.event.apply (Balancer.engine settings) g).engine e) :
    Has (step.event.apply (Balancer.engine settings) g).engine e ↔
      Has g.engine e ∧ (NamesEntry g.engine e → g.engine.host.Refuses e.deletion) := by
  cases step with
  | call c => exact (c.perform_turns (flowInvariant_trivial settings.program) h e).has hnot
  | disturb d =>
    obtain ⟨faults, heq⟩ := d.apply_frame g.engine.host
    change ¬ Upholds { g.engine with host := d.apply g.engine.host } e at hnot
    change Has { g.engine with host := d.apply g.engine.host } e ↔ _
    rw [heq] at hnot ⊢
    exact (and_iff_left fun hnamed => absurd hnamed.upholds hnot).symm

/-- What is on a host that had neither rules nor routes, and belongs to no target, is stranded. -/
theorem stranded_iff (settings : Settings) (steps : List Step) (host : Host) (e : Entry) :
    Stranded settings host.dropRoutes steps e ↔
      Has (afterSteps settings steps host.dropRoutes).engine e ∧
        ¬ Upholds (afterSteps settings steps host.dropRoutes).engine e := by
  induction steps using List.reverseRecOn with
  | nil =>
    constructor
    · intro hgiven
      obtain ⟨done, step, rest, heq, -⟩ := hgiven
      simp at heq
    · intro hgiven
      have hnone : ¬ Has (fresh host.dropRoutes).engine e := by
        cases e with
        | rule r => exact Std.ExtTreeSet.not_mem_empty
        | route r => exact Std.ExtTreeSet.not_mem_empty
      exact absurd hgiven.1 hnone
  | append_singleton steps step ih =>
    have hstep := step.apply_has (e := e)
      (afterSteps_matchedOn_trivial settings steps host.dropRoutes)
    rw [← afterSteps_snoc] at hstep
    constructor
    · intro hgiven
      obtain ⟨done, first, rest, heq, habandons, hsince⟩ := hgiven
      have hnot := hsince rest List.prefix_rfl
      rw [← heq] at hnot
      refine ⟨(hstep hnot).mpr ?_, hnot⟩
      rcases List.eq_nil_or_concat rest with rfl | ⟨rest, last, rfl⟩
      · obtain ⟨rfl, -⟩ := List.append_singleton_inj.mp heq
        obtain ⟨hhas, -, -, hrefused⟩ := habandons
        exact ⟨hhas, hrefused⟩
      · rw [List.concat_eq_append, ← List.cons_append, ← List.append_assoc] at heq
        obtain ⟨rfl, -⟩ := List.append_singleton_inj.mp heq
        obtain ⟨hhas, hnot⟩ := ih.mp ⟨done, first, rest, rfl, habandons, fun part hpart =>
          hsince part (hpart.trans (by simp))⟩
        exact ⟨hhas, fun hnamed => absurd hnamed.upholds hnot⟩
    · intro hgiven
      obtain ⟨hhas, hnot⟩ := hgiven
      obtain ⟨hbefore, hrefused⟩ := (hstep hnot).mp hhas
      by_cases hup : Upholds (afterSteps settings steps host.dropRoutes).engine e
      · refine ⟨steps, step, [], rfl, ⟨hbefore, hup, ?_, hrefused⟩, fun part hpart => ?_⟩
        · rwa [← afterSteps_snoc]
        · rwa [List.prefix_nil.mp hpart]
      · obtain ⟨done, first, rest, rfl, habandons, hsince⟩ := ih.mpr ⟨hbefore, hup⟩
        refine ⟨done, first, rest ++ [step], by simp, habandons, fun part hpart => ?_⟩
        rcases List.prefix_concat_iff.mp hpart with rfl | hpart
        · simpa using hnot
        · exact hsince part hpart

/-- Every rule and every route is for the mark of a recorded target, and each route leads to one of
the target's addresses. -/
def Tidy (b : Balancer Host) : Prop :=
  (∀ r ∈ b.host.routing.rules, ∃ addresses, Held b r.mark addresses) ∧
    ∀ r ∈ b.host.routing.routes, ∃ addresses, Held b r.table addresses ∧ r.gateway ∈ addresses

/-- The balancer after a repair on a host that refuses nothing any more. -/
def recovered (g : Gateway Host) : Balancer Host :=
  (heal { g.engine with host := g.engine.host.clearFaults }).2

theorem has_recovered {floor : UInt32} (h : Sound floor g.engine) (e : Entry) :
    Has (recovered g) e ↔
      Among (Held g.engine) Entry.Serves e ∨ Has g.engine e ∧ ¬ Upholds g.engine e :=
  has_heal (h.host g.engine.host.clearFaults) rfl e

theorem held_recovered (m : UInt32) (as : List Address) :
    Held (recovered g) m as ↔ Held g.engine m as := by
  rw [recovered, heal_eq_createAll]
  rfl

/-- After failures have been cleared and the routes repaired, the host has what serves the recorded
targets and what is stranded. It is tidy exactly if nothing is stranded but rules for marks that are
in use again, by targets of the other family. -/
theorem recovered_tidy_iff (settings : Settings) (steps : List Step) (host : Host) :
    let g := afterSteps settings steps host.dropRoutes
    (∀ e : Entry, Has (recovered g) e ↔
      Among (Held g.engine) Entry.Serves e ∨ Stranded settings host.dropRoutes steps e) ∧
    (Tidy (recovered g) ↔ ∀ e : Entry, Stranded settings host.dropRoutes steps e →
      ∃ r addresses, e = .rule r ∧ Held g.engine r.mark addresses) := by
  intro g
  have hsound := (afterSteps_matchedOn_trivial settings steps host.dropRoutes).matched.sound
  have hstranded := stranded_iff settings steps host
  have hhas (e : Entry) : Has (recovered g) e ↔
      Among (Held g.engine) Entry.Serves e ∨ Stranded settings host.dropRoutes steps e := by
    rw [hstranded]
    exact has_recovered hsound e
  refine ⟨hhas, ?_⟩
  rw [Tidy]
  simp only [held_recovered]
  constructor
  · intro htidy e he
    obtain ⟨hrules, hroutes⟩ := htidy
    have hin := (hhas e).mpr (.inr he)
    cases e with
    | rule r =>
      obtain ⟨addresses, hheld⟩ := hrules r hin
      exact ⟨r, addresses, rfl, hheld⟩
    | route r =>
      -- A route that leads to an address of a target belongs to the target.
      obtain ⟨addresses, hheld, hgateway⟩ := hroutes r hin
      refine absurd ⟨r.table, addresses, hheld, r.gateway, hgateway, ?_⟩ ((hstranded _).mp he).2
      simp [Entry.IsOf, Route.isOf]
  · intro hall
    refine ⟨fun r hin => ?_, fun r hin => ?_⟩
    · rcases (hhas (.rule r)).mp hin with ⟨m, addresses, hheld, a, -, rfl⟩ | he
      · exact ⟨addresses, hheld⟩
      · obtain ⟨s, addresses, heq, hheld⟩ := hall _ he
        cases heq
        exact ⟨addresses, hheld⟩
    · rcases (hhas (.route r)).mp hin with ⟨m, addresses, hheld, rfl, hlast⟩ | he
      · exact ⟨addresses, hheld, (lastOf_mem hlast).1⟩
      · obtain ⟨s, addresses, heq, -⟩ := hall _ he
        cases heq

/-- An endpoint is not wanted any more while its rule and its route cannot be deleted. -/
def lingeringRun : List Step :=
  let endpoint : EndpointSpec := ⟨"pod-1", [.v4 0x0A000001#32], true, none⟩
  [.call (.setServices [⟨"svc-a", 10⟩]), .call (.setEndpoints "svc-a" [endpoint]),
    .disturb (.failOn " del "), .call (.setEndpoints "svc-a" [])]

/-- No target is recorded any more, but the route to the endpoint stays. -/
theorem lingeringRun_not_tidy :
    ¬ Tidy (recovered (afterSteps { } lingeringRun ({ } : Host).dropRoutes)) := by
  have hleft : let b := recovered (afterSteps { } lingeringRun ({ } : Host).dropRoutes)
      b.host.routing.routes.toList = [⟨5000, .v4 0x0A000001#32⟩] ∧
      b.registered.toList.map (fun entry => (b.targetsOf entry.2).toList) = [[]] := by
    decide +kernel
  generalize recovered (afterSteps { } lingeringRun ({ } : Host).dropRoutes) = b at hleft
  obtain ⟨hroutes, htargets⟩ := hleft
  intro htidy
  have hroute : (⟨5000, .v4 0x0A000001#32⟩ : Route) ∈ b.host.routing.routes := by
    rw [← Std.ExtTreeSet.mem_toList, hroutes]
    exact List.mem_singleton_self _
  obtain ⟨addresses, ⟨n, l, slot, hl, hget, -⟩, -⟩ := htidy.2 _ hroute
  have hmem : (b.targetsOf l).toList ∈ [[]] := by
    rw [← htargets]
    exact List.mem_map.mpr ⟨(n, l), Std.ExtTreeMap.mem_toList_iff_getElem?_eq_some.mpr hl, rfl⟩
  have htarget := Std.ExtTreeMap.mem_toList_iff_getElem?_eq_some.mpr hget
  rw [List.mem_singleton.mp hmem] at htarget
  exact List.not_mem_nil htarget

end VipSteering.Gateway
