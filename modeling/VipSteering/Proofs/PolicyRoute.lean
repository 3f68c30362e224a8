import VipSteering.Proofs.Host.Ip
import VipSteering.Proofs.Task

namespace VipSteering.PolicyRoute

open Host

variable {h : Host} (hf : h.faults = []) (mark : UInt32) (hop : Address)

/-- The routing without what the mark has of the family. -/
def cleared (r : Routing) : Routing :=
  { r with
    rules := r.rules.erase (ruleOf hop.family mark)
    routes := keepItems (!Route.isOf hop.family mark ·) r.routes }

/-- The answer to the question for the rules of a mark has one rule or none. -/
theorem countRules_answer (r : Routing) :
    countRules (Ip.render true (if ruleOf hop.family mark ∈ r.rules
      then [Ip.ruleEntry (ruleOf hop.family mark)] else [])) =
        if ruleOf hop.family mark ∈ r.rules then 1 else 0 := by
  split
  · exact countRules_render [ruleOf hop.family mark]
  · exact countRules_render []

/-- Once the routes are told as they are, rules are counted if the only route is the one by the next
hop. -/
theorem isInPlace_of_answer {σ : Type} [Shell σ] {s : σ} {r : Routing}
    (h : (Shell.run (listRoutes mark hop) s).1 = .ok (Ip.render true
      ((r.routes.toList.filter (Route.isOf hop.family mark)).map Ip.routeEntry))) :
    isInPlace mark hop s =
      let told := (Shell.run (listRoutes mark hop) s).2
      if r.routes.toList.filter (Route.isOf hop.family mark) = [⟨mark, hop⟩] then
        (decide ((ruleCount mark hop told).1 = some 1), (ruleCount mark hop told).2)
      else (false, told) := by
  have hof : ∀ route ∈ r.routes.toList.filter (Route.isOf hop.family mark), route.table = mark := by
    intro route hmem
    have hisOf := (List.mem_filter.mp hmem).2
    simp only [Route.isOf, Bool.and_eq_true, decide_eq_true_eq] at hisOf
    exact hisOf.1
  rw [isInPlace]
  simp only [Task.bind_apply, h, readRoutes_render]
  generalize r.routes.toList.filter (Route.isOf hop.family mark) = routes at hof
  match routes with
  | [] => rfl
  | _ :: _ :: _ => simp
  | [⟨table, gateway⟩] =>
    obtain rfl : table = mark := hof _ List.mem_cons_self
    by_cases hvia : gateway = hop
    · subst hvia
      simp only [List.map_cons, List.map_nil, (isDefaultVia_iff gateway gateway).mpr rfl, if_true]
      rfl
    · have hother : RouteEntry.isDefaultVia hop ⟨some "default", some gateway.text⟩ = false := by
        rw [Bool.eq_false_iff, ne_eq, isDefaultVia_iff]
        exact hvia
      simp [hother, hvia]

include hf

theorem ruleCount_eq : ∃ journal, ruleCount mark hop h =
    (some (if ruleOf hop.family mark ∈ h.routing.rules then 1 else 0), { h with journal }) := by
  obtain ⟨journal, hrun⟩ := run_ip hf rfl (parse_listRules mark hop)
  refine ⟨journal, ?_⟩
  rw [ruleCount, ← countRules_answer]
  simp only [Task.bind_apply, hrun, Ip.perform]
  rfl

theorem isInPlace_eq : ∃ journal, isInPlace mark hop h =
    (decide (h.routing.routes.toList.filter (Route.isOf hop.family mark) = [⟨mark, hop⟩] ∧
      ruleOf hop.family mark ∈ h.routing.rules), { h with journal }) := by
  obtain ⟨journal, hrun⟩ := run_ip hf rfl (parse_listRoutes mark hop)
  rw [isInPlace_of_answer mark hop (r := h.routing) (by rw [hrun]; rfl), hrun]
  dsimp only [Ip.perform]
  by_cases hsole : h.routing.routes.toList.filter (Route.isOf hop.family mark) = [⟨mark, hop⟩]
  · obtain ⟨journal, hcount⟩ := ruleCount_eq (h := { h with journal }) hf mark hop
    refine ⟨journal, ?_⟩
    rw [if_pos hsole, hcount]
    by_cases hrule : ruleOf hop.family mark ∈ h.routing.rules <;> simp [hsole, hrule]
  · exact ⟨journal, by simp [hsole]⟩

theorem clear_eq : ∃ journal, clear mark hop h =
    ((), { h with routing := cleared mark hop h.routing, journal }) := by
  obtain ⟨journal, hcount⟩ := ruleCount_eq hf mark hop
  rw [clear]
  simp only [Task.bind_apply, hcount, Option.getD_some, Task.discard_apply]
  by_cases hr : ruleOf hop.family mark ∈ h.routing.rules
  · obtain ⟨journal, hdelete⟩ :=
      run_ip (h := { h with journal }) hf rfl (parse_deleteRule mark hop)
    simp only [Ip.perform, if_pos hr] at hdelete
    obtain ⟨journal, hflush⟩ := run_ip (h := { h with
      routing := { h.routing with rules := h.routing.rules.erase (ruleOf hop.family mark) }
      journal }) hf rfl (parse_flushTable mark hop)
    refine ⟨journal, ?_⟩
    simp only [if_pos hr, deleteRules, Task.bind_apply, hdelete, Task.pure_apply, hflush, Ip.perform]
    rfl
  · obtain ⟨journal, hflush⟩ :=
      run_ip (h := { h with journal }) hf rfl (parse_flushTable mark hop)
    simp only [hr, if_false, deleteRules, Task.pure_apply, hflush, Ip.perform]
    rw [cleared, eraseItem_absent hr]
    exact ⟨journal, rfl⟩

/-- Whatever the mark had of the family before, it has one rule and one route then. -/
theorem create_healthy : ∃ flushes journal, create mark hop h =
    (.ok (), { h with
      routing := {
        rules := h.routing.rules.insert (ruleOf hop.family mark)
        routes := (keepItems (!Route.isOf hop.family mark ·) h.routing.routes).insert ⟨mark, hop⟩
        flushes }
      journal }) := by
  obtain ⟨journal, hplace⟩ := isInPlace_eq hf mark hop
  rw [create]
  simp only [Task.bind_apply, hplace]
  by_cases hall : h.routing.routes.toList.filter (Route.isOf hop.family mark) = [⟨mark, hop⟩] ∧
      ruleOf hop.family mark ∈ h.routing.rules
  · obtain ⟨hroutes, hrule⟩ := hall
    refine ⟨h.routing.flushes, journal, ?_⟩
    rw [insertItem_present hrule, insert_keepItems hroutes]
    simp [hroutes, hrule]
  · obtain ⟨journal, hclear⟩ := clear_eq (h := { h with journal }) hf mark hop
    obtain ⟨journal, hneigh⟩ := run_ip (h := { h with
      routing := cleared mark hop h.routing, journal }) hf rfl (parse_flushNeighbour hop)
    simp only [Ip.perform] at hneigh
    have hrule : ruleOf hop.family mark ∉ (cleared mark hop h.routing).rules := by
      simp [cleared]
    have hroute : (cleared mark hop h.routing).routes.toList.any (Route.isOf hop.family mark) =
        false := by
      rw [List.any_eq_false]
      intro route hmem
      rw [Std.ExtTreeSet.mem_toList, cleared, mem_keepItems] at hmem
      simpa using hmem.2
    obtain ⟨journal, hadd⟩ := run_ip (h := { h with
      routing := { cleared mark hop h.routing with
        flushes := hop :: (cleared mark hop h.routing).flushes }
      journal }) hf rfl (parse_addRule mark hop)
    simp only [Ip.perform, if_neg hrule] at hadd
    obtain ⟨journal, hvia⟩ := run_ip (h := { h with
      routing := { cleared mark hop h.routing with
        flushes := hop :: (cleared mark hop h.routing).flushes
        rules := (cleared mark hop h.routing).rules.insert (ruleOf hop.family mark) }
      journal }) hf rfl (parse_addRoute mark hop)
    simp only [Ip.perform, hroute] at hvia
    refine ⟨hop :: h.routing.flushes, journal, ?_⟩
    simp only [hall, decide_false, Bool.false_eq_true, if_false, Task.bind_apply, hclear,
      Task.discard_apply, hneigh, hadd, hvia, Task.pure_apply]
    rw [cleared, insert_eraseItem]

end VipSteering.PolicyRoute
