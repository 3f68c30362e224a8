import VipSteering.PolicyRoute
import VipSteering.Proofs.Host.Basic
import VipSteering.Proofs.Json.Normal

namespace VipSteering.Host.Ip

open PolicyRoute (familyFlag)

section Parse

variable {family : Family} {args : List String} {r : Request}

theorem parse_flag (h : parseRequest family args = .ok r) :
    parse (familyFlag family :: args) = .ok (false, r) := by
  have hread : parse (familyFlag family :: args) =
      parseRequest family args >>= fun r => pure (false, r) := by
    cases family <;> rfl
  rw [hread, h]
  rfl

theorem parse_json_flag (h : parseRequest family args = .ok r) :
    parse ("-j" :: familyFlag family :: args) = .ok (true, r) := by
  have hread : parse ("-j" :: familyFlag family :: args) =
      parseRequest family args >>= fun r => pure (true, r) := by
    cases family <;> rfl
  rw [hread, h]
  rfl

end Parse

section Requests

variable (family : Family) (table : UInt32) (rule : Rule) (route : Route)

theorem parseRequest_showRule :
    parseRequest rule.family
      ["rule", "show", "fwmark", toString rule.mark, "table", toString rule.table] =
      .ok (.showRule rule) := by
  rw [parseRequest, number_toString, number_toString]
  rfl

theorem parseRequest_addRule :
    parseRequest rule.family
      ["rule", "add", "fwmark", toString rule.mark, "table", toString rule.table] =
      .ok (.addRule rule) := by
  rw [parseRequest, number_toString, number_toString]
  rfl

theorem parseRequest_deleteRule :
    parseRequest rule.family
      ["rule", "del", "fwmark", toString rule.mark, "table", toString rule.table] =
      .ok (.deleteRule rule) := by
  rw [parseRequest, number_toString, number_toString]
  rfl

theorem parseRequest_showRoutes :
    parseRequest family ["route", "show", "table", toString table] =
      .ok (.showRoutes family table) := by
  rw [parseRequest, number_toString]
  rfl

/-- The family of a route is that of its gateway, whatever the flag says. -/
theorem parseRequest_addRoute :
    parseRequest family
      ["route", "add", "default", "via", route.gateway.text, "table", toString route.table] =
      .ok (.addRoute route) := by
  rw [parseRequest, address_text, number_toString]
  rfl

theorem parseRequest_deleteRoute :
    parseRequest family
      ["route", "del", "default", "via", route.gateway.text, "table", toString route.table] =
      .ok (.deleteRoute route) := by
  rw [parseRequest, address_text, number_toString]
  rfl

theorem parseRequest_flushRoutes :
    parseRequest family ["route", "flush", "table", toString table] =
      .ok (.flushRoutes family table) := by
  rw [parseRequest, number_toString]
  rfl

theorem parseRequest_flushNeighbour (target : Address) :
    parseRequest family ["neigh", "flush", "to", target.text] =
      .ok (.flushNeighbour target) := by
  rw [parseRequest, address_text]
  rfl

end Requests

end VipSteering.Host.Ip

namespace VipSteering.PolicyRoute

open Host

/-- The rule of a mark for a family. -/
def ruleOf (family : Family) (mark : UInt32) : Rule := ⟨family, mark, mark⟩

section Commands

variable (mark : UInt32) (hop : Address)

theorem parse_addRule :
    Ip.parse (ruleCommand "add" mark hop).args =
      .ok (false, .addRule (ruleOf hop.family mark)) :=
  Ip.parse_flag (Ip.parseRequest_addRule (ruleOf hop.family mark))

theorem parse_deleteRule :
    Ip.parse (ruleCommand "del" mark hop).args =
      .ok (false, .deleteRule (ruleOf hop.family mark)) :=
  Ip.parse_flag (Ip.parseRequest_deleteRule (ruleOf hop.family mark))

theorem parse_addRoute :
    Ip.parse (routeCommand "add" mark hop).args = .ok (false, .addRoute ⟨mark, hop⟩) :=
  Ip.parse_flag (Ip.parseRequest_addRoute hop.family ⟨mark, hop⟩)

theorem parse_deleteRoute :
    Ip.parse (routeCommand "del" mark hop).args = .ok (false, .deleteRoute ⟨mark, hop⟩) :=
  Ip.parse_flag (Ip.parseRequest_deleteRoute hop.family ⟨mark, hop⟩)

theorem parse_flushTable :
    Ip.parse (flushTable mark hop).args = .ok (false, .flushRoutes hop.family mark) :=
  Ip.parse_flag (Ip.parseRequest_flushRoutes hop.family mark)

theorem parse_flushNeighbour :
    Ip.parse (flushNeighbour hop).args = .ok (false, .flushNeighbour hop) :=
  Ip.parse_flag (Ip.parseRequest_flushNeighbour hop.family hop)

theorem parse_listRoutes :
    Ip.parse (listRoutes mark hop).args = .ok (true, .showRoutes hop.family mark) :=
  Ip.parse_json_flag (Ip.parseRequest_showRoutes hop.family mark)

theorem parse_listRules :
    Ip.parse (listRules mark hop).args = .ok (true, .showRule (ruleOf hop.family mark)) :=
  Ip.parse_json_flag (Ip.parseRequest_showRule (ruleOf hop.family mark))

end Commands

theorem plain_ruleEntry (rule : Rule) : (Ip.ruleEntry rule).Plain := by
  simp [Ip.ruleEntry]

theorem plain_routeEntry (route : Route) : (Ip.routeEntry route).Plain := by
  simp [Ip.routeEntry]

theorem normalize?_ruleEntry (rule : Rule) (depth : Nat) :
    Json.normalize? (depth + 1) (Ip.ruleEntry rule) = some (Ip.ruleEntry rule) := by
  have hsorted : ["fwmark", "priority", "src", "table"].Pairwise fun a b => compare a b = .lt := by
    decide
  refine Json.normalize?_record hsorted fun m hm => ?_
  simp only [List.mem_cons, List.not_mem_nil, or_false] at hm
  rcases hm with rfl | rfl | rfl | rfl
  · rfl
  · exact Json.normalize?_ofInt depth (i := 32765) ⟨by decide, by decide⟩
  · rfl
  · rfl

theorem readRoutes_render (routes : List Route) :
    readRoutes (Ip.render true (routes.map Ip.routeEntry)) =
      routes.map fun route => ⟨some "default", some route.gateway.text⟩ := by
  have hplain : (Json.array (routes.map Ip.routeEntry)).Plain := by
    simp [plain_routeEntry]
  have hread : (routes.map Ip.routeEntry).mapM RouteEntry.ofJson? =
      some (routes.map fun route => ⟨some "default", some route.gateway.text⟩) := by
    rw [List.mapM_map]
    exact Text.mapM_eq_map fun route _ => rfl
  rw [readRoutes, Ip.render, if_pos rfl, Json.trim_print_array, Json.parse?_print hplain]
  simp only [Option.bind_some, Json.list?, hread, Option.getD_some]

theorem countRules_render (rules : List Rule) :
    countRules (Ip.render true (rules.map Ip.ruleEntry)) = rules.length := by
  have hplain : (Json.array (rules.map Ip.ruleEntry)).Plain := by
    simp [plain_ruleEntry]
  have hnormal : Json.normalize? Json.maxNesting (.array (rules.map Ip.ruleEntry)) =
      some (.array (rules.map Ip.ruleEntry)) := by
    refine Json.normalize?_array fun j hj => ?_
    obtain ⟨rule, -, rfl⟩ := List.mem_map.mp hj
    exact normalize?_ruleEntry rule _
  rw [countRules, Ip.render, if_pos rfl, Json.trim_print_array,
    Json.parseGeneric?_print hplain hnormal]
  simp

theorem isDefaultVia_iff (hop gateway : Address) :
    RouteEntry.isDefaultVia hop ⟨some "default", some gateway.text⟩ = true ↔ gateway = hop := by
  simp [RouteEntry.isDefaultVia]

end VipSteering.PolicyRoute
