import VipSteering.Proofs.Host.Refusing
import VipSteering.Proofs.PolicyRoute
import VipSteering.Proofs.PolicyRoute.Requests

namespace VipSteering.PolicyRoute

open Host

/-- A rule or a route. -/
inductive Entry where
  | rule (r : Rule)
  | route (r : Route)

namespace Entry

def IsIn (routing : Routing) : Entry → Prop
  | rule r => r ∈ routing.rules
  | route r => r ∈ routing.routes

/-- The entry is one that a mark has of a family. -/
def IsOf (mark : UInt32) (family : Family) : Entry → Prop
  | rule r => r = ruleOf family mark
  | route r => r.isOf family mark = true

/-- The entry is one of the two that make the policy route of a mark by a hop. -/
def IsPart (mark : UInt32) (hop : Address) : Entry → Prop
  | rule r => r = ruleOf hop.family mark
  | route r => r = ⟨mark, hop⟩

/-- The marks that the entry is for. -/
def marks : Entry → List UInt32
  | rule r => [r.mark, r.table]
  | route r => [r.table]

/-- The command that deletes the entry. -/
def deletion : Entry → Command
  | rule r =>
    { program := "ip"
      args := [familyFlag r.family, "rule", "del", "fwmark", toString r.mark, "table",
        toString r.table] }
  | route r => routeCommand "del" r.table r.gateway

/-- The routing without the entry. -/
def eraseFrom (routing : Routing) : Entry → Routing
  | rule r => { routing with rules := routing.rules.erase r }
  | route r => { routing with routes := routing.routes.erase r }

variable {d e : Entry} {mark : UInt32} {hop : Address} {routing : Routing}

theorem IsPart.isOf (h : e.IsPart mark hop) : e.IsOf mark hop.family := by
  cases e with
  | rule r => exact h
  | route r =>
    obtain rfl := h
    simp [IsOf, Route.isOf]

theorem isIn_eraseFrom : e.IsIn (d.eraseFrom routing) ↔ e.IsIn routing ∧ e ≠ d := by
  cases d with
  | rule r =>
    cases e with
    | rule x => exact mem_eraseItem.trans (and_congr_right' (by simp))
    | route x => simp [IsIn, eraseFrom]
  | route r =>
    cases e with
    | rule x => simp [IsIn, eraseFrom]
    | route x => exact mem_eraseItem.trans (and_congr_right' (by simp))

end Entry

variable {d e : Entry} {mark : UInt32} {hop : Address} {c : Command} (h : Host)

/-- The request is one to make the entry or to delete it. -/
def Alters (e : Entry) : Ip.Request → Prop
  | .showRule _ | .showRoutes _ _ | .flushNeighbour _ => False
  | .addRule s | .deleteRule s => e = .rule s
  | .addRoute s | .deleteRoute s => e = .route s
  | .flushRoutes family table => ∃ r : Route, e = .route r ∧ r.isOf family table = true

theorem perform_unaltered {json : Bool} {request : Ip.Request} {r r' : Routing} {output : String}
    (he : Ip.perform json r request = .ok (output, r')) (hother : ¬ Alters e request) :
    e.IsIn r' ↔ e.IsIn r := by
  cases request with
  | showRule _ | showRoutes _ _ | flushNeighbour _ =>
    cases he
    cases e <;> rfl
  | addRule s =>
    simp only [Ip.perform] at he
    split at he
    · cases he
    · cases he
      cases e with
      | rule x => exact mem_insertItem.trans (or_iff_left fun heq => hother (congrArg _ heq))
      | route x => rfl
  | deleteRule s =>
    simp only [Ip.perform] at he
    split at he
    · cases he
      cases e with
      | rule x => exact mem_eraseItem.trans (and_iff_left fun heq => hother (congrArg _ heq))
      | route x => rfl
    · cases he
  | addRoute s =>
    simp only [Ip.perform] at he
    split at he
    · cases he
    · cases he
      cases e with
      | rule x => rfl
      | route x => exact mem_insertItem.trans (or_iff_left fun heq => hother (congrArg _ heq))
  | deleteRoute s =>
    simp only [Ip.perform] at he
    split at he
    · cases he
      cases e with
      | rule x => rfl
      | route x => exact mem_eraseItem.trans (and_iff_left fun heq => hother (congrArg _ heq))
    · cases he
  | flushRoutes family table =>
    cases he
    cases e with
    | rule x => rfl
    | route x => exact mem_keepItems.trans (and_iff_left (by simpa [Alters] using hother))

theorem Alters.marks_subset {request : Ip.Request} (h : Alters e request) :
    e.marks ⊆ request.marks := by
  cases request with
  | showRule _ | showRoutes _ _ | flushNeighbour _ => exact absurd h id
  | addRule s | deleteRule s | addRoute s | deleteRoute s =>
    obtain rfl := h
    exact List.Subset.refl _
  | flushRoutes family table =>
    obtain ⟨r, rfl, hof⟩ := h
    rw [Route.isOf, Bool.and_eq_true, decide_eq_true_iff] at hof
    simp [Entry.marks, Ip.Request.marks, hof.1]

/-- A request for a policy route alters only what the mark has of the family. -/
theorem Alters.isOf {request : Ip.Request} (h : Alters e request) (hstep : IsStep mark hop request) :
    e.IsOf mark hop.family := by
  cases request with
  | showRule _ | showRoutes _ _ | flushNeighbour _ => exact absurd h id
  | addRule s | deleteRule s =>
    obtain rfl := hstep
    obtain rfl := h
    exact rfl
  | addRoute s | deleteRoute s =>
    obtain rfl := hstep
    obtain rfl := h
    exact Entry.IsPart.isOf rfl
  | flushRoutes family table =>
    obtain ⟨rfl, rfl⟩ := hstep
    obtain ⟨r, rfl, hof⟩ := h
    exact hof

theorem run_spares (hc : IsFor mark hop c) (hother : ¬ e.IsOf mark hop.family) :
    e.IsIn (Shell.run c h).2.routing ↔ e.IsIn h.routing := by
  obtain ⟨hprogram, json, request, hparse, hstep⟩ := hc
  rw [run_ip_eq hprogram hparse]
  split
  · rfl
  cases he : Ip.perform json h.routing request with
  | error _ => rfl
  | ok answer => exact perform_unaltered he fun halters => hother (halters.isOf hstep)

/-- Whatever the host refuses, a policy route that is made leaves other families and marks alone. -/
theorem create_spares (hother : ¬ e.IsOf mark hop.family) :
    e.IsIn (create mark hop h).2.routing ↔ e.IsIn h.routing :=
  (create_only mark hop h).keeps (P := fun h' => e.IsIn h'.routing ↔ e.IsIn h.routing)
    (fun _ h' hc hkept => (run_spares h' hc hother).trans hkept) Iff.rfl

/-- If nothing fails, all that the mark has of the family is the policy route. -/
theorem isIn_create_healthy {h : Host} (hf : h.faults = []) :
    e.IsIn (create mark hop h).2.routing ↔
      e.IsPart mark hop ∨ e.IsIn h.routing ∧ ¬ e.IsOf mark hop.family := by
  obtain ⟨flushes, journal, hcreate⟩ := create_healthy hf mark hop
  rw [hcreate]
  cases e with
  | rule x =>
    refine mem_insertItem.trans ?_
    by_cases hx : x = ruleOf hop.family mark
    · simp [Entry.IsPart, hx]
    · simp [Entry.IsPart, Entry.IsOf, Entry.IsIn, hx]
  | route x =>
    refine mem_insertItem.trans ?_
    rw [mem_keepItems, or_comm]
    simp [Entry.IsPart, Entry.IsOf, Entry.IsIn]

theorem parse_deletion (r : Rule) :
    Ip.parse (Entry.rule r).deletion.args = .ok (false, .deleteRule r) :=
  Ip.parse_flag (Ip.parseRequest_deleteRule r)

/-- A deletion has its effect unless it is refused. -/
theorem run_deletion (d : Entry) :
    (Shell.run d.deletion h).2.routing =
      if h.Refuses d.deletion then h.routing else d.eraseFrom h.routing := by
  cases d with
  | rule r =>
    rw [run_ip_eq rfl (parse_deletion r)]
    split
    · rfl
    by_cases hmem : r ∈ h.routing.rules
    · simp only [Ip.perform, if_pos hmem]
      rfl
    · simp only [Ip.perform, if_neg hmem, Entry.eraseFrom, eraseItem_absent hmem]
      rfl
  | route r =>
    have hparse : Ip.parse (Entry.route r).deletion.args = .ok (false, .deleteRoute r) :=
      parse_deleteRoute r.table r.gateway
    rw [run_ip_eq rfl hparse]
    split
    · rfl
    by_cases hmem : r ∈ h.routing.routes
    · simp only [Ip.perform, if_pos hmem]
      rfl
    · simp only [Ip.perform, if_neg hmem, Entry.eraseFrom, eraseItem_absent hmem]
      rfl

theorem isIn_run_deletion (d : Entry) :
    e.IsIn (Shell.run d.deletion h).2.routing ↔
      e.IsIn h.routing ∧ (e = d → h.Refuses e.deletion) := by
  rw [run_deletion]
  split
  · rename_i href
    refine (and_iff_left ?_).symm
    intro heq
    rwa [heq]
  · rename_i hacc
    rw [Entry.isIn_eraseFrom]
    refine and_congr_right' ⟨fun hne heq => absurd heq hne, fun himp heq => ?_⟩
    have href := himp heq
    rw [heq] at href
    exact hacc href

/-- When a policy route is ended, of its two entries those stay whose deletion is refused. -/
theorem isIn_delete : e.IsIn (delete mark hop h).2.routing ↔
    e.IsIn h.routing ∧ (e.IsPart mark hop → h.Refuses e.deletion) := by
  have hstate : (delete mark hop h).2 = (Shell.run (Entry.route ⟨mark, hop⟩).deletion
      (Shell.run (Entry.rule (ruleOf hop.family mark)).deletion h).2).2 := by
    simp only [delete, Task.bind_apply, attemptAll_cons, attemptAll_nil]
    rfl
  have hrefuses (d : Entry) :
      (Shell.run (Entry.rule (ruleOf hop.family mark)).deletion h).2.Refuses d.deletion ↔
        h.Refuses d.deletion := by
    obtain ⟨routing, journal, hran⟩ :=
      run_ip_frame (c := (Entry.rule (ruleOf hop.family mark)).deletion) rfl h
    rw [hran]
    rfl
  rw [hstate, isIn_run_deletion, isIn_run_deletion, hrefuses]
  cases e with
  | rule r => simp [Entry.IsPart]
  | route r => simp [Entry.IsPart]

end VipSteering.PolicyRoute
