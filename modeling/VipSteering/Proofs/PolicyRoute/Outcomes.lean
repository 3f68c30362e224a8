import VipSteering.Proofs.Host.Flaky
import VipSteering.Proofs.PolicyRoute.Asking
import VipSteering.Proofs.PolicyRoute.Entries

namespace VipSteering

open Host

/-- No command fails as though what it is to delete were not there. Where it is not, the host says
so itself. -/
def Fates.Sincere (fates : Fates) : Prop :=
  ∀ (before : List Command) (c : Command) (cause : Command.Failure),
    (fates before c).cause? = some cause → cause.isAbsence = false

namespace PolicyRoute

variable {fates : Fates} {s s' : Flaky fates} {mark : UInt32} {hop : Address} {e : Entry}

/-- Commands for a policy route leave alone what is not of its mark and family. -/
theorem reaches_spares (h : Reaches (IsFor mark hop) s s') (hother : ¬ e.IsOf mark hop.family) :
    e.IsIn s'.host.routing ↔ e.IsIn s.host.routing := by
  refine h.keeps (P := fun s' => e.IsIn s'.host.routing ↔ e.IsIn s.host.routing)
    (fun c s' hc hkept => ?_) Iff.rfl
  obtain ⟨-, json, request, hparse, hstep⟩ := hc
  rcases Flaky.run_routing c s' with hsame | ⟨json', request', output, -, hparse', hperform⟩
  · rwa [hsame]
  · rw [hparse] at hparse'
    cases hparse'
    exact (perform_unaltered hperform fun halters => hother (halters.isOf hstep)).trans hkept

/-- To count the rules alters nothing, and a rule that is counted is there. -/
theorem ruleCount_honest (mark : UInt32) (hop : Address) (s : Flaky fates) :
    (ruleCount mark hop s).2.host.routing = s.host.routing ∧
      ((ruleCount mark hop s).1 = some 1 → ruleOf hop.family mark ∈ s.host.routing.rules) := by
  have hparse := parse_listRules mark hop
  have hkept : (Shell.run (listRules mark hop) s).2.host.routing = s.host.routing :=
    Flaky.run_ip_kept hparse fun _ _ he => by cases he; rfl
  rw [ruleCount]
  simp only [Task.bind_apply]
  cases hout : (Shell.run (listRules mark hop) s).1 with
  | error _ =>
    simp only [Task.pure_apply]
    exact ⟨hkept, fun hcount => by cases hcount⟩
  | ok output =>
    refine ⟨hkept, fun hcount => ?_⟩
    have hanswer := Flaky.run_ip_ok rfl hparse hout
    simp only [Ip.perform, Except.ok.injEq, Prod.mk.injEq] at hanswer
    have hone : countRules output = 1 := Option.some.inj hcount
    rw [← hanswer.1, countRules_answer] at hone
    split at hone
    · assumption
    · cases hone

/-- To look whether all is in place alters nothing, and what is found in place is there. -/
theorem isInPlace_honest (mark : UInt32) (hop : Address) (s : Flaky fates) :
    (isInPlace mark hop s).2.host.routing = s.host.routing ∧
      ((isInPlace mark hop s).1 = true → InPlace s.host.routing mark hop) := by
  have hparse := parse_listRoutes mark hop
  have hkept : (Shell.run (listRoutes mark hop) s).2.host.routing = s.host.routing :=
    Flaky.run_ip_kept hparse fun _ _ he => by cases he; rfl
  obtain ⟨hcounted, hcount⟩ := ruleCount_honest mark hop (Shell.run (listRoutes mark hop) s).2
  rw [hkept] at hcounted hcount
  cases hout : (Shell.run (listRoutes mark hop) s).1 with
  | error _ =>
    rw [isInPlace]
    simp only [Task.bind_apply, hout, Task.pure_apply]
    exact ⟨hkept, fun hfound => by cases hfound⟩
  | ok output =>
    have hanswer := Flaky.run_ip_ok rfl hparse hout
    simp only [Ip.perform, Except.ok.injEq, Prod.mk.injEq] at hanswer
    rw [isInPlace_of_answer mark hop (r := s.host.routing) (by rw [hout, hanswer.1])]
    split
    · rename_i hsole
      exact ⟨hcounted, fun hfound =>
        ⟨hcount (of_decide_eq_true hfound), (filter_routes_iff _ _ _).mp hsole⟩⟩
    · exact ⟨hkept, fun hfound => by cases hfound⟩

/-- A rule and a route that can be added one after the other are all that the mark has of the
family: the one there may be is not added again, nor is a route beside another. -/
theorem inPlace_of_perform {json json' : Bool} {r r' r'' : Routing} {output output' : String}
    (hrule : Ip.perform json r (.addRule (ruleOf hop.family mark)) = .ok (output, r'))
    (hroute : Ip.perform json' r' (.addRoute ⟨mark, hop⟩) = .ok (output', r'')) :
    InPlace r'' mark hop := by
  simp only [Ip.perform] at hrule hroute
  split at hrule
  · cases hrule
  cases hrule
  split at hroute
  · cases hroute
  rename_i hfree
  cases hroute
  rw [List.any_eq_true, not_exists] at hfree
  refine ⟨mem_insertItem.mpr (.inr rfl), fun route => ?_⟩
  constructor
  · intro hroute
    exact (mem_insertItem.mp hroute.1).resolve_left fun hmem =>
      hfree route ⟨Std.ExtTreeSet.mem_toList.mpr hmem, hroute.2⟩
  · rintro rfl
    exact ⟨mem_insertItem.mpr (.inr rfl), Entry.IsPart.isOf (e := .route ⟨mark, hop⟩) rfl⟩

/-- What is said to be made is in place. -/
theorem inPlace_of_create (hok : (create mark hop s).1 = .ok ()) :
    InPlace (create mark hop s).2.host.routing mark hop := by
  obtain ⟨hkept, hfound⟩ := isInPlace_honest mark hop s
  rw [create] at hok ⊢
  simp only [Task.bind_apply] at hok ⊢
  cases hplace : (isInPlace mark hop s).1 with
  | true =>
    simp only [if_true, Task.pure_apply]
    rw [hkept]
    exact hfound hplace
  | false =>
    simp only [hplace, Bool.false_eq_true, if_false, Task.bind_apply, Task.discard_apply] at hok ⊢
    generalize (Shell.run (flushNeighbour hop) _ : Outcome × Flaky fates).2 = cleared at hok ⊢
    cases hrule : (Shell.run (ruleCommand "add" mark hop) cleared).1 with
    | error _ =>
      rw [hrule] at hok
      cases hok
    | ok _ =>
      rw [hrule] at hok
      have hadded := Flaky.run_ip_ok rfl (parse_addRule mark hop) hrule
      generalize (Shell.run (ruleCommand "add" mark hop) cleared).2 = ruled at hadded hok ⊢
      simp only [Task.bind_apply] at hok ⊢
      cases hroute : (Shell.run (routeCommand "add" mark hop) ruled).1 with
      | error _ =>
        rw [hroute] at hok
        cases hok
      | ok _ =>
        have hrouted := Flaky.run_ip_ok rfl (parse_addRoute mark hop) hroute
        exact inPlace_of_perform hadded hrouted

namespace Part

/-- What is to be deleted. -/
def entry (mark : UInt32) (hop : Address) : Part → Entry
  | rule => .rule (ruleOf hop.family mark)
  | route => .route ⟨mark, hop⟩

/-- What is reported if it cannot be deleted. -/
def fault (mark : UInt32) (hop : Address) : Part → Command.Failure → Fault
  | rule => .deleteRule mark
  | route => .deleteRoute mark hop

theorem isPart_iff : e.IsPart mark hop ↔ ∃ p : Part, e = p.entry mark hop := by
  constructor
  · intro h
    cases e with
    | rule r => exact ⟨rule, congrArg _ h⟩
    | route r => exact ⟨route, congrArg _ h⟩
  · rintro ⟨p, rfl⟩
    cases p <;> rfl

end Part

theorem deletePart_eq (p : Part) (s : Flaky fates) : deletePart mark hop p s =
    ((Shell.run (p.entry mark hop).deletion s).1.deleted.mapError (p.fault mark hop),
      (Shell.run (p.entry mark hop).deletion s).2) := by
  cases p <;> rfl

/-- A deletion adds nothing, and fails while its own entry stays. -/
theorem deletePart_honest (hsincere : fates.Sincere) (mark : UInt32) (hop : Address) (p : Part)
    (s : Flaky fates) :
    (∀ e : Entry, e.IsIn (deletePart mark hop p s).2.host.routing → e.IsIn s.host.routing) ∧
    ((p.entry mark hop).IsIn (deletePart mark hop p s).2.host.routing →
      ∃ cause, (deletePart mark hop p s).1 = .error (p.fault mark hop cause)) := by
  rw [deletePart_eq]
  generalize p.entry mark hop = d
  refine ⟨fun e hstays => ?_, fun hstays => ?_⟩
  · rcases Flaky.run_host d.deletion s with heq | heq
    · rwa [heq] at hstays
    · rw [heq] at hstays
      exact ((isIn_run_deletion s.host d).mp hstays).1
  · cases hdeleted : (Shell.run d.deletion s).1.deleted with
    | error cause => exact ⟨cause, rfl⟩
    | ok _ =>
      have hrun := Flaky.run_deleted d.deletion s (hsincere _ _) hdeleted
      rw [hrun] at hdeleted hstays
      have hrefused := ((isIn_run_deletion s.host d).mp hstays).2 rfl
      rw [run_refused hrefused, deleted_injected] at hdeleted
      cases hdeleted

theorem delete_eq (mark : UInt32) (hop : Address) (s : Flaky fates) :
    delete mark hop s = (Report.ofFaults (attemptAll (deletePart mark hop) [.rule, .route] s).1,
      (deletePart mark hop .route (deletePart mark hop .rule s).2).2) := by
  rw [delete]
  simp only [Task.bind_apply, attemptAll_cons, attemptAll_nil]
  rfl

/-- The route is deleted whatever becomes of the rule. -/
theorem delete_journal (mark : UInt32) (hop : Address) (s : Flaky fates) :
    (delete mark hop s).2.host.journal =
      routeCommand "del" mark hop :: ruleCommand "del" mark hop :: s.host.journal := by
  rw [delete_eq, deletePart_eq, deletePart_eq, Flaky.run_journal, Flaky.run_journal]
  rfl

/-- What stays is reported under its own name. -/
theorem delete_reports (hsincere : fates.Sincere) (p : Part)
    (hstays : (p.entry mark hop).IsIn (delete mark hop s).2.host.routing) :
    ∃ cause, p.fault mark hop cause ∈ Report.leaves (delete mark hop s).1 := by
  obtain ⟨-, hrule⟩ := deletePart_honest hsincere mark hop .rule s
  obtain ⟨hkept, hroute⟩ :=
    deletePart_honest hsincere mark hop .route (deletePart mark hop .rule s).2
  rw [delete_eq] at hstays ⊢
  simp only [Report.leaves_ofFaults, attemptAll_cons, attemptAll_nil]
  cases p with
  | rule =>
    obtain ⟨cause, hfault⟩ := hrule (hkept _ hstays)
    exact ⟨cause, by simp [hfault]⟩
  | route =>
    obtain ⟨cause, hfault⟩ := hroute hstays
    refine ⟨cause, ?_⟩
    cases (deletePart mark hop .rule s).1 with
    | ok _ => simp [hfault]
    | error _ => simp [hfault]

/-- Whatever fails, a policy route that is said to be made is in place, and is only asked about if
it is made again at once without failures. Of one that is said to be ended neither the rule nor the
route is left. Both deletions are tried whatever becomes of the first, and what stays is reported
under its own name. No other mark and no other family is touched. -/
theorem results_faithful (hsincere : fates.Sincere) (mark : UInt32) (hop : Address)
    (s : Flaky fates) :
    let made := create mark hop s
    let ended := delete mark hop s
    (made.1 = .ok () → InPlace made.2.host.routing mark hop ∧
      let again := create mark hop made.2.host.clearFaults
      again.1 = .ok () ∧ again.2.routing = made.2.host.routing ∧
        Asked made.2.host.clearFaults again.2) ∧
    (ended.1 = .ok () → ∀ e : Entry, e.IsPart mark hop → ¬ e.IsIn ended.2.host.routing) ∧
    ended.2.host.journal =
      routeCommand "del" mark hop :: ruleCommand "del" mark hop :: s.host.journal ∧
    (∀ p : Part, (p.entry mark hop).IsIn ended.2.host.routing →
      ∃ cause, p.fault mark hop cause ∈ Report.leaves ended.1) ∧
    ∀ e : Entry, ¬ e.IsOf mark hop.family →
      (e.IsIn made.2.host.routing ↔ e.IsIn s.host.routing) ∧
        (e.IsIn ended.2.host.routing ↔ e.IsIn s.host.routing) := by
  intro made ended
  refine ⟨fun hok => ?_, fun hok e hpart hstays => ?_, delete_journal mark hop s,
    fun p hstays => delete_reports hsincere p hstays, fun e hother =>
      ⟨reaches_spares (create_only mark hop s) hother,
        reaches_spares (delete_only mark hop s) hother⟩⟩
  · have hplace : InPlace made.2.host.routing mark hop := inPlace_of_create hok
    have hclear : made.2.host.clearFaults.faults = [] := rfl
    obtain ⟨flushes, journal, hagain⟩ := create_healthy hclear mark hop
    exact ⟨hplace, congrArg Prod.fst hagain, create_kept hclear hplace,
      (create_asked_iff hclear).mpr hplace⟩
  · obtain ⟨p, rfl⟩ := Part.isPart_iff.mp hpart
    obtain ⟨cause, hfault⟩ := delete_reports hsincere p hstays
    change p.fault mark hop cause ∈ Report.leaves ended.1 at hfault
    rw [hok] at hfault
    exact List.not_mem_nil hfault

/-- Nothing can be listed and no neighbour flushed, and rules are deleted without word of it. -/
def patchy : Fates := fun _ c =>
  if "show" ∈ c.args ∨ "neigh" ∈ c.args then .refused (.timeout c.line 30000)
  else if "rule" ∈ c.args ∧ "del" ∈ c.args then .lost (.timeout c.line 30000)
  else .done

/-- The packets of the mark leave by another hop so far. -/
def diverted : Host where
  routing := {
    rules := ((∅ : Std.ExtTreeSet Rule).insert (ruleOf .ipv4 7)).insert (ruleOf .ipv6 7)
    routes := ((∅ : Std.ExtTreeSet Route).insert ⟨7, .v4 0x0A000009#32⟩).insert
      ⟨8, .v4 0x0A000009#32⟩ }

/-- The detour is replaced although nothing can be listed; when it is ended instead, the word on the
rule is lost, and the route is gone all the same. -/
theorem diverted_faithful : patchy.Sincere ∧
    let made := create 7 (.v4 0x0A000001#32) (⟨diverted⟩ : Flaky patchy)
    let ended := delete 7 (.v4 0x0A000009#32) (⟨diverted⟩ : Flaky patchy)
    made.1 = .ok () ∧ InPlace made.2.host.routing 7 (.v4 0x0A000001#32) ∧
      ended.1 = .error (.one (.deleteRule 7 (.timeout "ip -4 rule del fwmark 7 table 7" 30000))) ∧
      ⟨7, .v4 0x0A000009#32⟩ ∉ ended.2.host.routing.routes := by
  have hsincere : patchy.Sincere := by
    intro before c cause hcause
    rw [patchy] at hcause
    split at hcause
    · obtain rfl := Option.some.inj hcause
      rfl
    split at hcause
    · obtain rfl := Option.some.inj hcause
      rfl
    · cases hcause
  have hmade : (create 7 (.v4 0x0A000001#32) (⟨diverted⟩ : Flaky patchy)).1 = .ok () := rfl
  have hended : (delete 7 (.v4 0x0A000009#32) (⟨diverted⟩ : Flaky patchy)).1 =
      .error (.one (.deleteRule 7 (.timeout "ip -4 rule del fwmark 7 table 7" 30000))) := rfl
  obtain ⟨hplace, -⟩ := (results_faithful hsincere 7 (.v4 0x0A000001#32) ⟨diverted⟩).1 hmade
  obtain ⟨-, -, -, hreports, -⟩ := results_faithful hsincere 7 (.v4 0x0A000009#32) ⟨diverted⟩
  refine ⟨hsincere, hmade, hplace, hended, fun hstays => ?_⟩
  obtain ⟨cause, hfault⟩ := hreports .route hstays
  rw [hended] at hfault
  simp [Report.leaves, Report.faults, Part.fault] at hfault

end PolicyRoute
end VipSteering
