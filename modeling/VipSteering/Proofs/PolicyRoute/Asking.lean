import VipSteering.Proofs.Host.Refusing
import VipSteering.Proofs.PolicyRoute
import VipSteering.Proofs.PolicyRoute.Requests

namespace VipSteering

namespace Host

/-- Nothing but queries has been run on the host since. -/
def Asked (h h' : Host) : Prop :=
  ∃ issued, h'.journal = issued ++ h.journal ∧ ∀ c ∈ issued, c.IsQuery

section Asked

variable {Q R : Command → Prop} {h s h' : Host}

theorem asked_of_reaches (hreach : Reaches Command.IsQuery h h') : Asked h h' :=
  hreach.journal journal run_journal

theorem asked_trans_iff (hfirst : Reaches Q h s) (hnext : Reaches R s h') :
    Asked h h' ↔ Asked h s ∧ Asked s h' := by
  obtain ⟨first, hs, -⟩ := hfirst.journal journal run_journal
  obtain ⟨next, hh, -⟩ := hnext.journal journal run_journal
  constructor
  · intro hasked
    obtain ⟨issued, hjournal, hall⟩ := hasked
    have hissued : issued = next ++ first := by
      rw [hh, hs, ← List.append_assoc] at hjournal
      exact (List.append_cancel_right hjournal).symm
    rw [hissued] at hall
    exact ⟨⟨first, hs, fun c hc => hall c (List.mem_append_right _ hc)⟩,
      ⟨next, hh, fun c hc => hall c (List.mem_append_left _ hc)⟩⟩
  · intro hasked
    obtain ⟨⟨asked, hs', hall⟩, ⟨asked', hh', hall'⟩⟩ := hasked
    refine ⟨asked' ++ asked, by rw [hh', hs', List.append_assoc], fun c hc => ?_⟩
    rcases List.mem_append.mp hc with hc | hc
    · exact hall' c hc
    · exact hall c hc

theorem not_asked_of_run {c : Command} (hc : ¬ c.IsQuery) (hfirst : Reaches Q h s)
    (hnext : Reaches R (Shell.run c s).2 h') : ¬ Asked h h' := by
  have hrun : Reaches (fun _ => True) s (Shell.run c s).2 := .run trivial s
  intro hasked
  have hbefore := (asked_trans_iff ((hfirst.mono fun _ _ => trivial).trans hrun) hnext).mp hasked
  obtain ⟨issued, hjournal, hall⟩ := ((asked_trans_iff hfirst hrun).mp hbefore.1).2
  rw [run_journal] at hjournal
  have hissued : [c] = issued := List.append_cancel_right hjournal
  exact hc (hall c (by rw [← hissued]; exact List.mem_singleton_self c))

end Asked

/-- On a host on which nothing fails the task asks only, if rules and routes are as they should be,
and alters none of them. -/
structure QuietIf (P : Routing → Prop) (task : StateM Host Unit) : Prop where
  ip : Only (·.program = "ip") task
  asked : ∀ {h : Host}, h.faults = [] → (Asked h (task h).2 ↔ P h.routing)
  kept : ∀ {h : Host}, h.faults = [] → P h.routing → (task h).2.routing = h.routing

/-- As long as the tasks are quiet, each finds what the first has found. -/
theorem QuietIf.forM {α : Type} {P : α → Routing → Prop} {task : α → StateM Host Unit}
    (h : ∀ a, QuietIf (P a) (task a)) (items : List α) :
    QuietIf (fun r => ∀ a ∈ items, P a r) (items.forM task) := by
  induction items with
  | nil =>
    refine ⟨.forM fun a ha => by simp at ha, fun _ => ?_, fun _ _ => rfl⟩
    exact iff_of_true ⟨[], rfl, by simp⟩ (by simp)
  | cons a rest ih =>
    have hfaults {host : Host} (hf : host.faults = []) : (task a host).2.faults = [] :=
      (only_ip_alike (h a).ip host).faults.trans hf
    refine ⟨.forM fun b _ => (h b).ip, fun {host} hf => ?_, fun {host} hf hall => ?_⟩
    · rw [Task.forM_cons, asked_trans_iff ((h a).ip host) (ih.ip _), (h a).asked hf,
        ih.asked (hfaults hf), List.forall_mem_cons]
      refine and_congr_right fun hp => ?_
      rw [(h a).kept hf hp]
    · obtain ⟨hp, hrest⟩ := List.forall_mem_cons.mp hall
      have hsame := (h a).kept hf hp
      rw [Task.forM_cons, ih.kept (hfaults hf) (by rwa [hsame]), hsame]

end Host

namespace PolicyRoute

open Host

/-- The rule of the mark is there for the family, and the hop has the only route of the family in
the table of the mark. -/
def InPlace (r : Routing) (mark : UInt32) (hop : Address) : Prop :=
  ruleOf hop.family mark ∈ r.rules ∧
    ∀ route : Route, (route ∈ r.routes ∧ route.isOf hop.family mark = true) ↔ route = ⟨mark, hop⟩

variable {h : Host} {mark : UInt32} {hop : Address}

theorem filter_routes_iff (r : Routing) (family : Family) (route : Route) :
    r.routes.toList.filter (Route.isOf family mark) = [route] ↔
      ∀ other : Route, (other ∈ r.routes ∧ other.isOf family mark = true) ↔ other = route := by
  have hmem (other : Route) : other ∈ r.routes.toList.filter (Route.isOf family mark) ↔
      other ∈ r.routes ∧ other.isOf family mark = true := by
    rw [List.mem_filter, Std.ExtTreeSet.mem_toList]
  constructor
  · intro heq other
    rw [← hmem, heq, List.mem_singleton]
  · intro hall
    have hnodup : r.routes.toList.Nodup :=
      Std.ExtTreeSet.distinct_toList.imp fun hne heq => hne (by rw [heq, Std.ReflOrd.compare_self])
    refine List.perm_singleton.mp ((List.perm_ext_iff_of_nodup (hnodup.filter _)
      (List.nodup_singleton route)).mpr fun other => ?_)
    rw [hmem, hall, List.mem_singleton]

theorem isInPlace_iff (hf : h.faults = []) :
    (isInPlace mark hop h).1 = true ↔ InPlace h.routing mark hop := by
  obtain ⟨journal, heq⟩ := isInPlace_eq hf mark hop
  rw [heq, decide_eq_true_eq, filter_routes_iff, and_comm]
  rfl

theorem not_isQuery_ip (args : List String) : ¬ (ip hop args).IsQuery := by
  intro hquery
  have hhead : familyFlag hop.family = "-j" := Option.some.inj hquery.2
  cases hfamily : hop.family with
  | ipv4 =>
    rw [hfamily] at hhead
    exact absurd hhead (by decide)
  | ipv6 =>
    rw [hfamily] at hhead
    exact absurd hhead (by decide)

/-- What the mark has of the family is flushed on the way, unless all is in place. -/
theorem create_asked_iff (hf : h.faults = []) :
    Asked h (create mark hop h).2 ↔ InPlace h.routing mark hop := by
  have hasks : Reaches Command.IsQuery h (isInPlace mark hop h).2 :=
    (isInPlace_asks mark hop h).mono fun _ hc => hc.2
  rw [← isInPlace_iff hf]
  cases hplace : (isInPlace mark hop h).1 with
  | true =>
    have hstate : (create mark hop h).2 = (isInPlace mark hop h).2 := by
      rw [create]
      simp only [Task.bind_apply, hplace, if_true, Task.pure_apply]
    rw [hstate]
    exact iff_of_true (asked_of_reaches hasks) rfl
  | false =>
    refine iff_of_false ?_ (by simp)
    have hcleared := (hasks.mono fun _ _ => trivial : Reaches (fun _ => True) h _)
    have hleft := (hcleared.trans ((ruleCount_only mark hop _).mono fun _ _ => trivial)).trans
      ((deleteRules_only mark hop ((ruleCount mark hop (isInPlace mark hop h).2).1.getD 1) _).mono
        fun _ _ => trivial)
    rw [create]
    simp only [Task.bind_apply, hplace, Bool.false_eq_true, if_false, clear, Task.discard_apply]
    refine not_asked_of_run (R := fun _ => True) (c := flushTable mark hop) (not_isQuery_ip _)
      hleft ?_
    generalize (Shell.run (flushTable mark hop) _ : Outcome × Host).2 = cleared
    have hflushed := Reaches.run (Q := fun _ => True) (c := flushNeighbour hop) trivial cleared
    have hadded := hflushed.step (c := ruleCommand "add" mark hop) trivial
    generalize (Shell.run (flushNeighbour hop) cleared).2 = flushed at hflushed hadded ⊢
    cases (Shell.run (ruleCommand "add" mark hop) flushed).1 with
    | error _ => exact hadded
    | ok _ =>
      have hrouted := hadded.step (c := routeCommand "add" mark hop) trivial
      generalize (Shell.run (ruleCommand "add" mark hop) flushed).2 = added at hrouted ⊢
      simp only [Task.bind_apply]
      cases (Shell.run (routeCommand "add" mark hop) added).1 with
      | error _ => exact hrouted
      | ok _ => exact hrouted

theorem create_kept (hf : h.faults = []) (hplace : InPlace h.routing mark hop) :
    (create mark hop h).2.routing = h.routing := by
  obtain ⟨journal, heq⟩ := isInPlace_eq hf mark hop
  have hfound := (isInPlace_iff hf).mpr hplace
  rw [create]
  simp only [Task.bind_apply, hfound, if_true, Task.pure_apply]
  rw [heq]

theorem create_quietIf (mark : UInt32) (hop : Address) :
    QuietIf (fun r => InPlace r mark hop) (discard (create mark hop)) where
  ip := .discard ((create_only mark hop).mono fun _ hc => hc.1)
  asked hf := by
    rw [Task.discard_apply]
    exact create_asked_iff hf
  kept hf hplace := by
    rw [Task.discard_apply]
    exact create_kept hf hplace

end PolicyRoute
end VipSteering
