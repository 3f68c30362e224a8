import VipSteering.Proofs.Balancer.Isolated

namespace VipSteering

open Host

/-- The commands of a set fail and have no effect. -/
def Fates.refusing (failing : Command → Bool) : Fates := fun _ c =>
  if failing c then .refused (failure c injected) else .done

namespace Balancer

variable {failing : Command → Bool}

section Commands

variable {s : Flaky (.refusing failing)} {c : Command}

theorem run_failing (hc : failing c = true) (s : Flaky (.refusing failing)) :
    Shell.run c s = (.error (failure c injected), ⟨s.host.record c⟩) := by
  change Flaky.run c s = _
  rw [Flaky.run, Fates.refusing, if_pos hc]

theorem run_willing (hc : failing c = false) (s : Flaky (.refusing failing)) :
    Shell.run c s = ((Shell.run c s.host).1, ⟨(Shell.run c s.host).2⟩) :=
  Flaky.run_done c s (if_neg (Bool.eq_false_iff.mp hc))

/-- What becomes of a request to the balancer's program that does not fail. -/
theorem run_request {r : Maglev.Request} (hp : Text.endsWith "nfqlb" c.program = true)
    (hr : Maglev.parse c.args = .ok r) (hf : s.host.faults = []) (hc : failing c = false) :
    Shell.run c s = match Maglev.perform s.host.hashing r with
      | .error output => (.error (failure c output), ⟨s.host.record c⟩)
      | .ok (output, hashing) => (.ok output, ⟨{ s.host.record c with hashing }⟩) := by
  rw [run_willing hc, run_maglev_eq hp hr, if_neg (not_refuses hf c)]
  cases Maglev.perform s.host.hashing r <;> rfl

theorem faults_of_reaches {fates : Fates} {Q : Command → Prop} {s s' : Flaky fates}
    (h : Reaches Q s s') : s'.host.faults = s.host.faults :=
  h.keeps (P := fun t => t.host.faults = s.host.faults)
    (fun c t _ ht => (Flaky.run_faults c t).trans ht) rfl

theorem hashing_of_ip {fates : Fates} {α : Type} {task : StateM (Flaky fates) α}
    (htask : Only (·.program = "ip") task) (s : Flaky fates) :
    (task s).2.host.hashing = s.host.hashing :=
  (htask s).keeps (P := fun t => t.host.hashing = s.host.hashing) (fun c t hc ht => by
    rcases Flaky.run_hashing c t with hsame | ⟨_, _, hp, -⟩
    · exact hsame.trans ht
    · rw [hc] at hp
      exact absurd hp (by decide)) rfl

end Commands

/-- A target is deleted unless it has a slot and the slot cannot be deactivated. -/
theorem deleteTarget_ok_iff_deactivated {σ : Type} [Shell σ] (program : String) {l : Lease}
    {slot : UInt32} {b : Balancer σ} :
    (deleteTarget program l slot b).1 = .ok () ↔ (slot ∈ b.targetsOf l →
      (Shell.run (deactivateCommand program l.name slot) b.host).1.deleted = .ok ()) := by
  rw [deleteTarget_eq]
  cases hget : (b.targetsOf l)[slot]? with
  | none => exact iff_of_true rfl fun hmem => absurd hmem (not_mem_of_getElem? hget)
  | some recorded =>
    have hmem : slot ∈ b.targetsOf l := mem_of_getElem? hget
    dsimp only
    cases hdeleted :
        (Shell.run (deactivateCommand program l.name slot) b.host).1.deleted with
    | error cause => exact iff_of_false nofun fun hgiven => nomatch hgiven hmem
    | ok _ => exact iff_of_true rfl fun _ => rfl

section Targets

variable {program : String} (hp : Text.endsWith "nfqlb" program = true) {l : Lease}
  {b : Balancer (Flaky (.refusing failing))} (hf : b.host.host.faults = [])

include hp hf

/-- A slot is given up unless its command fails. A segment that is gone has no active slots. -/
theorem deactivate_request {slot : UInt32}
    (hc : failing (deactivateCommand program l.name slot) = false) :
    ∃ (outcome : Outcome) (left : Flaky (.refusing failing)), outcome.deleted = .ok () ∧
      Shell.run (deactivateCommand program l.name slot) b.host = (outcome, left) ∧
      ∀ (n : String) (t mark : UInt32), Active left.host.hashing n t mark →
        Active b.host.host.hashing n t mark ∧ ¬ (n = l.name ∧ t = slot) := by
  have hran := run_request (c := deactivateCommand program l.name slot) hp
    (Maglev.parse_deactivateCommand program l.name slot) hf hc
  simp only [Maglev.perform] at hran
  cases hsegment : b.host.host.hashing.segments[l.name]? with
  | none =>
    rw [hsegment] at hran
    refine ⟨_, _, Outcome.deleted_absent _ _, hran, fun n t mark hactive => ⟨hactive, ?_⟩⟩
    intro hgiven
    obtain ⟨rfl, -⟩ := hgiven
    obtain ⟨slots, hslots, -⟩ := hactive
    rw [record, hsegment] at hslots
    cases hslots
  | some slots =>
    rw [hsegment] at hran
    refine ⟨_, _, rfl, hran, fun n t mark hactive => ?_⟩
    obtain ⟨found, hfound, hmark⟩ := hactive
    rcases of_getElem?_insert hfound with ⟨rfl, rfl⟩ | ⟨hne, hfound⟩
    · obtain ⟨hslot, hmark⟩ := of_getElem?_erase hmark
      exact ⟨⟨slots, hsegment, hmark⟩, fun hgiven => hslot hgiven.2⟩
    · exact ⟨⟨found, hfound, hmark⟩, fun hgiven => hne hgiven.1⟩

theorem deleteTarget_ok_iff (slot : UInt32) :
    (deleteTarget program l slot b).1 = .ok () ↔
      (slot ∈ b.targetsOf l → failing (deactivateCommand program l.name slot) = false) := by
  rw [deleteTarget_ok_iff_deactivated]
  refine forall_congr' fun _ => ?_
  cases hc : failing (deactivateCommand program l.name slot) with
  | true =>
    rw [run_failing hc, deleted_injected]
    exact iff_of_false nofun nofun
  | false =>
    obtain ⟨outcome, left, hok, hran, -⟩ := deactivate_request hp hf hc
    rw [hran]
    exact iff_of_true hok rfl

/-- A slot stays on the books if it is another one, or if it cannot be deactivated. -/
theorem deleteTarget_recorded (slot t : UInt32) :
    ((deleteTarget program l slot b).2.targetsOf l)[t]? =
      if t = slot ∧ failing (deactivateCommand program l.name t) = false then none
      else (b.targetsOf l)[t]? := by
  have hiff := deleteTarget_ok_iff (l := l) hp hf slot
  rw [deleteTarget_targets]
  cases hresult : (deleteTarget program l slot b).1 with
  | ok _ =>
    rw [hresult] at hiff
    have hwilling := hiff.mp rfl
    dsimp only
    by_cases ht : t = slot
    · subst ht
      rw [Std.ExtTreeMap.getElem?_erase_self]
      split
      · rfl
      · rename_i hfails
        refine (Std.ExtTreeMap.getElem?_eq_none fun hmem => ?_).symm
        exact hfails ⟨rfl, hwilling hmem⟩
    · rw [if_neg fun hgiven => ht hgiven.1]
      exact getElem?_erase_of_ne (Ne.symm ht)
  | error _ =>
    rw [hresult] at hiff
    have hfails : ¬ (slot ∈ b.targetsOf l →
        failing (deactivateCommand program l.name slot) = false) := fun hgiven =>
      nomatch hiff.mpr hgiven
    dsimp only
    rw [if_neg]
    intro hgiven
    obtain ⟨rfl, hc⟩ := hgiven
    exact hfails fun _ => hc

theorem deleteTarget_active {slot : UInt32} {n : String} {t mark : UInt32}
    (hactive : Active (deleteTarget program l slot b).2.host.host.hashing n t mark) :
    Active b.host.host.hashing n t mark ∧
      ¬ (n = l.name ∧ t = slot ∧ slot ∈ b.targetsOf l ∧
        failing (deactivateCommand program l.name slot) = false) := by
  rw [deleteTarget_eq] at hactive
  cases hget : (b.targetsOf l)[slot]? with
  | none =>
    rw [hget] at hactive
    exact ⟨hactive, fun hgiven => not_mem_of_getElem? hget hgiven.2.2.1⟩
  | some addresses =>
    rw [hget] at hactive
    dsimp only at hactive
    cases hc : failing (deactivateCommand program l.name slot) with
    | true =>
      rw [run_failing hc, deleted_injected] at hactive
      exact ⟨hactive, fun hgiven => Bool.noConfusion hgiven.2.2.2⟩
    | false =>
      obtain ⟨outcome, left, hok, hran, hkept⟩ := deactivate_request hp hf hc
      rw [hran] at hactive
      simp only [hok, hashing_of_ip (deleteRoutes_ip (l.mark slot) addresses)] at hactive
      obtain ⟨hbefore, hother⟩ := hkept n t mark hactive
      exact ⟨hbefore, fun hgiven => hother ⟨hgiven.1, hgiven.2.1⟩⟩

omit hp in
theorem deleteTarget_faultless (slot : UInt32) :
    (deleteTarget program l slot b).2.host.host.faults = [] := by
  have hreach : Reaches (fun _ => True) b.host (deleteTarget program l slot b).2.host := by
    rw [deleteTarget_eq]
    split
    · exact .refl
    · rename_i addresses _
      have hran := Reaches.run (Q := fun _ => True) (c := deactivateCommand program l.name slot)
        trivial b.host
      dsimp only
      split
      · exact hran
      · exact hran.trans ((deleteRoutes_ip (l.mark slot) addresses _).mono fun _ _ => trivial)
  exact (faults_of_reaches hreach).trans hf

/-- Of some slots that are to be given up those stay on the books whose deactivation fails. -/
theorem releaseAll_recorded (slots : List UInt32) (t : UInt32) :
    ((attemptAll (deleteTarget program l) slots b).2.targetsOf l)[t]? =
      if t ∈ slots ∧ failing (deactivateCommand program l.name t) = false then none
      else (b.targetsOf l)[t]? :=
  attemptAll_removes (I := fun c : Balancer (Flaky _) => c.host.host.faults = [])
    (R := fun c t => (c.targetsOf l)[t]?) (fun slot _ hb => deleteTarget_faultless hb slot)
    (fun slot _ t hb => deleteTarget_recorded hp hb slot t) slots hf t

/-- The others are not active in the segment any more, if they had been on the books. -/
theorem releaseAll_active {slots : List UInt32} {n : String} {t mark : UInt32}
    (hactive : Active (attemptAll (deleteTarget program l) slots b).2.host.host.hashing n t mark) :
    Active b.host.host.hashing n t mark ∧
      ¬ (n = l.name ∧ t ∈ slots ∧ t ∈ b.targetsOf l ∧
        failing (deactivateCommand program l.name t) = false) := by
  induction slots generalizing b with
  | nil => exact ⟨hactive, fun hgiven => List.not_mem_nil hgiven.2.1⟩
  | cons slot rest ih =>
    rw [attemptAll_cons] at hactive
    obtain ⟨hmid, hrest⟩ := ih (deleteTarget_faultless hf slot) hactive
    obtain ⟨hbefore, hfirst⟩ := deleteTarget_active hp hf hmid
    refine ⟨hbefore, fun hgiven => ?_⟩
    obtain ⟨hn, ht, hmem, hc⟩ := hgiven
    by_cases heq : t = slot
    · subst heq
      exact hfirst ⟨hn, rfl, hmem, hc⟩
    · have hlater : t ∈ (deleteTarget program l slot b).2.targetsOf l := by
        obtain ⟨addresses, hget⟩ := exists_of_mem hmem
        have hkept := deleteTarget_recorded (l := l) hp hf slot t
        rw [if_neg fun hgiven => heq hgiven.1, hget] at hkept
        exact mem_of_getElem? hkept
      exact hrest ⟨hn, (List.mem_cons.mp ht).resolve_left heq, hlater, hc⟩

theorem releaseTargets_recorded (t : UInt32) :
    ((releaseTargets program l b).2.targetsOf l)[t]? =
      if failing (deactivateCommand program l.name t) then (b.targetsOf l)[t]? else none := by
  change ((attemptAll (deleteTarget program l) (b.targetsOf l).keys b).2.targetsOf l)[t]? = _
  rw [releaseAll_recorded hp hf]
  simp only [Std.ExtTreeMap.mem_keys]
  cases failing (deactivateCommand program l.name t) with
  | true => simp
  | false =>
    by_cases hmem : t ∈ b.targetsOf l
    · simp [hmem]
    · simp [Std.ExtTreeMap.getElem?_eq_none hmem]

theorem releaseTargets_inactive {slot : UInt32} (hmem : slot ∈ b.targetsOf l)
    (hc : failing (deactivateCommand program l.name slot) = false) (mark : UInt32) :
    ¬ Active (releaseTargets program l b).2.host.host.hashing l.name slot mark := fun hactive =>
  (releaseAll_active hp hf hactive).2 ⟨rfl, Std.ExtTreeMap.mem_keys.mpr hmem, hmem, hc⟩

end Targets

theorem removes_segments {fates : Fates} {program name : String} {c : Command}
    (hc : Removes program name c) (s : Flaky fates) :
    (Shell.run c s).2.host.hashing.segments = s.host.hashing.segments := by
  rcases hc with rfl | hrefreshes
  · rcases Flaky.run_hashing (Flow.deleteCommand program name) s with
      hsame | ⟨request, output, -, hparse, hperform⟩
    · rw [hsame]
    · rw [Maglev.parse_flowDelete] at hparse
      obtain rfl := Except.ok.inj hparse
      simp only [Maglev.perform] at hperform
      split at hperform
      · rw [← (Prod.mk.inj (Except.ok.inj hperform)).2]
      · cases hperform
  · rw [refreshes_hashing hrefreshes]

theorem deleteFlows_segments {fates : Fates} (program service : String) (s : Flaky fates) :
    (deleteFlows program service s).2.host.hashing.segments = s.host.hashing.segments :=
  (deleteFlows_removes program service s).keeps
    (P := fun t : Flaky fates => t.host.hashing.segments = s.host.hashing.segments)
    (fun _ t hgiven ht => have ⟨_, hc⟩ := hgiven; (removes_segments hc t).trans ht) rfl

/-- What comes after a flow command does not concern the flows. -/
theorem refreshDestinations_flows {fates : Fates} (program : String) (s : Flaky fates) :
    (refreshDestinations program s).2.host.hashing.flows = s.host.hashing.flows :=
  (refreshDestinations_only program s).keeps
    (P := fun t : Flaky fates => t.host.hashing.flows = s.host.hashing.flows)
    (fun _ t hc ht => (congrArg (·.flows) (refreshes_hashing hc t)).trans ht) rfl

section Flows

variable {program : String} (hp : Text.endsWith "nfqlb" program = true)
  {s : Flaky (.refusing failing)} (hf : s.host.faults = [])

include hp hf

/-- A flow that is not there is as good as deleted. -/
theorem flowDelete_flows (name key : String) :
    (Shell.run (Flow.deleteCommand program name) s).2.host.hashing.flows[key]? =
      if key = name ∧ failing (Flow.deleteCommand program key) = false then none
      else s.host.hashing.flows[key]? := by
  cases hc : failing (Flow.deleteCommand program name) with
  | true =>
    rw [run_failing hc, if_neg]
    · rfl
    · intro hgiven
      rw [hgiven.1, hc] at hgiven
      exact Bool.noConfusion hgiven.2
  | false =>
    rw [run_request (c := Flow.deleteCommand program name) hp (Maglev.parse_flowDelete program name)
      hf hc]
    simp only [Maglev.perform]
    have hgone : (s.host.hashing.flows.erase name)[key]? =
        if key = name ∧ failing (Flow.deleteCommand program key) = false then none
        else s.host.hashing.flows[key]? := by
      by_cases hkey : key = name
      · subst hkey
        rw [if_pos ⟨rfl, hc⟩]
        exact Std.ExtTreeMap.getElem?_erase_self
      · rw [if_neg fun hgiven => hkey hgiven.1]
        exact getElem?_erase_of_ne (Ne.symm hkey)
    by_cases hmem : name ∈ s.host.hashing.flows
    · rw [if_pos hmem]
      exact hgone
    · rw [if_neg hmem]
      rwa [erase_absent (Std.ExtTreeMap.getElem?_eq_none hmem)] at hgone

theorem deleteFlow_flows (name key : String) :
    (deleteFlow program name s).2.host.hashing.flows[key]? =
      if key = name ∧ failing (Flow.deleteCommand program key) = false then none
      else s.host.hashing.flows[key]? := by
  rw [← flowDelete_flows hp hf, deleteFlow]
  simp only [Task.bind_apply]
  cases (Shell.run (Flow.deleteCommand program name) s).1.deleted with
  | error cause => rfl
  | ok _ =>
    dsimp only
    rw [refreshDestinations_flows]

theorem deleteAll_flows (names : List String) (key : String) :
    (attemptAll (deleteFlow program) names s).2.host.hashing.flows[key]? =
      if key ∈ names ∧ failing (Flow.deleteCommand program key) = false then none
      else s.host.hashing.flows[key]? :=
  attemptAll_removes (I := fun t : Flaky _ => t.host.faults = [])
    (C := fun key => failing (Flow.deleteCommand program key) = false)
    (R := fun t key => t.host.hashing.flows[key]?)
    (fun name s hs => (faults_of_reaches (deleteFlow_removes program name s)).trans hs)
    (fun name _ key hs => deleteFlow_flows hp hs name key) names hf key

theorem listFlows_willing (hreadable : AllReadable s.host.hashing.flows)
    (hlist : failing (Flow.listCommand program) = false) :
    listFlows program s = (.ok (heldFlows s.host.hashing.flows),
      ⟨s.host.record (Flow.listCommand program)⟩) := by
  have hhost := listFlows_eq hp s.host hreadable
  rw [if_neg (not_refuses hf _)] at hhost
  rw [listFlows] at hhost ⊢
  simp only [Task.bind_apply, run_willing hlist] at hhost ⊢
  generalize Shell.run (Flow.listCommand program) s.host = ran at hhost ⊢
  obtain ⟨outcome, host⟩ := ran
  cases outcome with
  | error cause => cases hhost
  | ok output =>
    dsimp only at hhost ⊢
    cases hread : ListedFlow.readAll? output with
    | none =>
      rw [hread] at hhost
      cases hhost
    | some flows =>
      rw [hread] at hhost
      obtain ⟨hflows, hhost⟩ := Prod.mk.inj hhost
      rw [hhost]
      exact congrArg (·, _) hflows

/-- If the flows can be listed, those of the service stay whose deletion fails, and all others. -/
theorem deleteFlows_flows (hreadable : AllReadable s.host.hashing.flows) (service : String)
    (hlist : failing (Flow.listCommand program) = false) (key : String) (e : FlowEntry) :
    (deleteFlows program service s).2.host.hashing.flows[key]? = some e ↔
      s.host.hashing.flows[key]? = some e ∧
        (e.target = service → failing (Flow.deleteCommand program key) = true) := by
  have hget : (deleteFlows program service s).2.host.hashing.flows[key]? =
      if key ∈ flowNames s.host.hashing.flows service ∧
          failing (Flow.deleteCommand program key) = false then none
      else s.host.hashing.flows[key]? := by
    rw [deleteFlows]
    simp only [Task.bind_apply, listFlows_willing hp hf hreadable hlist]
    exact deleteAll_flows (s := ⟨s.host.record (Flow.listCommand program)⟩) hp hf
      (flowNames s.host.hashing.flows service) key
  rw [held_of_rest hget, Bool.not_eq_false]

theorem deleteSegment_gone {name : String} (hc : failing (deleteCommand program name) = false) :
    name ∉ (deleteSegment program name s).2.host.hashing.segments := by
  rw [deleteSegment_eq, run_request (c := deleteCommand program name) hp
    (Maglev.parse_deleteCommand program name) hf hc]
  by_cases hmem : name ∈ s.host.hashing.segments
  · simp [Maglev.perform, hmem]
  · simp only [Maglev.perform, if_neg hmem]
    exact hmem

end Flows

theorem deleteSegment_active {fates : Fates} {program name : String} {s : Flaky fates} {n : String}
    {slot mark : UInt32}
    (hactive : Active (deleteSegment program name s).2.host.hashing n slot mark) :
    Active s.host.hashing n slot mark := by
  rw [deleteSegment_eq] at hactive
  rcases Flaky.run_hashing (deleteCommand program name) s with
    hsame | ⟨request, output, -, hparse, hperform⟩
  · rwa [hsame] at hactive
  rw [Maglev.parse_deleteCommand] at hparse
  obtain rfl := Except.ok.inj hparse
  simp only [Maglev.perform] at hperform
  split at hperform
  · rw [← (Prod.mk.inj (Except.ok.inj hperform)).2] at hactive
    obtain ⟨slots, hslots, hmark⟩ := hactive
    exact ⟨slots, (of_getElem?_erase hslots).2, hmark⟩
  · cases hperform

theorem clearHost_state {σ : Type} [Shell σ] (program name : String) (s : σ) :
    (clearHost program name s).2 = (deleteSegment program name (deleteFlows program name s).2).2 :=
  rfl

theorem clearHost_active {fates : Fates} {program name : String} {s : Flaky fates} {n : String}
    {slot mark : UInt32} (hactive : Active (clearHost program name s).2.host.hashing n slot mark) :
    Active s.host.hashing n slot mark := by
  rw [clearHost_state] at hactive
  obtain ⟨slots, hslots, hmark⟩ := deleteSegment_active hactive
  rw [deleteFlows_segments] at hslots
  exact ⟨slots, hslots, hmark⟩

/-- What can be deleted of a service is gone, and the rest stays. -/
structure Withdrawn (program : String) (l : Lease) (b : Balancer (Flaky (.refusing failing)))
    (answer : Except (Report Fault) Unit × Balancer (Flaky (.refusing failing))) : Prop where
  /-- A slot stays on the books exactly if its deactivation fails. -/
  recorded : ∀ slot : UInt32, (answer.2.targetsOf l)[slot]? =
    if failing (deactivateCommand program l.name slot) then (b.targetsOf l)[slot]? else none
  /-- A slot that was on the books is not active any more, unless its deactivation fails. -/
  inactive : ∀ slot ∈ b.targetsOf l, failing (deactivateCommand program l.name slot) = false →
    ∀ mark : UInt32, ¬ Active answer.2.host.host.hashing l.name slot mark
  /-- If the flows can be listed, a flow of the service stays exactly if its deletion fails. -/
  flows : failing (Flow.listCommand program) = false → ∀ (key : String) (e : FlowEntry),
    answer.2.host.host.hashing.flows[key]? = some e ↔ b.host.host.hashing.flows[key]? = some e ∧
      (e.target = l.name → failing (Flow.deleteCommand program key) = true)
  segment : failing (deleteCommand program l.name) = false →
    l.name ∉ answer.2.host.host.hashing.segments
  /-- The service is off the books exactly if success is reported. -/
  registered : answer.2.registered[l.name]? =
    match answer.1 with
    | .ok () => none
    | .error _ => some l

theorem deleteService_withdrawn {floor : UInt32} {settings : Settings} {name : String} {l : Lease}
    {b : Balancer (Flaky (.refusing failing))} (h : Sound floor b)
    (hl : b.registered[name]? = some l) (hp : Text.endsWith "nfqlb" settings.program = true)
    (hf : b.host.host.faults = []) (hreadable : AllReadable b.host.host.hashing.flows) :
    Withdrawn settings.program l b (deleteService settings name b) := by
  obtain rfl := h.name hl
  have hleft := deleteService_left settings hl
  have hreleased := alike_of_reaches (releaseTargets_reaches settings.program h hl)
  have hf' := hreleased.faults.trans hf
  have hflows := deleteFlows_flows hp hf' (hreleased.flows ▸ hreadable) l.name
  have hf'' := (faults_of_reaches (deleteFlows_removes settings.program l.name _)).trans hf'
  refine ⟨fun slot => ?_, fun slot hmem hc mark hactive => ?_, fun hlist key e => ?_,
    fun hc => ?_, ?_⟩
  · rw [hleft]
    exact releaseTargets_recorded hp hf slot
  · rw [hleft] at hactive
    exact releaseTargets_inactive hp hf hmem hc mark (clearHost_active hactive)
  · rw [hleft]
    dsimp only
    rw [clearHost_state, deleteSegment_flows, hflows hlist, hreleased.flows]
  · rw [hleft]
    dsimp only
    rw [clearHost_state]
    exact deleteSegment_gone hp hf'' hc
  · rw [hleft]
    dsimp only
    cases (deleteService settings l.name b).1 with
    | ok _ => exact Std.ExtTreeMap.getElem?_erase_self
    | error _ => exact hl

end Balancer
end VipSteering
