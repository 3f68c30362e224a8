import VipSteering.Proofs.Balancer.Routine
import VipSteering.Proofs.Balancer.Steering

namespace VipSteering

open Host

/-- The host after commands that it only puts down, the latest first. -/
def Host.issuing (h : Host) (issued : List Command) : Host :=
  { h with journal := issued ++ h.journal }

namespace Balancer

/-- A command that sets a flow, or reads flows or virtual addresses. -/
inductive Confirms (program : String) (c : Command) : Prop where
  | set (service : String) (flow : Flow) (heq : c = flow.setCommand program service)
  | list (heq : c = Flow.listCommand program)
  | elements (family : Family) (heq : c = Classifier.listCommand family)

/-- Commands that set and read are run and change nothing, and there is no fault unless one of them
is refused. -/
def Confirmed {α : Type} (program : String) (h : Host) (done : α) (outcome : α × Host) : Prop :=
  ∃ issued, (∀ c ∈ issued, Confirms program c) ∧ outcome.2 = h.issuing issued ∧
    ((∀ c ∈ issued, ¬ h.Refuses c) → outcome.1 = done)

section Confirmed

variable {program : String} {h : Host}

/-- Sets that are refreshed without a fault are up to date, whatever they held before. -/
theorem refreshDestinations_current (hp : Text.endsWith "nfqlb" program = true)
    (hw : ReadableContents h)
    (hok : (refreshDestinations program h).1 = .ok ()) :
    Current (refreshDestinations program h).2 := by
  have hown : Classifier.HoldsOwnFamily h.tables := by
    rw [refreshDestinations] at hok
    simp only [Task.bind_apply, listFlows_state hp h] at hok
    cases hlist : (listFlows program h).1 with
    | error fault =>
      rw [hlist] at hok
      cases hok
    | ok flows =>
      rw [hlist] at hok
      have hw' := ReadableContents.commandInvariant.record hw (Flow.listCommand program)
      exact hw'.addressed.ownFamily (mapError_eq_ok.mp hok)
  exact (refreshDestinations_refreshOutcome hp hw.readable hown).current hok

theorem endsWith_of_addFlow {service : String} {flow : Flow}
    (hok : (addFlow program service flow h).1 = .ok ()) :
    Text.endsWith "nfqlb" program = true := by
  rw [addFlow] at hok
  simp only [Task.bind_apply] at hok
  cases hran : (Shell.run (flow.setCommand program service) h).1 with
  | error cause =>
    rw [hran] at hok
    cases hok
  | ok output =>
    exact endsWith_of_run (c := flow.setCommand program service)
      (isUnroutable_of_head rfl (by decide)) (by intro _ _ hexecute; cases hexecute) hran

theorem addFlow_current (hw : ReadableContents h) {service : String} {flow : Flow}
    (hok : (addFlow program service flow h).1 = .ok ()) :
    Current (addFlow program service flow h).2 := by
  have hp := endsWith_of_addFlow hok
  have hacc := not_refuses_of_addFlow hp h hok
  have hinserted :
      AllReadable (h.hashing.flows.insert flow.name (Maglev.entryOf service flow)) :=
    AllReadable.insert hw.readable service flow
  rw [addFlow_eq hp, if_neg hacc] at hok ⊢
  exact refreshDestinations_current hp ⟨hinserted, hw.addressed⟩ hok

variable (hp : Text.endsWith "nfqlb" program = true) (hreadable : AllReadable h.hashing.flows)
  (hcurrent : Current h)

include hp hreadable hcurrent

theorem refreshDestinations_confirmed :
    Confirmed program h (.ok ()) (refreshDestinations program h) := by
  have hlist := listFlows_eq hp h hreadable
  by_cases href : h.Refuses (Flow.listCommand program)
  · rw [if_pos href] at hlist
    refine ⟨[Flow.listCommand program], List.forall_mem_singleton.mpr (.list rfl), ?_,
      fun hopen => absurd href (hopen _ List.mem_cons_self)⟩
    rw [refreshDestinations]
    simp only [Task.bind_apply, hlist]
    rfl
  · rw [if_neg href] at hlist
    have hnamed : Classifier.Named ((heldFlows h.hashing.flows).flatMap
        (·.flow.selectors.destinationCidrs)) = Destined h.hashing.flows :=
      funext fun a => propext named_heldFlows
    have hholds : Classifier.Holds (h.record (Flow.listCommand program)).tables
        (Classifier.Named ((heldFlows h.hashing.flows).flatMap
          (·.flow.selectors.destinationCidrs))) := by
      rw [hnamed]
      exact hcurrent
    obtain ⟨hstate, hdone⟩ := Classifier.setDestinations_holds hholds
    refine ⟨[Classifier.listCommand .ipv6, Classifier.listCommand .ipv4, Flow.listCommand program],
      ?_, ?_, fun hopen => ?_⟩
    · simp only [List.forall_mem_cons, List.not_mem_nil, false_implies, implies_true, and_true]
      exact ⟨.elements .ipv6 rfl, .elements .ipv4 rfl, .list rfl⟩
    · rw [refreshDestinations]
      simp only [Task.bind_apply, hlist, hstate, Task.pure_apply]
      rfl
    · rw [refreshDestinations]
      simp only [Task.bind_apply, hlist, Task.pure_apply]
      refine mapError_eq_ok.mpr (hdone fun family => ?_)
      cases family with
      | ipv4 => exact hopen _ (by simp)
      | ipv6 => exact hopen _ (by simp)

theorem addFlow_confirmed {service : String} {flow : Flow}
    (hheld : h.hashing.flows[flow.name]? = some (Maglev.entryOf service flow)) :
    Confirmed program h (.ok ()) (addFlow program service flow h) := by
  rw [addFlow_eq hp]
  split
  · rename_i href
    exact ⟨[flow.setCommand program service],
      List.forall_mem_singleton.mpr (.set service flow rfl), rfl,
      fun hopen => absurd href (hopen _ List.mem_cons_self)⟩
  · rename_i hacc
    rw [insert_present hheld]
    obtain ⟨issued, hall, hstate, hdone⟩ := refreshDestinations_confirmed
      (h := h.record (flow.setCommand program service)) hp hreadable hcurrent
    refine ⟨issued ++ [flow.setCommand program service], ?_, ?_, fun hopen => ?_⟩
    · rw [List.forall_mem_append]
      exact ⟨hall, List.forall_mem_singleton.mpr (.set service flow rfl)⟩
    · refine hstate.trans ?_
      simp only [issuing, record, List.append_assoc, List.singleton_append]
    · exact hdone fun c hc => hopen c (List.mem_append_left _ hc)

end Confirmed

end Balancer
end VipSteering
