import VipSteering.Proofs.Balancer.Withdrawn

namespace VipSteering.Balancer

open Host

/-- What is to be done about the flow of a key. -/
inductive FlowJob where
  | drop (key : String)
  | put (spec : FlowSpec)

namespace FlowJob

def key : FlowJob → String
  | drop key => key
  | put spec => spec.key

/-- The flow command. -/
def command (program : String) : FlowJob → Command
  | drop key => Flow.deleteCommand program key
  | put spec => spec.flow.setCommand program spec.service

/-- What the program is to hold under the key. -/
def entry? : FlowJob → Option FlowEntry
  | drop _ => none
  | put spec => some (Maglev.entryOf spec.service spec.flow)

def perform {σ : Type} [Shell σ] (program : String) : FlowJob → StateM σ (Except Fault Unit)
  | drop key => deleteFlow program key
  | put spec => addFlow program spec.service spec.flow

/-- What is said if the flow command is refused. -/
def refusal (program : String) (j : FlowJob) : Fault :=
  let cause := failure (j.command program) injected
  match j with
  | drop key => .deleteFlow key cause
  | put spec => .setFlow spec.key cause

variable {failing : Command → Bool}

/-- The flow command fails, or else the refresh of the virtual addresses right after it. -/
def Fails (program : String) (j : FlowJob) (s : Flaky (.refusing failing)) : Prop :=
  failing (j.command program) = true ∨
    ∃ fault, (refreshDestinations program (Shell.run (j.command program) s).2).1 = .error fault

end FlowJob

/-- What jobs leave of a host, one after another. -/
def afterJobs {σ : Type} [Shell σ] (program : String) (jobs : List FlowJob) (s : σ) : σ :=
  jobs.foldl (fun s j => (j.perform program s).2) s

/-- Jobs one after another, each with the host as it finds it. -/
def turns {σ : Type} [Shell σ] (program : String) : List FlowJob → σ → List (FlowJob × σ)
  | [], _ => []
  | j :: rest, s => (j, s) :: turns program rest (j.perform program s).2

theorem turns_append {σ : Type} [Shell σ] (program : String) (front rest : List FlowJob) (s : σ) :
    turns program (front ++ rest) s =
      turns program front s ++ turns program rest (afterJobs program front s) := by
  induction front generalizing s with
  | nil => rfl
  | cons j front ih => exact congrArg ((j, s) :: ·) (ih _)

section Jobs

variable {failing : Command → Bool} {program : String} (hp : Text.endsWith "nfqlb" program = true)
  {s : Flaky (.refusing failing)} (hf : s.host.faults = [])

theorem FlowJob.perform_faults {fates : Fates} (program : String) (j : FlowJob) (s : Flaky fates) :
    (j.perform program s).2.host.faults = s.host.faults := by
  cases j with
  | drop key => exact faults_of_reaches (deleteFlow_removes program key s)
  | put spec => exact faults_of_reaches (addFlow_sets program spec.service spec.flow s)

include hp hf

/-- If the flow command does not fail, the virtual addresses are set anew; that there is no flow to
delete does not matter. -/
theorem FlowJob.perform_eq (j : FlowJob) : j.perform program s =
    if failing (j.command program) then
      (.error (j.refusal program), ⟨s.host.record (j.command program)⟩)
    else refreshDestinations program (Shell.run (j.command program) s).2 := by
  cases j with
  | drop key =>
    change deleteFlow program key s = _
    rw [deleteFlow]
    simp only [Task.bind_apply]
    by_cases hc : failing ((drop key).command program) = true
    · rw [if_pos hc, run_failing (c := Flow.deleteCommand program key) hc, deleted_injected]
      rfl
    · have hran := run_request (c := Flow.deleteCommand program key) hp
        (Maglev.parse_flowDelete program key) hf (Bool.eq_false_iff.mpr hc)
      rw [if_neg hc, command, hran]
      by_cases hmem : key ∈ s.host.hashing.flows
      · simp only [Maglev.perform, if_pos hmem]
        rfl
      · simp only [Maglev.perform, if_neg hmem, Outcome.deleted_absent]
  | put spec =>
    change addFlow program spec.service spec.flow s = _
    rw [addFlow]
    simp only [Task.bind_apply]
    by_cases hc : failing ((put spec).command program) = true
    · rw [if_pos hc, run_failing (c := spec.flow.setCommand program spec.service) hc]
      rfl
    · have hran := run_request (c := spec.flow.setCommand program spec.service) hp
        (Maglev.parse_setCommand program spec.service spec.flow) hf (Bool.eq_false_iff.mpr hc)
      rw [if_neg hc, command, hran]
      rfl

theorem FlowJob.perform_ok_iff (j : FlowJob) :
    (j.perform program s).1 = .ok () ↔ ¬ j.Fails program s := by
  rw [perform_eq hp hf, Fails]
  cases failing (j.command program) with
  | true => exact iff_of_false nofun fun hgiven => hgiven (.inl rfl)
  | false =>
    simp only [Bool.false_eq_true, if_false, false_or, not_exists]
    cases (refreshDestinations program (Shell.run (j.command program) s).2).1 with
    | ok _ => exact iff_of_true rfl nofun
    | error fault => exact iff_of_false nofun fun hgiven => hgiven fault rfl

theorem FlowJob.perform_flows (j : FlowJob) (key : String) :
    (j.perform program s).2.host.hashing.flows[key]? =
      if key = j.key ∧ failing (j.command program) = false then j.entry?
      else s.host.hashing.flows[key]? := by
  cases j with
  | drop k =>
    change (deleteFlow program k s).2.host.hashing.flows[key]? = _
    rw [deleteFlow_flows hp hf]
    by_cases hkey : key = k
    · subst hkey
      rfl
    · rw [if_neg fun hgiven => hkey hgiven.1, if_neg fun hgiven => hkey hgiven.1]
  | put spec =>
    rw [perform_eq hp hf]
    cases hc : failing ((put spec).command program) with
    | true =>
      rw [if_pos rfl, if_neg fun hgiven => Bool.noConfusion hgiven.2]
      rfl
    | false =>
      rw [if_neg Bool.false_ne_true, refreshDestinations_flows,
        run_request (c := (put spec).command program) hp
          (Maglev.parse_setCommand program spec.service spec.flow) hf hc]
      simp only [Maglev.perform, and_true]
      change (s.host.hashing.flows.insert spec.key _)[key]? = if key = spec.key then _ else _
      by_cases hkey : key = spec.key
      · rw [if_pos hkey, hkey]
        exact Std.ExtTreeMap.getElem?_insert_self
      · rw [if_neg hkey, getElem?_insert_of_ne (Ne.symm hkey)]

/-- A flow that none of the jobs is about is left alone. -/
theorem afterJobs_others {jobs : List FlowJob} {key : String} (hkey : key ∉ jobs.map (·.key)) :
    (afterJobs program jobs s).host.hashing.flows[key]? = s.host.hashing.flows[key]? := by
  induction jobs generalizing s with
  | nil => rfl
  | cons j rest ih =>
    rw [List.map_cons, List.mem_cons, not_or] at hkey
    have hfirst := FlowJob.perform_flows hp hf j key
    rw [if_neg fun hgiven => hkey.1 hgiven.1] at hfirst
    exact (ih ((j.perform_faults program s).trans hf) hkey.2).trans hfirst

/-- If no two jobs are about one key, each flow is as its job has it, unless its command fails. -/
theorem afterJobs_flows {jobs : List FlowJob} (hkeys : (jobs.map (·.key)).Nodup) {j : FlowJob}
    (hj : j ∈ jobs) : (afterJobs program jobs s).host.hashing.flows[j.key]? =
      if failing (j.command program) then s.host.hashing.flows[j.key]? else j.entry? := by
  induction jobs generalizing s with
  | nil => cases hj
  | cons first rest ih =>
    rw [List.map_cons, List.nodup_cons] at hkeys
    have hf' := (first.perform_faults program s).trans hf
    have hfirst := FlowJob.perform_flows hp hf first j.key
    rcases List.mem_cons.mp hj with rfl | hj
    · refine (afterJobs_others hp hf' hkeys.1).trans ?_
      rw [hfirst]
      cases failing (j.command program) <;> simp
    · have hother : j.key ≠ first.key := fun heq =>
        hkeys.1 (List.mem_map.mpr ⟨j, hj, heq⟩)
      rw [if_neg fun hgiven => hother hgiven.1] at hfirst
      refine (ih hf' hkeys.2 hj).trans ?_
      rw [hfirst]

end Jobs

end VipSteering.Balancer
