import VipSteering.Proofs.Command.Reaches
import VipSteering.Proofs.Host.Refusing

namespace VipSteering

open Host

/-- How a command fares. -/
inductive Fate where
  | done
  /-- It fails and has no effect. -/
  | refused (cause : Command.Failure)
  /-- It has its effect, but is reported to have failed. -/
  | lost (cause : Command.Failure)

def Fate.cause? : Fate → Option Command.Failure
  | done => none
  | refused cause | lost cause => some cause

/-- How each command fares after those that were run before, the latest first. -/
abbrev Fates := List Command → Command → Fate

structure Flaky (fates : Fates) where
  host : Host

namespace Flaky

variable {fates : Fates}

def run (c : Command) : StateM (Flaky fates) Outcome := fun s =>
  match fates s.host.journal c with
  | .done => ((s.host.run c).1, ⟨(s.host.run c).2⟩)
  | .refused cause => (.error cause, ⟨s.host.record c⟩)
  | .lost cause => (.error cause, ⟨(s.host.run c).2⟩)

def launch (c : Command) : StateM (Flaky fates) Launch := fun s =>
  ((s.host.launch c).1, ⟨(s.host.launch c).2⟩)

instance : Shell (Flaky fates) := ⟨run, launch⟩

end Flaky

namespace Flaky

variable {fates : Fates} (c : Command) (s : Flaky fates)

theorem run_host : (Shell.run c s).2.host = s.host.record c ∨
    (Shell.run c s).2.host = (Shell.run c s.host).2 := by
  change (run c s).2.host = _ ∨ (run c s).2.host = (s.host.run c).2
  rw [run]
  split
  · exact .inr rfl
  · exact .inl rfl
  · exact .inr rfl

/-- A command changes the host as the host has it, or it is only put down in the journal. -/
theorem run_cases : (Shell.run c s).2.host = s.host.record c ∨
    ∃ output, (s.host.record c).execute c = .ok (output, (Shell.run c s).2.host) := by
  rcases run_host c s with heq | heq
  · exact .inl heq
  · rw [heq]
    exact Host.run_cases c s.host

theorem run_journal : (Shell.run c s).2.host.journal = c :: s.host.journal := by
  rcases run_cases c s with heq | ⟨output, he⟩
  · rw [heq]
    rfl
  · exact (execute_hashing he).1

theorem run_faults : (Shell.run c s).2.host.faults = s.host.faults := by
  rcases run_cases c s with heq | ⟨output, he⟩
  · rw [heq]
    rfl
  · exact (execute_faults he).trans rfl

theorem run_hashing : (Shell.run c s).2.host.hashing = s.host.hashing ∨
    ∃ request output, Text.endsWith "nfqlb" c.program = true ∧
      Maglev.parse c.args = .ok request ∧
        Maglev.perform s.host.hashing request = .ok (output, (Shell.run c s).2.host.hashing) := by
  rcases run_cases c s with heq | ⟨output, he⟩
  · rw [heq]
    exact .inl rfl
  · rcases (execute_hashing he).2 with hsame | ⟨request, hp, hparse, hperform⟩
    · exact .inl hsame
    · exact .inr ⟨request, output, hp, hparse, hperform⟩

theorem run_routing : (Shell.run c s).2.host.routing = s.host.routing ∨
    ∃ json request output, c.program = "ip" ∧ Ip.parse c.args = .ok (json, request) ∧
      Ip.perform json s.host.routing request = .ok (output, (Shell.run c s).2.host.routing) := by
  rcases run_cases c s with heq | ⟨output, he⟩
  · rw [heq]
    exact .inl rfl
  · rcases execute_routing he with hsame | ⟨json, request, hp, hparse, hperform⟩
    · exact .inl hsame
    · exact .inr ⟨json, request, output, hp, hparse, hperform⟩

theorem run_tables : (Shell.run c s).2.host.tables = s.host.tables ∨
    ∃ output, c.program = "nft" ∧
      Nft.execute c.args c.input s.host.tables = .ok (output, (Shell.run c s).2.host.tables) := by
  rcases run_cases c s with heq | ⟨output, he⟩
  · rw [heq]
    exact .inl rfl
  · rcases execute_tables he with hsame | ⟨hp, hexecute⟩
    · exact .inl hsame
    · exact .inr ⟨output, hp, hexecute⟩

theorem run_done (hd : fates s.host.journal c = .done) :
    Shell.run c s = ((Shell.run c s.host).1, ⟨(Shell.run c s.host).2⟩) := by
  change run c s = _
  rw [run, hd]
  rfl

/-- A command that succeeds has been carried out as the host carries it out. -/
theorem run_ok {output : String} (hok : (Shell.run c s).1 = .ok output) :
    Shell.run c s = (.ok output, ⟨(Shell.run c s.host).2⟩) ∧
      (Shell.run c s.host).1 = .ok output := by
  change (run c s).1 = .ok output at hok
  change run c s = (.ok output, ⟨(Host.run c s.host).2⟩) ∧ (Host.run c s.host).1 = .ok output
  rw [run] at hok ⊢
  split at hok
  · exact ⟨by rw [hok], hok⟩
  · cases hok
  · cases hok

/-- If the command does not fail as though its target were not there, what counts as deleted has been
carried out as the host carries it out. -/
theorem run_deleted
    (hpresent : ∀ cause, (fates s.host.journal c).cause? = some cause → cause.isAbsence = false)
    (hdeleted : (Shell.run c s).1.deleted = .ok ()) :
    Shell.run c s = ((Shell.run c s.host).1, ⟨(Shell.run c s.host).2⟩) := by
  cases hfate : fates s.host.journal c with
  | done => exact run_done c s hfate
  | refused cause | lost cause =>
    have houtcome : (Shell.run c s).1 = .error cause := by
      change (run c s).1 = _
      rw [run, hfate]
    rw [houtcome, deleted_refused (hpresent cause (by rw [hfate]; rfl))] at hdeleted
    cases hdeleted

/-- The journal tells which commands were run. -/
theorem journal_of_reaches {Q : Command → Prop} {s s' : Flaky fates} (h : Reaches Q s s') :
    ∃ issued, s'.host.journal = issued ++ s.host.journal ∧ ∀ c ∈ issued, Q c :=
  h.journal (fun s => s.host.journal) run_journal

theorem afterCommands_journal (issued : List Command) (s : Flaky fates) :
    (afterCommands issued s).host.journal = issued.reverse ++ s.host.journal := by
  induction issued generalizing s with
  | nil => rfl
  | cons c rest ih =>
    rw [afterCommands_cons, ih, run_journal, List.reverse_cons, List.append_assoc]
    rfl

section Programs

variable {c : Command} {s : Flaky fates} {json : Bool} {request : Ip.Request} {output : String}

theorem execute_of_run (hok : (Shell.run c s).1 = .ok output) :
    (s.host.record c).execute c = .ok (output, (Shell.run c s).2.host) := by
  obtain ⟨hrun, hanswer⟩ := run_ok c s hok
  rw [hrun]
  exact Host.execute_of_run hanswer

/-- A request that is answered has been done. -/
theorem run_ip_ok (hp : c.program = "ip") (hparse : Ip.parse c.args = .ok (json, request))
    (hok : (Shell.run c s).1 = .ok output) :
    Ip.perform json s.host.routing request = .ok (output, (Shell.run c s).2.host.routing) := by
  have hdone := execute_ip hp hparse (execute_of_run hok)
  exact hdone

theorem run_nft_ok (hp : c.program = "nft") (hok : (Shell.run c s).1 = .ok output) :
    Nft.execute c.args c.input s.host.tables = .ok (output, (Shell.run c s).2.host.tables) := by
  have hdone := execute_nft hp (execute_of_run hok)
  exact hdone

/-- Whatever becomes of a request that alters nothing, nothing is altered. -/
theorem run_ip_kept (hparse : Ip.parse c.args = .ok (json, request))
    (hkeep : ∀ output routing, Ip.perform json s.host.routing request = .ok (output, routing) →
      routing = s.host.routing) : (Shell.run c s).2.host.routing = s.host.routing := by
  rcases run_routing c s with hsame | ⟨json', request', output, -, hparse', hperform⟩
  · exact hsame
  · rw [hparse] at hparse'
    cases hparse'
    exact hkeep _ _ hperform

/-- The command is not made to fail. -/
def Spares (s : Flaky fates) (c : Command) : Prop :=
  fates s.host.journal c = .done ∧ ¬ s.host.Refuses c

/-- None of the commands that are concerned is made to fail when its turn has come. -/
def Unhindered (Q : Command → Prop) : List Command → Flaky fates → Prop
  | [], _ => True
  | c :: rest, s => (Q c → s.Spares c) ∧ Unhindered Q rest (Shell.run c s).2

theorem unhindered_append {Q : Command → Prop} {front rest : List Command} {s : Flaky fates} :
    Unhindered Q (front ++ rest) s ↔
      Unhindered Q front s ∧ Unhindered Q rest (afterCommands front s) := by
  induction front generalizing s with
  | nil => simp [Unhindered]
  | cons c front ih => simp [Unhindered, ih, and_assoc]

theorem unhindered_of_done {Q : Command → Prop} (hf : s.host.faults = [])
    (hdone : ∀ before c, Q c → fates before c = .done) (issued : List Command) :
    Unhindered Q issued s := by
  induction issued generalizing s with
  | nil => trivial
  | cons c rest ih =>
    exact ⟨fun hc => ⟨hdone _ c hc, not_refuses hf c⟩, ih ((run_faults c s).trans hf)⟩

/-- A command that is not made to fail does what it can. -/
theorem run_nft_spared (hp : c.program = "nft") (hspared : s.Spares c) {tables : FilterTables}
    (hexecute : Nft.execute c.args c.input s.host.tables = .ok (output, tables)) :
    (Shell.run c s).1 = .ok output := by
  rw [run_done c s hspared.1, run_nft_eq hp, if_neg hspared.2, hexecute]

/-- A command that can be carried out and fails has been made to fail. -/
theorem not_unhindered_of_error {Q : Command → Prop} (hp : c.program = "nft") (hc : Q c)
    {tables : FilterTables} (hexecute : Nft.execute c.args c.input s.host.tables = .ok (output, tables))
    {cause : Command.Failure} (hfailed : (Shell.run c s).1 = .error cause) :
    ¬ Unhindered Q [c] s := by
  intro hspared
  rw [run_nft_spared hp (hspared.1 hc) hexecute] at hfailed
  cases hfailed

end Programs

end Flaky
end VipSteering
