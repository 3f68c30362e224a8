import VipSteering.Proofs.Roster.Apply

namespace VipSteering

/-- What came of a task: a fault, or what came of each of its parts. A task is a success if none of
its parts is at fault. -/
inductive Course (α : Type) where
  | failed (fault : α)
  | divided (parts : List (Course α))
  deriving Repr

namespace Course

variable {α : Type}

mutual

/-- The faults that were met. -/
def met : Course α → List α
  | failed fault => [fault]
  | divided parts => metIn parts

def metIn : List (Course α) → List α
  | [] => []
  | part :: rest => met part ++ metIn rest

end

mutual

/-- The result of a task that gathers the reports of its parts, as these do of theirs. -/
def result : Course α → Except (Report α) Unit
  | failed fault => .error (.one fault)
  | divided parts => Report.gather (reportsOf parts)

def reportsOf : List (Course α) → List (Report α)
  | [] => []
  | part :: rest => Roster.reports (result part) ++ reportsOf rest

end

end Course

namespace Report

variable {α : Type}

/-- Wherever a report is divided, it has two parts at least. -/
inductive Branching : Report α → Prop
  | one (fault : α) : Branching (one fault)
  | several {parts : List (Report α)} (many : 2 ≤ parts.length)
    (each : ∀ part ∈ parts, Branching part) : Branching (several parts)

/-- Gathering adds a branch only where there are several reports. -/
theorem branching_gather {reports : List (Report α)} (h : ∀ report ∈ reports, report.Branching)
    {report : Report α} (hreport : gather reports = .error report) : report.Branching := by
  match reports with
  | [] => cases hreport
  | [single] =>
    obtain rfl : single = report := Except.error.inj hreport
    exact h single List.mem_cons_self
  | first :: second :: rest =>
    cases hreport
    refine .several ?_ h
    rw [List.length_cons, List.length_cons]
    omega

theorem branching_ofFaults {faults : List α} {report : Report α}
    (h : ofFaults faults = .error report) : report.Branching := by
  refine branching_gather (fun part hpart => ?_) h
  obtain ⟨fault, -, rfl⟩ := List.mem_map.mp hpart
  exact .one fault

/-- A report tells of some fault, as each branch leads to one. -/
theorem Branching.faults_ne_nil {report : Report α} (h : report.Branching) : report.faults ≠ [] := by
  induction h with
  | one fault => exact List.cons_ne_nil fault []
  | @several parts many each ih =>
    obtain ⟨part, rest, rfl⟩ : ∃ part rest, parts = part :: rest :=
      List.exists_cons_of_length_pos (Nat.lt_of_lt_of_le Nat.zero_lt_two many)
    rw [faults, faultsOf]
    exact List.append_ne_nil_of_left_ne_nil (ih part List.mem_cons_self) _

/-- Texts that are joined part by part are joined as a whole, since no part is without one. -/
theorem intercalate_messages {text : α → String} {parts : List (Report α)}
    (hsome : ∀ part ∈ parts, part.faults ≠ [])
    (hjoined : ∀ part ∈ parts, part.message text = "; ".intercalate (part.faults.map text)) :
    "; ".intercalate (messages text parts) = "; ".intercalate ((faultsOf parts).map text) := by
  induction parts with
  | nil => rfl
  | cons part rest ih =>
    simp only [List.mem_cons, forall_eq_or_imp] at hsome hjoined
    rw [messages, faultsOf, List.map_append, hjoined.1]
    cases rest with
    | nil => simp [messages, faultsOf]
    | cons next rest =>
      -- There is text on both sides of the separator, as there is in the joined list.
      have htexts : messages text (next :: rest) ≠ [] := List.cons_ne_nil _ _
      have hfront : part.faults.map text ≠ [] := by simpa using hsome.1
      have hrest : (faultsOf (next :: rest)).map text ≠ [] := by
        rw [faultsOf, List.map_append]
        exact List.append_ne_nil_of_left_ne_nil (by simpa using hsome.2 next List.mem_cons_self) _
      rw [String.intercalate_cons_of_ne_nil htexts, ih hsome.2 hjoined.2,
        String.intercalate_append_of_ne_nil hfront hrest]

theorem Branching.message_eq {report : Report α} (h : report.Branching) (text : α → String) :
    report.message text = "; ".intercalate (report.faults.map text) := by
  induction h with
  | one fault => simp [message, faults]
  | several many each ih =>
    rw [message, faults]
    exact intercalate_messages (fun part hpart => (each part hpart).faults_ne_nil) ih

end Report

namespace Course

variable {α : Type}

mutual

theorem leaves_result : ∀ course : Course α, Report.leaves course.result = course.met
  | failed _ => rfl
  | divided parts => by rw [result, met, Report.leaves_gather, faultsOf_reportsOf parts]

theorem faultsOf_reportsOf : ∀ parts : List (Course α),
    Report.faultsOf (reportsOf parts) = metIn parts
  | [] => rfl
  | part :: rest => by
    rw [reportsOf, metIn, Report.faultsOf_append, Roster.faultsOf_reports, leaves_result part,
      faultsOf_reportsOf rest]

end

mutual

theorem branching_result : ∀ (course : Course α) {report : Report α},
    course.result = .error report → report.Branching
  | failed fault, report, h => by
    cases h
    exact .one fault
  | divided parts, report, h => Report.branching_gather (branching_reportsOf parts) h

theorem branching_reportsOf : ∀ parts : List (Course α),
    ∀ report ∈ reportsOf parts, report.Branching
  | [], report, h => nomatch h
  | part :: rest, report, h => by
    rw [reportsOf, List.mem_append] at h
    rcases h with h | h
    · exact branching_result part (Roster.mem_reports.mp h)
    · exact branching_reportsOf rest report h

end

/-- A task without faults is a success. Otherwise its report tells the faults that were met, each in
its turn, branches only where there are several, and reads as the texts of the faults joined. -/
theorem result_told (text : α → String) (course : Course α) :
    match course.result with
    | .ok () => course.met = []
    | .error report =>
      report.faults = course.met ∧ report.Branching ∧
        report.message text = "; ".intercalate (course.met.map text) := by
  have hleaves := leaves_result course
  have hbranching := @branching_result α course
  split
  · rename_i hok
    rw [hok] at hleaves
    exact hleaves.symm
  · rename_i report herror
    rw [herror] at hleaves
    have hreport : report.Branching := hbranching herror
    have hfaults : report.faults = course.met := hleaves
    refine ⟨hfaults, hreport, ?_⟩
    rw [hreport.message_eq, hfaults]

example : (divided [divided [failed 1, failed 2], divided [divided [], failed 3]]).result =
    .error (.several [.several [.one 1, .one 2], .one 3]) := rfl

end Course

namespace Roster

variable {σ H ε : Type} (engine : Engine σ H ε)

theorem branching_setServices {specs : List ServiceSpec} {r : Roster H σ}
    {report : Report (Fault ε)} (h : (setServices engine specs r).1 = .error report) :
    report.Branching := by
  rw [setServices_eq] at h
  dsimp only at h
  split at h
  · cases h
    exact .one _
  · exact Report.branching_ofFaults h

theorem branching_setFlows {specs : List FlowSpec} {r : Roster H σ}
    {report : Report (Fault ε)} (h : (setFlows engine specs r).1 = .error report) :
    report.Branching :=
  Report.branching_ofFaults h

theorem branching_setEndpoints {service : String} {specs : List EndpointSpec} {r : Roster H σ}
    {report : Report (Fault ε)} (h : (setEndpoints engine service specs r).1 = .error report) :
    report.Branching := by
  rw [setEndpoints_eq] at h
  split at h
  · exact Report.branching_ofFaults h
  · cases h
    exact .one _

theorem branching_setServiceEndpoints {known : Std.ExtTreeMap String H} {service : DesiredService}
    {r : Roster H σ} {report : Report (Fault ε)}
    (h : (setServiceEndpoints engine known service r).1 = .error report) : report.Branching := by
  rw [setServiceEndpoints_eq] at h
  split at h
  · exact branching_setEndpoints engine h
  · cases h

/-- What is said of a snapshot is what its faults say one by one, whichever steps met them. -/
theorem apply_message {d : Snapshot} {slots : UInt32} {r : Roster H σ}
    {report : Report (Fault ε)} (h : (apply engine d slots r).1 = .error report)
    (text : ε → String) :
    report.message (Fault.message text) =
      "; ".intercalate (report.faults.map (Fault.message text)) := by
  have hbranching : report.Branching := by
    rw [apply_eq] at h
    refine Report.branching_gather (fun part hpart => ?_) h
    rw [List.mem_append, List.mem_append, mem_reports, mem_reports] at hpart
    rcases hpart with (hpart | hpart) | hpart
    · exact branching_setServices engine hpart
    · exact branching_setFlows engine hpart
    · obtain ⟨service, -, r', hservice⟩ := exists_of_mem_attemptAll hpart
      exact branching_setServiceEndpoints engine hservice
  exact hbranching.message_eq _

end Roster
end VipSteering
