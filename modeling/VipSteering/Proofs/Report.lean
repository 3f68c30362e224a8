import VipSteering.Report

namespace VipSteering.Report

variable {α : Type}

@[simp] theorem ofFaults_nil : ofFaults ([] : List α) = .ok () := rfl

theorem gather_eq_ok {reports : List (Report α)} : gather reports = .ok () ↔ reports = [] := by
  match reports with
  | [] => simp [gather]
  | [_] => simp [gather]
  | _ :: _ :: _ => simp [gather]

theorem ofFaults_eq_ok {faults : List α} : ofFaults faults = .ok () ↔ faults = [] := by
  rw [ofFaults, gather_eq_ok, List.map_eq_nil_iff]

/-- A report of single faults holds these. -/
theorem faultsOf_map_one (faults : List α) : faultsOf (faults.map one) = faults := by
  induction faults with
  | nil => rfl
  | cons fault rest ih =>
    rw [List.map_cons, faultsOf, Report.faults, ih]
    rfl

theorem faultsOf_append (front rest : List (Report α)) :
    faultsOf (front ++ rest) = faultsOf front ++ faultsOf rest := by
  induction front with
  | nil => rfl
  | cons report front ih => rw [List.cons_append, faultsOf, faultsOf, ih, List.append_assoc]

/-- The single faults of a result. -/
def leaves : Except (Report α) Unit → List α
  | .ok () => []
  | .error report => report.faults

theorem leaves_gather (reports : List (Report α)) : leaves (gather reports) = faultsOf reports := by
  match reports with
  | [] => rfl
  | [report] => simp [gather, leaves, faultsOf]
  | first :: second :: rest => rfl

theorem leaves_ofFaults (faults : List α) : leaves (ofFaults faults) = faults := by
  rw [ofFaults, leaves_gather, faultsOf_map_one]

end VipSteering.Report
