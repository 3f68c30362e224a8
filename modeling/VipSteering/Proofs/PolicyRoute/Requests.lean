import VipSteering.Proofs.Command.Reaches
import VipSteering.Proofs.Host.Ip

namespace VipSteering

open Host

/-- A query to the program `ip`. -/
def Command.IsQuery (c : Command) : Prop := c.program = "ip" ∧ c.args.head? = some "-j"

/-- The marks that a request is about. -/
def Host.Ip.Request.marks : Ip.Request → List UInt32
  | .showRule r | .addRule r | .deleteRule r => [r.mark, r.table]
  | .showRoutes _ table | .flushRoutes _ table => [table]
  | .addRoute r | .deleteRoute r => [r.table]
  | .flushNeighbour _ => []

namespace PolicyRoute

/-- A request about no other mark. -/
def IsAbout (mark : UInt32) (c : Command) : Prop :=
  c.program = "ip" ∧ ∃ json request, Ip.parse c.args = .ok (json, request) ∧
    ∀ m ∈ request.marks, m = mark

/-- The request is one for the policy route of a mark by a hop. -/
def IsStep (mark : UInt32) (hop : Address) : Ip.Request → Prop
  | .showRule r | .addRule r | .deleteRule r => r = ruleOf hop.family mark
  | .showRoutes family table | .flushRoutes family table => family = hop.family ∧ table = mark
  | .addRoute r | .deleteRoute r => r = ⟨mark, hop⟩
  | .flushNeighbour target => target = hop

def IsFor (mark : UInt32) (hop : Address) (c : Command) : Prop :=
  c.program = "ip" ∧ ∃ json request, Ip.parse c.args = .ok (json, request) ∧
    IsStep mark hop request

section IsFor

variable {mark : UInt32} {hop : Address} {c : Command}

theorem IsFor.isAbout (h : IsFor mark hop c) : IsAbout mark c := by
  obtain ⟨hprogram, json, request, hparse, hstep⟩ := h
  refine ⟨hprogram, json, request, hparse, ?_⟩
  cases request with
  | showRule r | addRule r | deleteRule r =>
    obtain rfl := hstep
    simp [Ip.Request.marks, ruleOf]
  | showRoutes family table | flushRoutes family table =>
    obtain ⟨-, rfl⟩ := hstep
    simp [Ip.Request.marks]
  | addRoute r | deleteRoute r =>
    obtain rfl := hstep
    simp [Ip.Request.marks]
  | flushNeighbour target => simp [Ip.Request.marks]

theorem isFor_of_parse {json : Bool} {request : Ip.Request} (hprogram : c.program = "ip")
    (hparse : Ip.parse c.args = .ok (json, request)) (hstep : IsStep mark hop request) :
    IsFor mark hop c :=
  ⟨hprogram, json, request, hparse, hstep⟩

end IsFor

variable {σ : Type} [Shell σ] (mark : UInt32) (hop : Address)

theorem ruleCount_asks :
    Only (fun c => IsFor mark hop c ∧ c.IsQuery) (ruleCount (σ := σ) mark hop) := by
  have hlist : IsFor mark hop (listRules mark hop) :=
    isFor_of_parse rfl (parse_listRules mark hop) rfl
  rw [ruleCount]
  refine .bind (.run ⟨hlist, rfl, rfl⟩) fun outcome => ?_
  cases outcome with
  | error _ => exact .pure _
  | ok _ => exact .pure _

theorem ruleCount_only : Only (IsFor mark hop) (ruleCount (σ := σ) mark hop) :=
  (ruleCount_asks mark hop).mono fun _ hc => hc.1

theorem isInPlace_asks :
    Only (fun c => IsFor mark hop c ∧ c.IsQuery) (isInPlace (σ := σ) mark hop) := by
  have hlist : IsFor mark hop (listRoutes mark hop) :=
    isFor_of_parse rfl (parse_listRoutes mark hop) ⟨rfl, rfl⟩
  rw [isInPlace]
  refine .bind (.run ⟨hlist, rfl, rfl⟩) fun outcome => ?_
  cases outcome with
  | error _ => exact .pure _
  | ok output =>
    dsimp only
    split
    · split
      · exact .bind (ruleCount_asks mark hop) fun _ => .pure _
      · exact .pure _
    · exact .pure _

theorem isFor_deleteRule : IsFor mark hop (ruleCommand "del" mark hop) :=
  isFor_of_parse rfl (parse_deleteRule mark hop) rfl

theorem deleteRules_only (n : Nat) : Only (IsFor mark hop) (deleteRules (σ := σ) mark hop n) := by
  induction n with
  | zero => exact .pure _
  | succ n ih =>
    rw [deleteRules]
    refine .bind (.run (isFor_deleteRule mark hop)) fun outcome => ?_
    cases outcome with
    | error _ => exact .pure _
    | ok _ => exact ih

theorem clear_only : Only (IsFor mark hop) (clear (σ := σ) mark hop) := by
  rw [clear]
  refine .bind (ruleCount_only mark hop) fun count => .bind (deleteRules_only mark hop _) fun _ => ?_
  exact .discard (.run (isFor_of_parse rfl (parse_flushTable mark hop) ⟨rfl, rfl⟩))

theorem create_only : Only (IsFor mark hop) (create (σ := σ) mark hop) := by
  rw [create]
  refine .bind ((isInPlace_asks mark hop).mono fun _ hc => hc.1) fun inPlace => ?_
  split
  · exact .pure _
  have hflush : IsFor mark hop (flushNeighbour hop) :=
    isFor_of_parse rfl (parse_flushNeighbour hop) rfl
  have hrule : IsFor mark hop (ruleCommand "add" mark hop) :=
    isFor_of_parse rfl (parse_addRule mark hop) rfl
  have hroute : IsFor mark hop (routeCommand "add" mark hop) :=
    isFor_of_parse rfl (parse_addRoute mark hop) rfl
  refine .bind (clear_only mark hop) fun _ => .bind (.discard (.run hflush)) fun _ =>
    .bind (.run hrule) fun outcome => ?_
  cases outcome with
  | error _ => exact .pure _
  | ok _ =>
    refine .bind (.run hroute) fun outcome => ?_
    cases outcome with
    | error _ => exact .pure _
    | ok _ => exact .pure _

theorem delete_only : Only (IsFor mark hop) (delete (σ := σ) mark hop) := by
  rw [delete]
  refine .bind (.attemptAll fun part _ => ?_) fun _ => .pure _
  cases part with
  | rule => exact .bind (.run (isFor_deleteRule mark hop)) fun _ => .pure _
  | route =>
    have hroute : IsFor mark hop (routeCommand "del" mark hop) :=
      isFor_of_parse rfl (parse_deleteRoute mark hop) rfl
    exact .bind (.run hroute) fun _ => .pure _

end PolicyRoute
end VipSteering
