import VipSteering.Command.Basic
import VipSteering.Proofs.Task

namespace VipSteering

variable {σ α β ε : Type} [Shell σ] {Q Q' : Command → Prop}

/-- The second state is what commands of `Q`, one after another, make of the first. -/
inductive Reaches (Q : Command → Prop) (s : σ) : σ → Prop where
  | refl : Reaches Q s s
  | step {s' : σ} (before : Reaches Q s s') {c : Command} (hc : Q c) :
    Reaches Q s (Shell.run c s').2

namespace Reaches

variable {s s' s'' : σ}

theorem run {c : Command} (hc : Q c) (s : σ) : Reaches Q s (Shell.run c s).2 := .step .refl hc

theorem trans (h : Reaches Q s s') (k : Reaches Q s' s'') : Reaches Q s s'' := by
  induction k with
  | refl => exact h
  | step _ hc ih => exact ih.step hc

theorem mono (hq : ∀ c, Q c → Q' c) (h : Reaches Q s s') : Reaches Q' s s' := by
  induction h with
  | refl => exact .refl
  | step _ hc ih => exact ih.step (hq _ hc)

/-- What each command keeps, all keep. -/
theorem keeps {P : σ → Prop} (h : Reaches Q s s')
    (hstep : ∀ c s, Q c → P s → P (Shell.run c s).2) (hs : P s) : P s' := by
  induction h with
  | refl => exact hs
  | step _ hc ih => exact hstep _ _ hc ih

/-- Where each command is put down in a journal, the journal tells which commands were run. -/
theorem journal (entries : σ → List Command)
    (hrun : ∀ c s, entries (Shell.run c s).2 = c :: entries s) (h : Reaches Q s s') :
    ∃ issued, entries s' = issued ++ entries s ∧ ∀ c ∈ issued, Q c := by
  induction h with
  | refl => exact ⟨[], rfl, by simp⟩
  | @step s' _ c hc ih =>
    obtain ⟨issued, hjournal, hall⟩ := ih
    refine ⟨c :: issued, ?_, List.forall_mem_cons.mpr ⟨hc, hall⟩⟩
    rw [hrun, hjournal]
    rfl

end Reaches

/-- What commands make of a state, one after the other. -/
def afterCommands (issued : List Command) (s : σ) : σ :=
  issued.foldl (fun s c => (Shell.run c s).2) s

@[simp] theorem afterCommands_nil (s : σ) : afterCommands [] s = s := rfl

@[simp] theorem afterCommands_cons (c : Command) (rest : List Command) (s : σ) :
    afterCommands (c :: rest) s = afterCommands rest (Shell.run c s).2 := rfl

theorem afterCommands_append (front rest : List Command) (s : σ) :
    afterCommands (front ++ rest) s = afterCommands rest (afterCommands front s) :=
  List.foldl_append

theorem reaches_afterCommands {Q : Command → Prop} {issued : List Command}
    (h : ∀ c ∈ issued, Q c) (s : σ) : Reaches Q s (afterCommands issued s) := by
  induction issued generalizing s with
  | nil => exact .refl
  | cons c rest ih =>
    simp only [List.mem_cons, forall_eq_or_imp] at h
    exact (Reaches.run h.1 s).trans (ih h.2 _)

/-- The task does nothing but run commands of `Q`. -/
def Only (Q : Command → Prop) (task : StateM σ α) : Prop := ∀ s, Reaches Q s (task s).2

namespace Only

theorem mono (hq : ∀ c, Q c → Q' c) {task : StateM σ α} (h : Only Q task) : Only Q' task :=
  fun s => (h s).mono hq

theorem pure (a : α) : Only Q (Pure.pure a : StateM σ α) := fun _ => .refl

theorem run {c : Command} (hc : Q c) : Only Q (Shell.run c : StateM σ Outcome) := Reaches.run hc

theorem bind {x : StateM σ α} {f : α → StateM σ β} (hx : Only Q x) (hf : ∀ a, Only Q (f a)) :
    Only Q (x >>= f) := fun s => (hx s).trans (hf _ _)

theorem discard {x : StateM σ α} (hx : Only Q x) : Only Q (Functor.discard x) := hx

theorem forM {task : α → StateM σ PUnit} {items : List α} (h : ∀ a ∈ items, Only Q (task a)) :
    Only Q (items.forM task) := by
  intro s
  exact Task.forM_keeps (P := Reaches Q s) (fun a ha s' hs => hs.trans (h a ha s')) .refl

theorem attemptAll {task : α → StateM σ (Except ε Unit)} {items : List α}
    (h : ∀ a ∈ items, Only Q (task a)) : Only Q (attemptAll task items) := by
  intro s
  exact attemptAll_keeps (P := Reaches Q s) (fun a ha s' hs => hs.trans (h a ha s')) .refl

end Only
end VipSteering
