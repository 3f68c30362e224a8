import VipSteering.Balancer.Process
import VipSteering.Host.Basic
import VipSteering.Proofs.Roster.Apply
import VipSteering.Proofs.Task
import VipSteering.Session.Watcher

namespace VipSteering.Watcher

variable {H σ ε : Type} (engine : Engine σ H ε) (settings : WatchSettings) (path : String)

@[simp] theorem onRoster_apply {α : Type} (task : StateM (Roster H σ) α) (s : State H σ) :
    onRoster task s = ((task s.roster).1, { s with roster := (task s.roster).2 }) := rfl

theorem pass_eq (file : WatchedFile) (s : State H σ) :
    pass engine settings path file s =
      match readText file with
      | .error fault => (.error (.read path fault), s)
      | .ok text =>
        if s.applied = some text then (.ok false, s)
        else match Snapshot.parse text with
          | .error fault => (.error (.parse fault), s)
          | .ok snapshot =>
            let left := Roster.apply engine snapshot settings.defaultSlots s.roster
            match left.1 with
            | .error report => (.error (.apply report), { s with roster := left.2 })
            | .ok () => (.ok true, { applied := some text, roster := left.2 }) := by
  rw [pass]
  cases readText file with
  | error fault => rfl
  | ok text =>
    change (if s.applied = some text then _ else _ :
      StateM (State H σ) (Except (Fault ε) Bool)) s = if s.applied = some text then _ else _
    by_cases hsame : s.applied = some text
    · rw [if_pos hsame, if_pos hsame]
      rfl
    · rw [if_neg hsame, if_neg hsame]
      cases Snapshot.parse text with
      | error fault => rfl
      | ok snapshot =>
        simp only [Task.bind_apply, onRoster_apply]
        cases (Roster.apply engine snapshot settings.defaultSlots s.roster).1 <;> rfl

/-- The roster may be left between two snapshots, but what is on record fits together. -/
theorem pass_consistent {s : State H σ} (h : Roster.Consistent engine s.roster)
    (file : WatchedFile) :
    Roster.Consistent engine (pass engine settings path file s).2.roster := by
  rw [pass_eq]
  split
  · exact h
  split
  · exact h
  split
  · exact h
  rename_i snapshot _
  have hleft := Roster.apply_consistent engine h snapshot settings.defaultSlots
  dsimp only
  split <;> exact hleft

/-- A snapshot that was applied, with the text that spells it, and what came of it. -/
structure Attempt (ε : Type) where
  text : String
  snapshot : Snapshot
  result : Except (Report (Roster.Fault ε)) Unit

def Attempt.succeeded (a : Attempt ε) : Bool :=
  match a.result with
  | .ok () => true
  | .error _ => false

/-- The attempt that a pass makes, if it comes to that. -/
def attempt? (file : WatchedFile) (s : State H σ) : Option (Attempt ε) :=
  match readText file with
  | .error _ => none
  | .ok text =>
    if s.applied = some text then none
    else match Snapshot.parse text with
      | .error _ => none
      | .ok snapshot =>
        some ⟨text, snapshot, (Roster.apply engine snapshot settings.defaultSlots s.roster).1⟩

/-- An attempt that succeeds is kept in mind, and nothing else is. -/
theorem applied_pass (file : WatchedFile) (s : State H σ) :
    (pass engine settings path file s).2.applied =
      match attempt? engine settings file s with
      | none => s.applied
      | some a => if a.succeeded = true then some a.text else s.applied := by
  rw [pass_eq, attempt?]
  cases readText file with
  | error fault => rfl
  | ok text =>
    dsimp only
    split
    · rfl
    cases Snapshot.parse text with
    | error fault => rfl
    | ok snapshot =>
      simp only [Attempt.succeeded]
      cases (Roster.apply engine snapshot settings.defaultSlots s.roster).1 <;> rfl

/-- A pass has nothing to do exactly if the file holds the text that is kept in mind. -/
theorem pass_skips_iff (file : WatchedFile) (s : State H σ) :
    (pass engine settings path file s).1 = .ok false ↔
      ∃ text, readText file = .ok text ∧ s.applied = some text := by
  rw [pass_eq]
  cases readText file with
  | error fault => simp
  | ok text =>
    simp only [Except.ok.injEq, exists_eq_left']
    split
    · rename_i hsame
      simp [hsame]
    · rename_i hnew
      refine iff_of_false ?_ hnew
      split
      · simp
      · split <;> simp

/-- A pass, and what has become of the engine since the one before. -/
structure Round (σ : Type) where
  meanwhile : σ → σ
  file : WatchedFile

/-- What the pass starts from. -/
def Round.start (round : Round σ) (s : State H σ) : State H σ :=
  { s with roster := { s.roster with engine := round.meanwhile s.roster.engine } }

/-- The state after a pass, and the attempts up to then, the latest first. -/
def Round.take (kept : State H σ × List (Attempt ε)) (round : Round σ) :
    State H σ × List (Attempt ε) :=
  ((pass engine settings path round.file (round.start kept.1)).2,
    (attempt? engine settings round.file (round.start kept.1)).toList ++ kept.2)

/-- The state after passes, and the attempts that they made. Nobody else alters the roster. -/
def afterRounds (s : σ) (rounds : List (Round σ)) : State H σ × List (Attempt ε) :=
  rounds.foldl (Round.take engine settings path) ({ roster := { engine := s } }, [])

/-- What is kept in mind is the text of the latest attempt that succeeded. -/
theorem applied_afterRounds (s : σ) (rounds : List (Round σ)) :
    (afterRounds engine settings path s rounds).1.applied =
      ((afterRounds engine settings path s rounds).2.find? Attempt.succeeded).map (·.text) := by
  have step (kept : State H σ × List (Attempt ε)) (round : Round σ)
      (h : kept.1.applied = (kept.2.find? Attempt.succeeded).map (·.text)) :
      (round.take engine settings path kept).1.applied =
        ((round.take engine settings path kept).2.find? Attempt.succeeded).map (·.text) := by
    rw [Round.take, applied_pass]
    cases hattempt : attempt? engine settings round.file (round.start kept.1) with
    | none => exact h
    | some a =>
      simp only [Option.toList_some, List.singleton_append, List.find?_cons]
      by_cases hsucceeded : a.succeeded = true
      · simp [hsucceeded]
      · simp only [Bool.not_eq_true] at hsucceeded
        simp only [hsucceeded]
        exact h
  have run (kept : State H σ × List (Attempt ε))
      (h : kept.1.applied = (kept.2.find? Attempt.succeeded).map (·.text)) :
      (rounds.foldl (Round.take engine settings path) kept).1.applied =
        ((rounds.foldl (Round.take engine settings path) kept).2.find?
          Attempt.succeeded).map (·.text) := by
    induction rounds generalizing kept with
    | nil => exact h
    | cons round rest ih => exact ih _ (step kept round h)
  exact run _ rfl

/-- The snapshot that was applied last is the one in the file, and it was applied without a fault. -/
def InForce (attempts : List (Attempt ε)) (file : WatchedFile) : Prop :=
  ∃ last, attempts.head? = some last ∧ readText file = .ok last.text ∧ last.succeeded = true

/-- A pass has nothing to do exactly if the file holds the text of the latest attempt that succeeded.
The snapshot in it is not in force then exactly if there has been another attempt since, which
failed. -/
theorem afterRounds_skips (s : σ) (rounds : List (Round σ)) (round : Round σ) :
    let left := afterRounds engine settings path s rounds
    let skips := (pass engine settings path round.file (round.start left.1)).1 = .ok false
    let found := ∃ text, readText round.file = .ok text ∧
      (left.2.find? Attempt.succeeded).map (·.text) = some text
    (skips ↔ found) ∧
      (skips ∧ ¬ InForce left.2 round.file ↔
        found ∧ ∃ last, left.2.head? = some last ∧ last.succeeded = false) := by
  intro left skips found
  have hskips : skips ↔ found := by
    refine (pass_skips_iff engine settings path round.file (round.start left.1)).trans ?_
    change (∃ text, readText round.file = .ok text ∧ left.1.applied = some text) ↔ found
    rw [applied_afterRounds]
  refine ⟨hskips, ?_⟩
  rw [hskips]
  refine and_congr_right fun hfound => ?_
  obtain ⟨text, hread, hlast⟩ := hfound
  cases hattempts : left.2 with
  | nil =>
    rw [hattempts] at hlast
    cases hlast
  | cons last rest =>
    rw [hattempts, List.find?_cons] at hlast
    simp only [InForce, List.head?_cons, Option.some.injEq, exists_eq_left']
    cases hsucceeded : last.succeeded with
    | false => simp
    | true =>
      rw [hsucceeded] at hlast
      rw [hread]
      simpa using hlast.symm

/-- A file that holds a text. -/
def holding (text : String) : WatchedFile := some text.toUTF8.data.toList

@[simp] theorem readText_holding (text : String) : readText (holding text) = .ok text := by
  have hread : String.fromUTF8? text.toUTF8 = some text := by
    have hvalid : text.toUTF8.IsValidUTF8 := text.isValidUTF8
    rw [String.fromUTF8?, dif_pos hvalid]
    rfl
  simp only [readText, holding, Array.toArray_toList, hread]

def noServices : String := "\x7b\x7d"

def twoServices : String :=
  "\x7b\"services\":[\x7b\"name\":\"svc-a\"\x7d,\x7b\"name\":\"svc-b\"\x7d]\x7d"

/-- The balancer on a host that has only been set up. -/
def atStart : Balancer Host := { host := ((Balancer.setUp { } : StateM Host _) { }).2 }

/-- A snapshot is applied halfway, as one of its services cannot be set up. -/
def halfwayRun : List (Round (Balancer Host)) :=
  [⟨id, holding noServices⟩,
    ⟨fun b => { b with host.faults := ["--shm=svc-b"] }, holding twoServices⟩]

theorem halfwayRun_attempts :
    let left := afterRounds (Balancer.engine { }) { } "" atStart halfwayRun
    (left.1.applied, left.1.roster.services.keys, left.2.map fun a => (a.text, a.succeeded)) =
      (some noServices, ["svc-a"], [(twoServices, false), (noServices, true)]) := by
  decide +kernel

/-- Nothing fails any more and the file is put back: nothing is done, but one of the services is
there. -/
theorem halfwayRun_skips :
    let left := afterRounds (Balancer.engine { }) { } "" atStart halfwayRun
    let back : Round (Balancer Host) :=
      ⟨fun b => { b with host := b.host.clearFaults }, holding noServices⟩
    (pass (Balancer.engine { }) { } "" back.file (back.start left.1)).1 = .ok false ∧
      "svc-a" ∈ left.1.roster.services ∧ ¬ InForce left.2 back.file := by
  have hrun := halfwayRun_attempts
  dsimp only at hrun ⊢
  generalize afterRounds (Balancer.engine { }) { } "" atStart halfwayRun = left at hrun ⊢
  obtain ⟨happlied, hrest⟩ := Prod.mk.inj hrun
  obtain ⟨hkeys, hattempts⟩ := Prod.mk.inj hrest
  refine ⟨?_, ?_, ?_⟩
  · exact (pass_skips_iff (Balancer.engine { }) { } "" _ _).mpr
      ⟨noServices, readText_holding _, happlied⟩
  · rw [← Std.ExtTreeMap.mem_keys, hkeys]
    exact List.mem_singleton_self _
  · intro hforce
    obtain ⟨last, hhead, -, hsucceeded⟩ := hforce
    have hheads := congrArg List.head? hattempts
    rw [List.head?_map, hhead] at hheads
    have hfailed := (Prod.mk.inj (Option.some.inj hheads)).2
    rw [hfailed] at hsucceeded
    cases hsucceeded

end VipSteering.Watcher
