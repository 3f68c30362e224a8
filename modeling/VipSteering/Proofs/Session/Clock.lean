import VipSteering.Proofs.Session.Watcher
import VipSteering.Session.Basic
import VipSteering.Session.Environment

namespace VipSteering.Session

variable {s : Session} {deadline time : Nat} {r : Recurring}

theorem next?_eq_none (h : s.next? deadline = none) (r : Recurring) (time : Nat)
    (ht : s.nextTime? r = some time) : deadline < time := by
  rw [next?] at h
  split at h
  · rename_i hheal hread
    rw [Option.filter_eq_none_iff] at hheal hread
    cases r with
    | heal => simpa using hheal time ht
    | read => simpa using hread time ht
  · cases h
  · cases h
  · split at h <;> cases h

/-- What happens next is the earliest of what recurs. -/
theorem next?_eq_some (h : s.next? deadline = some (r, time)) :
    s.nextTime? r = some time ∧ time ≤ deadline ∧
      ∀ r' time', s.nextTime? r' = some time' → time ≤ time' := by
  rw [next?] at h
  cases hheal : s.nextTime? .heal <;> cases hread : s.nextTime? .read <;> grind [cases Recurring]

section Happen

variable (time : Nat) (r : Recurring) (s : Session)

@[simp] theorem now_happen : (happen time r s).2.now = time := by
  cases r <;> rfl

@[simp] theorem period_happen (r' : Recurring) :
    (happen time r s).2.period r' = s.period r' := by
  cases r <;> rfl

theorem nextTime?_happen (r' : Recurring) :
    (happen time r s).2.nextTime? r' =
      if r' = r then some (time + s.period r) else s.nextTime? r' := by
  cases r <;> cases r' <;> rfl

theorem happen_consistent (h : Roster.Consistent s.engine s.watcher.roster) :
    Roster.Consistent (happen time r s).2.engine (happen time r s).2.watcher.roster := by
  cases r with
  | heal => exact h.withEngine _
  | read => exact Watcher.pass_consistent s.engine s.watch s.path h s.file

end Happen

/-- The periods are positive, and what recurs comes next within a period from now. -/
structure OnTime (s : Session) : Prop where
  period_pos : ∀ r, 0 < s.period r
  next : ∀ r time, s.nextTime? r = some time → s.now ≤ time ∧ time ≤ s.now + s.period r

theorem OnTime.later (h : OnTime s) {t : Nat} (hle : s.now ≤ t)
    (hnext : ∀ r time, ({ s with now := t } : Session).nextTime? r = some time → t ≤ time) :
    OnTime { s with now := t } := by
  have hnext? (r : Recurring) : ({ s with now := t } : Session).nextTime? r = s.nextTime? r := by
    cases r <;> rfl
  have hperiod (r : Recurring) : ({ s with now := t } : Session).period r = s.period r := by
    cases r <;> rfl
  refine ⟨fun r => ?_, fun r time ht => ⟨hnext r time ht, ?_⟩⟩
  · rw [hperiod]
    exact h.period_pos r
  · rw [hnext?] at ht
    rw [hperiod]
    exact Nat.le_trans (h.next r time ht).2 (Nat.add_le_add_right hle _)

/-- Whatever happens, what recurs comes next within a period from then. -/
theorem OnTime.happen (h : OnTime s) (hnext : s.next? deadline = some (r, time)) :
    OnTime (happen time r s).2 := by
  obtain ⟨htime, -, hfirst⟩ := next?_eq_some hnext
  refine ⟨fun r' => ?_, fun r' time' ht => ?_⟩
  · rw [period_happen]
    exact h.period_pos r'
  · rw [nextTime?_happen] at ht
    rw [now_happen, period_happen]
    split at ht
    · rename_i heq
      subst heq
      cases ht
      exact ⟨Nat.le_add_right _ _, Nat.le_refl _⟩
    · have hnow := (h.next r time htime).1
      have hlate := (h.next r' time' ht).2
      have hearly := hfirst r' time' ht
      omega

/-- What each thing that happens keeps, all of them keep. -/
theorem passEvents_keeps {P : Session → Prop}
    (step : ∀ s r time, P s → s.next? deadline = some (r, time) → P (happen time r s).2) (n : Nat)
    (h : P s) : P (passEvents deadline n s).2 := by
  induction n generalizing s with
  | zero => exact h
  | succ n ih =>
    rw [passEvents]
    simp only [Task.bind_apply, Task.get_apply]
    cases hnext : s.next? deadline with
    | none => exact h
    | some next => exact ih (step s next.1 next.2 h hnext)

/-- What happens by a deadline, in the order in which it happens, as far as `n` things. -/
def events (deadline : Nat) : Nat → Session → List (Recurring × Nat)
  | 0, _ => []
  | n + 1, s =>
    match s.next? deadline with
    | none => []
    | some (r, time) => (r, time) :: events deadline n (happen time r s).2

theorem passEvents_eq_foldl (deadline n : Nat) (s : Session) :
    (passEvents deadline n s).2 =
      (events deadline n s).foldl (fun s event => (happen event.2 event.1 s).2) s := by
  induction n generalizing s with
  | zero => rfl
  | succ n ih =>
    rw [passEvents, events]
    simp only [Task.bind_apply, Task.get_apply]
    cases s.next? deadline with
    | none => rfl
    | some next => exact ih _

/-- The milliseconds up to a deadline in which something can still happen. -/
def roomFor (deadline : Nat) (s : Session) (r : Recurring) : Nat :=
  match s.nextTime? r with
  | none => 0
  | some time => deadline + 1 - time

def room (deadline : Nat) (s : Session) : Nat := roomFor deadline s .heal + roomFor deadline s .read

/-- What happens takes room of its own, and none of the other's. -/
theorem room_happen (hpos : 0 < s.period r) (hnext : s.next? deadline = some (r, time)) :
    room deadline (happen time r s).2 < room deadline s := by
  obtain ⟨htime, hdue, -⟩ := next?_eq_some hnext
  have hown : roomFor deadline (happen time r s).2 r < roomFor deadline s r := by
    rw [roomFor, roomFor, nextTime?_happen, if_pos rfl, htime]
    dsimp only
    omega
  have hother (r' : Recurring) (hne : r' ≠ r) :
      roomFor deadline (happen time r s).2 r' = roomFor deadline s r' := by
    rw [roomFor, roomFor, nextTime?_happen, if_neg hne]
  rw [room, room]
  cases r with
  | heal =>
    rw [hother .read (by decide)]
    omega
  | read =>
    rw [hother .heal (by decide)]
    omega

/-- With room for everything that can still happen, nothing is left that is due. -/
theorem passEvents_done {n : Nat} (hpos : ∀ r, 0 < s.period r)
    (hroom : room deadline s ≤ n) (r : Recurring) (time : Nat)
    (ht : (passEvents deadline n s).2.nextTime? r = some time) : deadline < time := by
  induction n generalizing s with
  | zero =>
    rw [room] at hroom
    have hnone : roomFor deadline s r = 0 := by cases r <;> omega
    rw [roomFor, show s.nextTime? r = some time from ht] at hnone
    dsimp only at hnone
    omega
  | succ n ih =>
    rw [passEvents] at ht
    simp only [Task.bind_apply, Task.get_apply] at ht
    cases hnext : s.next? deadline with
    | none =>
      rw [hnext] at ht
      exact next?_eq_none hnext r time ht
    | some next =>
      obtain ⟨first, t⟩ := next
      rw [hnext] at ht
      have hless := room_happen (hpos first) hnext
      exact ih (s := (happen t first s).2) (by simpa using hpos) (by omega) ht

/-- The times up to a deadline at which something is to happen. -/
def timesUntil (deadline : Nat) (s : Session) (r : Recurring) : List Nat :=
  match s.nextTime? r with
  | none => []
  | some time =>
    List.range' time ((deadline + s.period r - time) / s.period r) (s.period r)

theorem timesUntil_late (hpos : 0 < s.period r)
    (hlate : ∀ time, s.nextTime? r = some time → deadline < time) :
    timesUntil deadline s r = [] := by
  rw [timesUntil]
  cases ht : s.nextTime? r with
  | none => rfl
  | some time =>
    have hdeadline := hlate time ht
    have hnone : (deadline + s.period r - time) / s.period r = 0 :=
      Nat.div_eq_of_lt (by omega)
    dsimp only
    rw [hnone]
    rfl

theorem timesUntil_happen (hpos : 0 < s.period r) (ht : s.nextTime? r = some time)
    (hdue : time ≤ deadline) :
    timesUntil deadline s r = time :: timesUntil deadline (happen time r s).2 r := by
  have hcount : (deadline + s.period r - time) / s.period r =
      (deadline + s.period r - (time + s.period r)) / s.period r + 1 := by
    rw [← Nat.add_div_right _ hpos]
    congr 1
    omega
  rw [timesUntil, timesUntil, nextTime?_happen, if_pos rfl, period_happen, ht]
  dsimp only
  rw [hcount, List.range'_succ]

/-- Each of the two that recur happens at the times that its period gives it, and at no others. -/
theorem times_events {n : Nat} (hpos : ∀ r, 0 < s.period r)
    (hroom : room deadline s ≤ n) (r : Recurring) :
    ((events deadline n s).filter (·.1 = r)).map (·.2) = timesUntil deadline s r := by
  induction n generalizing s with
  | zero =>
    refine (timesUntil_late (hpos r) fun time ht => ?_).symm
    exact passEvents_done hpos hroom r time ht
  | succ n ih =>
    rw [events]
    cases hnext : s.next? deadline with
    | none => exact (timesUntil_late (hpos r) (next?_eq_none hnext r)).symm
    | some next =>
      obtain ⟨first, time⟩ := next
      obtain ⟨htime, hdue, -⟩ := next?_eq_some hnext
      have hless := room_happen (hpos first) hnext
      have hrest := ih (s := (happen time first s).2) (by simpa using hpos) (by omega)
      by_cases hr : first = r
      · subst hr
        rw [timesUntil_happen (hpos first) htime hdue, ← hrest]
        simp
      · have hsame : timesUntil deadline (happen time first s).2 r = timesUntil deadline s r := by
          rw [timesUntil, timesUntil, nextTime?_happen, if_neg (Ne.symm hr), period_happen]
        rw [← hsame, ← hrest]
        simp [hr]

/-- Things happen in the order of time, and none before now. -/
theorem events_sorted (h : OnTime s) (deadline n : Nat) :
    (∀ event ∈ events deadline n s, s.now ≤ event.2) ∧
      (events deadline n s).Pairwise fun a b => a.2 ≤ b.2 := by
  induction n generalizing s with
  | zero => exact ⟨by simp [events], List.Pairwise.nil⟩
  | succ n ih =>
    rw [events]
    cases hnext : s.next? deadline with
    | none => simp
    | some next =>
      obtain ⟨first, time⟩ := next
      obtain ⟨htime, -, -⟩ := next?_eq_some hnext
      obtain ⟨hfrom, hsorted⟩ := ih (h.happen hnext)
      rw [now_happen] at hfrom
      refine ⟨?_, List.Pairwise.cons hfrom hsorted⟩
      intro event hevent
      rcases List.mem_cons.mp hevent with rfl | hevent
      · exact (h.next first time htime).1
      · exact Nat.le_trans (h.next first time htime).1 (hfrom event hevent)

section Sleep

variable (millis : Nat)

theorem sleep_eq (s : Session) :
    (sleep millis s).2 = { (passEvents (s.now + millis) (2 * (millis + 1)) s).2 with
      now := s.now + millis } := rfl

theorem OnTime.room_le (h : OnTime s) : room (s.now + millis) s ≤ 2 * (millis + 1) := by
  have hfor (r : Recurring) : roomFor (s.now + millis) s r ≤ millis + 1 := by
    rw [roomFor]
    cases ht : s.nextTime? r with
    | none => exact Nat.zero_le _
    | some time =>
      have hnow := (h.next r time ht).1
      dsimp only
      omega
  have hheal := hfor .heal
  have hread := hfor .read
  rw [room]
  omega

/-- What is due while time passes happens at its times and in their order, and nothing that is due
is left for later. -/
theorem sleep_on_schedule (h : OnTime s) :
    let passed := events (s.now + millis) (2 * (millis + 1)) s
    let left := (sleep millis s).2
    left = { passed.foldl (fun s event => (happen event.2 event.1 s).2) s with
      now := s.now + millis } ∧
      passed.Pairwise (fun a b => a.2 ≤ b.2) ∧
      (∀ r, (passed.filter (·.1 = r)).map (·.2) = timesUntil (s.now + millis) s r) ∧
      ∀ r time, left.nextTime? r = some time → left.now < time := by
  intro passed left
  have hroom := h.room_le millis
  refine ⟨?_, (events_sorted h _ _).2, times_events h.period_pos hroom, fun r time ht => ?_⟩
  · rw [← passEvents_eq_foldl]
    exact sleep_eq millis s
  · refine passEvents_done h.period_pos hroom r time ?_
    rw [← ht]
    cases r <;> rfl

theorem OnTime.sleep (h : OnTime s) : OnTime (sleep millis s).2 := by
  have hpassed : OnTime (passEvents (s.now + millis) (2 * (millis + 1)) s).2 ∧
      (passEvents (s.now + millis) (2 * (millis + 1)) s).2.now ≤ s.now + millis := by
    refine passEvents_keeps (P := fun t => OnTime t ∧ t.now ≤ s.now + millis) ?_ _
      ⟨h, Nat.le_add_right _ _⟩
    intro t r time ht hnext
    refine ⟨ht.1.happen hnext, ?_⟩
    rw [now_happen]
    exact (next?_eq_some hnext).2.1
  obtain ⟨-, -, -, hlate⟩ := sleep_on_schedule millis h
  exact hpassed.1.later hpassed.2 fun r time ht => Nat.le_of_lt (hlate r time ht)

theorem sleep_consistent (h : Roster.Consistent s.engine s.watcher.roster) :
    Roster.Consistent (sleep millis s).2.engine (sleep millis s).2.watcher.roster := by
  rw [sleep_eq]
  exact passEvents_keeps (P := fun t => Roster.Consistent t.engine t.watcher.roster)
    (fun t r time ht _ => happen_consistent time r t ht) _ h

end Sleep

/-- What is done with a session. -/
inductive Act where
  /-- A request to the roster; somebody else may have altered the balancer or its host before. -/
  | turn (t : Roster.Turn (Balancer Console))
  | write (file : WatchedFile)
  | reconcile
  | sleep (millis : Nat)
  | start
  | stop
  | startWatching
  | stopWatching

def Act.perform (s : Session) : Act → Session
  | .turn t => { s with watcher.roster := t.take s.engine s.watcher.roster }
  | .write file => { s with file }
  | .reconcile => (takeSnapshot s).2
  | .sleep millis => (s.sleep millis).2
  | .start => (s.start).2
  | .stop => (s.stop).2
  | .startWatching => (s.startWatching).2
  | .stopWatching => (s.stopWatching).2

/-- A process that is launched makes the first repair after a period. -/
theorem start_cases (s : Session) : ∃ b p,
    (∀ time, p = .running time → time = s.now + s.period .heal) ∧
      (start s).2 = (sleep 1 { s with watcher.roster.engine := b, process := p }).2 := by
  rw [start]
  simp only [Task.bind_apply, Task.get_apply]
  cases (onConsole (Shell.launch (Balancer.processCommand s.setup)) s).1 with
  | running =>
    refine ⟨_, .running (s.now + s.period .heal), fun time htime => ?_, rfl⟩
    exact (Process.running.inj htime).symm
  | ended result =>
    refine ⟨_, .ended _, fun time htime => ?_, rfl⟩
    cases htime

theorem stop_cases (s : Session) :
    (stop s).2 = s ∨ ∃ b, (stop s).2 = { s with watcher.roster.engine := b, process := .idle } := by
  rw [stop]
  simp only [Task.bind_apply, Task.get_apply]
  cases s.process with
  | idle => exact .inl rfl
  | running time => exact .inr ⟨_, rfl⟩
  | ended result => exact .inr ⟨_, rfl⟩

/-- A change leaves a session on time if what recurs keeps its time, ceases or begins anew. -/
theorem OnTime.change (h : OnTime s) {t : Session} (hnow : t.now = s.now)
    (hperiod : ∀ r, t.period r = s.period r)
    (hnext : ∀ r, t.nextTime? r = s.nextTime? r ∨ t.nextTime? r = none ∨
      t.nextTime? r = some (s.now + s.period r)) : OnTime t := by
  refine ⟨fun r => ?_, fun r time ht => ?_⟩
  · rw [hperiod]
    exact h.period_pos r
  · rw [hnow, hperiod]
    rcases hnext r with hsame | hnone | hanew
    · exact h.next r time (hsame.symm.trans ht)
    · rw [hnone] at ht
      cases ht
    · rw [hanew] at ht
      cases ht
      exact ⟨Nat.le_add_right _ _, Nat.le_refl _⟩

theorem OnTime.withProcess (h : OnTime s) (b : Balancer Console) {p : Process}
    (hp : ∀ time, p = .running time → time = s.now + s.period .heal) :
    OnTime { s with watcher.roster.engine := b, process := p } := by
  refine h.change rfl (fun r => ?_) fun r => ?_
  · cases r <;> rfl
  cases r with
  | read => exact .inl rfl
  | heal =>
    cases p with
    | idle => exact .inr (.inl rfl)
    | running time =>
      rw [hp time rfl]
      exact .inr (.inr rfl)
    | ended result => exact .inr (.inl rfl)

theorem Act.perform_onTime (h : OnTime s) (a : Act) : OnTime (a.perform s) := by
  cases a with
  | turn t => exact ⟨h.period_pos, h.next⟩
  | write file => exact ⟨h.period_pos, h.next⟩
  | reconcile => exact ⟨h.period_pos, h.next⟩
  | sleep millis => exact h.sleep millis
  | start =>
    rw [perform]
    obtain ⟨b, p, hp, hleft⟩ := start_cases s
    rw [hleft]
    exact (h.withProcess b hp).sleep 1
  | stop =>
    rw [perform]
    obtain hleft | ⟨b, hleft⟩ := stop_cases s
    · rwa [hleft]
    · rw [hleft]
      refine h.withProcess b fun time htime => ?_
      cases htime
  | startWatching =>
    have hread : OnTime (Session.happen s.now .read s).2 := by
      refine h.change (now_happen ..) (period_happen _ _ _) fun r => ?_
      rw [nextTime?_happen]
      split
      · rename_i hr
        rw [hr]
        exact .inr (.inr rfl)
      · exact .inl rfl
    exact hread.sleep 1
  | stopWatching =>
    refine h.change rfl (fun r => ?_) fun r => ?_
    · cases r <;> rfl
    · cases r with
      | heal => exact .inl rfl
      | read => exact .inr (.inl rfl)

theorem Act.perform_consistent (h : Roster.Consistent s.engine s.watcher.roster) (a : Act) :
    Roster.Consistent (a.perform s).engine (a.perform s).watcher.roster := by
  cases a with
  | turn t => exact Roster.Turn.take_consistent h t
  | write file => exact h
  | reconcile => exact Watcher.pass_consistent s.engine s.watch s.path h s.file
  | sleep millis => exact sleep_consistent millis h
  | start =>
    rw [perform]
    obtain ⟨b, p, -, hleft⟩ := start_cases s
    rw [hleft]
    exact sleep_consistent 1 (h.withEngine b)
  | stop =>
    rw [perform]
    obtain hleft | ⟨b, hleft⟩ := stop_cases s
    · rwa [hleft]
    · rw [hleft]
      exact h.withEngine b
  | startWatching => exact sleep_consistent 1 (happen_consistent s.now .read s h)
  | stopWatching => exact h

def afterActs (s : Session) (acts : List Act) : Session := acts.foldl Act.perform s

theorem afterActs_onTime (h : OnTime s) (acts : List Act) : OnTime (afterActs s acts) := by
  induction acts generalizing s with
  | nil => exact h
  | cons a rest ih => exact ih (a.perform_onTime h)

theorem afterActs_consistent (h : Roster.Consistent s.engine s.watcher.roster)
    (acts : List Act) :
    Roster.Consistent (afterActs s acts).engine (afterActs s acts).watcher.roster := by
  induction acts generalizing s with
  | nil => exact h
  | cons a rest ih => exact ih (a.perform_consistent h)

/-- A session at which nothing has been done yet. -/
def fresh (setup : Setup) (watch : WatchSettings) (path : String) (console : Console) :
    Session where
  setup := setup
  watch := watch
  path := path
  watcher := { roster := { engine := { host := console } } }

theorem fresh_onTime (setup : Setup) (watch : WatchSettings) (path : String) (console : Console)
    (hsettings : setup.settings.validate = .ok ()) (hwatch : 0 < watch.period) :
    OnTime (fresh setup watch path console) := by
  have hheal : 0 < setup.settings.healPeriod := by
    refine Nat.pos_of_ne_zero fun hzero => ?_
    rw [Settings.validate] at hsettings
    repeat' split at hsettings
    all_goals cases hsettings
  refine ⟨fun r => ?_, fun r time ht => ?_⟩
  · cases r with
    | heal => exact hheal
    | read => exact hwatch
  · cases r <;> cases ht

/-- Settings that are read have been checked. -/
theorem read_checked {lookup : String → Option String} {g : GatewaySettings}
    (h : Environment.read lookup = .ok g) : g.balancer.validate = .ok () ∧ 0 < g.watch.period := by
  rw [Environment.read] at h
  obtain ⟨queueLength, -, h⟩ := bind_eq_ok h
  obtain ⟨fanout, -, h⟩ := bind_eq_ok h
  obtain ⟨firstMark, -, h⟩ := bind_eq_ok h
  obtain ⟨defaultSlots, -, h⟩ := bind_eq_ok h
  obtain ⟨healPeriod, -, h⟩ := bind_eq_ok h
  obtain ⟨commandTimeout, -, h⟩ := bind_eq_ok h
  obtain ⟨period, -, h⟩ := bind_eq_ok h
  dsimp only at h
  split at h
  · cases h
  split at h
  · cases h
  split at h
  · cases h
  rename_i hperiod _ hvalid
  cases h
  exact ⟨hvalid, Nat.pos_of_ne_zero hperiod⟩

/-- Whatever is done with a gateway that goes by its environment, the repairs and the readings keep
to their periods, and what is on record fits together. -/
theorem gateway_onTime {lookup : String → Option String} {g : GatewaySettings}
    (h : Environment.read lookup = .ok g) (queue : QueueRange) (path : String) (console : Console)
    (acts : List Act) :
    let s := afterActs (fresh ⟨g.balancer, queue⟩ g.watch path console) acts
    OnTime s ∧ Roster.Consistent s.engine s.watcher.roster := by
  obtain ⟨hvalid, hperiod⟩ := read_checked h
  have hstart : OnTime (fresh ⟨g.balancer, queue⟩ g.watch path console) :=
    fresh_onTime ⟨g.balancer, queue⟩ g.watch path console hvalid hperiod
  exact ⟨afterActs_onTime hstart acts, afterActs_consistent (.empty _ _) acts⟩

end VipSteering.Session
