import VipSteering.Proofs.Classifier.Commands
import VipSteering.Proofs.Host.Flaky

namespace VipSteering

open Host

namespace Classifier

variable {tables tables' : FilterTables} {family : Family} {change : Change}
  {intervals wanted : List Interval} {output : String}

/-- A change that is made alters one set. -/
theorem execute_change
    (hexecute : Nft.execute (changeCommand family change intervals).args
      (changeCommand family change intervals).input tables = .ok (output, tables')) :
    ∃ set set', setOf tables family = some set ∧
      change.made? (intervals.map Interval.text) set = some set' ∧
      setOf tables' family = some set' ∧
        ∀ other, other ≠ family → setOf tables' other = setOf tables other := by
  rw [execute_changeCommand_eq, effect?_changeStatement] at hexecute
  split at hexecute
  · cases hexecute
  · rename_i heffect
    cases hexecute
    exact updateSet?_eq_some heffect

/-- A change that can be made is made. -/
theorem execute_change_some {set set' : Std.ExtTreeSet String}
    (hset : setOf tables family = some set)
    (happly : change.made? (intervals.map Interval.text) set = some set') :
    ∃ tables', Nft.execute (changeCommand family change intervals).args
      (changeCommand family change intervals).input tables = .ok ("", tables') := by
  obtain ⟨tables', heffect, -⟩ := updateSet?_some hset _ happly
  exact ⟨tables', execute_changeCommand family change (by rwa [effect?_changeStatement])⟩

/-- A command about the set of a family. -/
def ConcernsSet (family : Family) (c : Command) : Prop :=
  c = listCommand family ∨ ∃ change intervals, c = changeCommand family change intervals

variable {fates : Fates} {α β : Type}

/-- The fault is about the set of a family. -/
def Fault.family? : Fault → Option Family
  | .list family _ | .parse family _ | .update family _ => some family
  | .configure _ | .delete _ => none

/-- How a task about the set of a family went: the commands that it ran are of `Q`. It has reached
its goal, or one of its commands was made to fail and the fault names the family. -/
structure SetTaskOutcome (family : Family) (Q : Command → Prop) (goal : α → FilterTables → Prop)
    (issued : List Command) (s : Flaky fates) (outcome : Except Fault α × Flaky fates) : Prop where
  state : outcome.2 = afterCommands issued s
  commands : ∀ c ∈ issued, Q c
  reached : ∀ a, outcome.1 = .ok a → goal a outcome.2.host.tables
  blamed : ∀ fault, outcome.1 = .error fault → fault.family? = some family ∧
    ¬ Flaky.Unhindered (ConcernsSet family) issued s

/-- From tables with the property the task goes well unless it is hindered. -/
def Achieves (fates : Fates) (family : Family) (Q : Command → Prop) (start : FilterTables → Prop)
    (task : StateM (Flaky fates) (Except Fault α)) (goal : α → FilterTables → Prop) : Prop :=
  ∀ s : Flaky fates, start s.host.tables → ∃ issued, SetTaskOutcome family Q goal issued s (task s)

namespace Achieves

variable {Q Q' : Command → Prop} {start : FilterTables → Prop}
  {task : StateM (Flaky fates) (Except Fault α)} {goal goal' : α → FilterTables → Prop}

theorem mono (h : Achieves fates family Q start task goal) (hq : ∀ c, Q c → Q' c)
    (hgoal : ∀ a tables, goal a tables → goal' a tables) :
    Achieves fates family Q' start task goal' := by
  intro s hs
  obtain ⟨issued, houtcome⟩ := h s hs
  exact ⟨issued, houtcome.state, fun c hc => hq c (houtcome.commands c hc),
    fun a ha => hgoal a _ (houtcome.reached a ha), houtcome.blamed⟩

/-- A task that passes a fault on goes on from where another has reached its goal. -/
theorem bind (hfirst : Achieves fates family Q start task goal)
    {next : Except Fault α → StateM (Flaky fates) (Except Fault β)} {last : β → FilterTables → Prop}
    (hpass : ∀ fault, next (.error fault) = pure (.error fault))
    (hnext : ∀ a, Achieves fates family Q (goal a) (next (.ok a)) last) :
    Achieves fates family Q start (task >>= next) last := by
  intro s hs
  obtain ⟨front, hfront⟩ := hfirst s hs
  rw [Task.bind_apply]
  cases hresult : (task s).1 with
  | error fault =>
    rw [hpass]
    refine ⟨front, hfront.state, hfront.commands, fun a hok => ?_, fun other heq => ?_⟩
    · cases hok
    · obtain rfl := Except.error.inj heq
      exact hfront.blamed fault hresult
  | ok a =>
    obtain ⟨rest, hrest⟩ := hnext a (task s).2 (hfront.reached a hresult)
    refine ⟨front ++ rest, ?_, fun c hc => ?_, hrest.reached, fun fault hfault => ?_⟩
    · rw [afterCommands_append, ← hfront.state]
      exact hrest.state
    · exact (List.mem_append.mp hc).elim (hfront.commands c) (hrest.commands c)
    · obtain ⟨hnamed, hhindered⟩ := hrest.blamed fault hfault
      rw [Flaky.unhindered_append, ← hfront.state]
      exact ⟨hnamed, fun hboth => hhindered hboth.2⟩

end Achieves

variable {set set' : Std.ExtTreeSet String}

/-- What the set holds is read from its listing. -/
theorem elements_achieves {present : List Interval} (hplain : ∀ i ∈ present, i.IsPlain)
    (htexts : present.map Interval.text = set.toList) :
    Achieves fates family (· = listCommand family) (setOf · family = some set)
      (elements family) fun found tables => found = present ∧ setOf tables family = some set := by
  intro s hset
  have hlisting := execute_list hset
  have hread : readListing (Nft.listing tableName (setName family) set.toList) = .ok present := by
    rw [← htexts]
    exact readListing_listing _ _ hplain
  refine ⟨[listCommand family], ?_⟩
  rw [elements]
  simp only [Task.bind_apply]
  cases hout : (Shell.run (listCommand family) s).1 with
  | error cause =>
    refine ⟨rfl, by simp, fun a hok => ?_, fun fault hfault => ?_⟩
    · cases hok
    · obtain rfl := Except.error.inj hfault
      exact ⟨rfl, Flaky.not_unhindered_of_error rfl (.inl rfl) hlisting hout⟩
  | ok output =>
    have hanswer := Flaky.run_nft_ok rfl hout
    rw [hlisting] at hanswer
    obtain ⟨rfl, hkept⟩ := Prod.ext_iff.mp (Except.ok.inj hanswer)
    simp only [hread]
    refine ⟨rfl, by simp, fun a hok => ?_, fun fault hfault => ?_⟩
    · obtain rfl := Except.ok.inj hok
      exact ⟨rfl, by rw [← hset]; exact congrArg (setOf · family) hkept.symm⟩
    · cases hfault

/-- A change that can be made is made. Where there is nothing to change no command is run. -/
theorem alter_achieves (change : Change)
    (happly : change.made? (intervals.map Interval.text) set = some set') :
    Achieves fates family
      (fun c => intervals ≠ [] ∧ c = changeCommand family change intervals)
      (setOf · family = some set) (alter family change intervals)
      fun _ tables => setOf tables family = some set' := by
  intro s hset
  rw [alter]
  by_cases hne : intervals = []
  · subst hne
    have hsame : set = set' := by
      cases change with
      | delete => exact Option.some.inj happly
      | add => exact Option.some.inj happly
    exact ⟨[], rfl, by simp, fun _ _ => hsame ▸ hset, fun fault hfault => by cases hfault⟩
  · refine ⟨[changeCommand family change intervals], ?_⟩
    rw [if_neg (by simpa using hne)]
    simp only [Task.bind_apply]
    cases hout : (Shell.run (changeCommand family change intervals) s).1 with
    | error cause =>
      refine ⟨rfl, by simpa using hne, fun a hok => ?_, fun fault hfault => ?_⟩
      · cases hok
      · obtain rfl := Except.error.inj hfault
        obtain ⟨tables, hexecute⟩ := execute_change_some hset happly
        exact ⟨rfl, Flaky.not_unhindered_of_error rfl (.inr ⟨change, intervals, rfl⟩) hexecute hout⟩
    | ok output =>
      refine ⟨rfl, by simpa using hne, fun _ _ => ?_, fun fault hfault => ?_⟩
      · obtain ⟨before, after, hbefore, hmade, hafter, -⟩ :=
          execute_change (Flaky.run_nft_ok rfl hout)
        obtain rfl : set = before := Option.some.inj (hset.symm.trans hbefore)
        obtain rfl : set' = after := Option.some.inj (happly.symm.trans hmade)
        exact hafter
      · cases hfault

/-- A command that takes nothing that is wanted out of the set of the family, and puts nothing else
into it. -/
inductive Trims (wanted : List Interval) (family : Family) (c : Command) : Prop where
  | list (heq : c = listCommand family)
  | change (change : Change) (intervals : List Interval) (hne : intervals ≠ [])
    (hwanted : ∀ i ∈ intervals, i.text ∈ wanted.map Interval.text ↔ change = .add)
    (heq : c = changeCommand family change intervals)

/-- A command of the update: it is run as a script only if the set is not as it is wanted. -/
def Updates (wanted : List Interval) (family : Family) (set : Std.ExtTreeSet String)
    (c : Command) : Prop :=
  Trims wanted family c ∧
    (c ≠ listCommand family → ¬ ∀ e, e ∈ set ↔ e ∈ wanted.map Interval.text)

section Update

variable (hplain : ∀ e ∈ set, ∃ i : Interval, i.IsPlain ∧ i.text = e)
  (hwanted : ∀ i ∈ wanted, i.IsPlain)

include hplain hwanted

/-- Only a set that is not as it is wanted is changed, and it is as it is wanted then. -/
theorem updateSet_achieves :
    Achieves fates family (Updates wanted family set) (setOf · family = some set)
      (updateSet wanted family) fun _ tables => ∃ set', setOf tables family = some set' ∧
        ∀ e, e ∈ set' ↔ e ∈ wanted.map Interval.text := by
  obtain ⟨present, hpresent, htexts, hmem⟩ := exists_present hplain
  have hstale : ∀ e ∈ (missing present wanted).map Interval.text, e ∈ set := by
    intro e he
    obtain ⟨i, hi, rfl⟩ := List.mem_map.mp he
    exact (hmem _).mpr (List.mem_map_of_mem (mem_missing.mp hi).1)
  obtain ⟨kept, hdelete, hkept⟩ := deleteAll?_some (missing_nodup hpresent wanted) hstale
  have hlisted : Achieves fates family (Updates wanted family set) (setOf · family = some set)
      (elements family) fun found tables => found = present ∧ setOf tables family = some set :=
    (elements_achieves hpresent htexts).mono
      (fun c hc => ⟨.list hc, fun hne => absurd hc hne⟩) fun _ _ hfound => hfound
  have hdeleted : Achieves fates family (Updates wanted family set) (setOf · family = some set)
      (alter family .delete (missing present wanted))
      fun _ tables => setOf tables family = some kept := by
    refine (alter_achieves .delete hdelete).mono (fun c hc => ?_) fun _ _ hset => hset
    obtain ⟨hne, rfl⟩ := hc
    refine ⟨.change .delete _ hne (fun i hi => ?_) rfl, fun _ hsame => hne ?_⟩
    · obtain ⟨hin, hout⟩ := mem_missing.mp hi
      simp [text_mem_iff (hpresent i hin) hwanted, hout]
    · exact missing_of_texts hwanted hpresent fun e he => (hsame e).mp ((hmem e).mpr he)
  have hadded : Achieves fates family (Updates wanted family set) (setOf · family = some kept)
      (alter family .add (missing wanted present)) fun _ tables =>
        ∃ set', setOf tables family = some set' ∧
          ∀ e, e ∈ set' ↔ e ∈ wanted.map Interval.text := by
    refine (alter_achieves .add rfl).mono (fun c hc => ?_) fun _ _ hset => ⟨_, hset, fun e => ?_⟩
    · obtain ⟨hne, rfl⟩ := hc
      refine ⟨.change .add _ hne (fun i hi => ?_) rfl, fun _ hsame => hne ?_⟩
      · exact iff_of_true (List.mem_map_of_mem (mem_missing.mp hi).1) rfl
      · exact missing_of_texts hpresent hwanted fun e he => (hmem e).mp ((hsame e).mpr he)
    · rw [Std.ExtTreeSet.mem_insertMany_list, List.contains_iff_mem, hkept, hmem]
      exact mem_updated hpresent hwanted e
  rw [updateSet]
  refine hlisted.bind (fun _ => rfl) fun found s hs => ?_
  obtain ⟨rfl, hset⟩ := hs
  refine hdeleted.bind ?_ ?_ s hset
  · exact fun _ => rfl
  · exact fun _ => hadded

end Update

/-- What the set of the family held and is wanted it still holds, and beside what it held only what
is wanted. -/
def Between (before tables : FilterTables) (family : Family) (wanted : String → Prop) : Prop :=
  ∃ set set', setOf before family = some set ∧ setOf tables family = some set' ∧
    (∀ e ∈ set, wanted e → e ∈ set') ∧ ∀ e ∈ set', e ∈ set ∨ wanted e

namespace Between

variable {before later : FilterTables} {wanted wanted' : String → Prop}

theorem refl (hset : setOf tables family = some set) : Between tables tables family wanted :=
  ⟨set, set, hset, hset, fun _ he _ => he, fun _ he => .inl he⟩

theorem trans (h : Between before tables family wanted)
    (k : Between tables later family wanted) : Between before later family wanted := by
  obtain ⟨set, set', hset, hset', hkept, hnew⟩ := h
  obtain ⟨middle, set'', hmiddle, hset'', hkept', hnew'⟩ := k
  obtain rfl : set' = middle := Option.some.inj (hset'.symm.trans hmiddle)
  exact ⟨set, set'', hset, hset'', fun e he hw => hkept' e (hkept e he hw) hw,
    fun e he => (hnew' e he).elim (hnew e) .inr⟩

theorem congr (h : Between before tables family wanted)
    (hsame : setOf later family = setOf tables family) : Between before later family wanted := by
  obtain ⟨set, set', hset, hset', hmem⟩ := h
  exact ⟨set, set', hset, hsame.trans hset', hmem⟩

end Between

theorem tables_of_list (hexecute : Nft.execute (listCommand family).args (listCommand family).input
    tables = .ok (output, tables')) : tables' = tables := by
  simp only [listCommand, Nft.execute] at hexecute
  split at hexecute
  · cases hexecute
  · cases hexecute
    rfl

/-- Whatever becomes of a command of the update, it alters the set of the family only, and only so
far. -/
theorem Trims.run {c : Command} (hc : Trims wanted family c) (s : Flaky fates) (other : Family) :
    setOf (Shell.run c s).2.host.tables other = setOf s.host.tables other ∨
      other = family ∧ Between s.host.tables (Shell.run c s).2.host.tables family
        (· ∈ wanted.map Interval.text) := by
  rcases Flaky.run_tables c s with hsame | ⟨output, -, hexecute⟩
  · rw [hsame]
    exact .inl rfl
  cases hc with
  | list heq =>
    rw [heq] at hexecute ⊢
    rw [tables_of_list hexecute]
    exact .inl rfl
  | change change intervals hne hwanted heq =>
    rw [heq] at hexecute ⊢
    obtain ⟨set, set', hset, happly, hset', hother⟩ := execute_change hexecute
    by_cases hfamily : other = family
    · have hmem := Change.mem_made? happly
      refine .inr ⟨hfamily, set, set', hset, hset', fun e he hw => (hmem e).mpr (.inl ⟨he, ?_⟩),
        fun e he => ?_⟩
      · intro hdelete hgone
        obtain ⟨i, hi, rfl⟩ := List.mem_map.mp hgone
        rw [(hwanted i hi).mp hw] at hdelete
        cases hdelete
      · rcases (hmem e).mp he with ⟨hbefore, -⟩ | ⟨hadd, hnew⟩
        · exact .inl hbefore
        · obtain ⟨i, hi, rfl⟩ := List.mem_map.mp hnew
          exact .inr ((hwanted i hi).mpr hadd)
    · exact .inl (hother other hfamily)

/-- Commands for one family leave the set of another alone. -/
theorem setOf_afterCommands {issued : List Command} (h : ∀ c ∈ issued, Trims wanted family c)
    (s : Flaky fates) {other : Family} (hne : other ≠ family) :
    setOf (afterCommands issued s).host.tables other = setOf s.host.tables other :=
  (reaches_afterCommands h s).keeps
    (P := fun s' => setOf s'.host.tables other = setOf s.host.tables other)
    (fun _ s' hc hkept => ((hc.run s' other).resolve_right fun hboth => hne hboth.1).trans hkept) rfl

/-- Each set holds what stands for intervals. -/
def Rendered (tables : FilterTables) : Prop :=
  ∀ family, ∃ set, setOf tables family = some set ∧
    ∀ e ∈ set, ∃ i : Interval, i.IsPlain ∧ i.text = e

section Destinations

variable (cidrs : List String)

/-- An element that the set of the family is to hold. -/
def WantedElement (family : Family) (e : String) : Prop :=
  ∃ a, Named cidrs a ∧ a.family = family ∧ a.text = e

/-- The update of one set. -/
def update (family : Family) : StateM (Flaky fates) (Except Fault Unit) :=
  updateSet ((HostDestinations.ofCidrs cidrs).intervals family) family

/-- Each family is updated whatever comes of the other. -/
theorem setDestinations_cases (s : Flaky fates) :
    (setDestinations cidrs s).2 = (update cidrs .ipv6 (update cidrs .ipv4 s).2).2 ∧
      ∀ fault, fault ∈ Report.leaves (setDestinations cidrs s).1 ↔
        (update cidrs .ipv4 s).1 = .error fault ∨
          (update cidrs .ipv6 (update cidrs .ipv4 s).2).1 = .error fault := by
  rw [setDestinations]
  simp only [Task.bind_apply, Task.pure_apply, Report.leaves_ofFaults, mem_attemptAll_cons]
  refine ⟨?_, fun fault => ?_⟩
  · simp only [attemptAll_cons, attemptAll_nil]
    rfl
  · simp only [attemptAll_nil, List.not_mem_nil, or_false]
    rfl

/-- How the update of one set goes. -/
theorem update_achieves (family : Family)
    (hplain : ∀ e ∈ set, ∃ i : Interval, i.IsPlain ∧ i.text = e) :
    Achieves fates family (Updates ((HostDestinations.ofCidrs cidrs).intervals family) family set)
      (setOf · family = some set) (update cidrs family)
      fun _ tables => HoldsShare tables family (Named cidrs) := by
  refine (updateSet_achieves hplain fun i => HostDestinations.isPlain_of_mem_intervals).mono
    (fun _ hc => hc) fun _ tables hheld => ?_
  obtain ⟨set', hset', hmem⟩ := hheld
  exact ⟨set', hset', fun e => (hmem e).trans HostDestinations.mem_texts⟩

variable {cidrs}

theorem Updates.script {c : Command}
    (hc : Updates ((HostDestinations.ofCidrs cidrs).intervals family) family set c)
    (hset : setOf tables family = some set) (hscript : c.args = ["-f", "-"]) :
    ∃ change intervals, c = changeCommand family change intervals ∧
      ¬ HoldsShare tables family (Named cidrs) := by
  obtain ⟨htrims, hdiffers⟩ := hc
  cases htrims with
  | list heq =>
    rw [heq] at hscript
    exact absurd hscript (by simp [listCommand])
  | change change intervals hne hwanted heq =>
    refine ⟨change, intervals, heq, fun hshare => hdiffers ?_ fun e => ?_⟩
    · intro hlist
      rw [hlist] at hscript
      exact absurd hscript (by simp [listCommand])
    · obtain ⟨held, hheld, hmem⟩ := hshare
      obtain rfl : set = held := Option.some.inj (hset.symm.trans hheld)
      exact (hmem e).trans HostDestinations.mem_texts.symm

/-- What each command keeps between. -/
theorem between_afterCommands {issued : List Command} {s : Flaky fates}
    (hsets : Rendered s.host.tables) (hall : ∀ c ∈ issued, ∃ family,
      Trims ((HostDestinations.ofCidrs cidrs).intervals family) family c) (family : Family) :
    Between s.host.tables (afterCommands issued s).host.tables family
      (WantedElement cidrs family) := by
  refine (reaches_afterCommands hall s).keeps
    (P := fun s' => Between s.host.tables s'.host.tables family (WantedElement cidrs family))
    (fun c s' hc hbetween => ?_) ?_
  · obtain ⟨concerned, htrims⟩ := hc
    rcases htrims.run s' family with hsame | ⟨rfl, hstep⟩
    · exact hbetween.congr hsame
    · refine hbetween.trans ?_
      rwa [show WantedElement cidrs family = _ from
        funext fun e => propext HostDestinations.mem_texts.symm]
  · obtain ⟨set, hset, -⟩ := hsets family
    exact .refl hset

end Destinations

/-- The one set holds a range and the last address of its family, the other a single address. -/
def stocked : Host where
  tables := (∅ : FilterTables).insert tableName {
    sets := ((∅ : Std.ExtTreeMap String (Std.ExtTreeSet String)).insert "ipv4-vips"
        (((∅ : Std.ExtTreeSet String).insert "10.0.0.8-10.0.0.15").insert "255.255.255.255")).insert
      "ipv6-vips" ((∅ : Std.ExtTreeSet String).insert "2001:db8::1") }

theorem stocked_rendered : Rendered stocked.tables := by
  have htable : stocked.tables[tableName]? = _ := Std.ExtTreeMap.getElem?_insert_self
  intro family
  cases family with
  | ipv4 =>
    refine ⟨((∅ : Std.ExtTreeSet String).insert "10.0.0.8-10.0.0.15").insert "255.255.255.255", ?_,
      fun e he => ?_⟩
    · rw [setOf, setAt?, htable]
      exact (getElem?_insert_of_ne (by decide) _).trans Std.ExtTreeMap.getElem?_insert_self
    · rw [mem_insertItem, mem_insertItem] at he
      rcases he with (he | rfl) | rfl
      · simp at he
      · exact ⟨⟨.v4 0x0A000008#32, .v4 0x0A000010#32⟩, rfl, by decide⟩
      · exact ⟨.single (.v4 0xFFFFFFFF#32), rfl, by decide⟩
  | ipv6 =>
    refine ⟨(∅ : Std.ExtTreeSet String).insert "2001:db8::1", ?_, fun e he => ?_⟩
    · rw [setOf, setAt?, htable]
      exact Std.ExtTreeMap.getElem?_insert_self
    · rw [mem_insertItem] at he
      rcases he with he | rfl
      · simp at he
      · exact ⟨.single (.v6 0x20010db8000000000000000000000001#128), rfl, by decide⟩

/-- The set of the one family cannot be listed. -/
def deaf : Fates := fun _ c =>
  if c = listCommand .ipv6 then .refused (.timeout c.line 30000) else .done

end Classifier
end VipSteering
