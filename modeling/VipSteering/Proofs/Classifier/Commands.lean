import VipSteering.Proofs.Classifier.Configure

namespace VipSteering.Classifier

open Host

/-- A command about the table. Only addresses of its family are added to a set. -/
inductive Filters (c : Command) : Prop where
  | configure (queue : QueueRange) (fanout : Bool) (heq : c = configureCommand queue fanout)
  | list (family : Family) (heq : c = listCommand family)
  | change (family : Family) (change : Change) (intervals : List Interval) (hne : intervals ≠ [])
    (hadded : change = .add → ∀ i ∈ intervals, ∃ a : Address, a.family = family ∧ i = .single a)
    (heq : c = changeCommand family change intervals)
  | delete (heq : c = deleteCommand)

theorem Filters.program {c : Command} (h : Filters c) : c.program = "nft" := by
  cases h with
  | configure queue fanout heq => rw [heq]; rfl
  | list family heq => rw [heq]; rfl
  | change family change intervals hne hadded heq => rw [heq]; rfl
  | delete heq => rw [heq]; rfl

section Only

variable {σ : Type} [Shell σ]

theorem configure_filters (queue : QueueRange) (fanout : Bool) :
    Only Filters (configure (σ := σ) queue fanout) := by
  rw [configure]
  refine .bind (.run (.configure queue fanout rfl)) fun outcome => ?_
  cases outcome with
  | error _ => exact .pure _
  | ok _ => exact .pure _

theorem delete_filters : Only Filters (delete (σ := σ)) := by
  rw [delete]
  exact .bind (.run (.delete rfl)) fun _ => .pure _

theorem alter_filters {family : Family} {change : Change} {intervals : List Interval}
    (hadded : change = .add → ∀ i ∈ intervals, ∃ a : Address, a.family = family ∧ i = .single a) :
    Only Filters (alter (σ := σ) family change intervals) := by
  rw [alter]
  split
  · exact .pure _
  rename_i hne
  refine .bind (.run (.change family change intervals (by simpa using hne) hadded rfl))
    fun outcome => ?_
  cases outcome with
  | error _ => exact .pure _
  | ok _ => exact .pure _

theorem updateSet_filters {family : Family} {wanted : List Interval}
    (hwanted : ∀ i ∈ wanted, ∃ a : Address, a.family = family ∧ i = .single a) :
    Only Filters (updateSet (σ := σ) wanted family) := by
  have helements : Only Filters (elements (σ := σ) family) := by
    rw [elements]
    refine .bind (.run (.list family rfl)) fun outcome => ?_
    cases outcome with
    | error _ => exact .pure _
    | ok _ => exact .pure _
  rw [updateSet]
  refine .bind helements fun present => ?_
  cases present with
  | error _ => exact .pure _
  | ok present =>
    have hdeleted : Only Filters (alter (σ := σ) family .delete (missing present wanted)) :=
      alter_filters fun hadd => absurd hadd (by decide)
    refine .bind hdeleted fun deleted => ?_
    cases deleted with
    | error _ => exact .pure _
    | ok _ => exact alter_filters fun _ i hi => hwanted i (mem_missing.mp hi).1

theorem setDestinations_filters (cidrs : List String) :
    Only Filters (setDestinations (σ := σ) cidrs) := by
  rw [setDestinations]
  refine .bind (.attemptAll fun family _ => updateSet_filters fun i hi => ?_) fun _ => .pure _
  obtain ⟨-, -, a, -, hfamily, rfl⟩ := HostDestinations.mem_intervals.mp hi
  exact ⟨a, hfamily, rfl⟩

end Only

/-- The sets that are there hold addresses of their family. -/
def Addressed (tables : FilterTables) : Prop :=
  ∀ (family : Family) (set : Std.ExtTreeSet String), setOf tables family = some set →
    ∀ e ∈ set, ∃ a : Address, a.family = family ∧ a.text = e

section Addressed

variable {tables tables' : FilterTables} {family : Family} {output : String}

theorem Addressed.empty : Addressed ∅ := by
  intro family set hset
  simp [setOf, setAt?] at hset

theorem Addressed.share (h : Addressed tables) {set : Std.ExtTreeSet String}
    (hset : setOf tables family = some set) : HoldsShare tables family (·.text ∈ set) := by
  refine ⟨set, hset, fun e => ?_⟩
  constructor
  · intro he
    obtain ⟨a, hfamily, rfl⟩ := h family set hset e he
    exact ⟨a, he, hfamily, rfl⟩
  · intro hgiven
    obtain ⟨a, ha, -, rfl⟩ := hgiven
    exact ha

theorem setOf_erase_some {table : String} {set : Std.ExtTreeSet String}
    (h : setOf (tables.erase table) family = some set) : setOf tables family = some set := by
  obtain ⟨t, ht, hset⟩ := Option.bind_eq_some_iff.mp h
  exact Option.bind_eq_some_iff.mpr ⟨t, (of_getElem?_erase ht).2, hset⟩

/-- What is no script adds nothing to a set. -/
theorem Addressed.execute {args : List String} {input : Option String} (hargs : args ≠ ["-f", "-"])
    (hexecute : Nft.execute args input tables = .ok (output, tables')) (h : Addressed tables) :
    Addressed tables' := by
  unfold Nft.execute at hexecute
  split at hexecute
  · exact absurd rfl hargs
  · split at hexecute
    · cases hexecute
    · cases hexecute
      exact h
  · split at hexecute
    · cases hexecute
      exact fun family set hset => h family set (setOf_erase_some hset)
    · cases hexecute
  · cases hexecute

theorem updateSet?_eq_some {change : Std.ExtTreeSet String → Option (Std.ExtTreeSet String)}
    (h : Nft.updateSet? tableName (setName family) change tables = some tables') :
    ∃ set set', setOf tables family = some set ∧ change set = some set' ∧
      setOf tables' family = some set' ∧
        ∀ other, other ≠ family → setOf tables' other = setOf tables other := by
  cases hset : setOf tables family with
  | none =>
    rw [setOf, setAt?] at hset
    cases htable : tables[tableName]? with
    | none => simp [Nft.updateSet?, Nft.updateTable?, Nft.update?, htable] at h
    | some table =>
      rw [htable, Option.bind_some] at hset
      simp [Nft.updateSet?, Nft.updateTable?, Nft.update?, htable, hset] at h
  | some set =>
    cases hchange : change set with
    | none =>
      obtain ⟨table, htable, hfound⟩ := Option.bind_eq_some_iff.mp hset
      simp [Nft.updateSet?, Nft.updateTable?, Nft.update?, htable, hfound, hchange] at h
    | some set' =>
      obtain ⟨tables'', heffect, hset', hother⟩ := updateSet?_some hset change hchange
      obtain rfl := Option.some.inj (heffect.symm.trans h)
      exact ⟨set, set', rfl, hchange, hset', hother⟩

/-- What a change makes of a set. -/
def Change.made? : Change → List String → Std.ExtTreeSet String → Option (Std.ExtTreeSet String)
  | delete, elements => Nft.deleteAll? elements
  | add, elements => fun set => some (set.insertMany elements)

theorem effect?_changeStatement (family : Family) (change : Change) (intervals : List Interval) :
    Nft.effect? (changeStatement family change intervals) =
      Nft.updateSet? tableName (setName family) (change.made? (intervals.map Interval.text)) := by
  cases change <;> rfl

theorem Change.mem_made? {change : Change} {elements : List String}
    {set set' : Std.ExtTreeSet String} (h : change.made? elements set = some set') (e : String) :
    e ∈ set' ↔ e ∈ set ∧ (change = .delete → e ∉ elements) ∨ change = .add ∧ e ∈ elements := by
  cases change with
  | delete => simpa using mem_deleteAll? h e
  | add =>
    obtain rfl := Option.some.inj h
    rw [Std.ExtTreeSet.mem_insertMany_list, List.contains_iff_mem]
    simp

/-- A change leaves of a set what it is to hold, and adds addresses of the family. -/
theorem Addressed.change {change : Change} {intervals : List Interval}
    (hadded : change = .add → ∀ i ∈ intervals, ∃ a : Address, a.family = family ∧ i = .single a)
    (heffect : Nft.effect? (changeStatement family change intervals) tables = some tables')
    (h : Addressed tables) : Addressed tables' := by
  rw [effect?_changeStatement] at heffect
  obtain ⟨set, set', hset, happly, hset', hother⟩ := updateSet?_eq_some heffect
  intro other present hpresent e he
  by_cases hfamily : other = family
  · subst hfamily
    obtain rfl : set' = present := Option.some.inj (hset'.symm.trans hpresent)
    rcases (Change.mem_made? happly e).mp he with ⟨hbefore, -⟩ | ⟨hadd, hnew⟩
    · exact h other set hset e hbefore
    · obtain ⟨i, hi, rfl⟩ := List.mem_map.mp hnew
      obtain ⟨a, ha, rfl⟩ := hadded hadd i hi
      exact ⟨a, ha, (Interval.text_single a).symm⟩
  · rw [hother other hfamily] at hpresent
    exact h other present hpresent e he

/-- The sets are there when the table has been configured. -/
theorem setOf_configure {queue : QueueRange} {fanout : Bool}
    (hexecute : Nft.execute (configureCommand queue fanout).args
      (configureCommand queue fanout).input tables = .ok (output, tables')) (family : Family) :
    setOf tables' family = some ((setOf tables family).getD ∅) := by
  rw [execute_configureCommand] at hexecute
  cases hexecute
  exact setOf_renewed queue fanout tables family

theorem Addressed.configure {queue : QueueRange} {fanout : Bool}
    (hexecute : Nft.execute (configureCommand queue fanout).args
      (configureCommand queue fanout).input tables = .ok (output, tables')) (h : Addressed tables) :
    Addressed tables' := by
  intro family set hset e he
  rw [setOf_configure hexecute] at hset
  obtain rfl := Option.some.inj hset
  cases hbefore : setOf tables family with
  | none =>
    rw [hbefore] at he
    simp at he
  | some before =>
    rw [hbefore] at he
    exact h family before hbefore e he

/-- What is kept by the configuration, by changes of sets and by whatever is no script is kept by
each of the commands. -/
theorem Filters.keeps {P : FilterTables → Prop}
    (hconfigure : ∀ {queue fanout output tables tables'},
      Nft.execute (configureCommand queue fanout).args (configureCommand queue fanout).input tables =
        .ok (output, tables') → P tables → P tables')
    (hother : ∀ {args input output tables tables'}, args ≠ ["-f", "-"] →
      Nft.execute args input tables = .ok (output, tables') → P tables → P tables')
    (hchange : ∀ {family change intervals tables tables'}, (change = .add → ∀ i ∈ intervals,
        ∃ a : Address, a.family = family ∧ i = .single a) →
      Nft.effect? (changeStatement family change intervals) tables = some tables' →
      P tables → P tables')
    {c : Command} (hc : Filters c)
    (hexecute : Nft.execute c.args c.input tables = .ok (output, tables')) (h : P tables) :
    P tables' := by
  cases hc with
  | configure queue fanout heq =>
    rw [heq] at hexecute
    exact hconfigure hexecute h
  | list family heq =>
    rw [heq] at hexecute
    exact hother (by simp [listCommand]) hexecute h
  | change family change intervals hne hadded heq =>
    rw [heq, execute_changeCommand_eq] at hexecute
    split at hexecute
    · cases hexecute
    · rename_i heffect
      cases hexecute
      exact hchange hadded heffect h
  | delete heq =>
    rw [heq] at hexecute
    exact hother (by decide) hexecute h

theorem Addressed.filters {c : Command} (hc : Filters c)
    (hexecute : Nft.execute c.args c.input tables = .ok (output, tables')) (h : Addressed tables) :
    Addressed tables' :=
  hc.keeps (fun he ha => ha.configure he) (fun hargs he ha => ha.execute hargs he)
    (fun hadded heffect ha => ha.change hadded heffect) hexecute h

/-- If the destinations are set without a fault, both sets have been there. -/
theorem Addressed.ownFamily {h : Host} (ha : Addressed h.tables) {cidrs : List String}
    (hok : (setDestinations cidrs h).1 = .ok ()) : HoldsOwnFamily h.tables := by
  rw [setDestinations] at hok
  simp only [Task.bind_apply, Task.pure_apply, Report.ofFaults_eq_ok] at hok
  obtain ⟨hok4, hrest⟩ := attemptAll_cons_eq_nil.mp hok
  obtain ⟨hok6, -⟩ := attemptAll_cons_eq_nil.mp hrest
  obtain ⟨set4, hset4⟩ := exists_set_of_updateSet hok4
  obtain ⟨result, tables, journal, hrun, hother, -⟩ := updateSet_share (ha.share hset4) cidrs
  rw [hrun] at hok6
  obtain ⟨set6, hset6⟩ := exists_set_of_updateSet hok6
  have hset6' : setOf h.tables .ipv6 = some set6 := (hother .ipv6 (by decide)).symm.trans hset6
  intro family
  cases family with
  | ipv4 => exact ⟨_, ha.share hset4⟩
  | ipv6 => exact ⟨_, ha.share hset6'⟩

end Addressed

/-- Where the table is, both sets are. -/
def HasBothSets (tables : FilterTables) : Prop :=
  tableName ∈ tables → ∀ family, (setOf tables family).isSome = true

namespace HasBothSets

variable {tables tables' : FilterTables} {output : String}

theorem empty : HasBothSets ∅ := fun hmem => by simp at hmem

theorem ownFamily (h : HasBothSets tables) (ha : Addressed tables) (hmem : tableName ∈ tables) :
    HoldsOwnFamily tables := by
  intro family
  obtain ⟨set, hset⟩ := Option.isSome_iff_exists.mp (h hmem family)
  exact ⟨_, ha.share hset⟩

theorem mem_of_setOf {family : Family} (hset : (setOf tables family).isSome = true) :
    tableName ∈ tables := by
  obtain ⟨set, hset⟩ := Option.isSome_iff_exists.mp hset
  obtain ⟨table, htable, -⟩ := Option.bind_eq_some_iff.mp hset
  exact mem_of_getElem? htable

/-- What is no script takes no set out of a table. -/
theorem execute {args : List String} {input : Option String} (hargs : args ≠ ["-f", "-"])
    (hexecute : Nft.execute args input tables = .ok (output, tables')) (h : HasBothSets tables) :
    HasBothSets tables' := by
  unfold Nft.execute at hexecute
  split at hexecute
  · exact absurd rfl hargs
  · split at hexecute
    · cases hexecute
    · cases hexecute
      exact h
  · split at hexecute
    · cases hexecute
      intro hmem family
      obtain ⟨hmem, hne⟩ := mem_erase_iff.mp hmem
      have hkept := h hmem family
      rw [setOf, setAt?] at hkept ⊢
      rwa [getElem?_erase_of_ne (Ne.symm hne)]
    · cases hexecute
  · cases hexecute

/-- A change needs one set and leaves it there, and so the other. -/
theorem change {family : Family} {change : Change} {intervals : List Interval}
    (heffect : Nft.effect? (changeStatement family change intervals) tables = some tables')
    (h : HasBothSets tables) : HasBothSets tables' := by
  rw [effect?_changeStatement] at heffect
  obtain ⟨set, set', hset, -, hset', hother⟩ := updateSet?_eq_some heffect
  have hboth := h (mem_of_setOf (by rw [hset]; rfl))
  intro _ other
  by_cases hfamily : other = family
  · subst hfamily
    rw [hset']
    rfl
  · rw [hother other hfamily]
    exact hboth other

theorem configure {queue : QueueRange} {fanout : Bool}
    (hexecute : Nft.execute (configureCommand queue fanout).args
      (configureCommand queue fanout).input tables = .ok (output, tables')) :
    HasBothSets tables' := by
  intro _ family
  rw [setOf_configure hexecute]
  rfl

theorem filters {c : Command} (hc : Filters c)
    (hexecute : Nft.execute c.args c.input tables = .ok (output, tables'))
    (h : HasBothSets tables) :
    HasBothSets tables' :=
  hc.keeps (fun he _ => configure he) (fun hargs he heq => heq.execute hargs he)
    (fun _ heffect heq => heq.change heffect) hexecute h

end HasBothSets

end VipSteering.Classifier
