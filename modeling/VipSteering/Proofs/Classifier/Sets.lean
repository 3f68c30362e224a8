import VipSteering.Proofs.Host.Nft
import VipSteering.Proofs.Host.Refusing
import VipSteering.Proofs.Task

namespace VipSteering.Classifier

open Host

/-- What a set of a table holds, if it is there. -/
def setAt? (tables : FilterTables) (table set : String) : Option (Std.ExtTreeSet String) :=
  tables[table]?.bind (·.sets[set]?)

/-- What the set of a family holds, if it is there. -/
def setOf (tables : FilterTables) (family : Family) : Option (Std.ExtTreeSet String) :=
  setAt? tables tableName (setName family)

theorem setName_inj {family other : Family} (h : setName family = setName other) :
    family = other := by
  revert h
  cases family <;> cases other <;> decide

/-- A set that is altered leaves the others of its table alone. -/
theorem updateSet?_setAt {tables : FilterTables} {table set : String}
    {present present' : Std.ExtTreeSet String} (h : setAt? tables table set = some present)
    (change : Std.ExtTreeSet String → Option (Std.ExtTreeSet String))
    (hc : change present = some present') :
    ∃ tables', Nft.updateSet? table set change tables = some tables' ∧
      setAt? tables' table set = some present' ∧
      ∀ other, other ≠ set → setAt? tables' table other = setAt? tables table other := by
  obtain ⟨t, htable, hset⟩ := Option.bind_eq_some_iff.mp h
  refine ⟨tables.insert table { t with sets := t.sets.insert set present' }, ?_, ?_, ?_⟩
  · simp [Nft.updateSet?, Nft.updateTable?, Nft.update?, htable, hset, hc]
  · simp [setAt?]
  · intro other hne
    simp [setAt?, htable, Std.ExtTreeMap.getElem?_insert, Ne.symm hne]

/-- A set that is altered leaves that of the other family alone. -/
theorem updateSet?_some {tables : FilterTables} {family : Family} {set set' : Std.ExtTreeSet String}
    (h : setOf tables family = some set)
    (change : Std.ExtTreeSet String → Option (Std.ExtTreeSet String)) (hc : change set = some set') :
    ∃ tables', Nft.updateSet? tableName (setName family) change tables = some tables' ∧
      setOf tables' family = some set' ∧
      ∀ other, other ≠ family → setOf tables' other = setOf tables other := by
  obtain ⟨tables', hupdate, hset, hother⟩ := updateSet?_setAt h change hc
  exact ⟨tables', hupdate, hset, fun other hne => hother _ fun heq => hne (setName_inj heq)⟩

def listSetCommand (table set : String) : Command :=
  { program := "nft", args := ["-j", "list", "set", "inet", table, set] }

theorem execute_listSetCommand {tables : FilterTables} {table set : String}
    {present : Std.ExtTreeSet String} (h : setAt? tables table set = some present) :
    Nft.execute (listSetCommand table set).args (listSetCommand table set).input tables =
      .ok (Nft.listing table set present.toList, tables) := by
  have hfound : tables[table]?.bind (·.sets[set]?) = some present := h
  simp only [listSetCommand, Nft.execute, hfound]

/-- The balancer's own command that lists a set. -/
theorem execute_list {tables : FilterTables} {family : Family} {set : Std.ExtTreeSet String}
    (hset : setOf tables family = some set) :
    Nft.execute (listCommand family).args (listCommand family).input tables =
      .ok (Nft.listing tableName (setName family) set.toList, tables) :=
  execute_listSetCommand hset

theorem mem_deleteAll? {elements : List String} {set set' : Std.ExtTreeSet String}
    (h : Nft.deleteAll? elements set = some set') (e : String) :
    e ∈ set' ↔ e ∈ set ∧ e ∉ elements := by
  induction elements generalizing set with
  | nil =>
    obtain rfl := Option.some.inj h
    simp
  | cons element rest ih =>
    rw [Nft.deleteAll?] at h
    split at h
    · rw [ih h, mem_eraseItem, List.mem_cons, not_or, and_assoc]
    · cases h

theorem deleteAll?_some {elements : List String} {set : Std.ExtTreeSet String}
    (hd : elements.Nodup) (h : ∀ e ∈ elements, e ∈ set) :
    ∃ set', Nft.deleteAll? elements set = some set' ∧
      ∀ e, e ∈ set' ↔ e ∈ set ∧ e ∉ elements := by
  have hsome : ∃ set', Nft.deleteAll? elements set = some set' := by
    induction elements generalizing set with
    | nil => exact ⟨set, rfl⟩
    | cons element rest ih =>
      simp only [List.mem_cons, forall_eq_or_imp] at h
      rw [List.nodup_cons] at hd
      rw [Nft.deleteAll?, if_pos h.1]
      exact ih hd.2 fun e he => mem_eraseItem.mpr ⟨h.2 e he, fun heq => hd.1 (heq ▸ he)⟩
  obtain ⟨set', hset'⟩ := hsome
  exact ⟨set', hset', mem_deleteAll? hset'⟩

/-- The host refuses to run scripts. What a script says makes no difference. -/
def RefusesScripts (h : Host) : Prop := h.Refuses (script "")

section Alter

variable {h : Host} {family : Family} {intervals : List Interval}
  (hs : intervals ≠ [] → ¬ RefusesScripts h) {set : Std.ExtTreeSet String}
  (hset : setOf h.tables family = some set)

/-- Where there is nothing to alter, no script is run. -/
theorem alter_nil (family : Family) (change : Change) (h : Host) :
    alter family change [] h = (.ok (), h) := rfl

theorem alter_refused (family : Family) (change : Change) (hne : intervals ≠ [])
    (hr : RefusesScripts h) :
    ∃ fault journal, alter family change intervals h = (.error fault, { h with journal }) := by
  have hrun := run_refused (h := h) (c := changeCommand family change intervals) hr
  refine ⟨.update family (failure (changeCommand family change intervals) injected),
    (h.record (changeCommand family change intervals)).journal, ?_⟩
  rw [alter, if_neg (by simpa using hne)]
  simp only [Task.bind_apply, hrun, Task.pure_apply]
  rfl

include hs hset

/-- Where there is something to alter, the set of the family is altered as the script says. -/
theorem alter_accepted (change : Change) (hne : intervals ≠ [])
    {make? : Std.ExtTreeSet String → Option (Std.ExtTreeSet String)}
    (heffect : Nft.effect? (changeStatement family change intervals) =
      Nft.updateSet? tableName (setName family) make?) {set' : Std.ExtTreeSet String}
    (hmake : make? set = some set') :
    ∃ tables journal, alter family change intervals h = (.ok (), { h with tables, journal }) ∧
      setOf tables family = some set' ∧
      ∀ other, other ≠ family → setOf tables other = setOf h.tables other := by
  obtain ⟨tables, hupdate, hset', hother⟩ := updateSet?_some hset make? hmake
  obtain ⟨journal, hrun⟩ := run_nft_accepted (c := changeCommand family change intervals) (hs hne)
    rfl
  rw [execute_changeCommand family change ((congrFun heffect h.tables).trans hupdate)] at hrun
  refine ⟨tables, journal, ?_, hset', hother⟩
  rw [alter, if_neg (by simpa using hne)]
  simp only [Task.bind_apply, hrun, Task.pure_apply]

theorem alter_delete_accepted (hd : (intervals.map Interval.text).Nodup)
    (hmem : ∀ i ∈ intervals, i.text ∈ set) :
    ∃ set' tables journal, alter family .delete intervals h = (.ok (), { h with tables, journal }) ∧
      setOf tables family = some set' ∧
      (∀ e, e ∈ set' ↔ e ∈ set ∧ e ∉ intervals.map Interval.text) ∧
      ∀ other, other ≠ family → setOf tables other = setOf h.tables other := by
  by_cases hne : intervals = []
  · rw [hne, alter_nil]
    exact ⟨set, h.tables, h.journal, rfl, hset, by simp, fun _ _ => rfl⟩
  · obtain ⟨set', hdelete, hmem'⟩ := deleteAll?_some hd (by simpa using hmem)
    obtain ⟨tables, journal, halter, hset', hother⟩ :=
      alter_accepted hs hset .delete hne rfl hdelete
    exact ⟨set', tables, journal, halter, hset', hmem', hother⟩

theorem alter_add_accepted :
    ∃ set' tables journal, alter family .add intervals h = (.ok (), { h with tables, journal }) ∧
      setOf tables family = some set' ∧
      (∀ e, e ∈ set' ↔ e ∈ set ∨ e ∈ intervals.map Interval.text) ∧
      ∀ other, other ≠ family → setOf tables other = setOf h.tables other := by
  by_cases hne : intervals = []
  · rw [hne, alter_nil]
    exact ⟨set, h.tables, h.journal, rfl, hset, by simp, fun _ _ => rfl⟩
  · obtain ⟨tables, journal, halter, hset', hother⟩ :=
      alter_accepted hs hset .add hne rfl rfl
    refine ⟨_, tables, journal, halter, hset', fun e => ?_, hother⟩
    rw [Std.ExtTreeSet.mem_insertMany_list, List.contains_iff_mem]

end Alter

/-- What stands for intervals alone is the texts of some. -/
theorem exists_intervals {texts : List String}
    (h : ∀ e ∈ texts, ∃ i : Interval, i.IsPlain ∧ i.text = e) :
    ∃ intervals : List Interval, (∀ i ∈ intervals, i.IsPlain) ∧
      intervals.map Interval.text = texts := by
  induction texts with
  | nil => exact ⟨[], by simp, rfl⟩
  | cons e rest ih =>
    simp only [List.mem_cons, forall_eq_or_imp] at h
    obtain ⟨⟨i, hi, rfl⟩, hrest⟩ := h
    obtain ⟨intervals, hplain, rfl⟩ := ih hrest
    exact ⟨i :: intervals, by simpa using ⟨hi, hplain⟩, rfl⟩

theorem mem_sort {i : Interval} {intervals : List Interval} :
    i ∈ Interval.sort intervals ↔ i ∈ intervals := by
  rw [Interval.sort, Std.ExtTreeSet.mem_toList, Std.ExtTreeSet.mem_ofList, List.contains_iff_mem]

theorem mem_missing {i : Interval} {wanted present : List Interval} :
    i ∈ missing wanted present ↔ i ∈ wanted ∧ i ∉ present := by
  rw [missing, List.mem_filter, mem_sort, decide_eq_true_eq]

/-- A text stands for an interval of a list only if the interval is in the list. -/
theorem text_mem_iff {i : Interval} {wanted : List Interval} (hi : i.IsPlain)
    (hwanted : ∀ j ∈ wanted, j.IsPlain) :
    i.text ∈ wanted.map Interval.text ↔ i ∈ wanted := by
  constructor
  · intro hmem
    obtain ⟨j, hj, heq⟩ := List.mem_map.mp hmem
    rwa [← text_inj (hwanted j hj) hi heq]
  · exact List.mem_map_of_mem

/-- When what is not wanted is gone and what was missing has come, there is what is wanted. -/
theorem mem_updated {wanted present : List Interval} (hpresent : ∀ i ∈ present, i.IsPlain)
    (hwanted : ∀ i ∈ wanted, i.IsPlain) (e : String) :
    (e ∈ present.map Interval.text ∧ e ∉ (missing present wanted).map Interval.text) ∨
      e ∈ (missing wanted present).map Interval.text ↔ e ∈ wanted.map Interval.text := by
  constructor
  · intro hgiven
    rcases hgiven with ⟨hin, hkept⟩ | hnew
    · obtain ⟨i, hi, rfl⟩ := List.mem_map.mp hin
      by_contra hout
      rw [text_mem_iff (hpresent i hi) hwanted] at hout
      exact hkept (List.mem_map_of_mem (mem_missing.mpr ⟨hi, hout⟩))
    · obtain ⟨i, hi, rfl⟩ := List.mem_map.mp hnew
      exact List.mem_map_of_mem (mem_missing.mp hi).1
  · intro hgiven
    obtain ⟨i, hi, rfl⟩ := List.mem_map.mp hgiven
    by_cases hin : i ∈ present
    · refine .inl ⟨List.mem_map_of_mem hin, fun hstale => ?_⟩
      obtain ⟨j, hj, heq⟩ := List.mem_map.mp hstale
      obtain ⟨hjin, hjout⟩ := mem_missing.mp hj
      rw [text_inj (hpresent j hjin) (hwanted i hi) heq] at hjout
      exact hjout hi
    · exact .inr (List.mem_map_of_mem (mem_missing.mpr ⟨hi, hin⟩))

theorem missing_nodup {wanted : List Interval} (h : ∀ i ∈ wanted, i.IsPlain)
    (present : List Interval) : ((missing wanted present).map Interval.text).Nodup := by
  have hsort : (Interval.sort wanted).Nodup :=
    Std.ExtTreeSet.distinct_toList.imp fun hne heq => hne (by rw [heq, Std.ReflOrd.compare_self])
  refine List.Nodup.map_on (fun i hi j hj heq => ?_) (hsort.filter _)
  exact text_inj (h i (mem_missing.mp hi).1) (h j (mem_missing.mp hj).1) heq

theorem elements_eq {h : Host} {family : Family} {set : Std.ExtTreeSet String}
    (hset : setOf h.tables family = some set) {intervals : List Interval}
    (hplain : ∀ i ∈ intervals, i.IsPlain) (htexts : intervals.map Interval.text = set.toList) :
    elements family h =
      (if h.Refuses (listCommand family)
        then .error (.list family (failure (listCommand family) injected)) else .ok intervals,
        h.record (listCommand family)) := by
  rw [elements]
  simp only [Task.bind_apply, run_nft_eq (c := listCommand family) rfl, execute_list hset]
  split
  · rfl
  · dsimp only
    rw [← htexts, readListing_listing _ _ hplain]
    rfl

theorem elements_accepted {h : Host} {family : Family} (hl : ¬ h.Refuses (listCommand family))
    {set : Std.ExtTreeSet String} (hset : setOf h.tables family = some set)
    {intervals : List Interval} (hplain : ∀ i ∈ intervals, i.IsPlain)
    (htexts : intervals.map Interval.text = set.toList) :
    ∃ journal, elements family h = (.ok intervals, { h with journal }) :=
  ⟨(h.record (listCommand family)).journal, by rw [elements_eq hset hplain htexts, if_neg hl]; rfl⟩

theorem missing_eq_nil {wanted present : List Interval} :
    missing wanted present = [] ↔ ∀ i ∈ wanted, i ∈ present := by
  rw [List.eq_nil_iff_forall_not_mem]
  simp only [mem_missing, not_and, not_not]

section Update

variable {h : Host} {family : Family} {set : Std.ExtTreeSet String}
  (hset : setOf h.tables family = some set)
  (hplain : ∀ e ∈ set, ∃ i : Interval, i.IsPlain ∧ i.text = e) {wanted : List Interval}

include hplain in
theorem exists_present : ∃ present : List Interval, (∀ i ∈ present, i.IsPlain) ∧
    present.map Interval.text = set.toList ∧ ∀ e, e ∈ set ↔ e ∈ present.map Interval.text := by
  have hlisted (e : String) (he : e ∈ set.toList) : ∃ i : Interval, i.IsPlain ∧ i.text = e :=
    hplain e (Std.ExtTreeSet.mem_toList.mp he)
  obtain ⟨present, hpresent, htexts⟩ := exists_intervals hlisted
  exact ⟨present, hpresent, htexts, fun e => by rw [htexts, Std.ExtTreeSet.mem_toList]⟩

/-- Where the texts are the same, nothing is missing. -/
theorem missing_of_texts {present : List Interval} (hpresent : ∀ i ∈ present, i.IsPlain)
    (hwanted : ∀ i ∈ wanted, i.IsPlain)
    (h : ∀ e ∈ wanted.map Interval.text, e ∈ present.map Interval.text) :
    missing wanted present = [] := by
  refine missing_eq_nil.mpr fun i hi => ?_
  exact (text_mem_iff (hwanted i hi) hpresent).mp (h i.text (List.mem_map_of_mem hi))

include hset hplain

/-- Only what differs is deleted and added; then the set is as it is wanted. Where nothing differs,
the host may refuse to run scripts. -/
theorem updateSet_accepted (hl : ¬ h.Refuses (listCommand family))
    (hs : RefusesScripts h → ∀ e, e ∈ set ↔ e ∈ wanted.map Interval.text)
    (hwanted : ∀ i ∈ wanted, i.IsPlain) :
    ∃ set' tables journal, updateSet wanted family h = (.ok (), { h with tables, journal }) ∧
      setOf tables family = some set' ∧ (∀ e, e ∈ set' ↔ e ∈ wanted.map Interval.text) ∧
      ∀ other, other ≠ family → setOf tables other = setOf h.tables other := by
  obtain ⟨present, hpresent, htexts, hmem⟩ := exists_present hplain
  have hstale (hne : missing present wanted ≠ []) (hr : RefusesScripts h) : False :=
    hne (missing_of_texts hwanted hpresent fun e he => (hs hr e).mp ((hmem e).mpr he))
  have hnew (hne : missing wanted present ≠ []) (hr : RefusesScripts h) : False :=
    hne (missing_of_texts hpresent hwanted fun e he => (hmem e).mp ((hs hr e).mpr he))
  obtain ⟨journal, helements⟩ := elements_accepted hl hset hpresent htexts
  obtain ⟨kept, tables, journal, hdelete, hkept, hmemKept, hotherKept⟩ :=
    alter_delete_accepted (h := { h with journal }) hstale hset
      (missing_nodup hpresent wanted) (fun i hi => by
        rw [hmem]
        exact List.mem_map.mpr ⟨i, (mem_missing.mp hi).1, rfl⟩)
  obtain ⟨set', tables, journal, hadd, hset', hmem', hother⟩ :=
    alter_add_accepted (h := { h with tables, journal }) hnew hkept
  refine ⟨set', tables, journal, ?_, hset', fun e => ?_, fun other hne => ?_⟩
  · rw [updateSet]
    simp only [Task.bind_apply, helements, hdelete, hadd]
  · rw [hmem', hmemKept, hmem]
    exact mem_updated hpresent hwanted e
  · rw [hother other hne, hotherKept other hne]

/-- A host that refuses to run scripts keeps a set that is not as it is wanted. -/
theorem updateSet_refused (hl : ¬ h.Refuses (listCommand family)) (hr : RefusesScripts h)
    (hdiffers : ¬ ∀ e, e ∈ set ↔ e ∈ wanted.map Interval.text) :
    ∃ fault journal, updateSet wanted family h = (.error fault, { h with journal }) := by
  obtain ⟨present, hpresent, htexts, hmem⟩ := exists_present hplain
  obtain ⟨journal, helements⟩ := elements_accepted hl hset hpresent htexts
  rw [updateSet]
  simp only [Task.bind_apply, helements]
  by_cases hstale : missing present wanted = []
  · rw [hstale, alter_nil]
    by_cases hnew : missing wanted present = []
    · refine absurd (fun e => ?_) hdiffers
      have hsame (i : Interval) : i ∈ present ↔ i ∈ wanted :=
        ⟨missing_eq_nil.mp hstale i, missing_eq_nil.mp hnew i⟩
      simp only [hmem, List.mem_map, hsame]
    · exact alter_refused (h := { h with journal }) family .add hnew hr
  · obtain ⟨fault, journal, hdelete⟩ :=
      alter_refused (h := { h with journal }) family .delete hstale hr
    rw [hdelete]
    exact ⟨fault, journal, rfl⟩

/-- A set that is as it is wanted is only listed. -/
theorem updateSet_eq_list (hwanted : ∀ i ∈ wanted, i.IsPlain)
    (hsame : ∀ e, e ∈ set ↔ e ∈ wanted.map Interval.text) :
    updateSet wanted family h =
      (if h.Refuses (listCommand family)
        then .error (.list family (failure (listCommand family) injected)) else .ok (),
        h.record (listCommand family)) := by
  obtain ⟨present, hpresent, htexts, hmem⟩ := exists_present hplain
  have hstale : missing present wanted = [] :=
    missing_of_texts hwanted hpresent fun e he => (hsame e).mp ((hmem e).mpr he)
  have hnew : missing wanted present = [] :=
    missing_of_texts hpresent hwanted fun e he => (hmem e).mp ((hsame e).mpr he)
  rw [updateSet]
  simp only [Task.bind_apply, elements_eq hset hpresent htexts]
  split
  · rfl
  · dsimp only
    rw [hstale, hnew]
    rfl

end Update

/-- A set that is not there cannot be listed. -/
theorem exists_set_of_updateSet {h : Host} {family : Family} {wanted : List Interval}
    (hok : (updateSet wanted family h).1 = .ok ()) : ∃ set, setOf h.tables family = some set := by
  cases hset : setOf h.tables family with
  | some set => exact ⟨set, rfl⟩
  | none =>
    have hlist : Nft.execute (listCommand family).args (listCommand family).input h.tables =
        .error ("Error: " ++ absent) := by
      have hfound : h.tables[tableName]?.bind (·.sets[setName family]?) = none := hset
      simp only [listCommand, Nft.execute, hfound]
    rw [updateSet, elements] at hok
    simp only [Task.bind_apply, run_nft_eq (c := listCommand family) rfl, hlist] at hok
    by_cases href : h.Refuses (listCommand family)
    · rw [if_pos href] at hok
      cases hok
    · rw [if_neg href] at hok
      cases hok

theorem updateSet_unlisted {h : Host} {family : Family} (hl : h.Refuses (listCommand family))
    (wanted : List Interval) :
    ∃ fault journal, updateSet wanted family h = (.error fault, { h with journal }) := by
  have hrun := run_refused hl
  refine ⟨.list family (failure (listCommand family) injected),
    (h.record (listCommand family)).journal, ?_⟩
  rw [updateSet, elements]
  simp only [Task.bind_apply, hrun, Task.pure_apply]
  rfl

end VipSteering.Classifier
