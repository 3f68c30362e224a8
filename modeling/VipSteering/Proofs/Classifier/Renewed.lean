import VipSteering.Proofs.Classifier.Configure
import VipSteering.Proofs.Host.Refusing

namespace VipSteering.Classifier

open Host

def chainAt? (tables : FilterTables) (table chain : String) : Option (List String) :=
  tables[table]?.bind (·.chains[chain]?)

/-- A rule that counts the packets that meet a condition and queues them, to the only queue or to one
of several. -/
def queueing (queue : QueueRange) (fanout : Bool) (condition : String) : String :=
  let numbers :=
    if queue.start = queue.stop then toString queue.start
    else toString queue.start ++ "-" ++ toString queue.stop
  condition ++ " counter queue num " ++ numbers ++ if fanout then " fanout" else ""

/-- What has become of the tables when the one has been set up. -/
structure Renewed (queue : QueueRange) (fanout : Bool) (before after : FilterTables) : Prop where
  /-- A set of virtual addresses is as it was, or empty if there was none. -/
  vips : ∀ set ∈ ["ipv4-vips", "ipv6-vips"],
    setAt? after "table-nfqlb" set = some ((setAt? before "table-nfqlb" set).getD ∅)
  /-- The chain for packets that arrive. -/
  arriving : chainAt? after "table-nfqlb" "nfqlb" =
    some (["ip daddr @ipv4-vips", "ip6 daddr @ipv6-vips"].map (queueing queue fanout))
  /-- The chain for error messages of the host itself. -/
  sent : chainAt? after "table-nfqlb" "nfqlb-local" =
    some (["meta l4proto icmp ip daddr @ipv4-vips",
      "meta l4proto ipv6-icmp ip6 daddr @ipv6-vips"].map (queueing queue fanout))
  sets : ∀ set ∉ ["ipv4-vips", "ipv6-vips"],
    setAt? after "table-nfqlb" set = setAt? before "table-nfqlb" set
  chains : ∀ chain ∉ ["nfqlb", "nfqlb-local"],
    chainAt? after "table-nfqlb" chain = chainAt? before "table-nfqlb" chain
  tables : ∀ table ≠ "table-nfqlb", after[table]? = before[table]?

section Renew

variable (queue : QueueRange) (fanout : Bool)

theorem rules_eq (selector : Family → String) :
    rules queue fanout selector = [selector .ipv4, selector .ipv6].map (queueing queue fanout) := by
  have hjoin (condition numbers spread : String) :
      condition ++ " " ++ ("counter queue num " ++ numbers ++ spread) =
        condition ++ " counter queue num " ++ numbers ++ spread := by
    have hspace : " " ++ "counter queue num " = " counter queue num " := rfl
    rw [← hspace]
    simp only [String.append_assoc]
  have hrule (condition : String) :
      condition ++ " " ++ verdict queue fanout = queueing queue fanout condition :=
    hjoin condition queue.ruleText _
  rw [rules, hrule, hrule, List.map_cons, List.map_cons, List.map_nil]

example : rules ⟨0, 3, by decide⟩ true selector =
    ["ip daddr @ipv4-vips counter queue num 0-3 fanout",
      "ip6 daddr @ipv6-vips counter queue num 0-3 fanout"] := by decide

/-- The tables as the script leaves them. -/
def renew (tables : FilterTables) : FilterTables :=
  tables.insert tableName (renewed queue fanout (tables[tableName]?.getD { }))

theorem getElem?_renew (tables : FilterTables) : (renew queue fanout tables)[tableName]? =
    some (renewed queue fanout (tables[tableName]?.getD { })) :=
  Std.ExtTreeMap.getElem?_insert_self

theorem chainAt?_renew (tables : FilterTables) (chain : String) :
    chainAt? (renew queue fanout tables) tableName chain =
      (renewed queue fanout (tables[tableName]?.getD { })).chains[chain]? := by
  rw [chainAt?, getElem?_renew, Option.bind_some]

/-- A table that is not there has neither sets nor chains. -/
theorem bind_getD {β : Type} (tables : FilterTables) (part : FilterTable → Option β)
    (h : part { } = none) : part (tables[tableName]?.getD { }) = tables[tableName]?.bind part := by
  cases tables[tableName]? with
  | none => exact h
  | some t => rfl

theorem renew_renewed (tables : FilterTables) :
    Renewed queue fanout tables (renew queue fanout tables) where
  vips := by
    simp only [List.mem_cons, List.not_mem_nil, or_false, forall_eq_or_imp, forall_eq]
    exact ⟨setOf_renewed queue fanout tables .ipv4, setOf_renewed queue fanout tables .ipv6⟩
  arriving := by
    have hne : localChainName ≠ chainName := by decide
    refine (chainAt?_renew queue fanout tables chainName).trans ?_
    rw [renewed, getElem?_insert_of_ne hne, Std.ExtTreeMap.getElem?_insert_self, rules_eq]
    rfl
  sent := by
    refine (chainAt?_renew queue fanout tables localChainName).trans ?_
    rw [renewed, Std.ExtTreeMap.getElem?_insert_self, rules_eq]
    rfl
  sets set h := by
    simp only [List.mem_cons, List.not_mem_nil, or_false, not_or] at h
    have hother (family : Family) : setName family ≠ set := by
      cases family with
      | ipv4 => exact Ne.symm h.1
      | ipv6 => exact Ne.symm h.2
    change setAt? (renew queue fanout tables) tableName set = _
    rw [setAt?, getElem?_renew, Option.bind_some, renewed, getElem?_insert_of_ne (hother .ipv6),
      getElem?_insert_of_ne (hother .ipv4)]
    exact bind_getD tables (·.sets[set]?) (by simp)
  chains chain h := by
    simp only [List.mem_cons, List.not_mem_nil, or_false, not_or] at h
    have hother : chainName ≠ chain := Ne.symm h.1
    have hlocal : localChainName ≠ chain := Ne.symm h.2
    refine (chainAt?_renew queue fanout tables chain).trans ?_
    rw [renewed, getElem?_insert_of_ne hlocal, getElem?_insert_of_ne hother]
    exact bind_getD tables (·.chains[chain]?) (by simp)
  tables table h := getElem?_insert_of_ne (Ne.symm h) _

/-- A table that has been set up is not altered. -/
theorem renewed_renewed (t : FilterTable) :
    renewed queue fanout (renewed queue fanout t) = renewed queue fanout t := by
  have hpresent (family : Family) : (renewed queue fanout t).sets[setName family]? =
      some ((renewed queue fanout t).sets[setName family]?.getD ∅) := by
    rw [sets_renewed, Option.getD_some]
  have hne : localChainName ≠ chainName := by decide
  have hchain : (renewed queue fanout t).chains[chainName]? = some (rules queue fanout selector) := by
    rw [renewed, getElem?_insert_of_ne hne, Std.ExtTreeMap.getElem?_insert_self]
  have hlocal : (renewed queue fanout t).chains[localChainName]? =
      some (rules queue fanout errorSelector) := by
    rw [renewed, Std.ExtTreeMap.getElem?_insert_self]
  generalize renewed queue fanout t = left at hpresent hchain hlocal ⊢
  rw [renewed, insert_present (hpresent .ipv4), insert_present (hpresent .ipv6),
    insert_present hchain, insert_present hlocal]

/-- Once the table has been set up, there is nothing to do. -/
theorem renew_renew (tables : FilterTables) :
    renew queue fanout (renew queue fanout tables) = renew queue fanout tables := by
  have hthere := getElem?_renew queue fanout tables
  rw [renew, hthere, Option.getD_some, renewed_renewed]
  exact insert_present hthere

/-- Unless the host refuses the command, the table is set up. -/
theorem configure_eq (h : Host) : configure queue fanout h =
    if h.Refuses (configureCommand queue fanout) then
      (.error (.configure (failure (configureCommand queue fanout) injected)),
        h.record (configureCommand queue fanout))
    else
      (.ok (), { h.record (configureCommand queue fanout) with
        tables := renew queue fanout h.tables }) := by
  rw [configure, Task.bind_apply, run_nft_eq rfl, execute_configureCommand]
  split <;> rfl

end Renew

/-- Whatever tables a host has, to set up the one either is refused and alters none of them, or renews
the rules of its two chains and keeps all else. To do so again alters nothing. -/
theorem configure_renews (queue : QueueRange) (fanout : Bool) (h : Host) :
    let issued := configureCommand queue fanout
    let answer := configure queue fanout h
    if h.Refuses issued then
      answer = (.error (.configure (failure issued injected)), h.record issued)
    else
      (∃ tables, answer = (.ok (), { h.record issued with tables }) ∧
        Renewed queue fanout h.tables tables) ∧
      configure queue fanout answer.2 = (.ok (), answer.2.record issued) := by
  intro issued answer
  have hanswer : answer = _ := configure_eq queue fanout h
  split
  · rename_i hrefused
    rw [hanswer, if_pos hrefused]
  · rename_i haccepted
    rw [if_neg haccepted] at hanswer
    -- The commands that are refused are the same the second time.
    have hagain : ¬ answer.2.Refuses issued := by
      rw [hanswer]
      exact haccepted
    refine ⟨⟨_, hanswer, renew_renewed queue fanout h.tables⟩, ?_⟩
    rw [configure_eq, if_neg hagain, hanswer]
    exact congrArg (fun tables => (_, { (h.record issued).record issued with tables }))
      (renew_renew queue fanout h.tables)

end VipSteering.Classifier
