import VipSteering.Proofs.Classifier.Destinations

namespace VipSteering.Classifier

open Host Text

section Script

variable (queue : QueueRange) (fanout : Bool)

theorem ruleText_chars :
    queue.ruleText.toList ≠ [] ∧ ∀ c ∈ queue.ruleText.toList, isBlank c = false := by
  have hdigits (n : UInt16) : (toString n).toList ≠ [] ∧
      ∀ c ∈ (toString n).toList, isBlank c = false := by
    have hs : (toString n).toList = Nat.toDigits 10 n.toNat := Nat.toList_repr
    rw [hs]
    exact ⟨Nat.toDigits_ne_nil, forall_mem_toDigits (by decide) (by decide) _⟩
  rw [QueueRange.ruleText, QueueRange.textWith]
  split
  · exact hdigits queue.start
  · refine ⟨?_, fun c hc => ?_⟩
    · rw [String.toList_append, String.toList_append]
      simp [(hdigits queue.start).1]
    · rw [String.toList_append, String.toList_append, List.mem_append, List.mem_append] at hc
      rcases hc with (hc | hc) | hc
      · exact (hdigits queue.start).2 c hc
      · rw [show "-".toList = ['-'] from rfl, List.mem_singleton] at hc
        rw [hc]
        decide
      · exact (hdigits queue.stop).2 c hc

theorem newline_not_mem_verdict : '\n' ∉ (verdict queue fanout).toList := by
  have htext : '\n' ∉ queue.ruleText.toList := fun h =>
    absurd ((ruleText_chars queue).2 _ h) (by decide)
  unfold verdict
  rw [String.toList_append, String.toList_append, List.mem_append, List.mem_append]
  intro hgiven
  rcases hgiven with (h | h) | h
  · exact absurd h (by decide)
  · exact htext h
  · cases fanout <;> exact absurd h (by decide)

theorem getLast?_verdict :
    ∃ c, (verdict queue fanout).toList.getLast? = some c ∧ isBlank c = false := by
  obtain ⟨hne, hclean⟩ := ruleText_chars queue
  unfold verdict
  rw [String.toList_append, String.toList_append]
  cases fanout with
  | true =>
    refine ⟨'t', ?_, by decide⟩
    rw [List.getLast?_append_of_ne_nil _ (by decide)]
    rfl
  | false =>
    refine ⟨_, ?_, hclean _ (List.getLast_mem hne)⟩
    rw [show (if false = true then " fanout" else "").toList = [] from rfl, List.append_nil,
      List.getLast?_append_of_ne_nil _ hne, List.getLast?_eq_some_getLast hne]

/-- A line that adds a rule whose selector is known. -/
theorem isLine_rule {chain select : String} (hchain : '\n' ∉ chain.toList)
    (hselect : '\n' ∉ select.toList) :
    IsLine (addRule chain (select ++ " " ++ verdict queue fanout)) := by
  have heq : (addRule chain (select ++ " " ++ verdict queue fanout)).toList =
      'a' :: ("dd rule inet ".toList ++ tableName.toList ++ [' '] ++ chain.toList ++ [' '] ++
        select.toList ++ [' '] ++ (verdict queue fanout).toList) := by
    unfold addRule
    simp only [String.toList_append, List.append_assoc]
    rfl
  obtain ⟨c, hc, hblank⟩ := getLast?_verdict queue fanout
  refine ⟨?_, ⟨'a', by rw [heq]; rfl, by decide⟩, ⟨c, ?_, hblank⟩⟩
  · rw [heq]
    simp only [List.mem_cons, List.mem_append, List.not_mem_nil, or_false, not_or]
    exact ⟨by decide, ⟨⟨⟨⟨⟨⟨by decide, by decide⟩, by decide⟩, hchain⟩, by decide⟩, hselect⟩,
      by decide⟩, newline_not_mem_verdict queue fanout⟩
  · have hne : (verdict queue fanout).toList ≠ [] := by
      intro hnil
      rw [hnil] at hc
      cases hc
    rw [heq, ← List.cons_append, List.getLast?_append_of_ne_nil _ hne, hc]

theorem parseLine?_rule (chain : String)
    (hwords : words ("add rule inet " ++ tableName ++ " " ++ chain) =
      ["add", "rule", "inet", tableName, chain]) (rule : String) :
    Nft.parseLine? (addRule chain rule) =
      some (.addRule tableName chain (Nft.ruleOf (addRule chain rule))) := by
  have : words (addRule chain rule) = ["add", "rule", "inet", tableName, chain] ++ words rule := by
    unfold addRule
    rw [words_append, hwords]
  rw [Nft.parseLine?, this]
  rfl

/-- A rule is kept as it was written. -/
theorem ruleOf_addRule {chain : String} (h : ' ' ∉ chain.toList) (rule : String) :
    Nft.ruleOf (addRule chain rule) = rule := by
  have hline : (addRule chain rule).toList =
      "add".toList ++ ' ' :: ("rule".toList ++ ' ' :: ("inet".toList ++ ' ' ::
        (tableName.toList ++ ' ' :: (chain.toList ++ ' ' :: rule.toList)))) := by
    unfold addRule
    simp only [String.toList_append, List.append_assoc]
    rfl
  rw [Nft.ruleOf, hline, afterChars_append (by decide), afterChars_append (by decide),
    afterChars_append (by decide), afterChars_append (by decide), afterChars_append h, afterChars,
    String.ofList_toList]

end Script

/-- To add an entry where there is none is to insert what is there, or else what is to be added. -/
theorem ensure_eq {β : Type} (key : String) (value : β) (m : Std.ExtTreeMap String β) :
    Nft.ensure key value m = m.insert key (m[key]?.getD value) := by
  rw [Nft.ensure]
  split
  · rename_i hmem
    obtain ⟨present, hpresent⟩ := exists_of_mem hmem
    rw [hpresent, Option.getD_some, insert_present hpresent]
  · rename_i hmem
    rw [Std.ExtTreeMap.getElem?_eq_none hmem, Option.getD_none]

/-- The statements that write a chain anew. -/
def writeChain (chain first second : String) : List Nft.Statement :=
  [.addChain tableName chain, .flushChain tableName chain, .addRule tableName chain first,
    .addRule tableName chain second]

section Effect

variable (tables : FilterTables) (t : FilterTable)

theorem updateTable?_insert (change : FilterTable → Option FilterTable) :
    Nft.updateTable? tableName change (tables.insert tableName t) =
      (change t).map (tables.insert tableName) := by
  have hinsert : (tables.insert tableName t).insert tableName = tables.insert tableName :=
    funext (insert_insert tables tableName t)
  rw [Nft.updateTable?, Nft.update?, Std.ExtTreeMap.getElem?_insert_self]
  simp only [hinsert]

theorem effect?_addSet (set : String) :
    Nft.effect? (.addSet tableName set) (tables.insert tableName t) =
      some (tables.insert tableName
        { t with sets := t.sets.insert set (t.sets[set]?.getD ∅) }) := by
  rw [Nft.effect?, updateTable?_insert, Option.map_some, ensure_eq]

theorem effect?_addChain (chain : String) :
    Nft.effect? (.addChain tableName chain) (tables.insert tableName t) =
      some (tables.insert tableName
        { t with chains := t.chains.insert chain (t.chains[chain]?.getD []) }) := by
  rw [Nft.effect?, updateTable?_insert, Option.map_some, ensure_eq]

/-- A chain that has just been written is altered. -/
theorem updateChain?_insert (chain : String) (rules : List String)
    (change : List String → List String) :
    Nft.updateChain? tableName chain change
        (tables.insert tableName { t with chains := t.chains.insert chain rules }) =
      some (tables.insert tableName
        { t with chains := t.chains.insert chain (change rules) }) := by
  rw [Nft.updateChain?, updateTable?_insert, Nft.update?, Std.ExtTreeMap.getElem?_insert_self]
  simp only [Function.comp_apply, Option.map_some, insert_insert]

/-- Whatever rules the chain had, it has the two new ones. -/
theorem effects_writeChain (chain first second : String) :
    (writeChain chain first second).foldlM (fun tables s => Nft.effect? s tables)
        (tables.insert tableName t) =
      some (tables.insert tableName
        { t with chains := t.chains.insert chain [first, second] }) := by
  rw [writeChain, List.foldlM_cons, effect?_addChain, Option.bind_eq_bind, Option.bind_some,
    List.foldlM_cons, Nft.effect?, updateChain?_insert, Option.bind_eq_bind, Option.bind_some,
    List.foldlM_cons, Nft.effect?, updateChain?_insert, Option.bind_eq_bind, Option.bind_some,
    List.foldlM_cons, Nft.effect?, updateChain?_insert]
  rfl

end Effect

theorem applyLines_eq {lines : List String} {statements : List Nft.Statement}
    (hparse : lines.map Nft.parseLine? = statements.map some) {tables tables' : FilterTables}
    (h : statements.foldlM (fun tables s => Nft.effect? s tables) tables = some tables') :
    Nft.applyLines lines tables = .ok tables' := by
  induction lines generalizing statements tables with
  | nil =>
    obtain rfl : statements = [] := by simpa using hparse.symm
    exact congrArg Except.ok (Option.some.inj h)
  | cons line lines ih =>
    obtain ⟨s, rest, rfl⟩ : ∃ s rest, statements = s :: rest := by
      cases statements with
      | nil => simp at hparse
      | cons s rest => exact ⟨s, rest, rfl⟩
    rw [List.map_cons, List.map_cons, List.cons.injEq] at hparse
    rw [List.foldlM_cons, Option.bind_eq_bind, Option.bind_eq_some_iff] at h
    obtain ⟨next, hnext, hrest⟩ := h
    have hline : Nft.applyLine line tables = .ok next := by
      rw [Nft.applyLine, hparse.1]
      simp only [hnext]
    rw [Nft.applyLines, hline]
    exact ih hparse.2 hrest

section Configure

variable (queue : QueueRange) (fanout : Bool)

/-- What the script asks for. -/
def statements : List Nft.Statement :=
  let rule (chain selector : String) :=
    Nft.ruleOf (addRule chain (selector ++ " " ++ verdict queue fanout))
  [.addTable tableName, .addSet tableName (setName .ipv4), .addSet tableName (setName .ipv6)] ++
    (writeChain chainName (rule chainName (selector .ipv4)) (rule chainName (selector .ipv6)) ++
      writeChain localChainName (rule localChainName (errorSelector .ipv4))
        (rule localChainName (errorSelector .ipv6)))

theorem parseLine?_ruleset :
    (ruleset queue fanout).map Nft.parseLine? = (statements queue fanout).map some := by
  have h₁ : Nft.parseLine? ("add table inet " ++ tableName) = some (.addTable tableName) := by
    decide
  have h₂ (family : Family) : Nft.parseLine? (addSet family) =
      some (.addSet tableName (setName family)) := by
    cases family <;> decide
  have h₃ : Nft.parseLine? (addChain chainName "prerouting") =
      some (.addChain tableName chainName) := by decide
  have h₄ : Nft.parseLine? (addChain localChainName "output") =
      some (.addChain tableName localChainName) := by decide
  have h₅ : Nft.parseLine? (flushChain chainName) = some (.flushChain tableName chainName) := by
    decide
  have h₆ : Nft.parseLine? (flushChain localChainName) =
      some (.flushChain tableName localChainName) := by decide
  have h₇ := parseLine?_rule chainName (by decide)
  have h₈ := parseLine?_rule localChainName (by decide)
  unfold ruleset
  simp only [List.map_cons, List.map_nil, h₁, h₂, h₃, h₄, h₅, h₆, h₇, h₈]
  rfl

theorem isLine_ruleset : ∀ line ∈ ruleset queue fanout, IsLine line := by
  have closed {line : String} (hnewline : '\n' ∉ line.toList)
      (hhead : (line.toList.head?.any fun c => !isBlank c) = true)
      (hlast : (line.toList.getLast?.any fun c => !isBlank c) = true) : IsLine line := by
    rw [Option.any_eq_true] at hhead hlast
    obtain ⟨c, hc, hblank⟩ := hhead
    obtain ⟨d, hd, hblank'⟩ := hlast
    exact ⟨hnewline, ⟨c, hc, by simpa using hblank⟩, ⟨d, hd, by simpa using hblank'⟩⟩
  have hset (family : Family) : IsLine (addSet family) := by
    cases family <;> exact closed (by decide) (by decide) (by decide)
  unfold ruleset
  simp only [List.mem_cons, List.not_mem_nil, or_false, forall_eq_or_imp, forall_eq]
  refine ⟨closed (by decide) (by decide) (by decide), hset .ipv4, hset .ipv6,
    closed (by decide) (by decide) (by decide), closed (by decide) (by decide) (by decide),
    isLine_rule queue fanout (by decide) (by decide),
    isLine_rule queue fanout (by decide) (by decide),
    closed (by decide) (by decide) (by decide), closed (by decide) (by decide) (by decide),
    isLine_rule queue fanout (by decide) (by decide),
    isLine_rule queue fanout (by decide) (by decide)⟩

/-- The rules of a chain, one for each family. -/
def rules (selector : Family → String) : List String :=
  [selector .ipv4 ++ " " ++ verdict queue fanout, selector .ipv6 ++ " " ++ verdict queue fanout]

/-- The table as the script leaves it. -/
def renewed (t : FilterTable) : FilterTable where
  sets :=
    (t.sets.insert (setName .ipv4) (t.sets[setName .ipv4]?.getD ∅)).insert (setName .ipv6)
      (t.sets[setName .ipv6]?.getD ∅)
  chains :=
    (t.chains.insert chainName (rules queue fanout selector)).insert localChainName
      (rules queue fanout errorSelector)

/-- The script alters the one table, which it adds if it is not there. -/
theorem effects_script (tables : FilterTables) :
    (statements queue fanout).foldlM (fun tables s => Nft.effect? s tables) tables =
      some (tables.insert tableName (renewed queue fanout (tables[tableName]?.getD { }))) := by
  have hname : setName .ipv4 ≠ setName .ipv6 := by decide
  have hchain (rule : String) : Nft.ruleOf (addRule chainName rule) = rule :=
    ruleOf_addRule (by decide) rule
  have hlocal (rule : String) : Nft.ruleOf (addRule localChainName rule) = rule :=
    ruleOf_addRule (by decide) rule
  rw [statements, List.foldlM_append, List.foldlM_cons, Nft.effect?, Function.comp_apply, ensure_eq,
    Option.bind_eq_bind, Option.bind_some, List.foldlM_cons, effect?_addSet, Option.bind_eq_bind,
    Option.bind_some, List.foldlM_cons, effect?_addSet, Option.bind_eq_bind, Option.bind_some,
    List.foldlM_nil, Option.pure_def, Option.bind_some, List.foldlM_append, effects_writeChain,
    Option.bind_eq_bind, Option.bind_some, effects_writeChain]
  simp only [hchain, hlocal, getElem?_insert_of_ne hname]
  rfl

theorem sets_renewed (t : FilterTable) (family : Family) :
    (renewed queue fanout t).sets[setName family]? = some (t.sets[setName family]?.getD ∅) := by
  have hname : setName .ipv6 ≠ setName .ipv4 := by decide
  cases family with
  | ipv4 => rw [renewed, getElem?_insert_of_ne hname, Std.ExtTreeMap.getElem?_insert_self]
  | ipv6 => rw [renewed, Std.ExtTreeMap.getElem?_insert_self]

theorem setOf_getD (tables : FilterTables) (family : Family) :
    (tables[tableName]?.getD { }).sets[setName family]? = setOf tables family := by
  rw [setOf, setAt?]
  cases tables[tableName]? with
  | none => simp
  | some t => rfl

theorem setOf_renewed (tables : FilterTables) (family : Family) :
    setOf (tables.insert tableName (renewed queue fanout (tables[tableName]?.getD { }))) family =
      some ((setOf tables family).getD ∅) := by
  rw [setOf, setAt?, Std.ExtTreeMap.getElem?_insert_self, Option.bind_some, sets_renewed, setOf_getD]

theorem execute_configureCommand (tables : FilterTables) :
    Nft.execute (configureCommand queue fanout).args (configureCommand queue fanout).input tables =
      .ok ("", tables.insert tableName (renewed queue fanout (tables[tableName]?.getD { }))) := by
  rw [configureCommand, execute_script, linesOf_join (isLine_ruleset queue fanout),
    applyLines_eq (parseLine?_ruleset queue fanout) (effects_script queue fanout tables)]

/-- The table gets what it lacks and keeps the elements of its sets. -/
theorem configure_healthy {h : Host} (hf : h.faults = []) :
    ∃ tables journal, configure queue fanout h = (.ok (), { h with tables, journal }) ∧
      ∀ family, setOf tables family = some ((setOf h.tables family).getD ∅) := by
  obtain ⟨journal, hrun⟩ := run_nft (c := configureCommand queue fanout) hf rfl
  rw [execute_configureCommand] at hrun
  refine ⟨_, journal, ?_, setOf_renewed queue fanout h.tables⟩
  rw [configure]
  simp only [Task.bind_apply, hrun, Task.pure_apply]

end Configure

end VipSteering.Classifier
