import VipSteering.Balancer.Basic
import VipSteering.Balancer.Flow
import VipSteering.Proofs.Host.Basic
import VipSteering.Proofs.Text.Pieces

namespace VipSteering

open Text

namespace Host.Maglev

namespace Options

/-- The key of an option ends at the first equals sign. -/
theorem add_named (start key : String) (hs : start.toList = '-' :: '-' :: key.toList ++ ['='])
    (hk : '=' ∉ key.toList) (o : Options) (value : String) :
    o.add (start ++ value) = { o with named := (key, value) :: o.named } := by
  have hdrop : dropStart "--" (start ++ value) =
      some (String.ofList (key.toList ++ '=' :: value.toList)) := by
    rw [dropStart, String.toList_append, hs, List.append_assoc]
    rfl
  have hcut : cut '=' (String.ofList (key.toList ++ '=' :: value.toList)) = some (key, value) :=
    cut_eq_some.mpr ⟨String.toList_ofList, hk⟩
  rw [add, hdrop]
  simp only [hcut, Option.getD_some]

/-- A number is no option. -/
theorem add_number (o : Options) (n : UInt32) :
    o.add (toString n) = { o with others := o.others ++ [toString n] } := by
  have hdigits : ∀ c ∈ (toString n).toList, c ≠ '-' := by
    have hs : (toString n).toList = Nat.toDigits 10 n.toNat := Nat.toList_repr
    rw [hs]
    exact forall_mem_toDigits (by decide) (by decide) _
  have hdrop : dropStart "--" (toString n) = none := by
    rw [dropStart]
    cases hs : (toString n).toList with
    | nil => rfl
    | cons c rest =>
      have hc : c ≠ '-' := hdigits c (by rw [hs]; exact List.mem_cons_self)
      change (dropStartChars ['-', '-'] (c :: rest)).map _ = none
      rw [dropStartChars, if_neg (Ne.symm hc)]
      rfl
  rw [add, hdrop]

end Options

section Commands

variable (program name : String) (slot mark : UInt32)

theorem parse_initCommand :
    parse (Balancer.initCommand program name slot).args = .ok (.init name) := by
  rw [Balancer.initCommand, parse, Options.parse]
  simp only [List.foldl_cons, List.foldl_nil]
  rw [Options.add_named "--N=" "N" rfl (by decide),
    Options.add_named "--M=" "M" rfl (by decide),
    Options.add_named "--shm=" "shm" rfl (by decide)]
  rfl

theorem parse_deleteCommand :
    parse (Balancer.deleteCommand program name).args = .ok (.delete name) := by
  rw [Balancer.deleteCommand, parse, Options.parse]
  simp only [List.foldl_cons, List.foldl_nil]
  rw [Options.add_named "--shm=" "shm" rfl (by decide)]
  rfl

theorem parse_activateCommand :
    parse (Balancer.activateCommand program name slot mark).args =
      .ok (.activate name slot mark) := by
  rw [Balancer.activateCommand, parse, Options.parse]
  simp only [List.foldl_cons, List.foldl_nil]
  rw [Options.add_named "--index=" "index" rfl (by decide),
    Options.add_named "--shm=" "shm" rfl (by decide), Options.add_number]
  change (do
    let slot ← number (toString slot)
    return Request.activate name slot (← number (toString mark))) = _
  rw [number_toString, number_toString]
  rfl

theorem parse_deactivateCommand :
    parse (Balancer.deactivateCommand program name slot).args = .ok (.deactivate name slot) := by
  rw [Balancer.deactivateCommand, parse, Options.parse]
  simp only [List.foldl_cons, List.foldl_nil]
  rw [Options.add_named "--index=" "index" rfl (by decide),
    Options.add_named "--shm=" "shm" rfl (by decide)]
  change (do return Request.deactivate name (← number (toString slot))) = _
  rw [number_toString]
  rfl

end Commands

/-- The items of a list option: those between commas that are not empty. -/
def listed (items : List String) : List String :=
  (fields ',' (",".intercalate items)).filter (· ≠ "")

/-- The items of a list option that may select everything. -/
def narrowed (selectsAll : List String → Bool) (items : List String) : List String :=
  if selectsAll items then [] else listed items

/-- What the program makes of a flow of a service. -/
def entryOf (service : String) (f : Flow) : FlowEntry where
  target := service
  priority := f.selectors.priority
  protocols := f.selectors.protocols.map Protocol.text
  destinations := listed f.selectors.destinationCidrs
  sources := narrowed Wildcard.isAnyCidrList f.selectors.sourceCidrs
  destinationPorts := narrowed Wildcard.isAnyPortList f.selectors.destinationPorts
  sourcePorts := narrowed Wildcard.isAnyPortList f.selectors.sourcePorts
  byteMatches := listed f.selectors.byteMatches

theorem listed_nil : listed [] = [] := rfl

/-- Items that are not empty and have no comma are read as they are. -/
theorem listed_clean {items : List String} (h : ∀ item ∈ items, item ≠ "" ∧ ',' ∉ item.toList) :
    listed items = items := by
  cases items with
  | nil => rfl
  | cons item rest =>
    have hcomma : ∀ other ∈ item :: rest, ',' ∉ other.toList := fun other hi => (h other hi).2
    have hfields := fields_intercalate (List.cons_ne_nil item rest) hcomma
    rw [listed, show "," = String.singleton ',' from rfl, hfields, List.filter_eq_self]
    intro item hi
    simpa using (h item hi).1

theorem listed_protocols (ps : List Protocol) :
    listed (ps.map Protocol.text) = ps.map Protocol.text := by
  refine listed_clean fun item hi => ?_
  obtain ⟨p, -, rfl⟩ := List.mem_map.mp hi
  cases p <;> decide

/-- The option that a list is given by, as it is read. -/
def listPairs (key : String) (selectsAll : List String → Bool) (items : List String) :
    List (String × String) :=
  if items.isEmpty || selectsAll items then [] else [(key, ",".intercalate items)]

theorem foldl_listOption (key : String) (hk : '=' ∉ key.toList) (selectsAll : List String → Bool)
    (items : List String) (o : Options) :
    (Flow.listOption key selectsAll items).foldl Options.add o =
      { o with named := listPairs key selectsAll items ++ o.named } := by
  rw [Flow.listOption, listPairs]
  split
  · rfl
  · have hs : ("--" ++ key ++ "=").toList = '-' :: '-' :: key.toList ++ ['='] := by
      rw [String.toList_append, String.toList_append]
      rfl
    rw [List.foldl_cons, List.foldl_nil, Options.add_named _ key hs hk]
    rfl

/-- An option that is not given selects everything, too. -/
theorem list_listPairs (key : String) (selectsAll : List String → Bool) (items : List String)
    {rest : List (String × String)} (hrest : rest.lookup key = none) (others : List String) :
    Options.list ⟨listPairs key selectsAll items ++ rest, others⟩ key =
      narrowed selectsAll items := by
  rw [Options.list, Options.get?, listPairs, narrowed]
  cases items with
  | nil =>
    rw [if_pos (by simp), List.nil_append, hrest, listed_nil, ite_self]
  | cons item items =>
    rw [List.isEmpty_cons, Bool.false_or]
    by_cases hs : selectsAll (item :: items) = true
    · rw [if_pos hs, if_pos hs, List.nil_append, hrest]
    · rw [if_neg hs, if_neg hs, List.singleton_append, List.lookup_cons_self]
      rfl

theorem lookup_listPairs_of_ne {key other : String} (h : other ≠ key)
    (selectsAll : List String → Bool) (items : List String) (rest : List (String × String)) :
    (listPairs key selectsAll items ++ rest).lookup other = rest.lookup other := by
  rw [listPairs]
  split
  · rfl
  · have hne : (other == key) = false := by simpa using h
    simp [List.lookup_cons, hne]

/-- A list that is given by an option: its key, what selects everything, and the items. -/
abbrev ListOption := String × (List String → Bool) × List String

/-- List options in front of others, as they are read. -/
def withLists (lists : List ListOption) (base : List (String × String)) : List (String × String) :=
  lists.foldr (fun (key, selectsAll, items) rest => listPairs key selectsAll items ++ rest) base

theorem lookup_withLists {key : String} {lists : List ListOption} (hkey : key ∉ lists.map Prod.fst)
    (base : List (String × String)) : (withLists lists base).lookup key = base.lookup key := by
  induction lists with
  | nil => rfl
  | cons first rest ih =>
    rw [List.map_cons, List.mem_cons, not_or] at hkey
    exact (lookup_listPairs_of_ne hkey.1 _ _ _).trans (ih hkey.2)

theorem list_withLists {key : String} {selectsAll : List String → Bool} {items : List String}
    {lists : List ListOption} (hkeys : (lists.map Prod.fst).Nodup)
    (hmem : (key, selectsAll, items) ∈ lists) {base : List (String × String)}
    (hbase : base.lookup key = none) (others : List String) :
    Options.list ⟨withLists lists base, others⟩ key = narrowed selectsAll items := by
  induction lists with
  | nil => cases hmem
  | cons first rest ih =>
    rw [List.map_cons, List.nodup_cons] at hkeys
    rcases List.mem_cons.mp hmem with rfl | hmem
    · exact list_listPairs _ _ _ ((lookup_withLists hkeys.1 base).trans hbase) others
    · have hne : key ≠ first.1 := by
        intro heq
        rw [← heq] at hkeys
        exact hkeys.1 (List.mem_map.mpr ⟨_, hmem, rfl⟩)
      have hsame : Options.get? ⟨withLists (first :: rest) base, others⟩ key =
          Options.get? ⟨withLists rest base, others⟩ key := lookup_listPairs_of_ne hne _ _ _
      rw [← ih hkeys.2 hmem, Options.list, Options.list, hsame]

section SetCommand

variable (service : String) (f : Flow)

/-- The lists of a flow, the last that is given first. -/
def listsOf : List ListOption :=
  [("match", fun _ => false, f.selectors.byteMatches),
    ("sports", Wildcard.isAnyPortList, f.selectors.sourcePorts),
    ("dports", Wildcard.isAnyPortList, f.selectors.destinationPorts),
    ("srcs", Wildcard.isAnyCidrList, f.selectors.sourceCidrs),
    ("dsts", fun _ => false, f.selectors.destinationCidrs)]

/-- The options of a flow that are always given. -/
def plainOf : List (String × String) :=
  [("protocols", ",".intercalate (f.selectors.protocols.map Protocol.text)),
    ("prio", toString f.selectors.priority.toInt), ("target", service), ("name", f.name)]

def optionsOf : Options := ⟨withLists (listsOf f) (plainOf service f), []⟩

theorem parse_setCommand_options (program : String) :
    parse (f.setCommand program service).args = parseWith (optionsOf service f) "flow-set" := by
  have hargs : (f.setCommand program service).args =
      "flow-set" :: (["--name=" ++ f.name, "--target=" ++ service,
          "--prio=" ++ toString f.selectors.priority.toInt,
          "--protocols=" ++ ",".intercalate (f.selectors.protocols.map Protocol.text)] ++
        Flow.listOption "dsts" (fun _ => false) f.selectors.destinationCidrs ++
        Flow.listOption "srcs" Wildcard.isAnyCidrList f.selectors.sourceCidrs ++
        Flow.listOption "dports" Wildcard.isAnyPortList f.selectors.destinationPorts ++
        Flow.listOption "sports" Wildcard.isAnyPortList f.selectors.sourcePorts ++
        Flow.listOption "match" (fun _ => false) f.selectors.byteMatches) := rfl
  rw [hargs, parse, Options.parse, List.foldl_append, List.foldl_append, List.foldl_append,
    List.foldl_append, List.foldl_append]
  simp only [List.foldl_cons, List.foldl_nil]
  rw [Options.add_named "--name=" "name" rfl (by decide),
    Options.add_named "--target=" "target" rfl (by decide),
    Options.add_named "--prio=" "prio" rfl (by decide),
    Options.add_named "--protocols=" "protocols" rfl (by decide),
    foldl_listOption "dsts" (by decide), foldl_listOption "srcs" (by decide),
    foldl_listOption "dports" (by decide), foldl_listOption "sports" (by decide),
    foldl_listOption "match" (by decide)]
  rfl

theorem get?_optionsOf {key : String} (hkey : key ∉ ["match", "sports", "dports", "srcs", "dsts"]) :
    (optionsOf service f).get? key = (plainOf service f).lookup key :=
  lookup_withLists hkey _

theorem list_optionsOf {key : String} {selectsAll : List String → Bool} {items : List String}
    (hmem : (key, selectsAll, items) ∈ listsOf f) (hbase : (plainOf service f).lookup key = none) :
    (optionsOf service f).list key = narrowed selectsAll items := by
  have hkeys : ((listsOf f).map Prod.fst).Nodup := by
    change ["match", "sports", "dports", "srcs", "dsts"].Nodup
    decide
  exact list_withLists hkeys hmem hbase []

theorem flowOf_optionsOf : flowOf (optionsOf service f) = .ok (entryOf service f) := by
  have htarget : (optionsOf service f).get? "target" = some service :=
    get?_optionsOf service f (by decide)
  have hprio : (optionsOf service f).get? "prio" = some (toString f.selectors.priority.toInt) :=
    get?_optionsOf service f (by decide)
  have hprotocols : (optionsOf service f).list "protocols" =
      f.selectors.protocols.map Protocol.text := by
    rw [Options.list, get?_optionsOf service f (by decide)]
    exact listed_protocols f.selectors.protocols
  have hdsts : (optionsOf service f).list "dsts" =
      narrowed (fun _ => false) f.selectors.destinationCidrs :=
    list_optionsOf service f (by simp [listsOf]) rfl
  have hsrcs : (optionsOf service f).list "srcs" =
      narrowed Wildcard.isAnyCidrList f.selectors.sourceCidrs :=
    list_optionsOf service f (by simp [listsOf]) rfl
  have hdports : (optionsOf service f).list "dports" =
      narrowed Wildcard.isAnyPortList f.selectors.destinationPorts :=
    list_optionsOf service f (by simp [listsOf]) rfl
  have hsports : (optionsOf service f).list "sports" =
      narrowed Wildcard.isAnyPortList f.selectors.sourcePorts :=
    list_optionsOf service f (by simp [listsOf]) rfl
  have hmatch : (optionsOf service f).list "match" =
      narrowed (fun _ => false) f.selectors.byteMatches :=
    list_optionsOf service f (by simp [listsOf]) rfl
  rw [flowOf, hprio, Option.getD_some, readInt32_toString, htarget, hprotocols, hdsts, hsrcs,
    hdports, hsports, hmatch]
  rfl

end SetCommand

theorem parse_setCommand (program service : String) (f : Flow) :
    parse (f.setCommand program service).args = .ok (.setFlow f.name (entryOf service f)) := by
  have hname : (optionsOf service f).get? "name" = some f.name :=
    get?_optionsOf service f (by decide)
  rw [parse_setCommand_options]
  change (do
    let name ← (optionsOf service f).require "name"
    return Request.setFlow name (← flowOf (optionsOf service f))) = _
  rw [Options.require, hname, flowOf_optionsOf]
  rfl

theorem parse_flowDelete (program name : String) :
    parse (Flow.deleteCommand program name).args = .ok (.deleteFlow name) := by
  rw [Flow.deleteCommand, parse, Options.parse]
  simp only [List.foldl_cons, List.foldl_nil]
  rw [Options.add_named "--name=" "name" rfl (by decide)]
  rfl

theorem parse_flowList (program : String) : parse (Flow.listCommand program).args = .ok .listFlows :=
  rfl

end Host.Maglev
end VipSteering
