import VipSteering.Proofs.Classifier.Sets
import VipSteering.Proofs.Json.Nesting
import VipSteering.Proofs.Net.Block

namespace VipSteering.Classifier

open Host Text

/-- A listing may show the interval so. -/
inductive Encodes (i : Interval) : Json → Prop where
  | address (hone : i.last = i.start) : Encodes i (.ofString i.start.text)
  | block {element named : Json} {length : Nat} (hblock : i.IsBlock length)
    (hnamed : element.member? "prefix" = some named)
    (haddress : named.member? "addr" = some (.ofString i.start.text))
    (hlength : named.member? "len" = some (.ofNat length)) : Encodes i element
  | range {element : Json} (hnamed : element.member? "prefix" = none)
    (hrange : element.member? "range" = some (.ofStrings [i.start.text, i.last.text])) :
    Encodes i element
  /-- The interval may be shown so together with a counter or a comment. -/
  | wrapped {element wrapper inner : Json} (hnamed : element.member? "prefix" = none)
    (hrange : element.member? "range" = none) (hwrapper : element.member? "elem" = some wrapper)
    (hvalue : wrapper.member? "val" = some inner) (hinner : Encodes i inner) : Encodes i element

section Read

variable {i : Interval}

theorem members_of_member? {j value : Json} {key : String} (h : j.member? key = some value) :
    ∃ members, j = .object members := by
  cases j with
  | object members => exact ⟨members, rfl⟩
  | _ => cases h

theorem readPrefix_block {length : Nat} {named : Json} (hplain : i.IsPlain)
    (hblock : i.IsBlock length)
    (haddress : named.member? "addr" = some (.ofString i.start.text))
    (hlength : named.member? "len" = some (.ofNat length)) : readPrefix named = .ok i := by
  have hwidth : Cidr.width i.start < UInt64.size := by
    cases i.start with
    | v4 bits => exact (by decide : 32 < UInt64.size)
    | v6 bits => exact (by decide : 128 < UInt64.size)
  have hread : Json.nat? UInt64.size (.ofNat length) = some length :=
    Json.nat?_ofNat (Nat.lt_of_le_of_lt hblock.length_le hwidth) (Nat.le_refl _)
  rw [readPrefix, haddress, hlength]
  simp only [Option.bind_some, Json.text?, Json.ofString, hread, hblock.parse_eq]
  rw [hblock.ofCidr_eq hplain.family_last]

theorem readWrapped_eq (element : Json) (members : List (Option String × Json)) :
    readWrapped element members = match members.lookup (some "elem") with
      | some value => readWrapping element value
      | none => .error (.unsupported element) := by
  induction members with
  | nil => rfl
  | cons member rest ih =>
    obtain ⟨key, value⟩ := member
    rw [readWrapped, List.lookup_cons]
    by_cases hkey : key = some "elem"
    · rw [if_pos hkey, hkey]
      rfl
    · rw [if_neg hkey, ih, beq_false_of_ne (Ne.symm hkey)]

theorem readValue_eq (element : Json) (members : List (Option String × Json)) :
    readValue element members = match members.lookup (some "val") with
      | some value => readElement value
      | none => .error (.unsupported element) := by
  induction members with
  | nil => rfl
  | cons member rest ih =>
    obtain ⟨key, value⟩ := member
    rw [readValue, List.lookup_cons]
    by_cases hkey : key = some "val"
    · rw [if_pos hkey, hkey]
      rfl
    · rw [if_neg hkey, ih, beq_false_of_ne (Ne.symm hkey)]

/-- In whatever form an interval is shown, it is read. -/
theorem readElement_encodes (hplain : i.IsPlain) {element : Json} (h : Encodes i element) :
    readElement element = .ok i := by
  induction h with
  | address hone =>
    have hread := readInclusive_text hplain.family_last
    rw [← i.stop_eq, hone] at hread
    exact hread
  | block hblock hnamed haddress hlength =>
    obtain ⟨members, rfl⟩ := members_of_member? hnamed
    rw [readElement, show members.lookup (some "prefix") = _ from hnamed]
    exact readPrefix_block hplain hblock haddress hlength
  | range hnamed hrange =>
    obtain ⟨members, rfl⟩ := members_of_member? hrange
    rw [readElement, show members.lookup (some "prefix") = _ from hnamed,
      show members.lookup (some "range") = _ from hrange]
    have hread := readInclusive_text hplain.family_last
    rw [← i.stop_eq] at hread
    exact hread
  | wrapped hnamed hrange hwrapper hvalue _ ih =>
    obtain ⟨members, rfl⟩ := members_of_member? hwrapper
    obtain ⟨inner, rfl⟩ := members_of_member? hvalue
    rw [readElement, show members.lookup (some "prefix") = _ from hnamed,
      show members.lookup (some "range") = _ from hrange]
    change readWrapped (.object members) members = _
    rw [readWrapped_eq, show members.lookup (some "elem") = _ from hwrapper]
    change readValue (.object members) inner = _
    rw [readValue_eq, show inner.lookup (some "val") = _ from hvalue]
    exact ih

end Read

/-- The text spells a document whose first set has the elements. -/
structure Shows (text : String) (document : Json) (elements : List Json) : Prop where
  spelled : Json.parse? text = some document
  listed : ∃ listing objects set, document.normal? = some listing ∧
    listing.member? "nftables" = some (.array objects) ∧
    objects.findSome? (Json.member? "set") = some set ∧
    ((set.member? "elem").bind Json.items?).getD [] = elements

theorem mapM_encodes {intervals : List Interval} (hplain : ∀ i ∈ intervals, i.IsPlain)
    {elements : List Json} (h : List.Forall₂ Encodes intervals elements) :
    elements.mapM readElement = .ok intervals := by
  induction h with
  | nil => rfl
  | cons hone _ ih =>
    rw [List.forall_mem_cons] at hplain
    rw [List.mapM_cons, readElement_encodes hplain.1 hone, ih hplain.2]
    rfl

/-- What a listing shows is read in its order, unless the listing is nested too deep. -/
theorem readListing_shows {text : String} {document : Json} {elements : List Json}
    (h : Shows text document elements) :
    readListing text = if document.nesting ≤ Json.maxNesting then elements.mapM readElement
      else .error .malformed := by
  obtain ⟨hspelled, listing, objects, set, hnormal, hobjects, hset, rfl⟩ := h
  rw [readListing, Json.parseGeneric?_eq hspelled, hnormal]
  by_cases hdeep : document.nesting ≤ Json.maxNesting
  · rw [if_pos hdeep, if_pos hdeep]
    dsimp only
    rw [hobjects]
    simp only [Option.bind_some, Json.items?, hset]
  · rw [if_neg hdeep, if_neg hdeep]

/-- A name that stands as one word in a line with elements. -/
def IsName (name : String) : Prop :=
  name ≠ "" ∧ ∀ c ∈ name.toList, isBlank c = false ∧ c ≠ '\x7b'

/-- The line of a script that adds intervals to a set. -/
def addLine (table set : String) (intervals : List Interval) : String :=
  "add element inet " ++ table ++ " " ++ set ++ " " ++ elementList intervals

def addCommand (table set : String) (intervals : List Interval) : Command :=
  script (addLine table set intervals ++ "\n")

/-- The balancer's own command that adds intervals. -/
theorem addCommand_eq (family : Family) (intervals : List Interval) :
    addCommand tableName (setName family) intervals = changeCommand family .add intervals := by
  have hstart : "add element inet " = "add" ++ " element inet " := by decide
  unfold addCommand addLine
  rw [hstart]
  rfl

section Named

variable {table set : String} {intervals : List Interval} {tables : FilterTables}
  {present : Std.ExtTreeSet String}

theorem IsName.words_eq {name : String} (h : IsName name) : words name = [name] := by
  have hne : name.toList ≠ [] := by simpa using h.1
  rw [words, fieldChars_of_no_sep fun c hc => (h.2 c hc).1,
    List.filter_cons_of_pos (by simpa using hne)]
  simp

theorem IsName.not_mem {name : String} (h : IsName name) {c : Char}
    (hc : isBlank c = true ∨ c = '\x7b') : c ∉ name.toList := by
  intro hmem
  obtain ⟨hblank, hopen⟩ := h.2 c hmem
  exact hc.elim (fun h => by rw [h] at hblank; cases hblank) hopen

theorem parseLine?_addLine (ht : IsName table) (hs : IsName set) :
    Nft.parseLine? (addLine table set intervals) =
      some (.addElements table set (intervals.map Interval.text)) := by
  have hstart : words "add element inet" = ["add", "element", "inet"] := by decide
  have hwords : words (addLine table set intervals) =
      "add" :: "element" :: "inet" :: table :: set :: words (elementList intervals) := by
    have hfront : "add element inet " = "add element inet" ++ " " := by decide
    unfold addLine
    rw [hfront, words_append, words_append, words_append, hstart, ht.words_eq, hs.words_eq]
    rfl
  have hopen : '\x7b' ∉ ("add element inet " ++ table ++ " " ++ set ++ " ").toList := by
    simp [ht.not_mem (.inr rfl), hs.not_mem (.inr rfl)]
  have helements := elementsOf_append hopen intervals
  rw [Nft.parseLine?, hwords]
  exact congrArg (fun elements => some (Nft.Statement.addElements table set elements)) helements

theorem isLine_addLine (ht : IsName table) (hs : IsName set) :
    IsLine (addLine table set intervals) := by
  have hblank : isBlank '\n' = true := by decide
  refine isLine_append ?_ ⟨'a', ?_, by decide⟩ intervals
  · simp [ht.not_mem (.inl hblank), hs.not_mem (.inl hblank)]
  · simp

/-- Elements are added to those that a set holds. -/
theorem execute_addCommand (intervals : List Interval) (ht : IsName table) (hs : IsName set)
    (h : setAt? tables table set = some present) :
    ∃ tables', Nft.execute (addCommand table set intervals).args
        (addCommand table set intervals).input tables = .ok ("", tables') ∧
      setAt? tables' table set = some (present.insertMany (intervals.map Interval.text)) := by
  obtain ⟨tables', hupdate, hset, -⟩ := updateSet?_setAt h
    (fun present => some (present.insertMany (intervals.map Interval.text))) rfl
  refine ⟨tables', ?_, hset⟩
  rw [addCommand, execute_line (isLine_addLine ht hs), Nft.applyLine, parseLine?_addLine ht hs]
  simp only [Nft.effect?, hupdate]

end Named

/-- The set holds the intervals and nothing else. -/
structure HoldsAll (h : Host) (table set : String) (intervals : List Interval) : Prop where
  table_name : IsName table
  set_name : IsName set
  plain : ∀ i ∈ intervals, i.IsPlain
  held : ∃ present, setAt? h.tables table set = some present ∧
    ∀ e, e ∈ present ↔ e ∈ intervals.map Interval.text

/-- What is listed is read as what is held. -/
theorem readListing_held (table set : String) {intervals : List Interval}
    (hplain : ∀ i ∈ intervals, i.IsPlain) {present : Std.ExtTreeSet String}
    (hpresent : ∀ e, e ∈ present ↔ e ∈ intervals.map Interval.text) :
    ∃ held, readListing (Nft.listing table set present.toList) = .ok held ∧ held.Nodup ∧
      ∀ i, i ∈ held ↔ i ∈ intervals := by
  have htexts (e : String) (he : e ∈ present) : ∃ i : Interval, i.IsPlain ∧ i.text = e := by
    obtain ⟨i, hi, heq⟩ := List.mem_map.mp ((hpresent e).mp he)
    exact ⟨i, hplain i hi, heq⟩
  obtain ⟨held, hheld, hlist, hsame⟩ := exists_present htexts
  have hnodup : (held.map Interval.text).Nodup := by
    rw [hlist]
    refine Std.ExtTreeSet.distinct_toList.imp fun hne heq => hne ?_
    rw [heq, Std.ReflOrd.compare_self]
  refine ⟨held, ?_, hnodup.of_map, fun i => ?_⟩
  · rw [← hlist]
    exact readListing_listing table set hheld
  · constructor
    · intro hi
      have hmem := (hpresent i.text).mp ((hsame i.text).mpr (List.mem_map_of_mem hi))
      exact (text_mem_iff (hheld i hi) hplain).mp hmem
    · intro hi
      have hmem := (hsame i.text).mp ((hpresent i.text).mpr (List.mem_map_of_mem hi))
      exact (text_mem_iff (hplain i hi) hheld).mp hmem

/-- Intervals that are added to a set are read from its listing, together with those that it held.
They are read from every other listing that shows them, in its order and in whatever forms it shows
them, as long as the listing is not nested deeper than documents may be. -/
theorem elements_decoded {intervals : List Interval} (hplain : ∀ i ∈ intervals, i.IsPlain) :
    (∀ {h : Host} {table set : String} {before : List Interval}, HoldsAll h table set before →
      ¬ h.Refuses (addCommand table set intervals) → ¬ h.Refuses (listSetCommand table set) →
      let added := Shell.run (addCommand table set intervals) h
      added.1 = .ok "" ∧ ∃ output held,
        (Shell.run (listSetCommand table set) added.2).1 = .ok output ∧
        readListing output = .ok held ∧ held.Nodup ∧
        ∀ i, i ∈ held ↔ i ∈ before ∨ i ∈ intervals) ∧
    ∀ {text : String} {document : Json} {elements : List Json}, Shows text document elements →
      List.Forall₂ Encodes intervals elements →
      readListing text =
        if document.nesting ≤ Json.maxNesting then .ok intervals else .error .malformed := by
  constructor
  · intro h table set before hholds hadd hlist added
    obtain ⟨present, hheld, hpresent⟩ := hholds.held
    obtain ⟨tables, hexecute, hset⟩ :=
      execute_addCommand intervals hholds.table_name hholds.set_name hheld
    have hrun : added = (.ok "", { h.record (addCommand table set intervals) with tables }) := by
      change Shell.run (addCommand table set intervals) h = _
      rw [run_nft_eq rfl, if_neg hadd, hexecute]
    rw [hrun]
    have hlist' : ¬ Host.Refuses { h.record (addCommand table set intervals) with tables }
        (listSetCommand table set) := hlist
    have hall : ∀ i ∈ before ++ intervals, i.IsPlain :=
      List.forall_mem_append.mpr ⟨hholds.plain, hplain⟩
    have hmany (e : String) : e ∈ present.insertMany (intervals.map Interval.text) ↔
        e ∈ (before ++ intervals).map Interval.text := by
      rw [Std.ExtTreeSet.mem_insertMany_list, List.contains_iff_mem, hpresent, List.map_append,
        List.mem_append]
    obtain ⟨held, hread, hnodup, hmem⟩ := readListing_held table set hall hmany
    refine ⟨rfl, Nft.listing table set _, held, ?_, hread, hnodup, fun i => ?_⟩
    · rw [run_nft_eq rfl, if_neg hlist', execute_listSetCommand hset]
    · rw [hmem, List.mem_append]
  · intro text document elements hshows hencodes
    rw [readListing_shows hshows, mapM_encodes hplain hencodes]

/-- A document that shows the elements. -/
def showing (elements : List Json) : Json :=
  .record [("nftables", .array [.record [("set", .record [("elem", .array elements)])]])]

/-- An element in wrappers. -/
def wrap (element : Json) : Nat → Json
  | 0 => element
  | n + 1 => .record [("elem", .record [("val", wrap element n)])]

theorem encodes_wrap {i : Interval} {element : Json} (h : Encodes i element) (n : Nat) :
    Encodes i (wrap element n) := by
  induction n with
  | zero => exact h
  | succ n ih => exact .wrapped rfl rfl rfl rfl ih

theorem plain_wrap {element : Json} (h : element.Plain) (n : Nat) : (wrap element n).Plain := by
  induction n with
  | zero => exact h
  | succ n ih => simp [wrap, ih]

theorem plain_showing {elements : List Json} (h : ∀ element ∈ elements, element.Plain) :
    (showing elements).Plain := by
  simpa [showing] using h

theorem normalize?_wrap {element : Json} {depth : Nat}
    (h : Json.normalize? depth element = some element) (n : Nat) :
    Json.normalize? (depth + 2 * n) (wrap element n) = some (wrap element n) := by
  induction n with
  | zero => exact h
  | succ n ih => exact Json.normalize?_single (Json.normalize?_single ih)

theorem nesting_wrap (element : Json) (n : Nat) :
    (wrap element n).nesting = element.nesting + 2 * n := by
  induction n with
  | zero => rfl
  | succ n ih =>
    simp only [wrap, Json.record_eq, List.map_cons, List.map_nil, Json.nesting,
      Json.nestingMembers, ih]
    omega

theorem normal?_showing {elements : List Json} {depth : Nat}
    (h : ∀ element ∈ elements, Json.normalize? depth element = some element) :
    (showing elements).normal? = some (showing elements) := by
  have hall : Json.normalize? (depth + 5) (showing elements) = some (showing elements) := by
    refine Json.normalize?_single (Json.normalize?_array (List.forall_mem_singleton.mpr ?_))
    exact Json.normalize?_single (Json.normalize?_single (Json.normalize?_array h))
  exact (Json.normal?_of_normalize? hall).1

/-- What is in normal form is shown as it is. -/
theorem shows_showing {elements : List Json} (depth : Nat)
    (hplain : ∀ element ∈ elements, element.Plain)
    (h : ∀ element ∈ elements, Json.normalize? depth element = some element) :
    Shows (showing elements).print (showing elements) elements :=
  ⟨Json.parse?_print (plain_showing hplain), _, _, _, normal?_showing h, rfl, rfl, rfl⟩

/-- Everything of a family, a range to the last address, and a single address. -/
def farIntervals : List Interval :=
  [⟨.v4 0, .v4 0⟩, ⟨.v6 5, .v6 0⟩, ⟨.v4 0x0A000001#32, .v4 0x0A000002#32⟩]

/-- How a listing may show them. -/
def farElements : List Json :=
  [.record [("prefix", .record [("addr", .ofString "0.0.0.0"), ("len", .ofNat 0)])],
    .record [("elem", .record [("counter", .record [("packets", .ofNat 3)]),
      ("val", .record [("range", .ofStrings ["::5", "ffff:ffff:ffff:ffff:ffff:ffff:ffff:ffff"])])])],
    wrap (.ofString "10.0.0.1") 2]

/-- A host whose set has one address. -/
def smallSet : Host where
  tables := (∅ : FilterTables).insert tableName
    { sets := (∅ : Std.ExtTreeMap String (Std.ExtTreeSet String)).insert (setName .ipv4)
        ((∅ : Std.ExtTreeSet String).insert "20.0.0.1") }

theorem farIntervals_decoded :
    let held : Interval := ⟨.v4 0x14000001#32, .v4 0x14000002#32⟩
    let added := Shell.run (changeCommand .ipv4 .add farIntervals) smallSet
    (∀ i ∈ farIntervals, i.IsPlain) ∧ HoldsAll smallSet tableName (setName .ipv4) [held] ∧
    added.1 = .ok "" ∧
    (∃ output listed, (Shell.run (listCommand .ipv4) added.2).1 = .ok output ∧
      readListing output = .ok listed ∧ ∀ i, i ∈ listed ↔ i ∈ [held] ∨ i ∈ farIntervals) ∧
    Shows (showing farElements).print (showing farElements) farElements ∧
    List.Forall₂ Encodes farIntervals farElements ∧
    readListing (showing farElements).print = .ok farIntervals := by
  intro single added
  have hplain : ∀ i ∈ farIntervals, i.IsPlain := by
    simp [farIntervals, Interval.IsPlain, Address.family]
  have hholds : HoldsAll smallSet tableName (setName .ipv4) [single] := by
    have htable : IsName tableName := ⟨by decide, List.all_iff_forall_prop.mp (by decide)⟩
    have hset : IsName (setName .ipv4) := ⟨by decide, List.all_iff_forall_prop.mp (by decide)⟩
    refine ⟨htable, hset, List.forall_mem_singleton.mpr rfl, _, rfl, fun e => ?_⟩
    have htext : single.text = "20.0.0.1" := by decide
    rw [mem_insertItem, List.map_singleton, List.mem_singleton, htext]
    simp
  have hshows : Shows (showing farElements).print (showing farElements) farElements := by
    refine shows_showing 5 ?_ ?_
    · simp [farElements, wrap]
    · simp only [farElements, List.forall_mem_cons]
      exact ⟨rfl, rfl, rfl, List.forall_mem_nil _⟩
  have hencodes : List.Forall₂ Encodes farIntervals farElements := by
    refine .cons ?_ (.cons ?_ (.cons ?_ .nil))
    · have hblock : Interval.IsBlock ⟨.v4 0, .v4 0⟩ 0 := ⟨by decide, by decide, by decide⟩
      exact .block hblock rfl rfl rfl
    · exact .wrapped rfl rfl rfl rfl (.range rfl rfl)
    · exact encodes_wrap (.address rfl) 2
  obtain ⟨hread, hdecode⟩ := elements_decoded hplain
  have hadded := hread hholds (not_refuses rfl _) (not_refuses rfl _)
  rw [addCommand_eq] at hadded
  obtain ⟨hok, output, held, hlisted, houtput, -, hmem⟩ := hadded
  refine ⟨hplain, hholds, hok, ⟨output, held, hlisted, houtput, hmem⟩, hshows, hencodes, ?_⟩
  rw [hdecode hshows hencodes, if_pos (by decide)]

/-- An address in so many wrappers is not read. -/
theorem wrapped_malformed :
    let i : Interval := ⟨.v4 0x14000001#32, .v4 0x14000002#32⟩
    let elements := [wrap (.ofString "20.0.0.1") 62]
    i.IsPlain ∧ Shows (showing elements).print (showing elements) elements ∧
      List.Forall₂ Encodes [i] elements ∧
      readListing (showing elements).print ≠ .ok [i] := by
  intro i elements
  have hshows : Shows (showing elements).print (showing elements) elements :=
    shows_showing (0 + 2 * 62) (List.forall_mem_singleton.mpr (plain_wrap (Json.plain_ofString _) 62))
      (List.forall_mem_singleton.mpr (normalize?_wrap rfl 62))
  have hnesting : (showing elements).nesting = 129 := by
    simp only [showing, elements, Json.record_eq, List.map_cons, List.map_nil, Json.nesting,
      Json.nestingMembers, Json.nestingItems, nesting_wrap, Json.ofString]
    omega
  refine ⟨rfl, hshows, .cons (encodes_wrap (.address rfl) 62) .nil, ?_⟩
  rw [readListing_shows hshows, hnesting, if_neg (by decide)]
  intro hread
  cases hread

end VipSteering.Classifier
