import VipSteering.Classifier.Basic
import VipSteering.Proofs.Classifier.Elements
import VipSteering.Proofs.Host.Basic

namespace VipSteering

open Host Text

namespace Classifier

/-- A line that is neither broken nor trimmed. -/
structure IsLine (line : String) : Prop where
  newline : '\n' ∉ line.toList
  head : ∃ c, line.toList.head? = some c ∧ isBlank c = false
  last : ∃ c, line.toList.getLast? = some c ∧ isBlank c = false

theorem IsLine.trim_eq {line : String} (h : IsLine line) : trim line = line := by
  obtain ⟨c, hc, hcb⟩ := h.head
  obtain ⟨d, hd, hdb⟩ := h.last
  rw [trim, trimChars_eq_self, String.ofList_toList]
  · intro e he
    rw [hc] at he
    rwa [← Option.some.inj he]
  · intro e he
    rw [hd] at he
    rwa [← Option.some.inj he]

theorem IsLine.ne_empty {line : String} (h : IsLine line) : line ≠ "" := by
  intro heq
  obtain rfl := heq
  obtain ⟨c, hc, -⟩ := h.head
  cases hc

/-- A script falls apart into its lines. -/
theorem linesOf_join {lines : List String} (h : ∀ line ∈ lines, IsLine line) :
    Nft.linesOf (String.join (lines.map (· ++ "\n"))) = lines := by
  induction lines with
  | nil => decide
  | cons line rest ih =>
    simp only [List.mem_cons, forall_eq_or_imp] at h
    have hclean : ∀ c ∈ line.toList, decide (c = '\n') = false := by
      intro c hc
      rw [decide_eq_false_iff_not]
      intro heq
      obtain rfl := heq
      exact h.1.newline hc
    have hfields : fields '\n' (String.join ((line :: rest).map (· ++ "\n"))) =
        line :: fields '\n' (String.join (rest.map (· ++ "\n"))) := by
      rw [fields, List.map_cons, String.join_cons, String.toList_append, String.toList_append,
        List.append_assoc]
      change (fieldChars _ (line.toList ++ '\n' :: _)).map _ = _
      rw [fieldChars_append _ hclean (by decide), List.map_cons, String.ofList_toList]
      rfl
    rw [Nft.linesOf, hfields, List.map_cons, h.1.trim_eq,
      List.filter_cons_of_pos (by simpa using h.1.ne_empty)]
    exact congrArg (line :: ·) (ih h.2)

theorem execute_script (text : String) (tables : FilterTables) :
    Nft.execute (script text).args (script text).input tables =
      match Nft.applyLines (Nft.linesOf text) tables with
      | .error fault => .error fault
      | .ok tables => .ok ("", tables) := rfl

/-- The line of a script that alters a set. -/
def changeLine (family : Family) (change : Change) (intervals : List Interval) : String :=
  change.verb ++ " element inet " ++ tableName ++ " " ++ setName family ++ " " ++
    elementList intervals

/-- Neither blanks nor what separates elements occur in an element. -/
theorem clean_text (i : Interval) :
    ∀ c ∈ i.text.toList, isBlank c = false ∧ c ≠ ',' ∧ c ≠ '\x7b' ∧ c ≠ '\x7d' := by
  have halphabet : ∀ c ∈ '-' :: Address.alphabet,
      isBlank c = false ∧ c ≠ ',' ∧ c ≠ '\x7b' ∧ c ≠ '\x7d' :=
    List.all_iff_forall_prop.mp (by decide)
  intro c hc
  apply halphabet
  rw [Interval.text] at hc
  split at hc
  · rw [Address.toList_text] at hc
    exact List.mem_cons_of_mem _ (Address.chars_alphabet _ c hc)
  · rw [String.toList_append, String.toList_append, Address.toList_text, Address.toList_text,
      List.mem_append, List.mem_append] at hc
    rcases hc with (hc | hc) | hc
    · exact List.mem_cons_of_mem _ (Address.chars_alphabet _ c hc)
    · rw [show "-".toList = ['-'] from rfl, List.mem_singleton] at hc
      rw [hc]
      exact List.mem_cons_self
    · exact List.mem_cons_of_mem _ (Address.chars_alphabet _ c hc)

theorem text_ne_nil (i : Interval) : i.text.toList ≠ [] := by
  rw [Interval.text]
  split
  · rw [Address.toList_text]
    exact Address.chars_ne_nil _
  · simp

/-- Texts in a list with commas and blanks fall apart into the texts. -/
theorem fields_elements {texts : List (List Char)} (hne : texts ≠ [])
    (h : ∀ t ∈ texts, t ≠ [] ∧ ∀ c ∈ t, isBlank c = false ∧ c ≠ ',') :
    ((fieldChars (· = ',') (' ' :: ", ".toList.intercalate texts ++ [' '])).map trimChars).filter
      (· ≠ []) = texts := by
  have hblank : ∀ c ∈ [' '], isBlank c = true := List.forall_mem_singleton.mpr (by decide)
  induction texts with
  | nil => exact absurd rfl hne
  | cons t rest ih =>
    simp only [List.mem_cons, forall_eq_or_imp] at h
    obtain ⟨⟨htne, ht⟩, hrest⟩ := h
    have hcomma : ∀ c ∈ ' ' :: t, decide (c = ',') = false := by
      simp only [List.mem_cons, forall_eq_or_imp, decide_eq_false_iff_not]
      exact ⟨by decide, fun c hc => (ht c hc).2⟩
    cases rest with
    | nil =>
      have hall : ∀ c ∈ ' ' :: t ++ [' '], decide (c = ',') = false := by
        simp only [List.mem_append, or_imp, forall_and]
        exact ⟨hcomma, List.forall_mem_singleton.mpr (by decide)⟩
      have htrim : trimChars ([' '] ++ t ++ [' ']) = t :=
        trimChars_padded hblank (fun c hc => (ht c hc).1) hblank
      rw [List.intercalate_singleton, fieldChars_of_no_sep hall, List.map_singleton]
      change [trimChars ([' '] ++ t ++ [' '])].filter _ = [t]
      rw [htrim, List.filter_cons_of_pos (by simpa using htne), List.filter_nil]
    | cons next rest =>
      have hsplit : ' ' :: ", ".toList.intercalate (t :: next :: rest) ++ [' '] =
          (' ' :: t) ++ ',' :: (' ' :: ", ".toList.intercalate (next :: rest) ++ [' ']) := by
        rw [List.intercalate_cons_cons, show ", ".toList = [',', ' '] from rfl]
        simp
      have htrim : trimChars (' ' :: t) = t := by
        have hend : ∀ c ∈ ([] : List Char), isBlank c = true := by simp
        have := trimChars_padded hblank (fun c hc => (ht c hc).1) hend
        rwa [List.append_nil] at this
      rw [hsplit, fieldChars_append _ hcomma (by decide), List.map_cons, htrim,
        List.filter_cons_of_pos (by simpa using htne), ih (by simp) hrest]

theorem toList_elementList (intervals : List Interval) :
    (elementList intervals).toList =
      '\x7b' :: (' ' :: ", ".toList.intercalate ((intervals.map Interval.text).map String.toList) ++
        [' '] ++ ['\x7d']) := by
  rw [elementList, String.toList_append, String.toList_append, String.toList_intercalate]
  simp

section Elements

variable {front : String}

/-- The elements of a line that ends with intervals are the texts of the intervals. -/
theorem elementsOf_append (hopen : '\x7b' ∉ front.toList) (intervals : List Interval) :
    Nft.elementsOf (front ++ elementList intervals) = intervals.map Interval.text := by
  have hbraced : Nft.bracedChars (front ++ elementList intervals).toList =
      ' ' :: ", ".toList.intercalate ((intervals.map Interval.text).map String.toList) ++ [' '] := by
    rw [Nft.bracedChars, String.toList_append, toList_elementList, cutChars_append _ hopen]
    simp only [List.reverse_append, List.reverse_singleton, List.singleton_append]
    rw [cutChars, if_pos rfl]
    simp
  rw [Nft.elementsOf, hbraced]
  by_cases hne : intervals = []
  · rw [hne]
    decide
  rw [fields_elements]
  · simp [Function.comp_def]
  · simpa using hne
  · intro t ht
    rw [List.map_map] at ht
    obtain ⟨i, -, rfl⟩ := List.mem_map.mp ht
    exact ⟨text_ne_nil i, fun c hc => ⟨(clean_text i c hc).1, (clean_text i c hc).2.1⟩⟩

theorem isLine_append (hnewline : '\n' ∉ front.toList)
    (hhead : ∃ c, front.toList.head? = some c ∧ isBlank c = false) (intervals : List Interval) :
    IsLine (front ++ elementList intervals) where
  newline := by
    have hitems : ∀ c ∈ ", ".toList.intercalate
        ((intervals.map Interval.text).map String.toList), c ≠ '\n' := by
      refine forall_mem_intercalate (List.all_iff_forall_prop.mp (by decide)) fun item hi c hc => ?_
      rw [List.map_map] at hi
      obtain ⟨i, -, rfl⟩ := List.mem_map.mp hi
      intro heq
      obtain rfl := heq
      exact absurd (clean_text i _ hc).1 (by decide)
    rw [String.toList_append, toList_elementList]
    simp only [List.mem_append, List.mem_cons, List.not_mem_nil, or_false, not_or]
    exact ⟨hnewline, by decide, ⟨⟨by decide, fun h => hitems _ h rfl⟩, by decide⟩, by decide⟩
  head := by
    obtain ⟨c, hc, hblank⟩ := hhead
    exact ⟨c, by rw [String.toList_append, List.head?_append, hc, Option.some_or], hblank⟩
  last := by
    refine ⟨'\x7d', ?_, by decide⟩
    rw [String.toList_append, toList_elementList, ← List.cons_append, ← List.append_assoc,
      List.getLast?_concat]

/-- A script of one line. -/
theorem execute_line {line : String} (hline : IsLine line) (tables : FilterTables) :
    Nft.execute (script (line ++ "\n")).args (script (line ++ "\n")).input tables =
      match Nft.applyLine line tables with
      | .error fault => .error fault
      | .ok tables => .ok ("", tables) := by
  have hlines : Nft.linesOf (line ++ "\n") = [line] := by
    have := linesOf_join (List.forall_mem_singleton.mpr hline)
    rwa [List.map_singleton, String.join_cons, String.join_nil, String.append_empty] at this
  rw [execute_script, hlines, Nft.applyLines]
  cases Nft.applyLine line tables <;> rfl

end Elements

section ChangeLine

variable (family : Family) (change : Change) {intervals : List Interval}

theorem words_changeLine (intervals : List Interval) :
    words (changeLine family change intervals) =
      [change.verb, "element", "inet", tableName, setName family] ++
        words (elementList intervals) := by
  have hstart : words (change.verb ++ " element inet " ++ tableName ++ " " ++ setName family) =
      [change.verb, "element", "inet", tableName, setName family] := by
    cases change <;> cases family <;> decide
  rw [changeLine, words_append, hstart]

theorem elementsOf_changeLine (intervals : List Interval) :
    Nft.elementsOf (changeLine family change intervals) = intervals.map Interval.text := by
  refine elementsOf_append ?_ intervals
  cases change <;> cases family <;> decide

/-- What the line asks for. -/
def changeStatement (intervals : List Interval) : Nft.Statement :=
  match change with
  | .delete => .deleteElements tableName (setName family) (intervals.map Interval.text)
  | .add => .addElements tableName (setName family) (intervals.map Interval.text)

theorem parseLine?_changeLine (intervals : List Interval) :
    Nft.parseLine? (changeLine family change intervals) =
      some (changeStatement family change intervals) := by
  rw [Nft.parseLine?, words_changeLine, elementsOf_changeLine]
  cases change <;> rfl

theorem isLine_changeLine (intervals : List Interval) :
    IsLine (changeLine family change intervals) := by
  refine isLine_append ?_ ?_ intervals
  · cases change <;> cases family <;> decide
  · cases change with
    | delete => exact ⟨'d', by cases family <;> decide, by decide⟩
    | add => exact ⟨'a', by cases family <;> decide, by decide⟩

theorem changeCommand_eq (intervals : List Interval) :
    changeCommand family change intervals = script (changeLine family change intervals ++ "\n") :=
  rfl

/-- The command is a script of one line. -/
theorem execute_changeCommand_eq (intervals : List Interval) (tables : FilterTables) :
    Nft.execute (changeCommand family change intervals).args
        (changeCommand family change intervals).input tables =
      match Nft.effect? (changeStatement family change intervals) tables with
      | none => .error ("Error: Could not process rule: " ++ absent ++ ": " ++
          changeLine family change intervals)
      | some tables' => .ok ("", tables') := by
  rw [changeCommand_eq, execute_line (isLine_changeLine family change intervals), Nft.applyLine,
    parseLine?_changeLine]
  dsimp only
  cases Nft.effect? (changeStatement family change intervals) tables <;> rfl

theorem execute_changeCommand {tables tables' : FilterTables}
    (h : Nft.effect? (changeStatement family change intervals) tables = some tables') :
    Nft.execute (changeCommand family change intervals).args
      (changeCommand family change intervals).input tables = .ok ("", tables') := by
  rw [execute_changeCommand_eq, h]

end ChangeLine

end Classifier
end VipSteering
