import Mathlib.Data.Bool.AllAny
import Mathlib.Data.List.TakeWhile
import VipSteering.Text.Split

namespace VipSteering.Text

/-- At a separator the fields of two texts meet. -/
theorem fieldChars_append_sep {isSep : Char → Bool} {c : Char} (hc : isSep c = true)
    (s rest : List Char) :
    fieldChars isSep (s ++ c :: rest) = fieldChars isSep s ++ fieldChars isSep rest := by
  induction s with
  | nil => simp [fieldChars, hc]
  | cons d s ih =>
    rw [List.cons_append, fieldChars, fieldChars]
    by_cases hd : isSep d = true
    · rw [if_pos hd, if_pos hd, ih]
      rfl
    · rw [if_neg hd, if_neg hd, ih]
      obtain ⟨f, fs, h⟩ := List.exists_cons_of_ne_nil (fieldChars_ne_nil isSep s)
      rw [h]
      rfl

theorem fieldChars_intercalate {sep : Char} {items : List (List Char)} (hne : items ≠ [])
    (h : ∀ item ∈ items, sep ∉ item) :
    fieldChars (· = sep) ([sep].intercalate items) = items := by
  have clean {item : List Char} (hi : sep ∉ item) : ∀ c ∈ item, decide (c = sep) = false := by
    intro c hc
    rw [decide_eq_false_iff_not]
    intro heq
    obtain rfl := heq
    exact hi hc
  induction items with
  | nil => exact absurd rfl hne
  | cons item rest ih =>
    simp only [List.mem_cons, forall_eq_or_imp] at h
    cases rest with
    | nil =>
      rw [List.intercalate_singleton]
      exact fieldChars_of_no_sep (clean h.1)
    | cons next rest =>
      rw [List.intercalate_cons_cons, List.append_assoc, List.singleton_append,
        fieldChars_append _ (clean h.1) (by simp), ih (by simp) h.2]

/-- Items that are read one by one, each without a fault. -/
theorem mapM_eq_map {α β : Type} {m : Type → Type} [Monad m] [LawfulMonad m] {read : α → m β}
    {g : α → β} {items : List α} (h : ∀ a ∈ items, read a = pure (g a)) :
    items.mapM read = pure (items.map g) := by
  induction items with
  | nil => rfl
  | cons a rest ih =>
    rw [List.forall_mem_cons] at h
    rw [List.mapM_cons, h.1, ih h.2, pure_bind, pure_bind, List.map_cons]

/-- What holds of the characters of the separator and of the items holds of all characters. -/
theorem forall_mem_intercalate {P : Char → Prop} {sep : List Char} {items : List (List Char)}
    (hs : ∀ c ∈ sep, P c) (h : ∀ item ∈ items, ∀ c ∈ item, P c) :
    ∀ c ∈ sep.intercalate items, P c := by
  induction items with
  | nil => simp
  | cons item rest ih =>
    simp only [List.mem_cons, forall_eq_or_imp] at h
    cases rest with
    | nil =>
      rw [List.intercalate_singleton]
      exact h.1
    | cons next rest =>
      intro c hc
      rw [List.intercalate_cons_cons, List.mem_append, List.mem_append] at hc
      rcases hc with (hc | hc) | hc
      · exact h.1 c hc
      · exact hs c hc
      · exact ih h.2 c hc

/-- Items without the separator are the fields of what they are joined to. -/
theorem fields_intercalate {sep : Char} {items : List String} (hne : items ≠ [])
    (h : ∀ item ∈ items, sep ∉ item.toList) :
    fields sep ((String.singleton sep).intercalate items) = items := by
  rw [fields, String.toList_intercalate, String.toList_singleton,
    fieldChars_intercalate (by simpa using hne)]
  · rw [List.map_map]
    simp [Function.comp_def]
  · intro item hi
    obtain ⟨s, hs, rfl⟩ := List.mem_map.mp hi
    exact h s hs

theorem cutChars_absent {sep : Char} {s : List Char} (h : sep ∉ s) : cutChars sep s = none := by
  induction s with
  | nil => rfl
  | cons c rest ih =>
    simp only [List.mem_cons, not_or] at h
    rw [cutChars, if_neg (Ne.symm h.1), ih h.2]
    rfl

theorem cutChars_eq_some {sep : Char} {s before after : List Char} :
    cutChars sep s = some (before, after) ↔ s = before ++ sep :: after ∧ sep ∉ before := by
  constructor
  · intro hcut
    induction s generalizing before with
    | nil => cases hcut
    | cons c rest ih =>
      rw [cutChars] at hcut
      split at hcut
      · rename_i hc
        cases hcut
        exact ⟨by rw [hc]; rfl, List.not_mem_nil⟩
      · rename_i hc
        obtain ⟨⟨front, back⟩, hrest, heq⟩ := Option.map_eq_some_iff.mp hcut
        cases heq
        obtain ⟨rfl, hfront⟩ := ih hrest
        exact ⟨rfl, fun hmem => (List.mem_cons.mp hmem).elim (fun h => hc h.symm) hfront⟩
  · intro hgiven
    obtain ⟨rfl, hbefore⟩ := hgiven
    exact cutChars_append after hbefore

theorem cut_eq_some {sep : Char} {s before after : String} : cut sep s = some (before, after) ↔
    s.toList = before.toList ++ sep :: after.toList ∧ sep ∉ before.toList := by
  rw [← cutChars_eq_some, cut]
  constructor
  · intro hcut
    obtain ⟨⟨front, back⟩, hchars, heq⟩ := Option.map_eq_some_iff.mp hcut
    cases heq
    rw [hchars, String.toList_ofList, String.toList_ofList]
  · intro hchars
    simp only [hchars, Option.map_some, String.ofList_toList]

theorem cut_eq_none {sep : Char} {s : String} : cut sep s = none ↔ sep ∉ s.toList := by
  constructor
  · intro hcut hmem
    obtain ⟨before, after, hs, hbefore⟩ := List.eq_append_cons_of_mem hmem
    rw [cut, hs, cutChars_append after hbefore] at hcut
    cases hcut
  · intro habsent
    rw [cut, cutChars_absent habsent]
    rfl

theorem afterChars_append {sep : Char} {front : List Char} (h : sep ∉ front) (n : Nat)
    (rest : List Char) : afterChars sep (n + 1) (front ++ sep :: rest) = afterChars sep n rest := by
  induction front with
  | nil => exact if_pos rfl
  | cons c front ih =>
    rw [List.mem_cons, not_or] at h
    rw [List.cons_append, afterChars, if_neg (Ne.symm h.1), ih h.2]

theorem words_append (s rest : String) : words (s ++ " " ++ rest) = words s ++ words rest := by
  rw [words, words, words, String.toList_append, String.toList_append, List.append_assoc]
  change ((fieldChars isBlank (s.toList ++ ' ' :: rest.toList)).filter _).map _ = _
  rw [fieldChars_append_sep (by decide), List.filter_append, List.map_append]

theorem occursInChars_append (pattern s : List Char) :
    occursInChars pattern (s ++ pattern) = true := by
  induction s with
  | nil =>
    rw [List.nil_append]
    cases pattern with
    | nil => rfl
    | cons c rest => rw [occursInChars, List.isPrefixOf_iff_prefix.mpr List.prefix_rfl, Bool.true_or]
  | cons c s ih => rw [List.cons_append, occursInChars, ih, Bool.or_true]

/-- A text ends with its last part. -/
theorem occursIn_append (s pattern : String) : occursIn pattern (s ++ pattern) = true := by
  rw [occursIn, String.toList_append]
  exact occursInChars_append pattern.toList s.toList

theorem dropWhile_eq_self {p : Char → Bool} {s : List Char}
    (h : ∀ c, s.head? = some c → p c = false) : s.dropWhile p = s := by
  cases s with
  | nil => rfl
  | cons c rest => rw [List.dropWhile_cons_of_neg (by simp [h c rfl])]

/-- Text that neither begins nor ends with a blank stays as it is. -/
theorem trimChars_eq_self {s : List Char} (hhead : ∀ c, s.head? = some c → isBlank c = false)
    (hlast : ∀ c, s.getLast? = some c → isBlank c = false) : trimChars s = s := by
  rw [trimChars, dropWhile_eq_self hhead, dropWhile_eq_self, List.reverse_reverse]
  rwa [List.head?_reverse]

/-- Blanks around a text without blanks are all that is dropped. -/
theorem trimChars_padded {before s after : List Char} (hb : ∀ c ∈ before, isBlank c = true)
    (hs : ∀ c ∈ s, isBlank c = false) (ha : ∀ c ∈ after, isBlank c = true) :
    trimChars (before ++ s ++ after) = s := by
  cases s with
  | nil =>
    have hall : ∀ c ∈ before ++ [] ++ after, isBlank c = true := by
      intro c hc
      rw [List.append_nil, List.mem_append] at hc
      exact hc.elim (hb c) (ha c)
    rw [trimChars, List.dropWhile_eq_nil_iff.mpr hall]
    rfl
  | cons d s =>
    have hd : isBlank d = false := hs d List.mem_cons_self
    have ha' : ∀ c ∈ after.reverse, isBlank c = true := by simpa using ha
    have hfront : (d :: s ++ after).dropWhile isBlank = d :: s ++ after :=
      dropWhile_eq_self fun c hc => by cases hc; exact hd
    have hback : (d :: s).reverse.dropWhile isBlank = (d :: s).reverse :=
      dropWhile_eq_self fun c hc => hs c (List.mem_reverse.mp (List.mem_of_head? hc))
    rw [trimChars, List.append_assoc, List.dropWhile_append_of_pos hb, hfront,
      List.reverse_append, List.dropWhile_append_of_pos ha', hback, List.reverse_reverse]

/-- What is dropped are blanks. -/
theorem exists_padding (s : List Char) : ∃ before after : List Char,
    s = before ++ trimChars s ++ after ∧ (∀ c ∈ before, isBlank c = true) ∧
      ∀ c ∈ after, isBlank c = true := by
  have hfront : s.takeWhile isBlank ++ s.dropWhile isBlank = s := List.takeWhile_append_dropWhile
  have hback := List.takeWhile_append_dropWhile (p := isBlank) (l := (s.dropWhile isBlank).reverse)
  rw [← List.reverse_inj, List.reverse_append, List.reverse_reverse] at hback
  refine ⟨s.takeWhile isBlank, ((s.dropWhile isBlank).reverse.takeWhile isBlank).reverse, ?_,
    fun c => List.mem_takeWhile_imp, fun c hc => List.mem_takeWhile_imp (List.mem_reverse.mp hc)⟩
  rw [List.append_assoc, trimChars, hback, hfront]

end VipSteering.Text
