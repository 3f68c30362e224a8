import Std.Data.ExtTreeMap
import Std.Data.ExtTreeSet

namespace VipSteering

variable {α β : Type} [Ord α] [Std.TransOrd α]

/-- The items for which `p` holds. -/
def keepItems (p : α → Bool) (items : Std.ExtTreeSet α) : Std.ExtTreeSet α :=
  .ofList (items.toList.filter p)

/-- The entries for which `p` holds. -/
def keepEntries (p : α → β → Bool) (entries : Std.ExtTreeMap α β) : Std.ExtTreeMap α β :=
  .ofList (entries.toList.filter fun (key, value) => p key value)

variable [Std.LawfulEqOrd α]

/-- What is not there cannot be erased. -/
theorem erase_absent {entries : Std.ExtTreeMap α β} {key : α} (h : entries[key]? = none) :
    entries.erase key = entries := by
  refine Std.ExtTreeMap.ext_getElem? fun k => ?_
  rw [Std.ExtTreeMap.getElem?_erase]
  split
  · rename_i heq
    rw [← Std.LawfulEqOrd.eq_of_compare heq, h]
  · rfl

/-- What is there already need not be inserted. -/
theorem insert_present {entries : Std.ExtTreeMap α β} {key : α} {value : β}
    (h : entries[key]? = some value) : entries.insert key value = entries := by
  refine Std.ExtTreeMap.ext_getElem? fun k => ?_
  rw [Std.ExtTreeMap.getElem?_insert]
  split
  · rename_i heq
    rw [← Std.LawfulEqOrd.eq_of_compare heq, h]
  · rfl

/-- What is inserted last is what is there. -/
theorem insert_insert (entries : Std.ExtTreeMap α β) (key : α) (value value' : β) :
    (entries.insert key value).insert key value' = entries.insert key value' := by
  refine Std.ExtTreeMap.ext_getElem? fun k => ?_
  rw [Std.ExtTreeMap.getElem?_insert, Std.ExtTreeMap.getElem?_insert,
    Std.ExtTreeMap.getElem?_insert]
  split <;> rfl

section Entries

variable {entries : Std.ExtTreeMap α β} {key k : α} {value v : β}

omit [Std.LawfulEqOrd α] in
theorem mem_of_getElem? (h : entries[key]? = some value) : key ∈ entries := by
  rw [Std.ExtTreeMap.mem_iff_isSome_getElem?, h]
  rfl

omit [Std.LawfulEqOrd α] in
theorem not_mem_of_getElem? (h : entries[key]? = none) : key ∉ entries := by
  simp [Std.ExtTreeMap.mem_iff_isSome_getElem?, h]

omit [Std.LawfulEqOrd α] in
theorem exists_of_mem (h : key ∈ entries) : ∃ value, entries[key]? = some value := by
  rwa [Std.ExtTreeMap.mem_iff_isSome_getElem?, Option.isSome_iff_exists] at h

theorem getElem?_insert_of_ne (h : key ≠ k) (value : β) :
    (entries.insert key value)[k]? = entries[k]? := by
  rw [Std.ExtTreeMap.getElem?_insert, if_neg fun heq => h (Std.LawfulEqOrd.eq_of_compare heq)]

theorem getElem?_erase_of_ne (h : key ≠ k) : (entries.erase key)[k]? = entries[k]? := by
  rw [Std.ExtTreeMap.getElem?_erase, if_neg fun heq => h (Std.LawfulEqOrd.eq_of_compare heq)]

theorem mem_insert_iff : k ∈ entries.insert key value ↔ k ∈ entries ∨ key = k := by
  rw [Std.ExtTreeMap.mem_insert, Std.compare_eq_iff_eq, or_comm]

theorem mem_erase_iff : k ∈ entries.erase key ↔ k ∈ entries ∧ k ≠ key := by
  rw [Std.ExtTreeMap.mem_erase, ne_eq, Std.compare_eq_iff_eq, eq_comm, and_comm]

/-- What is found after an insertion is the new entry or one of the others. -/
theorem of_getElem?_insert (h : (entries.insert key value)[k]? = some v) :
    (k = key ∧ v = value) ∨ (k ≠ key ∧ entries[k]? = some v) := by
  by_cases hk : key = k
  · subst hk
    rw [Std.ExtTreeMap.getElem?_insert_self] at h
    exact .inl ⟨rfl, (Option.some.inj h).symm⟩
  · rw [getElem?_insert_of_ne hk] at h
    exact .inr ⟨Ne.symm hk, h⟩

theorem of_getElem?_erase (h : (entries.erase key)[k]? = some v) :
    k ≠ key ∧ entries[k]? = some v := by
  by_cases hk : key = k
  · subst hk
    simp at h
  · rw [getElem?_erase_of_ne hk] at h
    exact ⟨Ne.symm hk, h⟩

theorem of_getElem?_insertMany {added : List (α × β)} {entries : Std.ExtTreeMap α β}
    (h : (entries.insertMany added)[k]? = some v) : (k, v) ∈ added ∨ entries[k]? = some v := by
  induction added generalizing entries with
  | nil => exact .inr (by simpa using h)
  | cons entry rest ih =>
    rw [Std.ExtTreeMap.insertMany_cons] at h
    rcases ih h with hmem | hget
    · exact .inl (List.mem_cons_of_mem _ hmem)
    · rcases of_getElem?_insert hget with ⟨rfl, rfl⟩ | ⟨-, hget⟩
      · exact .inl List.mem_cons_self
      · exact .inr hget

/-- What a store of a list holds is in the list. -/
theorem mem_of_getElem?_ofList {added : List (α × β)}
    (h : (Std.ExtTreeMap.ofList added)[k]? = some v) : (k, v) ∈ added := by
  rw [Std.ExtTreeMap.ofList_eq_insertMany_empty] at h
  rcases of_getElem?_insertMany h with hmem | hget
  · exact hmem
  · simp at hget

theorem getElem?_insertMany [DecidableEq α] (added : List (α × β)) (entries : Std.ExtTreeMap α β)
    (k : α) : (entries.insertMany added)[k]? =
      ((added.filter (·.1 = k)).getLast?.map (·.2)).or entries[k]? := by
  induction added generalizing entries with
  | nil => simp
  | cons entry rest ih =>
    rw [Std.ExtTreeMap.insertMany_cons, ih]
    by_cases hk : entry.1 = k
    · rw [List.filter_cons_of_pos (by simpa using hk), List.getLast?_cons, ← hk,
        Std.ExtTreeMap.getElem?_insert_self]
      cases (rest.filter (·.1 = entry.1)).getLast? <;> rfl
    · rw [List.filter_cons_of_neg (by simpa using hk), getElem?_insert_of_ne hk]

/-- The last of several entries of a key wins. -/
theorem getElem?_ofList [DecidableEq α] (added : List (α × β)) (k : α) :
    (Std.ExtTreeMap.ofList added)[k]? = (added.filter (·.1 = k)).getLast?.map (·.2) := by
  rw [Std.ExtTreeMap.ofList_eq_insertMany_empty, getElem?_insertMany]
  simp

/-- If no two entries of a list share a key, its store holds them all. -/
theorem getElem?_ofList_iff {added : List (α × β)} (h : (added.map (·.1)).Nodup) :
    (Std.ExtTreeMap.ofList added)[k]? = some v ↔ (k, v) ∈ added := by
  refine ⟨mem_of_getElem?_ofList, fun hmem => ?_⟩
  refine Std.ExtTreeMap.getElem?_ofList_of_mem Std.ReflCmp.compare_self ?_ hmem
  refine (List.pairwise_map.mp h).imp fun hne heq => hne ?_
  exact Std.LawfulEqOrd.eq_of_compare heq

/-- Entries with keys of their own may come in any order. -/
theorem ofList_perm {added added' : List (α × β)} (h : added.Perm added')
    (hkeys : (added.map (·.1)).Nodup) :
    Std.ExtTreeMap.ofList added = Std.ExtTreeMap.ofList added' := by
  have hkeys' : (added'.map (·.1)).Nodup := (h.map _).nodup_iff.mp hkeys
  refine Std.ExtTreeMap.ext_getElem? fun k => Option.ext fun v => ?_
  rw [getElem?_ofList_iff hkeys, getElem?_ofList_iff hkeys', h.mem_iff]

theorem getElem?_ofList_append [DecidableEq α] (front back : List (α × β)) (k : α) :
    (Std.ExtTreeMap.ofList (front ++ back))[k]? =
      (Std.ExtTreeMap.ofList back)[k]?.or (Std.ExtTreeMap.ofList front)[k]? := by
  rw [getElem?_ofList, getElem?_ofList, getElem?_ofList, List.filter_append, List.getLast?_append,
    Option.map_or]

omit [Std.LawfulEqOrd α] in
theorem values_eq (entries : Std.ExtTreeMap α β) : entries.values = entries.toList.map (·.2) := by
  obtain ⟨⟨q⟩⟩ := entries
  induction q using Quotient.inductionOn with
  | h tree =>
    change tree.inner.values = (Std.DTreeMap.Internal.Impl.Const.toList tree.inner).map (·.2)
    rw [Std.DTreeMap.Internal.Impl.values_eq_map_snd,
      Std.DTreeMap.Internal.Impl.Const.toList_eq_toListModel_map, List.map_map]
    rfl

theorem mem_values [DecidableEq α] :
    value ∈ entries.values ↔ ∃ key : α, entries[key]? = some value := by
  simp only [values_eq, List.mem_map, Prod.exists, exists_eq_right,
    Std.ExtTreeMap.mem_toList_iff_getElem?_eq_some]

end Entries

section Items

variable {items : Std.ExtTreeSet α} {a b : α}

theorem mem_insertItem : b ∈ items.insert a ↔ b ∈ items ∨ b = a := by
  rw [Std.ExtTreeSet.mem_insert, Std.compare_eq_iff_eq, or_comm, eq_comm]

theorem mem_eraseItem : b ∈ items.erase a ↔ b ∈ items ∧ b ≠ a := by
  rw [Std.ExtTreeSet.mem_erase, ne_eq, Std.compare_eq_iff_eq, and_comm, eq_comm]

theorem eraseItem_absent (h : a ∉ items) : items.erase a = items := by
  refine Std.ExtTreeSet.ext_mem fun b => ?_
  rw [mem_eraseItem, and_iff_left_iff_imp]
  intro hb heq
  rw [heq] at hb
  exact h hb

theorem insertItem_present (h : a ∈ items) : items.insert a = items := by
  refine Std.ExtTreeSet.ext_mem fun b => ?_
  rw [mem_insertItem, or_iff_left_iff_imp]
  intro heq
  rwa [heq]

theorem insert_eraseItem (items : Std.ExtTreeSet α) (a : α) :
    (items.erase a).insert a = items.insert a := by
  refine Std.ExtTreeSet.ext_mem fun b => ?_
  rw [mem_insertItem, mem_insertItem, mem_eraseItem]
  by_cases heq : b = a
  · simp [heq]
  · simp [heq]

end Items

variable [DecidableEq α]

theorem mem_keepItems {p : α → Bool} {items : Std.ExtTreeSet α} {a : α} :
    a ∈ keepItems p items ↔ a ∈ items ∧ p a = true := by
  rw [keepItems, Std.ExtTreeSet.mem_ofList, List.contains_iff_mem, List.mem_filter,
    Std.ExtTreeSet.mem_toList]

/-- If a single item is dropped, it alone is missing. -/
theorem insert_keepItems {p : α → Bool} {items : Std.ExtTreeSet α} {a : α}
    (h : items.toList.filter p = [a]) : (keepItems (!p ·) items).insert a = items := by
  have hmem (b : α) : b ∈ items ∧ p b = true ↔ b = a := by
    rw [← Std.ExtTreeSet.mem_toList, ← List.mem_filter, h, List.mem_singleton]
  refine Std.ExtTreeSet.ext_mem fun b => ?_
  rw [mem_insertItem, mem_keepItems]
  constructor
  · intro hgiven
    rcases hgiven with ⟨hb, -⟩ | heq
    · exact hb
    · rw [heq]
      exact ((hmem a).mpr rfl).1
  · intro hb
    cases hp : p b with
    | false => exact .inl ⟨hb, rfl⟩
    | true => exact .inr ((hmem b).mp ⟨hb, hp⟩)

theorem getElem?_keepEntries (p : α → β → Bool) (entries : Std.ExtTreeMap α β) (key : α) :
    (keepEntries p entries)[key]? = entries[key]?.filter (p key) := by
  cases h : entries[key]?.filter (p key) with
  | some value =>
    obtain ⟨hget, hp⟩ := Option.filter_eq_some_iff.mp h
    refine Std.ExtTreeMap.getElem?_ofList_of_mem Std.ReflCmp.compare_self
      (Std.ExtTreeMap.distinct_keys_toList.sublist List.filter_sublist) ?_
    exact List.mem_filter.mpr ⟨Std.ExtTreeMap.mem_toList_iff_getElem?_eq_some.mpr hget, hp⟩
  | none =>
    apply Std.ExtTreeMap.getElem?_ofList_of_contains_eq_false
    rw [Bool.eq_false_iff, ne_eq, List.contains_iff_mem, List.mem_map]
    intro hgiven
    obtain ⟨⟨k, value⟩, hmem, rfl⟩ := hgiven
    obtain ⟨hmem, hp⟩ := List.mem_filter.mp hmem
    rw [Std.ExtTreeMap.mem_toList_iff_getElem?_eq_some] at hmem
    rw [hmem] at h
    simp [Option.filter] at h
    simp_all

end VipSteering
