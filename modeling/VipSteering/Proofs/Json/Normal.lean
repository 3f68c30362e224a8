import Mathlib.Data.List.Sort
import VipSteering.Proofs.Json.RoundTrip
import VipSteering.Store

namespace VipSteering.Json

/-- Members whose keys increase are in their place. -/
theorem sortMembers_sorted {members : List (String × Json)}
    (h : members.Pairwise fun a b => compare a.1 b.1 = .lt) : sortMembers members = members := by
  have hlist : sortMembers members = (Std.ExtTreeMap.ofList members compare).toList := by
    rw [sortMembers, Std.ExtTreeMap.ofList_eq_foldl]
  have hdistinct : members.Pairwise fun a b => ¬ compare a.1 b.1 = .eq :=
    h.imp fun hab => by rw [hab]; decide
  have hne (l : List (String × Json)) (hl : l.Pairwise fun a b => compare a.1 b.1 = .lt) :
      l.Nodup := hl.imp fun {a b} hab heq => by subst b; simp at hab
  have hordered := Std.ExtTreeMap.ordered_keys_toList (t := .ofList members compare)
  rw [hlist]
  refine List.Perm.eq_of_pairwise (fun a b _ _ hab hba => ?_) hordered h ?_
  · exact absurd hba (Std.OrientedCmp.not_lt_of_lt hab)
  · rw [List.perm_ext_iff_of_nodup (hne _ hordered) (hne _ h)]
    intro hgiven
    obtain ⟨key, value⟩ := hgiven
    rw [Std.ExtTreeMap.mem_toList_iff_getElem?_eq_some]
    constructor
    · intro hget
      have hmem : key ∈ Std.ExtTreeMap.ofList members compare := mem_of_getElem? hget
      rw [Std.ExtTreeMap.mem_ofList, List.contains_iff_mem, List.mem_map] at hmem
      obtain ⟨⟨_, value'⟩, hmem, rfl⟩ := hmem
      have := Std.ExtTreeMap.getElem?_ofList_of_mem Std.ReflCmp.compare_self hdistinct hmem
      rw [hget] at this
      rwa [Option.some.inj this]
    · exact Std.ExtTreeMap.getElem?_ofList_of_mem Std.ReflCmp.compare_self hdistinct

@[simp] theorem normalize?_ofString (depth : Nat) (s : String) :
    normalize? depth (ofString s) = some (ofString s) := rfl

theorem normalize?_ofInt (depth : Nat) {i : Int} (h : IsWide i) :
    normalize? depth (ofInt i) = some (ofInt i) := by
  obtain ⟨s, hs, hread, hchars⟩ := number?_ofInt h
  rw [hs, normalize?, hread, Option.map_some, hchars]

theorem normalize?_array {depth : Nat} {items : List Json}
    (h : ∀ j ∈ items, normalize? depth j = some j) :
    normalize? (depth + 1) (.array items) = some (.array items) := by
  have hitems : normalizeItems? depth items = some items := by
    induction items with
    | nil => rfl
    | cons item rest ih =>
      simp only [List.mem_cons, forall_eq_or_imp] at h
      rw [normalizeItems?, h.1, ih h.2]
      rfl
  rw [normalize?, hitems]
  rfl

theorem normalize?_record {depth : Nat} {members : List (String × Json)}
    (hsorted : (members.map Prod.fst).Pairwise fun a b => compare a b = .lt)
    (h : ∀ m ∈ members, normalize? depth m.2 = some m.2) :
    normalize? (depth + 1) (record members) = some (record members) := by
  have hmembers : normalizeMembers? depth (members.map fun member => (some member.1, member.2)) =
      some members := by
    clear hsorted
    induction members with
    | nil => rfl
    | cons member rest ih =>
      simp only [List.mem_cons, forall_eq_or_imp] at h
      simp only [List.map_cons, normalizeMembers?, h.1, ih h.2, Option.map_some]
  rw [record_eq, normalize?, hmembers, Option.map_some,
    sortMembers_sorted (List.pairwise_map.mp hsorted)]
  rfl

theorem normalize?_single {depth : Nat} {key : String} {value : Json}
    (h : normalize? depth value = some value) :
    normalize? (depth + 1) (record [(key, value)]) = some (record [(key, value)]) :=
  normalize?_record (List.pairwise_singleton _ _) (List.forall_mem_singleton.mpr h)

theorem normalize?_ofStrings (depth : Nat) (texts : List String) :
    normalize? (depth + 1) (ofStrings texts) = some (ofStrings texts) := by
  refine normalize?_array fun j hj => ?_
  obtain ⟨s, -, rfl⟩ := List.mem_map.mp hj
  rfl

theorem parseGeneric?_print {j : Json} (hplain : j.Plain)
    (hnormal : normalize? maxNesting j = some j) : parseGeneric? j.print = some j := by
  rw [parseGeneric?, parse?_print hplain, Option.bind_some, hnormal]

end VipSteering.Json
