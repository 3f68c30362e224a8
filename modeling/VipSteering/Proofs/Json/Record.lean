import Mathlib.Data.List.Forall2
import Mathlib.Data.List.Nodup
import VipSteering.Json.Record
import VipSteering.Proofs.Json.RoundTrip

namespace VipSteering.Json

/-- What a record has in a field: an object by the name of the field, an array by its place. -/
def field? (names : List String) (j : Json) (name : String) : Option Json :=
  match j with
  | .object members => members.lookup (some name)
  | .array items => items[names.idxOf name]?
  | _ => none

/-- An object whose keys all spell a text and which has no field twice, or an array with no more
items than there are fields. -/
def IsRecord (names : List String) : Json → Prop
  | .object members => (∀ m ∈ members, m.1 ≠ none) ∧
      ∀ name ∈ names, (members.map (·.1)).count (some name) ≤ 1
  | .array items => items.length ≤ names.length
  | _ => False

theorem lookup_cons_of_ne {α β : Type} [BEq α] [LawfulBEq α] {key k : α} (h : key ≠ k) (value : β)
    (rest : List (α × β)) : ((k, value) :: rest).lookup key = rest.lookup key := by
  rw [List.lookup_cons, beq_eq_false_iff_ne.mpr h]

variable {names : List String} {j : Json} {fields : Fields}

theorem IsRecord.tail {member : Option String × Json} {rest : List (Option String × Json)}
    (h : IsRecord names (.object (member :: rest))) : IsRecord names (.object rest) :=
  ⟨fun m hm => h.1 m (List.mem_cons_of_mem _ hm), fun name hname =>
    Nat.le_trans List.count_le_count_cons (h.2 name hname)⟩

theorem IsRecord.cons {key : String} {value : Json} {rest : List (Option String × Json)}
    (h : IsRecord names (.object rest)) (hnew : key ∈ names → some key ∉ rest.map (·.1)) :
    IsRecord names (.object ((some key, value) :: rest)) := by
  refine ⟨List.forall_mem_cons.mpr ⟨Option.some_ne_none key, h.1⟩, fun name hname => ?_⟩
  rw [List.map_cons]
  by_cases heq : key = name
  · subst heq
    rw [List.count_cons_self, List.count_eq_zero.mpr (hnew hname)]
  · rw [List.count_cons_of_ne fun hsame => heq (Option.some.inj hsame)]
    exact h.2 name hname

/-- The fields among the members of an object, if it is a record. -/
theorem namedFields?_spec (members : List (Option String × Json)) :
    match namedFields? names members with
    | none => ¬ IsRecord names (.object members)
    | some fields => IsRecord names (.object members) ∧
        ∀ name ∈ names, fields.lookup name = members.lookup (some name) := by
  induction members with
  | nil => simp [namedFields?, IsRecord]
  | cons member rest ih =>
    obtain ⟨_ | key, value⟩ := member
    · exact fun h => h.1 _ List.mem_cons_self rfl
    rw [namedFields?]
    cases hrest : namedFields? names rest with
    | none =>
      rw [hrest] at ih
      exact fun h => ih h.tail
    | some fields =>
      rw [hrest] at ih
      obtain ⟨hrecord, hlookup⟩ := ih
      have hmem (hkey : key ∈ names) :
          (fields.lookup key).isSome = true ↔ some key ∈ rest.map (·.1) := by
        rw [hlookup key hkey, List.lookup_isSome_iff, List.mem_map]
        simp only [beq_iff_eq, eq_comm (a := some key)]
      dsimp only
      by_cases hkey : key ∈ names
      · rw [if_pos hkey]
        by_cases htwice : (fields.lookup key).isSome = true
        · rw [if_pos htwice]
          intro h
          have hcount := h.2 key hkey
          have hpos := List.count_pos_iff.mpr ((hmem hkey).mp htwice)
          rw [List.map_cons, List.count_cons_self] at hcount
          omega
        · rw [if_neg htwice]
          refine ⟨hrecord.cons fun _ hold => htwice ((hmem hkey).mpr hold), fun name hname => ?_⟩
          by_cases heq : name = key
          · rw [heq, List.lookup_cons_self, List.lookup_cons_self]
          · rw [lookup_cons_of_ne heq, hlookup name hname,
              lookup_cons_of_ne fun hsame => heq (Option.some.inj hsame)]
      · rw [if_neg hkey]
        refine ⟨hrecord.cons fun hin => absurd hin hkey, fun name hname => ?_⟩
        have hne : name ≠ key := fun heq => hkey (heq ▸ hname)
        rw [hlookup name hname, lookup_cons_of_ne fun hsame => hne (Option.some.inj hsame)]

theorem lookup_zip (items : List Json) {name : String} (h : name ∈ names) :
    (names.zip items).lookup name = items[names.idxOf name]? := by
  induction names generalizing items with
  | nil => cases h
  | cons first names ih =>
    cases items with
    | nil => simp
    | cons item items =>
      rw [List.zip_cons_cons]
      by_cases heq : name = first
      · rw [heq, List.lookup_cons_self, List.idxOf_cons_self, List.getElem?_cons_zero]
      · have hrest := (List.mem_cons.mp h).resolve_left heq
        rw [lookup_cons_of_ne heq, ih items hrest, List.idxOf_cons_ne names (Ne.symm heq),
          List.getElem?_cons_succ]

/-- The fields that are present are found if the document is a record, and then they are those that
it has. -/
theorem fields?_spec (names : List String) (j : Json) :
    match j.fields? names with
    | none => ¬ j.IsRecord names
    | some fields => j.IsRecord names ∧ ∀ name ∈ names, fields.lookup name = j.field? names name := by
  cases j with
  | object members => exact namedFields?_spec members
  | array items =>
    rw [fields?]
    by_cases hlength : items.length ≤ names.length
    · rw [if_pos hlength]
      exact ⟨hlength, fun name hname => lookup_zip items hname⟩
    · rw [if_neg hlength]
      exact hlength
  | null => exact id
  | bool _ => exact id
  | number _ => exact id
  | string _ => exact id

section Read

variable {α : Type} {read : Json → Option α} {a default : α} {value : Option Json}

/-- The field is there and is read as `a`. -/
def Gives (value : Option Json) (read : Json → Option α) (a : α) : Prop :=
  ∃ j, value = some j ∧ read j = some a

/-- The field is read as `a`, or it is absent and `a` is what stands for it. -/
def GivesOr (value : Option Json) (default : α) (read : Json → Option α) (a : α) : Prop :=
  (value = none ∧ a = default) ∨ Gives value read a

theorem gives_some {j : Json} : Gives (some j) read a ↔ read j = some a := by
  simp [Gives]

theorem givesOr_some {j : Json} : GivesOr (some j) default read a ↔ read j = some a := by
  simp [GivesOr, Gives]

theorem required_eq_some {name : String} (h : fields.lookup name = value) :
    fields.required name read = some a ↔ Gives value read a := by
  rw [Fields.required, h, Option.bind_eq_some_iff]
  rfl

theorem withDefault_eq_some {name : String} (h : fields.lookup name = value) :
    fields.withDefault name default read = some a ↔ GivesOr value default read a := by
  rw [Fields.withDefault, h]
  cases value with
  | none => simp [GivesOr, Gives, eq_comm]
  | some j => exact givesOr_some.symm

/-- What is read from the fields of a document is read from a record, which this is. -/
theorem fields?_bind_eq_some {P : Prop} {build : Fields → Option α}
    (h : ∀ fields : Fields, (∀ name ∈ names, fields.lookup name = j.field? names name) →
      (build fields = some a ↔ P)) :
    (j.fields? names).bind build = some a ↔ j.IsRecord names ∧ P := by
  have hspec := fields?_spec names j
  cases hfields : j.fields? names with
  | none =>
    rw [hfields] at hspec
    simp [hspec]
  | some fields =>
    rw [hfields] at hspec
    rw [Option.bind_some, h fields hspec.2]
    exact (and_iff_right hspec.1).symm

theorem mapM_eq_some {items : List Json} {as : List α} :
    items.mapM read = some as ↔ List.Forall₂ (fun item a => read item = some a) items as := by
  induction items generalizing as with
  | nil => simp [eq_comm]
  | cons item rest ih =>
    rw [List.mapM_cons, List.forall₂_cons_left_iff]
    simp only [Option.bind_eq_bind, Option.bind_eq_some_iff, Option.pure_def, Option.some.injEq, ih]
    constructor
    · rintro ⟨a, ha, others, hothers, rfl⟩
      exact ⟨a, others, ha, hothers, rfl⟩
    · rintro ⟨a, others, ha, hothers, rfl⟩
      exact ⟨a, ha, others, hothers, rfl⟩

/-- A list is read item by item. -/
theorem list?_eq_some {as : List α} : list? read j = some as ↔
    ∃ items, j = .array items ∧ List.Forall₂ (fun item a => read item = some a) items as := by
  cases j with
  | array items =>
    simp only [list?, mapM_eq_some, array.injEq, exists_eq_left']
  | _ => simp [list?]

theorem list?_map (write : α → Json) (h : ∀ a, read (write a) = some a) (as : List α) :
    list? read (.array (as.map write)) = some as := by
  refine list?_eq_some.mpr ⟨_, rfl, ?_⟩
  rw [List.forall₂_map_left_iff]
  exact List.forall₂_same.mpr fun a _ => h a

end Read

theorem strings?_ofStrings (texts : List String) : strings? (ofStrings texts) = some texts :=
  list?_map ofString (fun _ => rfl) texts

theorem uint32?_ofNat (n : UInt32) : uint32? (ofNat n.toNat) = some n := by
  rw [uint32?, nat?_ofNat n.toNat_lt (by decide), Option.map_some, UInt32.ofNat_toNat]

section Write

variable {members : List (String × Json)}

/-- Members with names of their own make a record. -/
theorem isRecord_record (names : List String) (h : (members.map (·.1)).Nodup) :
    (record members).IsRecord names := by
  have hkeys : (members.map fun member => (some member.1, member.2)).map (·.1) =
      (members.map (·.1)).map some := by
    rw [List.map_map, List.map_map]
    rfl
  rw [record_eq]
  refine ⟨List.forall_mem_map.mpr fun m _ => Option.some_ne_none m.1, fun name _ => ?_⟩
  rw [hkeys]
  exact List.nodup_iff_count_le_one.mp (h.map fun _ _ heq => Option.some.inj heq) _

theorem field?_record (names : List String) (members : List (String × Json)) (name : String) :
    (record members).field? names name = members.lookup name := by
  rw [record_eq, field?]
  induction members with
  | nil => rfl
  | cons member rest ih =>
    obtain ⟨key, value⟩ := member
    rw [List.map_cons]
    by_cases heq : name = key
    · rw [heq, List.lookup_cons_self, List.lookup_cons_self]
    · rw [lookup_cons_of_ne heq, lookup_cons_of_ne fun hsame => heq (Option.some.inj hsame), ih]

end Write

end VipSteering.Json
