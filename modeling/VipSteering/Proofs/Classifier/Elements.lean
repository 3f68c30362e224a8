import VipSteering.Classifier.Elements
import VipSteering.Host.Nft
import VipSteering.Proofs.Json.Normal
import VipSteering.Proofs.Net.AddressText

namespace VipSteering

open Host Text

namespace Interval

/-- Both ends are of one family. -/
def IsPlain (i : Interval) : Prop := i.start.family = i.stop.family

variable {i : Interval}

theorem stop_eq (i : Interval) : i.stop = i.last.next := (Address.next_prev i.stop).symm

theorem IsPlain.family_last (h : i.IsPlain) : i.start.family = i.last.family := by
  rw [last, Address.family_prev]
  exact h

theorem dash_not_mem (a : Address) : '-' ∉ a.chars := by
  intro h
  exact absurd (Address.chars_alphabet a '-' h) (by decide)

end Interval

namespace Classifier

theorem readInclusive_text {start last : Address} (h : start.family = last.family) :
    readInclusive start.text last.text = .ok ⟨start, last.next⟩ := by
  rw [readInclusive, readAddress, readAddress, Address.parse?_text, Address.parse?_text]
  change (Interval.inclusive start last).mapError _ = _
  rw [Interval.inclusive, if_pos h]
  rfl

/-- An element is read back from its place in a listing. -/
theorem readElement_text {i : Interval} (h : i.IsPlain) :
    readElement (Nft.elementJson i.text) = .ok i := by
  have hi : (⟨i.start, i.last.next⟩ : Interval) = i := by rw [← i.stop_eq]
  have hread := readInclusive_text h.family_last
  rw [hi] at hread
  have hdash : '-' ∉ i.start.text.toList := by
    rw [Address.toList_text]
    exact Interval.dash_not_mem i.start
  rw [Interval.text]
  by_cases hone : i.last = i.start
  · have hcut : cut '-' i.start.text = none := cut_eq_none.mpr hdash
    rw [hone] at hread
    rw [if_pos hone, Nft.elementJson, hcut]
    exact hread
  · have hcut : cut '-' (i.start.text ++ "-" ++ i.last.text) = some (i.start.text, i.last.text) :=
      cut_eq_some.mpr ⟨by simp, hdash⟩
    rw [if_neg hone, Nft.elementJson, hcut]
    exact hread

theorem text_inj {i j : Interval} (hi : i.IsPlain) (hj : j.IsPlain) (h : i.text = j.text) :
    i = j := by
  have hread := readElement_text hi
  rw [h, readElement_text hj] at hread
  exact (Except.ok.inj hread).symm

section Listing

variable (table set : String) (elements : List String)

theorem plain_elementJson (element : String) : (Nft.elementJson element).Plain := by
  rw [Nft.elementJson]
  split <;> simp

theorem normalize?_elementJson (element : String) (depth : Nat) :
    Json.normalize? (depth + 2) (Nft.elementJson element) = some (Nft.elementJson element) := by
  rw [Nft.elementJson]
  split
  · rename_i first last _
    exact Json.normalize?_single (Json.normalize?_ofStrings depth [first, last])
  · rfl

theorem plain_setJson : (Nft.setJson table set elements).Plain := by
  rw [Nft.setJson, Json.plain_record]
  intro m hm
  rcases List.mem_append.mp hm with hm | hm
  · split at hm
    · cases hm
    · rw [List.mem_singleton.mp hm, Json.plain_array, List.forall_mem_map]
      exact fun element _ => plain_elementJson element
  · simp only [List.mem_cons, List.not_mem_nil, or_false] at hm
    rcases hm with rfl | rfl | rfl | rfl <;> simp

theorem normalize?_setJson (depth : Nat) :
    Json.normalize? (depth + 4) (Nft.setJson table set elements) =
      some (Nft.setJson table set elements) := by
  have hrest : ∀ m ∈ [("family", Json.ofString "inet"), ("flags", .ofStrings ["interval"]),
      ("name", .ofString set), ("table", .ofString table)],
      Json.normalize? (depth + 3) m.2 = some m.2 := by
    intro m hm
    simp only [List.mem_cons, List.not_mem_nil, or_false] at hm
    rcases hm with rfl | rfl | rfl | rfl
    · rfl
    · exact Json.normalize?_ofStrings _ _
    · rfl
    · rfl
  rw [Nft.setJson]
  by_cases he : elements.isEmpty = true
  · have hsorted : ["family", "flags", "name", "table"].Pairwise fun a b => compare a b = .lt := by
      decide
    rw [if_pos he]
    exact Json.normalize?_record hsorted hrest
  · have hsorted : ["elem", "family", "flags", "name", "table"].Pairwise
        fun a b => compare a b = .lt := by
      decide
    rw [if_neg he]
    refine Json.normalize?_record hsorted fun m hm => ?_
    rcases List.mem_cons.mp hm with rfl | hm
    · refine Json.normalize?_array fun j hj => ?_
      obtain ⟨element, -, rfl⟩ := List.mem_map.mp hj
      exact normalize?_elementJson element depth
    · exact hrest m hm

/-- The document of a listing. -/
def listingJson : Json :=
  .record [("nftables", .array [
    .record [("metainfo", .record [("json_schema_version", .ofNat 1)])],
    .record [("set", Nft.setJson table set elements)]])]

theorem parseGeneric?_listing :
    Json.parseGeneric? (Nft.listing table set elements) = some (listingJson table set elements) := by
  refine Json.parseGeneric?_print ?_ ?_
  · simp [plain_setJson]
  · refine Json.normalize?_single (Json.normalize?_array fun j hj => ?_)
    simp only [List.mem_cons, List.not_mem_nil, or_false] at hj
    rcases hj with rfl | rfl
    · have hversion := Json.normalize?_ofInt 123 (i := 1) ⟨by decide, by decide⟩
      exact Json.normalize?_single (Json.normalize?_single hversion)
    · exact Json.normalize?_single (normalize?_setJson table set elements 120)

/-- What was listed is read, in its order. -/
theorem readListing_listing {intervals : List Interval} (h : ∀ i ∈ intervals, i.IsPlain) :
    readListing (Nft.listing table set (intervals.map Interval.text)) = .ok intervals := by
  have hread : (intervals.map fun i => Nft.elementJson i.text).mapM readElement =
      .ok intervals := by
    rw [List.mapM_map]
    refine (Text.mapM_eq_map (g := id) fun i hi => readElement_text (h i hi)).trans ?_
    rw [List.map_id]
    rfl
  rw [readListing, parseGeneric?_listing]
  cases intervals with
  | nil => rfl
  | cons i rest =>
    change ((((i :: rest).map Interval.text).map Nft.elementJson).mapM readElement) = _
    rw [List.map_map]
    exact hread

end Listing

end Classifier
end VipSteering
