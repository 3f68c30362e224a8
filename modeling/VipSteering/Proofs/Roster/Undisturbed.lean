import Mathlib.Data.List.Nodup
import VipSteering.Proofs.Roster.Consistent

namespace VipSteering

theorem insertInOrder_perm (a : Address) (rest : List Address) :
    (insertInOrder a rest).Perm (a :: rest) := by
  induction rest with
  | nil => exact .refl _
  | cons b rest ih =>
    rw [insertInOrder]
    split
    · exact .refl _
    · exact (ih.cons b).trans (.swap a b rest)

theorem inOrder_perm (addresses : List Address) : (inOrder addresses).Perm addresses := by
  induction addresses with
  | nil => exact .refl _
  | cons a rest ih => exact (insertInOrder_perm a _).trans (ih.cons a)

theorem insertInOrder_pairwise (a : Address) {rest : List Address}
    (h : rest.Pairwise (·.rank ≤ ·.rank)) : (insertInOrder a rest).Pairwise (·.rank ≤ ·.rank) := by
  induction rest with
  | nil => exact List.pairwise_singleton _ a
  | cons b rest ih =>
    obtain ⟨hlow, hrest⟩ := List.pairwise_cons.mp h
    rw [insertInOrder]
    split
    · rename_i hle
      exact List.pairwise_cons.mpr ⟨List.forall_mem_cons.mpr
        ⟨hle, fun c hc => Nat.le_trans hle (hlow c hc)⟩, h⟩
    · rename_i hlt
      refine List.pairwise_cons.mpr ⟨fun c hc => ?_, ih hrest⟩
      rcases List.mem_cons.mp ((insertInOrder_perm a rest).mem_iff.mp hc) with rfl | hmem
      · omega
      · exact hlow c hmem

theorem inOrder_pairwise (addresses : List Address) :
    (inOrder addresses).Pairwise (·.rank ≤ ·.rank) := by
  induction addresses with
  | nil => exact .nil
  | cons a rest ih => exact insertInOrder_pairwise a ih

/-- Addresses can be brought in order in one way only. -/
theorem sameAddresses_iff {mine theirs : List Address} :
    sameAddresses mine theirs = true ↔ mine.Perm theirs := by
  rw [sameAddresses, Bool.and_eq_true, decide_eq_true_eq, decide_eq_true_eq]
  constructor
  · intro hsame
    exact (inOrder_perm mine).symm.trans (hsame.2 ▸ inOrder_perm theirs)
  · intro h
    refine ⟨h.length_eq, ?_⟩
    exact List.Perm.eq_of_pairwise
      (fun a b _ _ hle hge => Address.rank_inj (Nat.le_antisymm hle hge)) (inOrder_pairwise mine)
      (inOrder_pairwise theirs)
      (((inOrder_perm mine).trans h).trans (inOrder_perm theirs).symm)

namespace Roster

variable {σ H ε : Type}

/-- None of the faults is the engine's. -/
def Quiet (faults : List (Fault ε)) : Prop := ∀ fault ∈ faults, fault.source? = none

theorem quiet_nil : Quiet ([] : List (Fault ε)) := List.forall_mem_nil _

theorem wanted?_cons (spec : EndpointSpec) (rest : List EndpointSpec) (identity : String) :
    wanted? (spec :: rest) identity =
      if spec.identity = identity then some spec else wanted? rest identity := by
  rw [wanted?, List.find?_cons]
  by_cases h : spec.identity = identity
  · simp [h]
  · simp [h, wanted?]

theorem identity_of_wanted? {specs : List EndpointSpec} {identity : String} {spec : EndpointSpec}
    (h : wanted? specs identity = some spec) : spec.identity = identity := by
  simpa using List.find?_some h

/-- What is the only one in a list with its key is found by the key. -/
theorem find?_of_nodup {α : Type} {key : α → String} {l : List α} (h : (l.map key).Nodup) {a : α}
    (ha : a ∈ l) : l.find? (key · = key a) = some a := by
  obtain ⟨b, hb⟩ := Option.isSome_iff_exists.mp
    (List.find?_isSome.mpr ⟨a, ha, by simp⟩ : (l.find? (key · = key a)).isSome = true)
  have hsame : key b = key a := by simpa using List.find?_some hb
  rw [hb, List.inj_on_of_nodup_map h (List.mem_of_find?_eq_some hb) ha hsame]

theorem wanted?_of_mem {specs : List EndpointSpec} (h : (specs.map (·.identity)).Nodup)
    {spec : EndpointSpec} (hspec : spec ∈ specs) : wanted? specs spec.identity = some spec :=
  find?_of_nodup h hspec

/-- Of the requests for an identity the first counts. -/
theorem mem_firstRequests {seen : List String} {specs : List EndpointSpec} {spec : EndpointSpec} :
    spec ∈ firstRequests seen specs ↔
      wanted? specs spec.identity = some spec ∧ spec.identity ∉ seen := by
  induction specs generalizing seen with
  | nil => simp [firstRequests, wanted?]
  | cons first rest ih =>
    rw [firstRequests, wanted?_cons]
    by_cases hseen : first.identity ∈ seen
    · rw [if_pos hseen, ih]
      by_cases hsame : first.identity = spec.identity
      · rw [if_pos hsame, ← hsame]
        exact iff_of_false (fun h => h.2 hseen) (fun h => h.2 hseen)
      · rw [if_neg hsame]
    · rw [if_neg hseen, List.mem_cons, ih, List.mem_cons, not_or]
      by_cases hsame : first.identity = spec.identity
      · rw [if_pos hsame, ← hsame]
        simp [hseen, eq_comm]
      · have hne : spec ≠ first := fun heq => hsame (by rw [heq])
        have hother : spec.identity ≠ first.identity := fun heq => hsame heq.symm
        rw [if_neg hsame]
        simp [hne, hother]

theorem mem_newcomers {active : List ActiveEndpoint} {specs : List EndpointSpec}
    {spec : EndpointSpec} : spec ∈ newcomers active specs ↔
      wanted? specs spec.identity = some spec ∧ spec.identity ∉ active.map (·.identity) ∧
        spec.ready = true ∧ spec.addresses ≠ [] := by
  rw [newcomers, List.mem_filter, mem_firstRequests, and_assoc]
  simp

/-- The first request for the identity wants the endpoint active, at an address. -/
def Due (specs : List EndpointSpec) (identity : String) : Prop :=
  ∃ spec, wanted? specs identity = some spec ∧ spec.ready = true ∧ spec.addresses ≠ []

theorem staysPut_iff {specs : List EndpointSpec} {e : ActiveEndpoint} :
    staysPut specs e = true ↔ ∃ spec, wanted? specs e.identity = some spec ∧ spec.ready = true ∧
      spec.slot.getD e.slot = e.slot ∧ spec.addresses.Perm e.addresses := by
  simp only [staysPut, Option.any_eq_true, ActiveEndpoint.suits, Bool.and_eq_true,
    decide_eq_true_eq, sameAddresses_iff, and_assoc]

/-- What can stay as it is is wanted with the addresses that it has. -/
theorem wanted_of_staysPut {specs : List EndpointSpec} {e : ActiveEndpoint}
    (ha : e.addresses ≠ []) (h : staysPut specs e = true) :
    ∃ spec, wanted? specs e.identity = some spec ∧ spec.ready = true ∧ spec.addresses ≠ [] ∧
      spec.addresses.Perm e.addresses := by
  obtain ⟨spec, hspec, hready, -, haddresses⟩ := staysPut_iff.mp h
  refine ⟨spec, hspec, hready, fun hnil => ?_, haddresses⟩
  rw [hnil] at haddresses
  exact ha haddresses.nil_eq.symm

theorem due_of_staysPut {specs : List EndpointSpec} {e : ActiveEndpoint} (ha : e.addresses ≠ [])
    (h : staysPut specs e = true) : Due specs e.identity := by
  obtain ⟨spec, hwanted, hready, haddresses, -⟩ := wanted_of_staysPut ha h
  exact ⟨spec, hwanted, hready, haddresses⟩

section Engine

variable (engine : Engine σ H ε) (service : String) (handle : H)

theorem release_quiet (specs : List EndpointSpec) (previous : List ActiveEndpoint) {s : σ}
    (h : Quiet (release engine service handle specs previous s).1.2) :
    (release engine service handle specs previous s).1 =
      (previous.filter (staysPut specs), []) := by
  induction previous generalizing s with
  | nil => rfl
  | cons e rest ih =>
    rw [release_cons] at h ⊢
    by_cases hstays : staysPut specs e = true
    · rw [if_pos hstays] at h ⊢
      rw [List.filter_cons_of_pos hstays]
      have hrest := ih h
      dsimp only
      rw [hrest]
    · rw [if_neg hstays] at h ⊢
      rw [List.filter_cons_of_neg hstays]
      dsimp only at h ⊢
      cases hdelete : (engine.deleteTarget handle e.addresses e.slot s).1 with
      | ok _ =>
        rw [hdelete] at h
        exact ih h
      | error source =>
        rw [hdelete] at h
        have hnone := h _ List.mem_cons_self
        simp [Fault.source?] at hnone

/-- Those that are active in the end if each request in turn gets the slot picked for it. -/
def allot (previous : List ActiveEndpoint) :
    List ActiveEndpoint → List EndpointSpec → List ActiveEndpoint
  | active, [] => active
  | active, spec :: rest =>
    match pickSlot (ε := ε) service spec (slotOf? previous spec.identity) (active.map (·.slot))
        (engine.slots handle) with
    | .error _ => allot previous active rest
    | .ok slot => allot previous (active ++ [⟨spec.identity, spec.addresses, slot⟩]) rest

theorem activate_quiet (previous active : List ActiveEndpoint) (specs : List EndpointSpec) {s : σ}
    (h : Quiet (activate engine service handle previous active specs s).1.2) :
    (activate engine service handle previous active specs s).1.1 =
      allot engine service handle previous active specs := by
  induction specs generalizing active s with
  | nil => rfl
  | cons spec rest ih =>
    rw [activate_cons] at h ⊢
    rw [allot]
    generalize pickSlot (ε := ε) service spec (slotOf? previous spec.identity)
      (active.map (·.slot)) (engine.slots handle) = picked at h ⊢
    cases picked with
    | error fault => exact ih active fun other hother => h other (List.mem_cons_of_mem _ hother)
    | ok slot =>
      dsimp only at h ⊢
      cases hadd : (engine.addTarget handle spec.addresses slot s).1 with
      | ok _ =>
        rw [hadd] at h
        exact ih _ h
      | error source =>
        rw [hadd] at h
        have hnone := h _ List.mem_cons_self
        simp [Fault.source?] at hnone

/-- Every request is either met or at fault. -/
theorem activate_length (previous active : List ActiveEndpoint) (specs : List EndpointSpec)
    (s : σ) : (activate engine service handle previous active specs s).1.1.length +
        (activate engine service handle previous active specs s).1.2.length =
      active.length + specs.length := by
  induction specs generalizing active s with
  | nil => rfl
  | cons spec rest ih =>
    rw [activate_cons, List.length_cons]
    split
    · have hrest := ih active s
      simp only [List.length_cons]
      omega
    · rename_i slot _
      dsimp only
      split
      · have hrest := ih active (engine.addTarget handle spec.addresses slot s).2
        simp only [List.length_cons]
        omega
      · have hrest := ih (active ++ [⟨spec.identity, spec.addresses, slot⟩])
          (engine.addTarget handle spec.addresses slot s).2
        rw [List.length_append, List.length_singleton] at hrest
        omega

/-- If there is no fault, all that is asked for is active in the end. -/
theorem activate_identities {previous active : List ActiveEndpoint} {specs : List EndpointSpec}
    {s : σ} (h : (activate engine service handle previous active specs s).1.2 = []) :
    (activate engine service handle previous active specs s).1.1.map (·.identity) =
      active.map (·.identity) ++ specs.map (·.identity) := by
  obtain ⟨added, heq, hsub⟩ := activate_extends engine service handle previous active specs s
  have hlength := activate_length engine service handle previous active specs s
  rw [h, heq, List.length_append, List.length_nil] at hlength
  have hpairs := hsub.eq_of_length (by rw [List.length_map, List.length_map]; omega)
  have hidentities := congrArg (List.map Prod.fst) hpairs
  rw [List.map_map, List.map_map] at hidentities
  rw [heq, List.map_append]
  exact congrArg (active.map (·.identity) ++ ·) hidentities

theorem converge_quiet {previous : List ActiveEndpoint} {specs : List EndpointSpec} {s : σ}
    (h : Quiet (converge engine service handle previous specs s).1.2) :
    (converge engine service handle previous specs s).1.1 =
      allot engine service handle previous (previous.filter (staysPut specs))
        (newcomers (previous.filter (staysPut specs)) specs) := by
  rw [converge_eq] at h ⊢
  dsimp only at h ⊢
  have hrelease := release_quiet engine service handle specs previous (s := s)
    fun fault hfault => h fault (List.mem_append_left _ hfault)
  have hactivate := activate_quiet engine service handle previous
    (release engine service handle specs previous s).1.1
    (newcomers (release engine service handle specs previous s).1.1 specs)
    (s := (release engine service handle specs previous s).2)
    fun fault hfault => h fault (List.mem_append_right _ hfault)
  rw [hactivate, hrelease]

/-- Without a fault the active endpoints are those that are due. -/
theorem converge_due {previous : List ActiveEndpoint} {specs : List EndpointSpec} {s : σ}
    (hreachable : ∀ e ∈ previous, e.addresses ≠ [])
    (h : (converge engine service handle previous specs s).1.2 = []) (identity : String) :
    identity ∈ (converge engine service handle previous specs s).1.1.map (·.identity) ↔
      Due specs identity := by
  rw [converge_eq] at h ⊢
  dsimp only at h ⊢
  obtain ⟨hreleased, hactivated⟩ := List.append_eq_nil_iff.mp h
  have hkept := release_quiet engine service handle specs previous (s := s) (hreleased ▸ quiet_nil)
  rw [activate_identities engine service handle hactivated, hkept, List.mem_append]
  constructor
  · intro hgiven
    rcases hgiven with hmem | hmem
    · obtain ⟨e, he, rfl⟩ := List.mem_map.mp hmem
      obtain ⟨hprevious, hstays⟩ := List.mem_filter.mp he
      exact due_of_staysPut (hreachable e hprevious) hstays
    · obtain ⟨spec, hspec, rfl⟩ := List.mem_map.mp hmem
      obtain ⟨hwanted, -, hready, haddresses⟩ := mem_newcomers.mp hspec
      exact ⟨spec, hwanted, hready, haddresses⟩
  · intro hgiven
    obtain ⟨spec, hwanted, hready, haddresses⟩ := hgiven
    have hidentity := identity_of_wanted? hwanted
    by_cases hmem : identity ∈ (previous.filter (staysPut specs)).map (·.identity)
    · exact .inl hmem
    · refine .inr (List.mem_map.mpr
        ⟨spec, mem_newcomers.mpr ⟨?_, ?_, hready, haddresses⟩, hidentity⟩)
      · rw [hidentity]
        exact hwanted
      · rw [hidentity]
        exact hmem

end Engine

end Roster
end VipSteering
