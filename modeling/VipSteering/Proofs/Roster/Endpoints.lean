import Mathlib.Data.List.Nodup
import Mathlib.Data.List.Perm.Subperm
import VipSteering.Proofs.Task
import VipSteering.Roster.Endpoints

namespace VipSteering

theorem lowestFreeSlot_spec {taken : List UInt32} {count slot : UInt32}
    (h : lowestFreeSlot taken count = some slot) : slot < count ∧ slot ∉ taken := by
  rw [lowestFreeSlot] at h
  have hfree := List.find?_some h
  obtain ⟨n, hn, rfl⟩ := List.mem_map.mp (List.mem_of_find?_eq_some h)
  have hlt : n < count.toNat := by have := List.mem_range.mp hn; omega
  refine ⟨?_, by simpa using hfree⟩
  rw [UInt32.lt_iff_toNat_lt, UInt32.toNat_ofNat']
  exact Nat.lt_of_le_of_lt (Nat.mod_le _ _) hlt

theorem mem_of_lowestFreeSlot {taken : List UInt32} {count : UInt32}
    (h : lowestFreeSlot taken count = none) {slot : UInt32} (hslot : slot < count) :
    slot ∈ taken := by
  rw [lowestFreeSlot] at h
  have htaken (n : Nat) (hn : n < min count.toNat (taken.length + 1)) :
      UInt32.ofNat n ∈ taken := by
    simpa using List.find?_eq_none.mp h _ (List.mem_map.mpr ⟨n, List.mem_range.mpr hn, rfl⟩)
  have hlt : slot.toNat < count.toNat := UInt32.lt_iff_toNat_lt.mp hslot
  by_cases hfew : count.toNat ≤ taken.length + 1
  · rw [← UInt32.ofNat_toNat (x := slot)]
    exact htaken _ (by omega)
  · -- More slots than are listed would be taken.
    have hinj : ∀ n ∈ List.range (taken.length + 1), ∀ m ∈ List.range (taken.length + 1),
        UInt32.ofNat n = UInt32.ofNat m → n = m := by
      intro n hn m hm heq
      have hcount : count.toNat < UInt32.size := count.toNat_lt
      rw [List.mem_range] at hn hm
      have hsame := congrArg UInt32.toNat heq
      rw [UInt32.toNat_ofNat_of_lt' (by omega), UInt32.toNat_ofNat_of_lt' (by omega)] at hsame
      exact hsame
    have hnodup : ((List.range (taken.length + 1)).map UInt32.ofNat).Nodup :=
      List.Nodup.map_on hinj List.nodup_range
    have hsub : (List.range (taken.length + 1)).map UInt32.ofNat ⊆ taken := by
      intro t ht
      obtain ⟨n, hn, rfl⟩ := List.mem_map.mp ht
      rw [List.mem_range] at hn
      exact htaken n (by omega)
    have hlength := (List.subperm_of_subset hnodup hsub).length_le
    rw [List.length_map, List.length_range] at hlength
    omega

theorem lowestFreeSlot_eq_none {taken : List UInt32} {count : UInt32} :
    lowestFreeSlot taken count = none ↔ ∀ slot < count, slot ∈ taken := by
  refine ⟨fun h slot => mem_of_lowestFreeSlot h, fun hall => ?_⟩
  rw [Option.eq_none_iff_forall_ne_some]
  intro slot hslot
  obtain ⟨hlt, hfree⟩ := lowestFreeSlot_spec hslot
  exact hfree (hall slot hlt)

namespace Roster

variable {σ H ε : Type} (engine : Engine σ H ε) (service : String) (handle : H)

@[simp] theorem release_nil (specs : List EndpointSpec) (s : σ) :
    release engine service handle specs [] s = (([], []), s) := rfl

theorem release_cons (specs : List EndpointSpec) (e : ActiveEndpoint) (rest : List ActiveEndpoint)
    (s : σ) :
    release engine service handle specs (e :: rest) s =
      if staysPut specs e then
        let left := release engine service handle specs rest s
        ((e :: left.1.1, left.1.2), left.2)
      else
        let dropped := engine.deleteTarget handle e.addresses e.slot s
        let left := release engine service handle specs rest dropped.2
        match dropped.1 with
        | .ok () => left
        | .error source =>
          ((e :: left.1.1, .deleteTarget service e.identity e.slot source :: left.1.2), left.2) := by
  rw [release]
  split
  · rfl
  · simp only [Task.bind_apply]
    cases (engine.deleteTarget handle e.addresses e.slot s).1 <;> rfl

@[simp] theorem activate_nil (previous active : List ActiveEndpoint) (s : σ) :
    activate engine service handle previous active [] s = ((active, []), s) := rfl

theorem activate_cons (previous active : List ActiveEndpoint) (spec : EndpointSpec)
    (rest : List EndpointSpec) (s : σ) :
    activate engine service handle previous active (spec :: rest) s =
      match pickSlot service spec (slotOf? previous spec.identity) (active.map (·.slot))
          (engine.slots handle) with
      | .error fault =>
        let left := activate engine service handle previous active rest s
        ((left.1.1, fault :: left.1.2), left.2)
      | .ok slot =>
        let added := engine.addTarget handle spec.addresses slot s
        match added.1 with
        | .error source =>
          let left := activate engine service handle previous active rest added.2
          ((left.1.1, .addTarget service spec.identity slot source :: left.1.2), left.2)
        | .ok () =>
          activate engine service handle previous
            (active ++ [⟨spec.identity, spec.addresses, slot⟩]) rest added.2 := by
  rw [activate]
  generalize pickSlot service spec (slotOf? previous spec.identity) (active.map (·.slot))
    (engine.slots handle) = picked
  cases picked with
  | error fault => rfl
  | ok slot =>
    simp only [Task.bind_apply]
    cases (engine.addTarget handle spec.addresses slot s).1 <;> rfl

theorem release_sublist (specs : List EndpointSpec) (previous : List ActiveEndpoint) (s : σ) :
    (release engine service handle specs previous s).1.1.Sublist previous := by
  induction previous generalizing s with
  | nil => exact List.Sublist.slnil
  | cons e rest ih =>
    rw [release_cons]
    split
    · exact (ih s).cons_cons e
    · dsimp only
      split
      · exact (ih _).cons e
      · exact (ih _).cons_cons e

/-- A slot that is given out is one of the service's, and no endpoint holds it. -/
theorem pickSlot_ok {spec : EndpointSpec} {previous : Option UInt32} {taken : List UInt32}
    {count slot : UInt32} (h : pickSlot (ε := ε) service spec previous taken count = .ok slot) :
    slot < count ∧ slot ∉ taken := by
  rw [pickSlot] at h
  cases hs : spec.slot with
  | some s =>
    simp only [hs] at h
    split at h
    · cases h
      rename_i hfree
      simpa using hfree
    · cases h
  | none =>
    simp only [hs] at h
    split at h
    · rename_i s hor
      cases h
      rcases Option.or_eq_some_iff.mp hor with hprev | ⟨-, hlow⟩
      · simpa using (Option.filter_eq_some_iff.mp hprev).2
      · exact lowestFreeSlot_spec hlow
    · cases h

/-- No slot is given out exactly if the one that the endpoint must get is none of the service's or
taken, or if it may get any and all are taken. -/
theorem pickSlot_eq_error {spec : EndpointSpec} {previous : Option UInt32} {taken : List UInt32}
    {count : UInt32} {fault : Fault ε} :
    pickSlot service spec previous taken count = .error fault ↔
      match spec.slot with
      | some slot =>
        (slot < count → slot ∈ taken) ∧ fault = .slotUnavailable service spec.identity slot
      | none => (∀ slot < count, slot ∈ taken) ∧ fault = .capacity service spec.identity count := by
  rw [pickSlot]
  cases spec.slot with
  | some slot =>
    dsimp only
    split
    · rename_i hfree
      simp only [Bool.and_eq_true, decide_eq_true_eq] at hfree
      exact iff_of_false nofun fun hgiven => hfree.2 (hgiven.1 hfree.1)
    · rename_i hunfree
      simp only [Bool.and_eq_true, decide_eq_true_eq, not_and, not_not] at hunfree
      exact ⟨fun h => ⟨hunfree, (Except.error.inj h).symm⟩, fun h => by rw [h.2]⟩
  | none =>
    dsimp only
    split
    · rename_i slot hfound
      refine iff_of_false nofun fun hgiven => ?_
      rcases Option.or_eq_some_iff.mp hfound with hback | ⟨-, hlowest⟩
      · have hfree := (Option.filter_eq_some_iff.mp hback).2
        simp only [Bool.and_eq_true, decide_eq_true_eq] at hfree
        exact hfree.2 (hgiven.1 slot hfree.1)
      · obtain ⟨hlt, hfree⟩ := lowestFreeSlot_spec hlowest
        exact hfree (hgiven.1 slot hlt)
    · rename_i hnone
      have hall := lowestFreeSlot_eq_none.mp (Option.or_eq_none_iff.mp hnone).2
      exact ⟨fun h => ⟨hall, (Except.error.inj h).symm⟩, fun h => by rw [h.2]⟩

/-- What holds of the endpoints that are active to begin with, and is kept when an endpoint is
activated at a slot that none of them holds, holds of those that are active in the end. -/
theorem activate_induction {P : List ActiveEndpoint → σ → Prop} (previous : List ActiveEndpoint)
    (hfail : ∀ active s addresses slot, P active s → slot < engine.slots handle →
      slot ∉ active.map (·.slot) → ∀ source,
        (engine.addTarget handle addresses slot s).1 = .error source →
        P active (engine.addTarget handle addresses slot s).2)
    (hadd : ∀ active s identity addresses slot, P active s → slot < engine.slots handle →
      slot ∉ active.map (·.slot) → (engine.addTarget handle addresses slot s).1 = .ok () →
        P (active ++ [⟨identity, addresses, slot⟩]) (engine.addTarget handle addresses slot s).2)
    (active : List ActiveEndpoint) (specs : List EndpointSpec) (s : σ) (h : P active s) :
    P (activate engine service handle previous active specs s).1.1
      (activate engine service handle previous active specs s).2 := by
  induction specs generalizing active s with
  | nil => exact h
  | cons spec rest ih =>
    rw [activate_cons]
    split
    · exact ih active s h
    · rename_i slot hpick
      obtain ⟨hlt, hfree⟩ := pickSlot_ok service hpick
      dsimp only
      split
      · rename_i source he
        exact ih active _ (hfail active s spec.addresses slot h hlt hfree source he)
      · rename_i he
        exact ih _ _ (hadd active s spec.identity spec.addresses slot h hlt hfree he)

theorem converge_eq (previous : List ActiveEndpoint) (specs : List EndpointSpec) (s : σ) :
    converge engine service handle previous specs s =
      let kept := release engine service handle specs previous s
      let left := activate engine service handle previous kept.1.1 (newcomers kept.1.1 specs) kept.2
      ((left.1.1, kept.1.2 ++ left.1.2), left.2) := rfl

/-- What each deletion of the target of an endpoint that cannot stay keeps, the first pass keeps. -/
theorem release_induction {P : σ → Prop} {specs : List EndpointSpec}
    {previous : List ActiveEndpoint}
    (hdelete : ∀ e ∈ previous, staysPut specs e = false → ∀ s, P s →
      P (engine.deleteTarget handle e.addresses e.slot s).2) {s : σ} (h : P s) :
    P (release engine service handle specs previous s).2 := by
  induction previous generalizing s with
  | nil => exact h
  | cons e rest ih =>
    obtain ⟨hfirst, hrest⟩ := List.forall_mem_cons.mp hdelete
    rw [release_cons]
    split
    · exact ih hrest h
    · rename_i hmoves
      have hone := ih hrest (hfirst (eq_false_of_ne_true hmoves) s h)
      dsimp only
      split
      · exact hone
      · exact hone

section Keeps

variable {P : σ → Prop}
  (hdelete : ∀ addresses slot s, P s → P (engine.deleteTarget handle addresses slot s).2)

include hdelete

/-- What each deletion of a target keeps, the first pass keeps. -/
theorem release_engine_keeps (specs : List EndpointSpec) (previous : List ActiveEndpoint) {s : σ}
    (h : P s) : P (release engine service handle specs previous s).2 :=
  release_induction engine service handle (fun e _ _ => hdelete e.addresses e.slot) h

/-- What each addition and each deletion of a target keeps, both passes keep. -/
theorem converge_engine_keeps
    (hadd : ∀ addresses slot s, P s → P (engine.addTarget handle addresses slot s).2)
    (previous : List ActiveEndpoint) (specs : List EndpointSpec) {s : σ} (h : P s) :
    P (converge engine service handle previous specs s).2 := by
  rw [converge_eq]
  exact activate_induction engine service handle (P := fun _ s => P s) previous
    (fun _ s addresses slot hs _ _ _ _ => hadd addresses slot s hs)
    (fun _ s _ addresses slot hs _ _ _ => hadd addresses slot s hs) _ _ _
    (release_engine_keeps engine service handle hdelete specs previous h)

end Keeps

/-- The slots of the endpoints of a service stay distinct. -/
theorem converge_slots_nodup {previous : List ActiveEndpoint} (specs : List EndpointSpec) (s : σ)
    (h : (previous.map (·.slot)).Nodup) :
    ((converge engine service handle previous specs s).1.1.map (·.slot)).Nodup := by
  have hkept := (release_sublist engine service handle specs previous s).map (·.slot) |>.nodup h
  rw [converge_eq]
  refine activate_induction engine service handle (P := fun active _ => (active.map (·.slot)).Nodup)
    previous ?_ ?_ _ _ _ hkept
  · intro active s addresses slot hd _ _ _ _
    exact hd
  · intro active s identity addresses slot hd _ hfree _
    rw [List.map_append, List.nodup_append]
    refine ⟨hd, by simp, ?_⟩
    intro a ha b hb heq
    obtain rfl := heq
    obtain rfl := List.mem_singleton.mp hb
    exact hfree ha

theorem setEndpoints_eq (specs : List EndpointSpec) (r : Roster H σ) :
    setEndpoints engine service specs r =
      match r.services[service]?, r.endpoints[service]? with
      | some handle, some previous =>
        let left := converge engine service handle previous specs r.engine
        (Report.ofFaults left.1.2,
          { r with engine := left.2, endpoints := r.endpoints.insert service left.1.1 })
      | _, _ => (.error (.one (.unknownService service)), r) := by
  rw [setEndpoints]
  simp only [Task.bind_apply, Task.get_apply]
  cases r.services[service]? with
  | none => rfl
  | some handle =>
    cases r.endpoints[service]? with
    | none => rfl
    | some previous => rfl

/-- Services and flows stay on record as they are. -/
theorem setEndpoints_frame (specs : List EndpointSpec) (r : Roster H σ) :
    ∃ s endpoints, (setEndpoints engine service specs r).2 = { r with engine := s, endpoints } := by
  rw [setEndpoints_eq]
  split
  · exact ⟨_, _, rfl⟩
  · exact ⟨r.engine, r.endpoints, rfl⟩

end Roster
end VipSteering
