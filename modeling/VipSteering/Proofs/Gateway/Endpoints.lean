import VipSteering.Proofs.Balancer.Sound
import VipSteering.Proofs.Roster.Endpoints

namespace VipSteering.Gateway

open Balancer Roster

/-- Every target is that of an active endpoint. -/
def HoldsAllTargets (active : List ActiveEndpoint) (targets : Targets) : Prop :=
  ∀ (slot : UInt32) (addresses : List Address), targets[slot]? = some addresses →
    ∃ e ∈ active, e.slot = slot ∧ e.addresses = addresses

/-- Every active endpoint is a target. -/
def Live (active : List ActiveEndpoint) (targets : Targets) : Prop :=
  ∀ e ∈ active, targets[e.slot]? = some e.addresses

theorem HoldsAllTargets.not_mem {active : List ActiveEndpoint} {targets : Targets}
    (h : HoldsAllTargets active targets)
    {slot : UInt32} (hs : slot ∉ active.map (·.slot)) : slot ∉ targets := by
  intro hmem
  obtain ⟨addresses, hget⟩ := exists_of_mem hmem
  obtain ⟨e, he, rfl, -⟩ := h slot addresses hget
  exact hs (List.mem_map.mpr ⟨e, he, rfl⟩)

theorem HoldsAllTargets.append {active : List ActiveEndpoint} {targets : Targets}
    (h : HoldsAllTargets active targets)
    (e : ActiveEndpoint) : HoldsAllTargets (active ++ [e]) (targets.insert e.slot e.addresses) := by
  intro slot addresses hget
  rcases of_getElem?_insert hget with ⟨rfl, rfl⟩ | ⟨-, hget⟩
  · exact ⟨e, by simp, rfl, rfl⟩
  · obtain ⟨d, hd, hslot⟩ := h slot addresses hget
    exact ⟨d, List.mem_append_left _ hd, hslot⟩

/-- A target belongs to exactly one of the endpoints that hold distinct slots. -/
theorem HoldsAllTargets.unique {es : List ActiveEndpoint} {targets : Targets}
    (h : HoldsAllTargets es targets)
    (hd : (es.map (·.slot)).Nodup) {slot : UInt32} {addresses : List Address}
    (hs : targets[slot]? = some addresses) :
    (es.filter (·.slot = slot)).map (·.addresses) = [addresses] := by
  obtain ⟨e, he, rfl, rfl⟩ := h slot addresses hs
  obtain ⟨front, rest, rfl⟩ := List.append_of_mem he
  rw [List.map_append, List.map_cons, List.nodup_append, List.nodup_cons] at hd
  obtain ⟨-, ⟨hrest, -⟩, hfront⟩ := hd
  have hnone {ds : List ActiveEndpoint} (hne : ∀ d ∈ ds, d.slot ≠ e.slot) :
      ds.filter (·.slot = e.slot) = [] := by
    rw [List.filter_eq_nil_iff]
    intro d hd
    simpa using hne d hd
  rw [List.filter_append, List.filter_cons_of_pos (by simp), hnone, hnone]
  · rfl
  · intro d hd heq
    exact hrest (List.mem_map.mpr ⟨d, hd, heq⟩)
  · intro d hd heq
    exact hfront _ (List.mem_map.mpr ⟨d, hd, rfl⟩) _ List.mem_cons_self heq

theorem Live.append {active : List ActiveEndpoint} {targets : Targets} (h : Live active targets)
    {e : ActiveEndpoint} (he : e.slot ∉ active.map (·.slot)) :
    Live (active ++ [e]) (targets.insert e.slot e.addresses) := by
  intro d hd
  rcases List.mem_append.mp hd with hd | hd
  · have hne : e.slot ≠ d.slot := fun heq => he (List.mem_map.mpr ⟨d, hd, heq.symm⟩)
    rw [getElem?_insert_of_ne hne]
    exact h d hd
  · obtain rfl := List.mem_singleton.mp hd
    exact Std.ExtTreeMap.getElem?_insert_self

/-- An endpoint that is struck off beside its target leaves the others covered. -/
theorem HoldsAllTargets.erase {front rest : List ActiveEndpoint} {e : ActiveEndpoint}
    {targets : Targets}
    (h : HoldsAllTargets (front ++ e :: rest) targets) :
    HoldsAllTargets (front ++ rest) (targets.erase e.slot) := by
  intro slot addresses hget
  obtain ⟨hne, hget⟩ := of_getElem?_erase hget
  obtain ⟨d, hd, rfl, ha⟩ := h slot addresses hget
  refine ⟨d, ?_, rfl, ha⟩
  rcases List.mem_append.mp hd with hd | hd
  · exact List.mem_append_left _ hd
  rcases List.mem_cons.mp hd with rfl | hd
  · exact absurd rfl hne
  · exact List.mem_append_right _ hd

theorem Live.erase {front rest : List ActiveEndpoint} {e : ActiveEndpoint} {targets : Targets}
    (hd : ((front ++ e :: rest).map (·.slot)).Nodup) (h : Live (front ++ e :: rest) targets) :
    Live (front ++ rest) (targets.erase e.slot) := by
  intro d hmem
  have hne : e.slot ≠ d.slot := by
    intro he
    rw [List.map_append, List.map_cons, List.nodup_append, List.nodup_cons] at hd
    obtain ⟨-, ⟨hrest, -⟩, hfront⟩ := hd
    rcases List.mem_append.mp hmem with hmem | hmem
    · exact hfront _ (List.mem_map.mpr ⟨d, hmem, rfl⟩) _ List.mem_cons_self he.symm
    · exact hrest (List.mem_map.mpr ⟨d, hmem, he.symm⟩)
  rw [getElem?_erase_of_ne hne]
  refine h d ?_
  rcases List.mem_append.mp hmem with hmem | hmem
  · exact List.mem_append_left _ hmem
  · exact List.mem_append_right _ (List.mem_cons_of_mem _ hmem)

variable {σ : Type} [Shell σ] (settings : Settings) (service : String) (l : Lease)

/-- What the first pass leaves active beside the endpoints in front of those it looks at. -/
theorem release_keeps {P : List ActiveEndpoint → Targets → Prop} (specs : List EndpointSpec)
    (hkeep : ∀ front e rest targets, P (front ++ e :: rest) targets →
      P (front ++ rest) (targets.erase e.slot))
    (front previous : List ActiveEndpoint) (b : Balancer σ)
    (h : P (front ++ previous) (b.targetsOf l)) :
    P (front ++ (release (Balancer.engine settings) service l specs previous b).1.1)
      ((release (Balancer.engine settings) service l specs previous b).2.targetsOf l) := by
  induction previous generalizing front b with
  | nil => exact h
  | cons e rest ih =>
    have next (c : Balancer σ) (hc : P (front ++ e :: rest) (c.targetsOf l)) :
        P (front ++ e :: (release (Balancer.engine settings) service l specs rest c).1.1)
          ((release (Balancer.engine settings) service l specs rest c).2.targetsOf l) := by
      have := ih (front ++ [e]) c
      simp only [List.append_assoc, List.singleton_append] at this
      exact this hc
    rw [release_cons]
    split
    · exact next b h
    · have htargets := deleteTarget_targets settings.program l e.slot b
      rw [engine_deleteTarget]
      cases hres : (deleteTarget settings.program l e.slot b).1 with
      | ok _ =>
        rw [hres] at htargets
        exact ih front _ (by rw [htargets]; exact hkeep front e rest _ h)
      | error fault =>
        rw [hres] at htargets
        exact next _ (by rw [htargets]; exact h)

theorem release_confined (specs : List EndpointSpec) (previous : List ActiveEndpoint)
    (b : Balancer σ) :
    Confined l b (release (Balancer.engine settings) service l specs previous b).2 :=
  release_engine_keeps (Balancer.engine settings) service l (P := Confined l b)
    (fun _ slot c hc => hc.trans (deleteTarget_releases settings.program l slot c).toConfined)
    specs previous (.host l b b.host)

theorem converge_sound {floor : UInt32} {name : String} {l : Lease}
    (previous : List ActiveEndpoint) (specs : List EndpointSpec) {b : Balancer σ}
    (h : Sound floor b) (hl : b.registered[name]? = some l) :
    Sound floor (converge (Balancer.engine settings) service l previous specs b).2 := by
  exact (converge_engine_keeps (Balancer.engine settings) service l (P := Leased floor name l)
    (fun _ slot _ hc => hc.deleteTarget settings.program slot)
    (fun addresses slot _ hc => hc.addTarget settings.program addresses slot)
    previous specs ⟨h, hl⟩).sound

/-- What both passes keep: targets stay covered, and endpoints that were live stay live. -/
theorem converge_keeps {previous : List ActiveEndpoint} (specs : List EndpointSpec) {b : Balancer σ}
    (hd : (previous.map (·.slot)).Nodup) (hc : HoldsAllTargets previous (b.targetsOf l)) :
    let left := converge (Balancer.engine settings) service l previous specs b
    Confined l b left.2 ∧ HoldsAllTargets left.1.1 (left.2.targetsOf l) ∧
      (Live previous (b.targetsOf l) → Live left.1.1 (left.2.targetsOf l)) := by
  have hkept : HoldsAllTargets (release (Balancer.engine settings) service l specs previous b).1.1
      ((release (Balancer.engine settings) service l specs previous b).2.targetsOf l) :=
    release_keeps settings service l specs (fun _ _ _ _ => HoldsAllTargets.erase) [] previous b hc
  have hlive (h : Live previous (b.targetsOf l)) :
      Live (release (Balancer.engine settings) service l specs previous b).1.1
        ((release (Balancer.engine settings) service l specs previous b).2.targetsOf l) := by
    refine (release_keeps settings service l specs
      (P := fun active targets => (active.map (·.slot)).Nodup ∧ Live active targets)
      (fun front e rest targets hp => ⟨?_, hp.2.erase hp.1⟩) [] previous b ⟨hd, h⟩).2
    exact (((List.sublist_cons_self e rest).append_left front).map _).nodup hp.1
  rw [converge_eq]
  refine activate_induction (Balancer.engine settings) service l
    (P := fun active c => Confined l b c ∧ HoldsAllTargets active (c.targetsOf l) ∧
      (Live previous (b.targetsOf l) → Live active (c.targetsOf l)))
    previous ?_ ?_ _ _ _ ⟨release_confined settings service l specs previous b, hkept, hlive⟩
  · intro active c addresses slot hgiven _ hfree source he
    obtain ⟨hconf, hcov, hliv⟩ := hgiven
    have htargets := addTarget_targets settings.program addresses (hcov.not_mem hfree)
    rw [engine_addTarget] at he ⊢
    cases hres : (addTarget settings.program l addresses slot c).1 with
    | ok _ => simp [hres] at he
    | error fault =>
      rw [hres] at htargets
      refine ⟨hconf.trans (addTarget_confined ..), ?_⟩
      rw [htargets]
      exact ⟨hcov, hliv⟩
  · intro active c identity addresses slot hgiven _ hfree he
    obtain ⟨hconf, hcov, hliv⟩ := hgiven
    have htargets := addTarget_targets settings.program addresses (hcov.not_mem hfree)
    rw [engine_addTarget] at he ⊢
    cases hres : (addTarget settings.program l addresses slot c).1 with
    | error fault => simp [hres] at he
    | ok _ =>
      rw [hres] at htargets
      refine ⟨hconf.trans (addTarget_confined ..), ?_⟩
      rw [htargets]
      exact ⟨hcov.append ⟨identity, addresses, slot⟩, fun h => (hliv h).append hfree⟩

end VipSteering.Gateway
