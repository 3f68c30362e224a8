import VipSteering.Proofs.Roster.Steady

namespace VipSteering.Roster

variable {σ H ε : Type}

theorem byName_perm {specs specs' : List ServiceSpec} (h : specs.Perm specs')
    (hdistinct : (specs.map (·.name)).Nodup) : byName specs = byName specs' :=
  ofList_perm (h.map _) (by rwa [List.map_map])

theorem byKey_perm {specs specs' : List FlowSpec} (h : specs.Perm specs')
    (hdistinct : (specs.map (·.key)).Nodup) (r : Roster H σ) : byKey r specs = byKey r specs' := by
  refine ofList_perm ((h.filter _).map _) ?_
  rw [List.map_map]
  exact (List.filter_sublist.map _).nodup hdistinct

theorem setServices_perm (engine : Engine σ H ε) {specs specs' : List ServiceSpec}
    (h : specs.Perm specs') (hdistinct : (specs.map (·.name)).Nodup) :
    setServices engine specs = setServices engine specs' := by
  rw [setServices, setServices, byName_perm h hdistinct]

theorem setFlows_perm (engine : Engine σ H ε) {specs specs' : List FlowSpec}
    (h : specs.Perm specs') (hdistinct : (specs.map (·.key)).Nodup) :
    setFlows engine specs = setFlows engine specs' := by
  funext r
  rw [setFlows_eq, setFlows_eq, staleFlows, staleFlows, byKey_perm h hdistinct]

theorem wanted?_perm {specs specs' : List EndpointSpec} (h : specs.Perm specs')
    (hdistinct : (specs.map (·.identity)).Nodup) : wanted? specs = wanted? specs' := by
  have hdistinct' : (specs'.map (·.identity)).Nodup := (h.map _).nodup_iff.mp hdistinct
  have hiff {specs : List EndpointSpec} (hd : (specs.map (·.identity)).Nodup) (identity : String)
      (spec : EndpointSpec) :
      wanted? specs identity = some spec ↔ spec ∈ specs ∧ spec.identity = identity := by
    constructor
    · exact fun hw => ⟨List.mem_of_find?_eq_some hw, identity_of_wanted? hw⟩
    · rintro ⟨hmem, rfl⟩
      exact wanted?_of_mem hd hmem
  funext identity
  refine Option.ext fun spec => ?_
  rw [hiff hdistinct, hiff hdistinct', h.mem_iff]

theorem staysPut_perm {specs specs' : List EndpointSpec} (h : specs.Perm specs')
    (hdistinct : (specs.map (·.identity)).Nodup) : staysPut specs = staysPut specs' := by
  funext e
  rw [staysPut, staysPut, wanted?_perm h hdistinct]

theorem newcomers_perm {specs specs' : List EndpointSpec} (h : specs.Perm specs')
    (hdistinct : (specs.map (·.identity)).Nodup) (active : List ActiveEndpoint) :
    (newcomers active specs).Perm (newcomers active specs') := by
  have hnodup (specs : List EndpointSpec) : (newcomers active specs).Nodup :=
    (newcomers_nodup active specs).of_map _
  refine (List.perm_ext_iff_of_nodup (hnodup specs) (hnodup specs')).mpr fun spec => ?_
  rw [mem_newcomers, mem_newcomers, wanted?_perm h hdistinct]

theorem firstRequests_sublist (seen : List String) (specs : List EndpointSpec) :
    (firstRequests seen specs).Sublist specs := by
  induction specs generalizing seen with
  | nil => exact List.Sublist.slnil
  | cons spec rest ih =>
    rw [firstRequests]
    split
    · exact (ih seen).cons spec
    · exact (ih _).cons_cons spec

theorem newcomers_sublist (active : List ActiveEndpoint) (specs : List EndpointSpec) :
    (newcomers active specs).Sublist specs :=
  List.filter_sublist.trans (firstRequests_sublist _ specs)

/-- Every endpoint must get a slot, and no two the same one. -/
structure Assigned (specs : List EndpointSpec) : Prop where
  all : ∀ spec ∈ specs, spec.slot.isSome = true
  distinct : (specs.map (·.slot)).Nodup

theorem Assigned.sublist {specs specs' : List EndpointSpec} (h : Assigned specs)
    (hsub : specs'.Sublist specs) : Assigned specs' :=
  ⟨fun spec hspec => h.all spec (hsub.subset hspec), (hsub.map _).nodup h.distinct⟩

/-- The endpoint as it is when it has got the slot that it must get. -/
def seat? (spec : EndpointSpec) : Option ActiveEndpoint :=
  spec.slot.map fun slot => ⟨spec.identity, spec.addresses, slot⟩

def refusal? (service : String) (spec : EndpointSpec) : Option (Fault ε) :=
  spec.slot.map (.slotUnavailable service spec.identity ·)

theorem seats_identities (specs : List EndpointSpec) :
    ((specs.filterMap seat?).map (·.identity)).Sublist (specs.map (·.identity)) := by
  induction specs with
  | nil => exact List.Sublist.slnil
  | cons spec rest ih =>
    cases hslot : spec.slot with
    | none =>
      rw [List.filterMap_cons_none (by rw [seat?, hslot, Option.map_none])]
      exact ih.cons _
    | some slot =>
      rw [List.filterMap_cons_some (by rw [seat?, hslot, Option.map_some])]
      exact ih.cons_cons _

/-- To which endpoint a slot belongs does not depend on the order of endpoints with identities of
their own that come last. -/
theorem slots_perm (kept : List ActiveEndpoint) {added added' : List ActiveEndpoint}
    (h : added.Perm added') (hdistinct : (added.map (·.identity)).Nodup) :
    Std.ExtTreeMap.ofList ((kept ++ added).map fun e => (e.identity, e.slot)) =
      Std.ExtTreeMap.ofList ((kept ++ added').map fun e => (e.identity, e.slot)) := by
  have hsame : Std.ExtTreeMap.ofList (added.map fun e => (e.identity, e.slot)) =
      Std.ExtTreeMap.ofList (added'.map fun e => (e.identity, e.slot)) :=
    ofList_perm (h.map _) (by rwa [List.map_map])
  refine Std.ExtTreeMap.ext_getElem? fun identity => ?_
  rw [List.map_append, List.map_append, getElem?_ofList_append, getElem?_ofList_append, hsame]

section Engine

variable (engine : Engine σ H ε) (service : String) (handle : H)

/-- Can the endpoint get its slot beside those that are active? -/
def isFree (active : List ActiveEndpoint) (spec : EndpointSpec) : Bool :=
  spec.slot.any fun slot => slot < engine.slots handle && slot ∉ active.map (·.slot)

theorem pickSlot_assigned {active : List ActiveEndpoint} {spec : EndpointSpec} {slot : UInt32}
    (hslot : spec.slot = some slot) (previous : Option UInt32) :
    pickSlot (ε := ε) service spec previous (active.map (·.slot)) (engine.slots handle) =
      if isFree engine handle active spec then .ok slot
      else .error (.slotUnavailable service spec.identity slot) := by
  rw [pickSlot, isFree]
  simp only [hslot, Option.any_some]

/-- An endpoint that has got its slot is in nobody's way. -/
theorem isFree_append {active : List ActiveEndpoint} {spec other : EndpointSpec} {e : ActiveEndpoint}
    (he : spec.slot = some e.slot) (hne : spec.slot ≠ other.slot) :
    isFree engine handle (active ++ [e]) other = isFree engine handle active other := by
  rw [isFree, isFree]
  cases hslot : other.slot with
  | none => rfl
  | some slot =>
    have hother : slot ≠ e.slot := fun heq => hne (by rw [he, hslot, heq])
    simp [hother]

/-- Those whose slots are free get them, in whatever order, and the others do not. -/
theorem activate_assigned {previous active : List ActiveEndpoint} {specs : List EndpointSpec}
    (h : Assigned specs) {s : σ}
    (hquiet : Quiet (activate engine service handle previous active specs s).1.2) :
    (activate engine service handle previous active specs s).1 =
      (active ++ (specs.filter (isFree engine handle active)).filterMap seat?,
        (specs.filter (!isFree engine handle active ·)).filterMap (refusal? service)) := by
  induction specs generalizing active s with
  | nil => simp
  | cons spec rest ih =>
    obtain ⟨slot, hslot⟩ := Option.isSome_iff_exists.mp (h.all spec List.mem_cons_self)
    have hrest : Assigned rest := h.sublist (List.sublist_cons_self spec rest)
    have hothers : ∀ other ∈ rest, spec.slot ≠ other.slot := fun other hother heq =>
      (List.nodup_cons.mp h.distinct).1 (List.mem_map.mpr ⟨other, hother, heq.symm⟩)
    rw [activate_cons, pickSlot_assigned engine service handle hslot] at hquiet ⊢
    by_cases hfree : isFree engine handle active spec = true
    · rw [if_pos hfree] at hquiet ⊢
      dsimp only at hquiet ⊢
      cases hadd : (engine.addTarget handle spec.addresses slot s).1 with
      | error source =>
        rw [hadd] at hquiet
        have hnone := hquiet _ List.mem_cons_self
        simp [Fault.source?] at hnone
      | ok _ =>
        rw [hadd] at hquiet
        have hsame : ∀ other ∈ rest, isFree engine handle
            (active ++ [⟨spec.identity, spec.addresses, slot⟩]) other =
            isFree engine handle active other :=
          fun other hother => isFree_append engine handle hslot (hothers other hother)
        have hseat : seat? spec = some ⟨spec.identity, spec.addresses, slot⟩ := by
          rw [seat?, hslot, Option.map_some]
        have hgranted := List.filter_congr hsame
        have hrefused : rest.filter (!isFree engine handle
            (active ++ [⟨spec.identity, spec.addresses, slot⟩]) ·) =
            rest.filter (!isFree engine handle active ·) :=
          List.filter_congr fun other hother => by rw [hsame other hother]
        dsimp only
        rw [ih hrest hquiet, hgranted, hrefused, List.filter_cons_of_pos hfree,
          List.filter_cons_of_neg (by simp [hfree]), List.filterMap_cons_some hseat,
          List.append_assoc, List.singleton_append]
    · rw [if_neg hfree] at hquiet ⊢
      dsimp only at hquiet ⊢
      have hrefusal : refusal? (ε := ε) service spec =
          some (.slotUnavailable service spec.identity slot) := by
        rw [refusal?, hslot, Option.map_some]
      rw [ih hrest fun fault hfault => hquiet fault (List.mem_cons_of_mem _ hfault),
        List.filter_cons_of_neg hfree, List.filter_cons_of_pos (by simp [hfree]),
        List.filterMap_cons_some hrefusal]

theorem converge_assigned {previous : List ActiveEndpoint} {specs : List EndpointSpec}
    (h : Assigned specs) {s : σ}
    (hquiet : Quiet (converge engine service handle previous specs s).1.2) :
    (converge engine service handle previous specs s).1 =
      let kept := previous.filter (staysPut specs)
      (kept ++ ((newcomers kept specs).filter (isFree engine handle kept)).filterMap seat?,
        ((newcomers kept specs).filter (!isFree engine handle kept ·)).filterMap
          (refusal? service)) := by
  rw [converge_eq] at hquiet ⊢
  dsimp only at hquiet ⊢
  have hrelease := release_quiet engine service handle specs previous (s := s)
    fun fault hfault => hquiet fault (List.mem_append_left _ hfault)
  rw [hrelease, List.nil_append] at hquiet ⊢
  exact activate_assigned engine service handle (h.sublist (newcomers_sublist _ specs)) hquiet

variable {specs specs' : List EndpointSpec} (h : specs.Perm specs')
  (hdistinct : (specs.map (·.identity)).Nodup) (ha : Assigned specs)

include h hdistinct ha

/-- If no call of the engine fails, the order does not matter to who has which slot in the end, and
not to the faults that are met. -/
theorem setEndpoints_perm {r : Roster H σ}
    (hundisturbed : Undisturbed (setEndpoints engine service specs r).1)
    (hundisturbed' : Undisturbed (setEndpoints engine service specs' r).1) :
    (∀ name, (setEndpoints engine service specs r).2.slots? name =
      (setEndpoints engine service specs' r).2.slots? name) ∧
    (Report.leaves (setEndpoints engine service specs r).1).Perm
      (Report.leaves (setEndpoints engine service specs' r).1) := by
  have ha' : Assigned specs' :=
    ⟨fun spec hspec => ha.all spec (h.mem_iff.mpr hspec), (h.map _).nodup_iff.mp ha.distinct⟩
  rw [setEndpoints_eq] at hundisturbed hundisturbed' ⊢
  rw [setEndpoints_eq]
  split at hundisturbed
  · rename_i handle previous hservice hprevious
    rw [hservice, hprevious] at hundisturbed'
    have hleft := converge_assigned engine service handle ha (undisturbed_ofFaults.mp hundisturbed)
    have hright :=
      converge_assigned engine service handle ha' (undisturbed_ofFaults.mp hundisturbed')
    rw [← staysPut_perm h hdistinct] at hright
    have hperm := newcomers_perm h hdistinct (previous.filter (staysPut specs))
    dsimp only
    rw [hleft, hright]
    refine ⟨fun name => ?_, ?_⟩
    · rw [slots?, slots?]
      by_cases hname : service = name
      · rw [hname, Std.ExtTreeMap.getElem?_insert_self, Std.ExtTreeMap.getElem?_insert_self,
          Option.map_some, Option.map_some]
        refine congrArg some (slots_perm _ ((hperm.filter _).filterMap _) ?_)
        refine (seats_identities _).nodup ?_
        exact (List.filter_sublist.map _).nodup (newcomers_nodup _ specs)
      · rw [getElem?_insert_of_ne hname, getElem?_insert_of_ne hname]
    · rw [Report.leaves_ofFaults, Report.leaves_ofFaults]
      exact (hperm.filter _).filterMap _
  · exact ⟨fun name => rfl, .refl _⟩

end Engine

/-- Whatever is on record, services with names of their own and flows with keys of their own may be
named in any order: the same calls are made in the same order, and the result and all that is left are
the same. So may endpoints with identities and assigned slots of their own if no call of the engine
fails: in the end the same endpoints hold the same slots, and the same faults have been met. -/
theorem set_in_any_order (engine : Engine σ H ε) (r : Roster H σ) :
    (∀ specs specs' : List ServiceSpec, specs.Perm specs' → (specs.map (·.name)).Nodup →
      setServices engine specs r = setServices engine specs' r ∧
        Request.calls engine (.services specs) r = Request.calls engine (.services specs') r) ∧
    (∀ specs specs' : List FlowSpec, specs.Perm specs' → (specs.map (·.key)).Nodup →
      setFlows engine specs r = setFlows engine specs' r ∧
        Request.calls engine (.flows specs) r = Request.calls engine (.flows specs') r) ∧
    ∀ service (specs specs' : List EndpointSpec), specs.Perm specs' →
      (specs.map (·.identity)).Nodup → Assigned specs →
      let answer := setEndpoints engine service specs r
      let answer' := setEndpoints engine service specs' r
      Undisturbed answer.1 → Undisturbed answer'.1 →
      (∀ name, answer.2.slots? name = answer'.2.slots? name) ∧
        (Report.leaves answer.1).Perm (Report.leaves answer'.1) := by
  refine ⟨fun specs specs' h hdistinct => ⟨?_, ?_⟩, fun specs specs' h hdistinct => ⟨?_, ?_⟩,
    fun service specs specs' h hdistinct ha => setEndpoints_perm engine service h hdistinct ha⟩
  · rw [setServices_perm engine h hdistinct]
  · rw [Request.calls, Request.perform, setServices_perm engine.traced h hdistinct]
    rfl
  · rw [setFlows_perm engine h hdistinct]
  · rw [Request.calls, Request.perform, setFlows_perm engine.traced h hdistinct]
    rfl

/-- One endpoint must get a slot that the service has, and one a slot that it has not. -/
def assignedRequest : List EndpointSpec :=
  [⟨"pod-1", [.v4 0x0A000001#32], true, some 1⟩, ⟨"pod-2", [.v4 0x0A000002#32], true, some 7⟩]

def swappedServices : List ServiceSpec := [⟨"svc-c", 1⟩, ⟨"svc-b", 3⟩]

def swappedFlows : List FlowSpec :=
  [⟨"web", "svc-a", ⟨[], [], [], [], [.tcp], 0, []⟩⟩, ⟨"dns", "svc-a", ⟨[], [], [], [], [.udp], 0, []⟩⟩]

/-- On a roster with one service: services and flows are handled in the order of their names, and the
endpoint whose slot the service has gets it, in either order. -/
theorem assignedRequest_reversed :
    let r := afterTurns (willing Unit Empty) () pairTurns
    let answer := setEndpoints (willing Unit Empty) "svc-a" assignedRequest.reverse r
    Request.calls (willing Unit Empty) (.services swappedServices.reverse) r =
      [.deleteService "svc-a", .addService "svc-b" 3, .addService "svc-c" 1] ∧
    Request.calls (willing Unit Empty) (.services swappedServices) r =
      Request.calls (willing Unit Empty) (.services swappedServices.reverse) r ∧
    Request.calls (willing Unit Empty) (.flows swappedFlows) r =
      Request.calls (willing Unit Empty) (.flows swappedFlows.reverse) r ∧
    answer.2.endpoints["svc-a"]? = some [⟨"pod-1", [.v4 0x0A000001#32], 1⟩] ∧
    Report.leaves answer.1 = [.slotUnavailable "svc-a" "pod-2" 7] ∧
    answer.2.slots? "svc-a" =
      (setEndpoints (willing Unit Empty) "svc-a" assignedRequest r).2.slots? "svc-a" ∧
    (Report.leaves answer.1).Perm
      (Report.leaves (setEndpoints (willing Unit Empty) "svc-a" assignedRequest r).1) := by
  intro r answer
  obtain ⟨hservices, hflows, hendpoints⟩ := set_in_any_order (willing Unit Empty) r
  have hundisturbed : Undisturbed (setEndpoints (willing Unit Empty) "svc-a" assignedRequest r).1 ∧
      Undisturbed answer.1 := by
    have hquiet : Quiet [Fault.slotUnavailable (ε := Empty) "svc-a" "pod-2" 7] := by
      simp [Quiet, Fault.source?]
    exact ⟨undisturbed_ofFaults.mpr hquiet, undisturbed_ofFaults.mpr hquiet⟩
  have hsame := hendpoints "svc-a" assignedRequest.reverse assignedRequest
    assignedRequest.reverse_perm (by decide) ⟨by decide, by decide⟩ hundisturbed.2 hundisturbed.1
  exact ⟨rfl, (hservices _ _ swappedServices.reverse_perm.symm (by decide)).2,
    (hflows _ _ swappedFlows.reverse_perm.symm (by decide)).2, rfl, rfl, hsame.1 "svc-a", hsame.2⟩

end VipSteering.Roster
