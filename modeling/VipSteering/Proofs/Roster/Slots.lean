import VipSteering.Proofs.Roster.Undisturbed

namespace VipSteering

namespace Roster

variable {σ H ε : Type}

/-- None of the faults that were met is the engine's. -/
def Undisturbed (result : Except (Report (Fault ε)) Unit) : Prop :=
  ∀ report, result = .error report → Quiet report.faults

theorem undisturbed_ofFaults {faults : List (Fault ε)} :
    Undisturbed (Report.ofFaults faults) ↔ Quiet faults := by
  match faults with
  | [] => simp [Undisturbed, Quiet]
  | [fault] => simp [Undisturbed, Report.ofFaults, Report.gather, Report.faults]
  | first :: second :: rest =>
    have hall := Report.faultsOf_map_one (first :: second :: rest)
    simp only [List.map_cons] at hall
    simp [Undisturbed, Report.ofFaults, Report.gather, Report.faults, hall]

section Allot

variable (engine : Engine σ H ε) (service : String) (handle : H) {previous : List ActiveEndpoint}

theorem allot_append (previous active : List ActiveEndpoint) (front rest : List EndpointSpec) :
    allot engine service handle previous active (front ++ rest) =
      allot engine service handle previous
        (allot engine service handle previous active front) rest := by
  induction front generalizing active with
  | nil => rfl
  | cons spec front ih =>
    rw [List.cons_append, allot, allot]
    split
    · exact ih active
    · exact ih _

/-- The slot that the request gets when its turn has come. -/
def Gets (previous kept : List ActiveEndpoint) (front : List EndpointSpec) (spec : EndpointSpec)
    (slot : UInt32) : Prop :=
  pickSlot (ε := ε) service spec (slotOf? previous spec.identity)
    ((allot engine service handle previous kept front).map (·.slot)) (engine.slots handle) =
      .ok slot

theorem mem_allot_one {kept : List ActiveEndpoint} {spec : EndpointSpec} {a : ActiveEndpoint} :
    a ∈ allot engine service handle previous kept [spec] ↔ a ∈ kept ∨
      (a.identity = spec.identity ∧ a.addresses = spec.addresses ∧
        Gets engine service handle previous kept [] spec a.slot) := by
  rw [allot, Gets, allot]
  generalize pickSlot (ε := ε) service spec (slotOf? previous spec.identity)
    (kept.map (·.slot)) (engine.slots handle) = picked
  cases picked with
  | error fault => simp
  | ok slot =>
    obtain ⟨identity, addresses, own⟩ := a
    simp only [allot, List.mem_append, List.mem_singleton, ActiveEndpoint.mk.injEq, Except.ok.injEq,
      eq_comm (a := slot)]

/-- Active in the end are those that were, and those that got a slot in their turn. -/
theorem mem_allot {kept : List ActiveEndpoint} {specs : List EndpointSpec} {a : ActiveEndpoint} :
    a ∈ allot engine service handle previous kept specs ↔ a ∈ kept ∨
      ∃ front spec back, specs = front ++ spec :: back ∧ a.identity = spec.identity ∧
        a.addresses = spec.addresses ∧ Gets engine service handle previous kept front spec a.slot := by
  induction specs generalizing kept with
  | nil => simp [allot]
  | cons first rest ih =>
    have hlater (front : List EndpointSpec) :
        allot engine service handle previous kept (first :: front) =
          allot engine service handle previous
            (allot engine service handle previous kept [first]) front :=
      allot_append engine service handle previous kept [first] front
    rw [hlater, ih, mem_allot_one, or_assoc]
    refine or_congr_right ⟨?_, ?_⟩
    · intro hgiven
      rcases hgiven with hfirst | ⟨front, spec, back, rfl, hidentity, haddresses, hgets⟩
      · exact ⟨[], first, rest, rfl, hfirst⟩
      · refine ⟨first :: front, spec, back, rfl, hidentity, haddresses, ?_⟩
        rw [Gets, hlater]
        exact hgets
    · intro hgiven
      obtain ⟨front, spec, back, heq, hidentity, haddresses, hgets⟩ := hgiven
      cases front with
      | nil =>
        obtain ⟨rfl, rfl⟩ := List.cons.inj heq
        exact .inl ⟨hidentity, haddresses, hgets⟩
      | cons other front =>
        obtain ⟨rfl, rfl⟩ := List.cons.inj heq
        rw [Gets, hlater] at hgets
        exact .inr ⟨front, spec, back, rfl, hidentity, haddresses, hgets⟩

end Allot

/-- Does the request take the slot, which is free? It does if it must get it, or if it may get any,
has none to go back to and finds it the lowest that is free. -/
def Takes (count : UInt32) (taken : List UInt32) (previous : Option UInt32) (spec : EndpointSpec)
    (slot : UInt32) : Prop :=
  match spec.slot with
  | some assigned => assigned = slot
  | none => (∀ own, previous = some own → own ∈ taken) ∧ lowestFreeSlot taken count = some slot

theorem pickSlot_iff_takes (service : String) {spec : EndpointSpec} {previous : Option UInt32}
    {taken : List UInt32} {count slot : UInt32} (hslot : slot < count) (hfree : slot ∉ taken)
    (hown : ∀ own, previous = some own → own < count ∧ own ≠ slot) :
    pickSlot (ε := ε) service spec previous taken count = .ok slot ↔
      Takes count taken previous spec slot := by
  rw [pickSlot, Takes]
  cases spec.slot with
  | some assigned =>
    by_cases hassigned : assigned = slot
    · simp [hassigned, hslot, hfree]
    · simp only [hassigned, iff_false]
      split
      · simp [hassigned]
      · simp
  | none =>
    have hpicked : (previous.filter fun own => own < count && own ∉ taken) = none ↔
        ∀ own, previous = some own → own ∈ taken := by
      rw [Option.filter_eq_none_iff]
      constructor
      · intro hnone own hprevious
        have hused := hnone own hprevious
        simpa [(hown own hprevious).1] using hused
      · intro hused own hprevious
        simp [hused own hprevious]
    rw [← hpicked]
    dsimp only
    cases hback : previous.filter fun own => own < count && own ∉ taken with
    | some own =>
      obtain ⟨hprevious, -⟩ := Option.filter_eq_some_iff.mp hback
      simp [(hown own hprevious).2]
    | none =>
      rw [Option.none_or]
      cases lowestFreeSlot taken count <;> simp

theorem slotOf?_of_mem {previous : List ActiveEndpoint} (h : (previous.map (·.identity)).Nodup)
    {e : ActiveEndpoint} (he : e ∈ previous) : slotOf? previous e.identity = some e.slot := by
  rw [slotOf?, find?_of_nodup h he, Option.map_some]

theorem exists_of_slotOf? {previous : List ActiveEndpoint} {identity : String} {slot : UInt32}
    (h : slotOf? previous identity = some slot) :
    ∃ e ∈ previous, e.identity = identity ∧ e.slot = slot := by
  obtain ⟨e, hfind, rfl⟩ := Option.map_eq_some_iff.mp h
  exact ⟨e, List.mem_of_find?_eq_some hfind, by simpa using List.find?_some hfind, rfl⟩

/-- Before the turn of the endpoint comes, another takes the slot that it had. -/
def Overtaken (engine : Engine σ H ε) (service : String) (handle : H)
    (previous : List ActiveEndpoint) (specs : List EndpointSpec) (e : ActiveEndpoint) : Prop :=
  let kept := previous.filter (staysPut specs)
  ∃ front spec back, newcomers kept specs = front ++ spec :: back ∧
    e.identity ∈ back.map (·.identity) ∧
    Takes (engine.slots handle)
      ((allot engine service handle previous kept front).map (·.slot))
      (slotOf? previous spec.identity) spec e.slot

section Overtaken

variable (engine : Engine σ H ε) (service : String) (handle : H) {previous : List ActiveEndpoint}
  {specs : List EndpointSpec} {e : ActiveEndpoint}

/-- An endpoint whose slot is free when it is its turn gets the slot back. -/
theorem pickSlot_back {spec : EndpointSpec} {taken : List UInt32} {count slot : UInt32}
    (hany : spec.slot = none) (hslot : slot < count) (hfree : slot ∉ taken) :
    pickSlot (ε := ε) service spec (some slot) taken count = .ok slot := by
  rw [pickSlot, hany]
  simp [Option.filter_some, hslot, hfree]

variable (h : Seated (engine.slots handle) previous) (he : e ∈ previous)

include h he

/-- No request for another endpoint goes back to the slot. -/
theorem ne_slot_of_slotOf? {identity : String} (hother : identity ≠ e.identity) {own : UInt32}
    (hown : slotOf? previous identity = some own) : own < engine.slots handle ∧ own ≠ e.slot := by
  obtain ⟨f, hf, rfl, rfl⟩ := exists_of_slotOf? hown
  refine ⟨h.slot_lt f hf, fun hsame => hother ?_⟩
  rw [List.inj_on_of_nodup_map h.slots hf he hsame]

/-- When an endpoint is overtaken, another one holds the slot before its turn comes. -/
theorem Overtaken.holder (hover : Overtaken engine service handle previous specs e) :
    ∃ front back, newcomers (previous.filter (staysPut specs)) specs = front ++ back ∧
      e.identity ∈ back.map (·.identity) ∧
      ∃ b ∈ allot engine service handle previous (previous.filter (staysPut specs)) front,
        b.slot = e.slot := by
  obtain ⟨front, spec, back, hsplit, hlater, htakes⟩ := hover
  refine ⟨front ++ [spec], back, by rw [hsplit, List.append_cons], hlater, ?_⟩
  rw [allot_append]
  by_cases hfree : e.slot ∈ (allot engine service handle previous
      (previous.filter (staysPut specs)) front).map (·.slot)
  · obtain ⟨b, hb, hslot⟩ := List.mem_map.mp hfree
    exact ⟨b, (mem_allot_one engine service handle).mpr (.inl hb), hslot⟩
  · have hdistinct := newcomers_nodup (previous.filter (staysPut specs)) specs
    rw [hsplit, List.append_cons, List.map_append, List.nodup_append] at hdistinct
    have hother : spec.identity ≠ e.identity := fun heq =>
      hdistinct.2.2 spec.identity (List.mem_map_of_mem (List.mem_append_right _
        (List.mem_singleton_self spec))) e.identity hlater heq
    have hgets := (pickSlot_iff_takes (ε := ε) service (h.slot_lt e he) hfree
      (fun own hown => ne_slot_of_slotOf? engine handle h he hother hown)).mpr htakes
    exact ⟨⟨spec.identity, spec.addresses, e.slot⟩,
      (mem_allot_one engine service handle).mpr (.inr ⟨rfl, rfl, hgets⟩), rfl⟩

/-- An endpoint that is overtaken has lost its slot to another. -/
theorem not_retains_of_overtaken
    (hslots : ((allot engine service handle previous (previous.filter (staysPut specs))
      (newcomers (previous.filter (staysPut specs)) specs)).map (·.slot)).Nodup)
    (hover : Overtaken engine service handle previous specs e) {a : ActiveEndpoint}
    (ha : a ∈ allot engine service handle previous (previous.filter (staysPut specs))
      (newcomers (previous.filter (staysPut specs)) specs))
    (hidentity : a.identity = e.identity) : a.slot ≠ e.slot := by
  obtain ⟨front, back, hsplit, hlater, b, hb, hslot⟩ := hover.holder engine service handle h he
  have hdistinct := newcomers_nodup (previous.filter (staysPut specs)) specs
  rw [hsplit] at hslots ha hdistinct
  rw [List.map_append, List.nodup_append] at hdistinct
  intro hsame
  have hbfinal : b ∈ allot engine service handle previous (previous.filter (staysPut specs))
      (front ++ back) := by
    rw [allot_append]
    exact (mem_allot engine service handle).mpr (.inl hb)
  have hab := List.inj_on_of_nodup_map hslots ha hbfinal (hsame.trans hslot.symm)
  rw [← hidentity, hab] at hlater
  rcases (mem_allot engine service handle).mp hb with hkept | ⟨f, spec, r, hf, hb, -, -⟩
  · obtain ⟨w, hw, hwidentity⟩ := List.mem_map.mp hlater
    have hnew : w ∈ newcomers (previous.filter (staysPut specs)) specs := by
      rw [hsplit]
      exact List.mem_append_right _ hw
    refine (mem_newcomers.mp hnew).2.1 ?_
    rw [hwidentity]
    exact List.mem_map_of_mem hkept
  · refine hdistinct.2.2 b.identity ?_ b.identity hlater rfl
    rw [hb, hf]
    exact List.mem_map_of_mem (List.mem_append_right _ List.mem_cons_self)

/-- An endpoint that is not overtaken, and may have any slot, keeps the one that it has. -/
theorem retains_of_not_overtaken {w : EndpointSpec} (hwanted : wanted? specs e.identity = some w)
    (hready : w.ready = true) (haddresses : w.addresses ≠ []) (hany : w.slot = none)
    (hover : ¬ Overtaken engine service handle previous specs e) :
    ∃ a ∈ allot engine service handle previous (previous.filter (staysPut specs))
      (newcomers (previous.filter (staysPut specs)) specs),
      a.identity = e.identity ∧ a.slot = e.slot := by
  by_cases hstays : staysPut specs e = true
  · exact ⟨e, (mem_allot engine service handle).mpr (.inl (List.mem_filter.mpr ⟨he, hstays⟩)),
      rfl, rfl⟩
  have hidentity := identity_of_wanted? hwanted
  have hgone {b : ActiveEndpoint} (hb : b ∈ previous.filter (staysPut specs)) : b ≠ e := by
    intro heq
    rw [heq] at hb
    exact hstays (List.mem_filter.mp hb).2
  have hnew : w ∈ newcomers (previous.filter (staysPut specs)) specs := by
    refine mem_newcomers.mpr ⟨by rw [hidentity]; exact hwanted, ?_, hready, haddresses⟩
    rw [hidentity]
    intro hmem
    obtain ⟨b, hb, hsame⟩ := List.mem_map.mp hmem
    exact hgone hb (List.inj_on_of_nodup_map h.identities (List.mem_of_mem_filter hb) he hsame)
  have hdistinct := newcomers_nodup (previous.filter (staysPut specs)) specs
  obtain ⟨front, back, hsplit⟩ := List.append_of_mem hnew
  rw [hsplit, List.map_append, List.nodup_append] at hdistinct
  have hfree : e.slot ∉ (allot engine service handle previous (previous.filter (staysPut specs))
      front).map (·.slot) := by
    intro hmem
    obtain ⟨b, hb, hslot⟩ := List.mem_map.mp hmem
    rcases (mem_allot engine service handle).mp hb with hkept | ⟨f, spec, r, rfl, -, -, hgets⟩
    · exact hgone hkept
        (List.inj_on_of_nodup_map h.slots (List.mem_of_mem_filter hkept) he hslot)
    · have hother : spec.identity ≠ e.identity := by
        rw [← hidentity]
        exact hdistinct.2.2 spec.identity
          (List.mem_map_of_mem (List.mem_append_right _ List.mem_cons_self)) w.identity
          (List.mem_map_of_mem List.mem_cons_self)
      rw [hslot] at hgets
      obtain ⟨hlt, hunused⟩ := pickSlot_ok service hgets
      refine hover ⟨f, spec, r ++ w :: back, ?_, ?_, ?_⟩
      · rw [hsplit, List.append_assoc, List.cons_append]
      · rw [← hidentity]
        exact List.mem_map_of_mem (List.mem_append_right _ List.mem_cons_self)
      · exact (pickSlot_iff_takes service hlt hunused
          fun own hown => ne_slot_of_slotOf? engine handle h he hother hown).mp hgets
  refine ⟨⟨w.identity, w.addresses, e.slot⟩, ?_, hidentity, rfl⟩
  refine (mem_allot engine service handle).mpr (.inr ⟨front, w, back, hsplit, rfl, rfl, ?_⟩)
  rw [Gets, hidentity, slotOf?_of_mem h.identities he]
  exact pickSlot_back service hany (h.slot_lt e he) hfree

end Overtaken

/-- The endpoint holds the slot, as far as is on record. -/
def HoldsSlot (r : Roster H σ) (service identity : String) (slot : UInt32) : Prop :=
  ∃ held, r.slots? service = some held ∧ held[identity]? = some slot

theorem holdsSlot_iff {r : Roster H σ} {service : String} {es : List ActiveEndpoint}
    {count : UInt32}
    (hes : r.endpoints[service]? = some es) (h : Seated count es) (identity : String)
    (slot : UInt32) :
    HoldsSlot r service identity slot ↔ ∃ a ∈ es, a.identity = identity ∧ a.slot = slot := by
  rw [← h.getElem?_slots, HoldsSlot, slots?, hes]
  simp only [Option.map_some, Option.some.injEq, exists_eq_left']

/-- If no call of the engine fails, an endpoint that is still wanted active, with whatever addresses
and at any slot, keeps its slot exactly if none that gets a slot before it takes this one. -/
theorem keeps_slot_iff (engine : Engine σ H ε) (s : σ) (turns : List (Turn σ)) {service : String}
    {handle : H} {previous : List ActiveEndpoint} {specs : List EndpointSpec}
    (hservice : (afterTurns engine s turns).services[service]? = some handle)
    (hprevious : (afterTurns engine s turns).endpoints[service]? = some previous)
    (hundisturbed : Undisturbed (setEndpoints engine service specs (afterTurns engine s turns)).1)
    {e : ActiveEndpoint} (he : e ∈ previous) {w : EndpointSpec}
    (hwanted : wanted? specs e.identity = some w) (hready : w.ready = true)
    (haddresses : w.addresses ≠ []) (hany : w.slot = none) :
    HoldsSlot (setEndpoints engine service specs (afterTurns engine s turns)).2 service e.identity
        e.slot ↔
      ¬ Overtaken engine service handle previous specs e := by
  have hseated := (afterTurns_consistent engine s turns).seated service handle previous hservice
    hprevious
  generalize afterTurns engine s turns = r at *
  have hafter := converge_seated engine service handle specs r.engine hseated
  have hslots := converge_slots_nodup engine service handle specs r.engine hseated.slots
  rw [setEndpoints_eq, hservice, hprevious] at hundisturbed ⊢
  dsimp only at hundisturbed ⊢
  have hallot := converge_quiet engine service handle (undisturbed_ofFaults.mp hundisturbed)
  rw [holdsSlot_iff Std.ExtTreeMap.getElem?_insert_self hafter]
  rw [hallot] at hslots ⊢
  constructor
  · intro hgiven hover
    obtain ⟨a, ha, hidentity, hslot⟩ := hgiven
    exact not_retains_of_overtaken engine service handle hseated he hslots hover ha hidentity hslot
  · exact retains_of_not_overtaken engine service handle hseated he hwanted hready haddresses hany

/-- An engine that does whatever it is asked, and whose handles are numbers of slots. -/
def willing (σ ε : Type) : Engine σ UInt32 ε where
  addService _ slots := return .ok slots
  deleteService _ := return .ok ()
  slots handle := handle
  addFlow _ _ := return .ok ()
  deleteFlow _ _ := return .ok ()
  addTarget _ _ _ := return .ok ()
  deleteTarget _ _ _ := return .ok ()

/-- A service with one slot, and the endpoint that holds it. -/
def fullService : Roster UInt32 Unit :=
  afterTurns (willing Unit Empty) () [⟨id, .services [⟨"svc-a", 1⟩]⟩,
    ⟨id, .endpoints "svc-a" [⟨"pod-1", [.v4 0x0A000001#32], true, none⟩]⟩]

/-- The endpoint has moved to another address, and a new one is named before it. -/
def movedRequest : List EndpointSpec :=
  [⟨"pod-2", [.v4 0x0A000002#32], true, none⟩, ⟨"pod-1", [.v4 0x0A000003#32], true, none⟩]

theorem fullService_record : fullService.services["svc-a"]? = some 1 ∧
    fullService.endpoints["svc-a"]? = some [⟨"pod-1", [.v4 0x0A000001#32], 0⟩] :=
  ⟨rfl, rfl⟩

theorem movedRequest_undisturbed :
    Undisturbed (setEndpoints (willing Unit Empty) "svc-a" movedRequest fullService).1 := by
  have hfull : (setEndpoints (willing Unit Empty) "svc-a" movedRequest fullService).1 =
      .error (.one (.capacity "svc-a" "pod-1" 1)) := rfl
  have hquiet : Quiet [Fault.capacity (ε := Empty) "svc-a" "pod-1" 1] := by
    simp [Quiet, Fault.source?]
  rw [hfull]
  exact undisturbed_ofFaults.mpr hquiet

theorem seated_one (e : ActiveEndpoint) (hslot : e.slot = 0) (ha : e.addresses ≠ []) :
    Seated 1 [e] :=
  ⟨List.nodup_singleton _, List.nodup_singleton _, by simp [hslot], by simpa using ha⟩

/-- The endpoint loses its slot to the new one and is dropped, as there is no other. -/
theorem movedRequest_displaces :
    HoldsSlot fullService "svc-a" "pod-1" 0 ∧
    Undisturbed (setEndpoints (willing Unit Empty) "svc-a" movedRequest fullService).1 ∧
    (∀ spec ∈ movedRequest, spec.ready = true ∧ spec.addresses ≠ [] ∧ spec.slot = none) ∧
    ¬ HoldsSlot (setEndpoints (willing Unit Empty) "svc-a" movedRequest fullService).2
      "svc-a" "pod-1" 0 ∧
    HoldsSlot (setEndpoints (willing Unit Empty) "svc-a" movedRequest fullService).2
      "svc-a" "pod-2" 0 := by
  have hafter : (setEndpoints (willing Unit Empty) "svc-a" movedRequest
      fullService).2.endpoints["svc-a"]? = some [⟨"pod-2", [.v4 0x0A000002#32], 0⟩] := rfl
  have hseated := seated_one ⟨"pod-2", [.v4 0x0A000002#32], 0⟩ rfl (by decide)
  refine ⟨?_, movedRequest_undisturbed, by decide, ?_, ?_⟩
  · rw [holdsSlot_iff fullService_record.2 (seated_one _ rfl (by decide))]
    exact ⟨_, List.mem_cons_self, rfl, rfl⟩
  · rw [holdsSlot_iff hafter hseated]
    decide
  · rw [holdsSlot_iff hafter hseated]
    exact ⟨_, List.mem_cons_self, rfl, rfl⟩

/-- The slot is lost for no other reason than that the new endpoint takes it. -/
theorem movedRequest_keeps_iff :
    ∃ w, wanted? movedRequest "pod-1" = some w ∧ w.ready = true ∧ w.addresses ≠ [] ∧
      w.slot = none ∧
      (HoldsSlot (setEndpoints (willing Unit Empty) "svc-a" movedRequest fullService).2
          "svc-a" "pod-1" 0 ↔
        ¬ Overtaken (willing Unit Empty) "svc-a" 1 [⟨"pod-1", [.v4 0x0A000001#32], 0⟩] movedRequest
          ⟨"pod-1", [.v4 0x0A000001#32], 0⟩) :=
  ⟨⟨"pod-1", [.v4 0x0A000003#32], true, none⟩, rfl, rfl, by decide, rfl,
    keeps_slot_iff (willing Unit Empty) () _ fullService_record.1 fullService_record.2
      movedRequest_undisturbed List.mem_cons_self rfl rfl (by decide) rfl⟩

end Roster
end VipSteering
