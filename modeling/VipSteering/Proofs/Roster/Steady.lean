import VipSteering.Proofs.Roster.Accounted
import VipSteering.Proofs.Roster.Traced

namespace VipSteering.Roster

variable {σ H ε : Type}

theorem Fault.source?_of_isCapacity {fault : Fault ε} (h : fault.isCapacity = true) :
    fault.source? = none := by
  cases fault with
  | capacity _ _ _ => rfl
  | slotUnavailable _ _ _ => rfl
  | _ => cases h

/-- An endpoint that must get a slot gets no other. -/
theorem getD_of_pickSlot {service : String} {spec : EndpointSpec} {previous : Option UInt32}
    {taken : List UInt32} {count slot : UInt32}
    (h : pickSlot (ε := ε) service spec previous taken count = .ok slot) :
    spec.slot.getD slot = slot := by
  rw [pickSlot] at h
  cases hassigned : spec.slot with
  | none => rfl
  | some assigned =>
    simp only [hassigned] at h
    split at h
    · exact Except.ok.inj h
    · cases h

section Engine

variable (engine : Engine σ H ε) (service : String) (handle : H)

theorem release_stays {specs : List EndpointSpec} {es : List ActiveEndpoint}
    (h : ∀ e ∈ es, staysPut specs e = true) (s : σ) :
    release engine service handle specs es s = ((es, []), s) := by
  induction es with
  | nil => rfl
  | cons e rest ih =>
    simp only [List.mem_cons, forall_eq_or_imp] at h
    rw [release_cons, if_pos h.1, ih h.2]

/-- What can stay as it is is not released. -/
theorem mem_release {specs : List EndpointSpec} {previous : List ActiveEndpoint}
    {e : ActiveEndpoint} (he : e ∈ previous) (hstays : staysPut specs e = true) (s : σ) :
    e ∈ (release engine service handle specs previous s).1.1 := by
  induction previous generalizing s with
  | nil => cases he
  | cons first rest ih =>
    rw [release_cons]
    rcases List.mem_cons.mp he with rfl | hrest
    · rw [if_pos hstays]
      exact List.mem_cons_self
    · split
      · exact List.mem_cons_of_mem _ (ih hrest s)
      · dsimp only
        split
        · exact ih hrest _
        · exact List.mem_cons_of_mem _ (ih hrest _)

/-- If no call of the engine fails, whatever is active in the end can stay as it is. -/
theorem converge_stays {previous : List ActiveEndpoint} {specs : List EndpointSpec} {s : σ}
    (h : Quiet (converge engine service handle previous specs s).1.2) :
    ∀ e ∈ (converge engine service handle previous specs s).1.1, staysPut specs e = true := by
  intro e he
  rw [converge_quiet engine service handle h] at he
  rcases (mem_allot engine service handle).mp he with
    hkept | ⟨front, spec, back, hsplit, hidentity, haddresses, hgets⟩
  · exact (List.mem_filter.mp hkept).2
  · have hnewcomer : spec ∈ newcomers (previous.filter (staysPut specs)) specs := by
      rw [hsplit]
      exact List.mem_append_right front List.mem_cons_self
    obtain ⟨hwanted, -, hready, -⟩ := mem_newcomers.mp hnewcomer
    exact staysPut_iff.mpr
      ⟨spec, hidentity ▸ hwanted, hready, getD_of_pickSlot hgets, haddresses ▸ .refl _⟩

end Engine

/-- No slot is found for the request, if these are active and it has none to go back to. -/
def Refused (service : String) (count : UInt32) (es : List ActiveEndpoint) (spec : EndpointSpec)
    (fault : Fault ε) : Prop :=
  pickSlot service spec none (es.map (·.slot)) count = .error fault

/-- For which no slot was found, none is found as long as what was taken is. -/
theorem refused_of_pickSlot {service : String} {spec : EndpointSpec} {previous : Option UInt32}
    {active es : List ActiveEndpoint} {count : UInt32} {fault : Fault ε} (hsub : active ⊆ es)
    (h : pickSlot service spec previous (active.map (·.slot)) count = .error fault) :
    Refused service count es spec fault := by
  have hslots : active.map (·.slot) ⊆ es.map (·.slot) := List.map_subset _ hsub
  rw [pickSlot_eq_error] at h
  rw [Refused, pickSlot_eq_error]
  split at h
  · exact ⟨fun hlt => hslots (h.1 hlt), h.2⟩
  · exact ⟨fun slot hlt => hslots (h.1 slot hlt), h.2⟩

/-- If more identities have been seen, their requests are left out too. -/
theorem firstRequests_of_subset {seen seen' : List String} (hsub : seen ⊆ seen')
    (specs : List EndpointSpec) :
    firstRequests seen' specs = (firstRequests seen specs).filter (·.identity ∉ seen') := by
  induction specs generalizing seen seen' with
  | nil => rfl
  | cons spec rest ih =>
    rw [firstRequests, firstRequests]
    by_cases hold : spec.identity ∈ seen
    · rw [if_pos (hsub hold), if_pos hold, ih hsub]
    by_cases hnew : spec.identity ∈ seen'
    · rw [if_pos hnew, if_neg hold, List.filter_cons_of_neg (by simpa using hnew),
        ih (List.cons_subset.mpr ⟨hnew, hsub⟩)]
    · rw [if_neg hnew, if_neg hold, List.filter_cons_of_pos (by simpa using hnew),
        ih (List.cons_subset_cons _ hsub)]
      refine congrArg (spec :: ·) (List.filter_congr fun other hother => ?_)
      have hne : other.identity ≠ spec.identity := fun heq =>
        (firstRequests_distinct _ rest).2 other hother (heq ▸ List.mem_cons_self)
      simp [hne]

theorem newcomers_of_subset {kept es : List ActiveEndpoint} (hsub : kept ⊆ es)
    (specs : List EndpointSpec) :
    newcomers es specs =
      (newcomers kept specs).filter (·.identity ∉ es.map (·.identity)) := by
  rw [newcomers, newcomers, firstRequests_of_subset (List.map_subset _ hsub), List.filter_comm]

theorem slotOf?_eq_none {es : List ActiveEndpoint} {identity : String}
    (h : identity ∉ es.map (·.identity)) : slotOf? es identity = none := by
  rw [slotOf?, Option.map_eq_none_iff, List.find?_eq_none]
  intro e he hsame
  exact h (List.mem_map.mpr ⟨e, he, by simpa using hsame⟩)

section Engine

variable (engine : Engine σ H ε) (service : String) (handle : H)

/-- Active in the end is none that neither was active nor is asked for. -/
theorem not_mem_activate (previous : List ActiveEndpoint) {active : List ActiveEndpoint}
    {asked : List EndpointSpec} {identity : String}
    (h : identity ∉ active.map (·.identity) ++ asked.map (·.identity)) (s : σ) :
    identity ∉ (activate engine service handle previous active asked s).1.1.map (·.identity) := by
  intro hmem
  obtain ⟨e, he, rfl⟩ := List.mem_map.mp hmem
  rcases of_mem_activate engine service handle previous asked s active e he with
    hactive | ⟨spec, hspec, hidentity, -⟩
  · exact h (List.mem_append_left _ (List.mem_map_of_mem hactive))
  · exact h (List.mem_append_right _ (List.mem_map.mpr ⟨spec, hspec, hidentity⟩))

/-- If nothing but slots is lacking, whoever is not active in the end is refused still. -/
theorem activate_refused (previous : List ActiveEndpoint) {active : List ActiveEndpoint}
    {asked : List EndpointSpec} {s : σ}
    (hdistinct : (active.map (·.identity) ++ asked.map (·.identity)).Nodup)
    (hcapacity : ∀ fault ∈ (activate engine service handle previous active asked s).1.2,
      fault.isCapacity = true) :
    let left := (activate engine service handle previous active asked s).1
    List.Forall₂ (Refused service (engine.slots handle) left.1)
      (asked.filter (·.identity ∉ left.1.map (·.identity))) left.2 := by
  induction asked generalizing active s with
  | nil => exact .nil
  | cons spec rest ih =>
    rw [activate_cons] at hcapacity ⊢
    cases hpick : pickSlot service spec (slotOf? previous spec.identity) (active.map (·.slot))
        (engine.slots handle) with
    | error fault =>
      rw [hpick] at hcapacity
      dsimp only at hcapacity ⊢
      obtain ⟨hnew, hrest⟩ := List.nodup_cons.mp (List.perm_middle.nodup_iff.mp hdistinct)
      have hlacks := not_mem_activate engine service handle previous hnew s
      rw [List.filter_cons_of_pos (by simpa using hlacks)]
      exact .cons (refused_of_pickSlot
        (activate_subset engine service handle previous active rest s) hpick)
        (ih hrest (List.forall_mem_cons.mp hcapacity).2)
    | ok slot =>
      rw [hpick] at hcapacity
      dsimp only at hcapacity ⊢
      generalize engine.addTarget handle spec.addresses slot s = added at hcapacity ⊢
      obtain ⟨source | _, t⟩ := added
      · exact nomatch (List.forall_mem_cons.mp hcapacity).1
      · dsimp only at hcapacity ⊢
        have hactive := activate_subset engine service handle previous
          (active ++ [⟨spec.identity, spec.addresses, slot⟩]) rest t
          (List.mem_append_right _ (List.mem_singleton_self _))
        have hmem := List.mem_map_of_mem (f := (·.identity)) hactive
        rw [List.filter_cons_of_neg (by simpa using hmem)]
        refine ih ?_ hcapacity
        rw [List.map_append, List.append_assoc]
        exact hdistinct

theorem activate_of_refused {es : List ActiveEndpoint} {asked : List EndpointSpec}
    {faults : List (Fault ε)}
    (hnew : ∀ spec ∈ asked, spec.identity ∉ es.map (·.identity))
    (h : List.Forall₂ (Refused service (engine.slots handle) es) asked faults) (s : σ) :
    activate engine service handle es es asked s = ((es, faults), s) := by
  induction h with
  | nil => rfl
  | cons hrefused _ ih =>
    obtain ⟨hfirst, hrest⟩ := List.forall_mem_cons.mp hnew
    rw [activate_cons, slotOf?_eq_none hfirst, hrefused, ih hrest]

end Engine

/-- Every active endpoint can stay as it is, and the others that are wanted are refused with these
faults. -/
structure OnlyRefusals (service : String) (count : UInt32) (specs : List EndpointSpec)
    (es : List ActiveEndpoint) (faults : List (Fault ε)) : Prop where
  stays : ∀ e ∈ es, staysPut specs e = true
  refused : List.Forall₂ (Refused service count es) (newcomers es specs) faults

section OnlyRefusals

variable (engine : Engine σ H ε) {service : String} {handle : H} {specs : List EndpointSpec}
  {es : List ActiveEndpoint} {faults : List (Fault ε)}

theorem OnlyRefusals.converge_eq (h : OnlyRefusals service (engine.slots handle) specs es faults)
    (s : σ) :
    converge engine service handle es specs s = ((es, faults), s) := by
  have hnew : ∀ spec ∈ newcomers es specs, spec.identity ∉ es.map (·.identity) :=
    fun spec hspec => (mem_newcomers.mp hspec).2.1
  rw [Roster.converge_eq, release_stays engine service handle h.stays]
  dsimp only
  rw [activate_of_refused engine service handle hnew h.refused, List.nil_append]

/-- If all that is left to do is to refuse, the engine is not told of anything. -/
theorem OnlyRefusals.setEndpoints_eq
    (h : OnlyRefusals service (engine.slots handle) specs es faults)
    {r : Roster H σ} (hservice : r.services[service]? = some handle)
    (hes : r.endpoints[service]? = some es) :
    setEndpoints engine service specs r = (Report.ofFaults faults, r) := by
  rw [Roster.setEndpoints_eq, hservice, hes]
  dsimp only
  rw [h.converge_eq engine, insert_present hes]

variable (service handle) in
/-- If nothing but slots is lacking, all that is left to do is to refuse. -/
theorem converge_onlyRefusals {previous : List ActiveEndpoint} {s : σ}
    (hdistinct : (previous.map (·.identity)).Nodup)
    (hcapacity : ∀ fault ∈ (converge engine service handle previous specs s).1.2,
      fault.isCapacity = true) :
    let left := (converge engine service handle previous specs s).1
    OnlyRefusals service (engine.slots handle) specs left.1 left.2 := by
  have hstays := converge_stays engine service handle
    fun fault hfault => Fault.source?_of_isCapacity (hcapacity fault hfault)
  have hsublist := release_sublist engine service handle specs previous s
  have hdeletions := (release_faults engine service handle specs previous s).2.1
  rw [Roster.converge_eq] at hcapacity hstays ⊢
  dsimp only at hcapacity hstays ⊢
  generalize release engine service handle specs previous s = released at *
  obtain ⟨⟨kept, faults⟩, t⟩ := released
  dsimp only at *
  -- A target that cannot be deleted is no matter of slots.
  obtain rfl : faults = [] := by
    rw [List.eq_nil_iff_forall_not_mem]
    intro fault hfault
    obtain ⟨identity, slot, source, rfl⟩ := hdeletions fault hfault
    exact nomatch hcapacity _ (List.mem_append_left _ hfault)
  have hapart := newcomers_distinct ((hsublist.map _).nodup hdistinct) specs
  have hrefused := activate_refused engine service handle previous hapart hcapacity
  refine ⟨hstays, ?_⟩
  rw [List.nil_append, newcomers_of_subset
    (activate_subset engine service handle previous kept (newcomers kept specs) t)]
  exact hrefused

end OnlyRefusals

/-- Every endpoint can stay as it is, and no others are wanted. -/
structure AtRest (specs : List EndpointSpec) (es : List ActiveEndpoint) : Prop where
  stays : ∀ e ∈ es, staysPut specs e = true
  complete : newcomers es specs = []

theorem AtRest.onlyRefusals {specs : List EndpointSpec} {es : List ActiveEndpoint}
    (h : AtRest specs es)
    (service : String) (count : UInt32) :
    OnlyRefusals service count specs es ([] : List (Fault ε)) :=
  ⟨h.stays, by rw [h.complete]; exact .nil⟩

/-- Where nothing is left to do and nothing is refused, the service is at rest. -/
theorem OnlyRefusals.atRest {service : String} {count : UInt32} {specs : List EndpointSpec}
    {es : List ActiveEndpoint} (h : OnlyRefusals service count specs es ([] : List (Fault ε))) :
    AtRest specs es :=
  ⟨h.stays, List.forall₂_nil_right_iff.mp h.refused⟩

/-- The same request, but for the order of the addresses. -/
structure SameUpToOrder (w w' : EndpointSpec) : Prop where
  identity : w.identity = w'.identity
  addresses : w.addresses.Perm w'.addresses
  ready : w.ready = w'.ready
  slot : w.slot = w'.slot

theorem SameUpToOrder.symm {w w' : EndpointSpec} (h : SameUpToOrder w w') : SameUpToOrder w' w :=
  ⟨h.identity.symm, h.addresses.symm, h.ready.symm, h.slot.symm⟩

/-- The same requests in another order, and the addresses of each as well. -/
def Rearranged (specs specs' : List EndpointSpec) : Prop :=
  ∃ between, List.Forall₂ SameUpToOrder specs between ∧ between.Perm specs'

section Rearranged

variable {specs specs' : List EndpointSpec} (h : Rearranged specs specs')

include h

theorem Rearranged.symm : Rearranged specs' specs := by
  obtain ⟨between, halike, hperm⟩ := h
  obtain ⟨other, hother, hback⟩ :=
    List.perm_comp_forall₂ hperm.symm (halike.flip.imp fun _ _ hone => SameUpToOrder.symm hone)
  exact ⟨other, hother, hback⟩

theorem Rearranged.identities : (specs.map (·.identity)).Perm (specs'.map (·.identity)) := by
  obtain ⟨between, halike, hperm⟩ := h
  have hsame : specs.map (·.identity) = between.map (·.identity) := by
    clear hperm
    induction halike with
    | nil => rfl
    | cons hone _ ih => rw [List.map_cons, List.map_cons, hone.identity, ih]
  exact hsame ▸ hperm.map _

theorem Rearranged.exists_sameUpToOrder {w : EndpointSpec} (hw : w ∈ specs) :
    ∃ w' ∈ specs', SameUpToOrder w w' := by
  obtain ⟨between, halike, hperm⟩ := h
  have hbetween : ∃ w' ∈ between, SameUpToOrder w w' := by
    clear hperm
    induction halike with
    | nil => cases hw
    | cons hone _ ih =>
      rcases List.mem_cons.mp hw with rfl | hrest
      · exact ⟨_, List.mem_cons_self, hone⟩
      · obtain ⟨w', hmem, hother⟩ := ih hrest
        exact ⟨w', List.mem_cons_of_mem _ hmem, hother⟩
  obtain ⟨w', hmem, hone⟩ := hbetween
  exact ⟨w', hperm.subset hmem, hone⟩

/-- If every identity is asked for once, it does not matter in which order. -/
theorem Rearranged.exists_wanted (hdistinct : (specs.map (·.identity)).Nodup) {identity : String}
    {w : EndpointSpec} (hw : wanted? specs identity = some w) :
    ∃ w', wanted? specs' identity = some w' ∧ SameUpToOrder w w' := by
  obtain ⟨w', hmem, halike⟩ := h.exists_sameUpToOrder (List.mem_of_find?_eq_some hw)
  have hfound := wanted?_of_mem (h.identities.nodup_iff.mp hdistinct) hmem
  rw [← halike.identity, identity_of_wanted? hw] at hfound
  exact ⟨w', hfound, halike⟩

theorem AtRest.rearranged {es : List ActiveEndpoint} (hrest : AtRest specs es)
    (hdistinct : (specs.map (·.identity)).Nodup) : AtRest specs' es := by
  refine ⟨fun e he => ?_, ?_⟩
  · obtain ⟨w, hwanted, hready, hslot, haddresses⟩ := staysPut_iff.mp (hrest.stays e he)
    obtain ⟨w', hwanted', halike⟩ := h.exists_wanted hdistinct hwanted
    exact staysPut_iff.mpr ⟨w', hwanted', halike.ready ▸ hready, halike.slot ▸ hslot,
      halike.addresses.symm.trans haddresses⟩
  · rw [List.eq_nil_iff_forall_not_mem]
    intro w' hnew
    obtain ⟨hwanted', hlacks, hready, haddresses⟩ := mem_newcomers.mp hnew
    obtain ⟨w, hwanted, halike⟩ :=
      h.symm.exists_wanted (h.identities.nodup_iff.mp hdistinct) hwanted'
    have hmem : w ∈ newcomers es specs := by
      refine mem_newcomers.mpr ⟨halike.identity ▸ hwanted, halike.identity ▸ hlacks,
        halike.ready ▸ hready, fun hnil => haddresses ?_⟩
      exact (hnil ▸ halike.addresses).eq_nil
    rw [hrest.complete] at hmem
    cases hmem

end Rearranged

/-- No target is added or deleted at the slot. -/
def LeavesSlot (slot : UInt32) (calls : List (Engine.Call H)) : Prop :=
  ∀ call ∈ calls, call.slot? ≠ some slot

theorem LeavesSlot.append {slot other : UInt32} {calls : List (Engine.Call H)}
    {call : Engine.Call H}
    (h : LeavesSlot slot calls) (hcall : call.slot? = some other) (hne : other ≠ slot) :
    LeavesSlot slot (calls ++ [call]) := by
  intro c hc
  rcases List.mem_append.mp hc with hold | hlast
  · exact h c hold
  · rw [List.mem_singleton.mp hlast, hcall]
    exact fun hsame => hne (Option.some.inj hsame)

section Engine

variable (engine : Engine σ H ε) (service : String)

/-- The slot of an endpoint that stays is neither released nor given out. -/
theorem converge_leavesSlot (handle : H) {previous : List ActiveEndpoint}
    {specs : List EndpointSpec} (hslots : (previous.map (·.slot)).Nodup) {e : ActiveEndpoint}
    (he : e ∈ previous) (hstays : staysPut specs e = true) (s : σ) :
    LeavesSlot e.slot (converge engine.traced service handle previous specs (s, [])).2.2 := by
  have hreleased : LeavesSlot e.slot
      (release engine.traced service handle specs previous (s, [])).2.2 := by
    refine release_induction engine.traced service handle (P := fun t => LeavesSlot e.slot t.2)
      (fun a ha hmoves t ht => ht.append rfl fun hsame => ?_) (List.forall_mem_nil _)
    rw [List.inj_on_of_nodup_map hslots ha he hsame, hstays] at hmoves
    cases hmoves
  rw [converge_eq]
  exact (activate_induction engine.traced service handle
    (P := fun active t => e ∈ active ∧ LeavesSlot e.slot t.2) previous
    (fun active t _ slot ht _ hfree _ _ =>
      ⟨ht.1, ht.2.append rfl fun hsame => hfree (hsame ▸ List.mem_map_of_mem ht.1)⟩)
    (fun active t _ _ slot ht _ hfree _ =>
      ⟨List.mem_append_left _ ht.1,
        ht.2.append rfl fun hsame => hfree (hsame ▸ List.mem_map_of_mem ht.1)⟩) _ _ _
    ⟨mem_release engine.traced service handle he hstays (s, []), hreleased⟩).2

/-- To set the endpoints has the result, and neither makes a call nor changes the record. -/
def ChangesNothing (specs : List EndpointSpec) (result : Except (Report (Fault ε)) Unit)
    (r : Roster H σ) : Prop :=
  setEndpoints engine service specs r = (result, r) ∧ callsOf engine service specs r = []

variable {engine service} {specs : List EndpointSpec}

theorem OnlyRefusals.changesNothing {handle : H} {es : List ActiveEndpoint}
    {faults : List (Fault ε)}
    (h : OnlyRefusals service (engine.slots handle) specs es faults) {r : Roster H σ}
    (hservice : r.services[service]? = some handle) (hes : r.endpoints[service]? = some es) :
    ChangesNothing engine service specs (Report.ofFaults faults) r := by
  refine ⟨h.setEndpoints_eq engine hservice hes, ?_⟩
  rw [callsOf, OnlyRefusals.setEndpoints_eq engine.traced (r := r.traced []) h hservice hes]
  rfl

theorem setEndpoints_onlyRefusals {r : Roster H σ} (h : Consistent engine r)
    (hcapacity : ∀ fault ∈ Report.leaves (setEndpoints engine service specs r).1,
      fault.isCapacity = true) :
    ∃ handle es faults, (setEndpoints engine service specs r).1 = Report.ofFaults faults ∧
      (setEndpoints engine service specs r).2.services[service]? = some handle ∧
      (setEndpoints engine service specs r).2.endpoints[service]? = some es ∧
      OnlyRefusals service (engine.slots handle) specs es faults := by
  rw [setEndpoints_eq] at hcapacity ⊢
  split at hcapacity
  · rename_i handle previous hservice hprevious
    have hseated := h.seated service handle previous hservice hprevious
    rw [Report.leaves_ofFaults] at hcapacity
    exact ⟨handle, _, _, rfl, hservice, Std.ExtTreeMap.getElem?_insert_self,
      converge_onlyRefusals engine service handle hseated.identities hcapacity⟩
  · exact nomatch hcapacity _ List.mem_cons_self

end Engine

/-- Whatever is on record and whatever the engine does, when the endpoints of a service are set and
nothing but slots is lacking: to set them again makes no call, changes nothing and has the same result,
and so it is for the same endpoints in another order if none is lacking and each is named once. Even if
calls fail, none is about the slot of an endpoint that is wanted as it is. -/
theorem set_endpoints_steady (engine : Engine σ H ε) (s : σ) (turns : List (Turn σ))
    (now later : σ) (service : String) (specs : List EndpointSpec) :
    let r : Roster H σ := { afterTurns engine s turns with engine := now }
    let answer := setEndpoints engine service specs r
    let left : Roster H σ := { answer.2 with engine := later }
    ((∀ fault ∈ Report.leaves answer.1, fault.isCapacity = true) →
      ChangesNothing engine service specs answer.1 left) ∧
    (answer.1 = .ok () → (specs.map (·.identity)).Nodup → ∀ specs', Rearranged specs specs' →
      ChangesNothing engine service specs' (.ok ()) left) ∧
    ∀ es, r.endpoints[service]? = some es → ∀ e ∈ es, ∀ w, wanted? specs e.identity = some w →
      w.ready = true → (w.slot = none ∨ w.slot = some e.slot) → w.addresses.Perm e.addresses →
      LeavesSlot e.slot (callsOf engine service specs r) := by
  intro r answer left
  have hconsistent : Consistent engine r := (afterTurns_consistent engine s turns).withEngine now
  refine ⟨fun hcapacity => ?_, fun hok hdistinct specs' hsame => ?_,
    fun es hes e he w hwanted hready hslot haddresses => ?_⟩
  · obtain ⟨handle, es, faults, hresult, hservice, hes, hrefusals⟩ :=
      setEndpoints_onlyRefusals hconsistent hcapacity
    exact hresult ▸ hrefusals.changesNothing hservice hes
  · have hcapacity : ∀ fault ∈ Report.leaves answer.1, fault.isCapacity = true := by
      rw [hok]
      exact List.forall_mem_nil _
    obtain ⟨handle, es, faults, hresult, hservice, hes, hrefusals⟩ :=
      setEndpoints_onlyRefusals hconsistent hcapacity
    obtain rfl : faults = [] := Report.ofFaults_eq_ok.mp (hresult.symm.trans hok)
    exact ((hrefusals.atRest.rearranged hsame hdistinct).onlyRefusals service _).changesNothing
      hservice hes
  · obtain ⟨handle, hservice⟩ := exists_of_mem
      ((hconsistent.endpoints service).mp (mem_of_getElem? hes))
    have hseated := hconsistent.seated service handle es hservice hes
    have hstays : staysPut specs e = true := by
      refine staysPut_iff.mpr ⟨w, hwanted, hready, ?_, haddresses⟩
      rcases hslot with hany | hown
      · rw [hany, Option.getD_none]
      · rw [hown, Option.getD_some]
    rw [callsOf_eq engine service hservice hes]
    exact converge_leavesSlot engine service handle hseated.slots he hstays now

/-- Two endpoints, of which one has two addresses. -/
def pairRequest : List EndpointSpec :=
  [⟨"pod-1", [.v4 0x0A000001#32, .v4 0x0A000002#32], true, none⟩,
    ⟨"pod-2", [.v4 0x0A000003#32], true, none⟩]

/-- A service with two slots is added. -/
def pairTurns : List (Turn Unit) := [⟨id, .services [⟨"svc-a", 2⟩]⟩]

/-- The same endpoints, the last address first. -/
def turnedRequest : List EndpointSpec :=
  [⟨"pod-2", [.v4 0x0A000003#32], true, none⟩,
    ⟨"pod-1", [.v4 0x0A000002#32, .v4 0x0A000001#32], true, none⟩]

/-- One endpoint is wanted as it is, one at another address, and one is new. -/
def crowdedRequest : List EndpointSpec :=
  [⟨"pod-1", [.v4 0x0A000002#32, .v4 0x0A000001#32], true, some 0⟩,
    ⟨"pod-2", [.v4 0x0A000004#32], true, none⟩, ⟨"pod-3", [.v4 0x0A000005#32], true, none⟩]

def pairService : Roster UInt32 Unit :=
  afterTurns (willing Unit Empty) () (pairTurns ++ [⟨id, .endpoints "svc-a" pairRequest⟩])

/-- Both endpoints have slots, and asking for them in another order changes nothing. When there is one
endpoint too many, it lacks a slot each time, and the calls that are made spare the one that stays. -/
theorem crowdedRequest_steady :
    ChangesNothing (willing Unit Empty) "svc-a" turnedRequest (.ok ()) pairService ∧
    ChangesNothing (willing Unit Empty) "svc-a" crowdedRequest
      (.error (.one (.capacity "svc-a" "pod-3" 2)))
      (setEndpoints (willing Unit Empty) "svc-a" crowdedRequest pairService).2 ∧
    callsOf (willing Unit Empty) "svc-a" crowdedRequest pairService =
      [.deleteTarget 2 [.v4 0x0A000003#32] 1, .addTarget 2 [.v4 0x0A000004#32] 1] ∧
    LeavesSlot 0 (callsOf (willing Unit Empty) "svc-a" crowdedRequest pairService) := by
  have hturned : Rearranged pairRequest turnedRequest :=
    ⟨turnedRequest.reverse, .cons ⟨rfl, .swap _ _ _, rfl, rfl⟩
      (.cons ⟨rfl, .refl _, rfl, rfl⟩ .nil), turnedRequest.reverse_perm⟩
  have hpair := set_endpoints_steady (willing Unit Empty) () pairTurns () () "svc-a" pairRequest
  have hcrowded := set_endpoints_steady (willing Unit Empty) ()
    (pairTurns ++ [⟨id, .endpoints "svc-a" pairRequest⟩]) () () "svc-a" crowdedRequest
  have hleaves : Report.leaves (setEndpoints (willing Unit Empty) "svc-a" crowdedRequest
      pairService).1 = [.capacity "svc-a" "pod-3" 2] := rfl
  refine ⟨hpair.2.1 rfl (by decide) turnedRequest hturned, hcrowded.1 ?_, rfl,
    hcrowded.2.2 _ rfl ⟨"pod-1", [.v4 0x0A000001#32, .v4 0x0A000002#32], 0⟩ List.mem_cons_self _
      rfl rfl (.inr rfl) (.swap _ _ _)⟩
  intro fault hfault
  obtain rfl := List.mem_singleton.mp (hleaves ▸ hfault)
  rfl

end VipSteering.Roster
