import VipSteering.Proofs.Roster.Endpoints
import VipSteering.Proofs.Roster.Flows
import VipSteering.Proofs.Roster.Services

namespace VipSteering.Roster

variable {σ H ε : Type}

inductive Request where
  | services (specs : List ServiceSpec)
  | flows (specs : List FlowSpec)
  | endpoints (service : String) (specs : List EndpointSpec)

def Request.perform (engine : Engine σ H ε) :
    Request → StateM (Roster H σ) (Except (Report (Fault ε)) Unit)
  | services specs => setServices engine specs
  | flows specs => setFlows engine specs
  | endpoints service specs => setEndpoints engine service specs

/-- A request, and what has become of the engine since the one before. -/
structure Turn (σ : Type) where
  meanwhile : σ → σ
  request : Request

def Turn.take (engine : Engine σ H ε) (r : Roster H σ) (turn : Turn σ) : Roster H σ :=
  (turn.request.perform engine { r with engine := turn.meanwhile r.engine }).2

/-- The roster after turns, with nothing on record before the first. -/
def afterTurns (engine : Engine σ H ε) (s : σ) (turns : List (Turn σ)) : Roster H σ :=
  turns.foldl (Turn.take engine) { engine := s }

/-- The endpoints share neither identities nor slots, the slots are among the first `count`, and
each endpoint can be reached. -/
structure Seated (count : UInt32) (es : List ActiveEndpoint) : Prop where
  identities : (es.map (·.identity)).Nodup
  slots : (es.map (·.slot)).Nodup
  slot_lt : ∀ e ∈ es, e.slot < count
  addresses : ∀ e ∈ es, e.addresses ≠ []

/-- The slot of an endpoint can be looked up. -/
theorem Seated.getElem?_slots {count : UInt32} {es : List ActiveEndpoint} (h : Seated count es)
    (identity : String) (slot : UInt32) :
    (Std.ExtTreeMap.ofList (es.map fun e => (e.identity, e.slot)))[identity]? = some slot ↔
      ∃ e ∈ es, e.identity = identity ∧ e.slot = slot := by
  rw [getElem?_ofList_iff (by rw [List.map_map]; exact h.identities), List.mem_map]
  simp only [Prod.mk.injEq]

/-- Only the first request for an identity counts, and none for an identity that has been seen. -/
theorem firstRequests_distinct (seen : List String) (specs : List EndpointSpec) :
    ((firstRequests seen specs).map (·.identity)).Nodup ∧
      ∀ spec ∈ firstRequests seen specs, spec.identity ∉ seen := by
  induction specs generalizing seen with
  | nil => simp [firstRequests]
  | cons spec rest ih =>
    rw [firstRequests]
    split
    · exact ih seen
    · rename_i hnew
      obtain ⟨hd, hunseen⟩ := ih (spec.identity :: seen)
      refine ⟨?_, ?_⟩
      · rw [List.map_cons, List.nodup_cons]
        refine ⟨?_, hd⟩
        intro hmem
        obtain ⟨other, hother, heq⟩ := List.mem_map.mp hmem
        exact hunseen other hother (by rw [heq]; exact List.mem_cons_self)
      · intro other hother
        rcases List.mem_cons.mp hother with rfl | hother
        · exact hnew
        · exact fun hmem => hunseen other hother (List.mem_cons_of_mem _ hmem)

theorem newcomers_nodup (kept : List ActiveEndpoint) (specs : List EndpointSpec) :
    ((newcomers kept specs).map (·.identity)).Nodup :=
  (List.filter_sublist.map _).nodup (firstRequests_distinct _ specs).1

/-- Those that are to get slots are others than those that hold one, and come once. -/
theorem newcomers_distinct {kept : List ActiveEndpoint} (h : (kept.map (·.identity)).Nodup)
    (specs : List EndpointSpec) :
    (kept.map (·.identity) ++ (newcomers kept specs).map (·.identity)).Nodup := by
  refine List.nodup_append.mpr ⟨h, newcomers_nodup kept specs, fun i hi j hj heq => ?_⟩
  obtain ⟨spec, hspec, rfl⟩ := List.mem_map.mp hj
  rw [heq] at hi
  exact (firstRequests_distinct _ specs).2 spec (List.mem_filter.mp hspec).1 hi

/-- An endpoint that is among those asked for has been asked for as it is. -/
theorem exists_asked {added : List ActiveEndpoint} {specs : List EndpointSpec}
    (hsub : (added.map fun e => (e.identity, e.addresses)).Sublist
      (specs.map fun spec => (spec.identity, spec.addresses))) {e : ActiveEndpoint}
    (he : e ∈ added) :
    ∃ spec ∈ specs, spec.identity = e.identity ∧ spec.addresses = e.addresses := by
  obtain ⟨spec, hspec, hpair⟩ := List.mem_map.mp (hsub.subset (List.mem_map_of_mem he))
  exact ⟨spec, hspec, (Prod.mk.inj hpair).1, (Prod.mk.inj hpair).2⟩

section Engine

variable (engine : Engine σ H ε) (service : String) (handle : H)

/-- Endpoints that are activated are some of those asked for, in the same order. -/
theorem activate_extends (previous active : List ActiveEndpoint) (specs : List EndpointSpec)
    (s : σ) : ∃ added, (activate engine service handle previous active specs s).1.1 =
        active ++ added ∧
      (added.map fun e => (e.identity, e.addresses)).Sublist
        (specs.map fun spec => (spec.identity, spec.addresses)) := by
  induction specs generalizing active s with
  | nil => exact ⟨[], (List.append_nil active).symm, List.Sublist.slnil⟩
  | cons spec rest ih =>
    have skip (t : σ) : ∃ added, (activate engine service handle previous active rest t).1.1 =
          active ++ added ∧
        (added.map fun e => (e.identity, e.addresses)).Sublist
          ((spec :: rest).map fun spec => (spec.identity, spec.addresses)) := by
      obtain ⟨added, heq, hsub⟩ := ih active t
      exact ⟨added, heq, hsub.cons _⟩
    rw [activate_cons]
    split
    · exact skip s
    · rename_i slot _
      dsimp only
      split
      · exact skip _
      · let e : ActiveEndpoint := ⟨spec.identity, spec.addresses, slot⟩
        obtain ⟨added, heq, hsub⟩ :=
          ih (active ++ [e]) (engine.addTarget handle spec.addresses slot s).2
        refine ⟨e :: added, ?_, hsub.cons_cons _⟩
        rw [heq, List.append_assoc]
        rfl

/-- In the end the active endpoints are some of the previous ones and, behind them, newcomers. -/
theorem converge_extends (previous : List ActiveEndpoint) (specs : List EndpointSpec) (s : σ) :
    ∃ kept added, kept.Sublist previous ∧
      (converge engine service handle previous specs s).1.1 = kept ++ added ∧
      (added.map fun e => (e.identity, e.addresses)).Sublist
        ((newcomers kept specs).map fun spec => (spec.identity, spec.addresses)) := by
  rw [converge_eq]
  obtain ⟨added, heq, hsub⟩ := activate_extends engine service handle previous
    (release engine service handle specs previous s).1.1
    (newcomers (release engine service handle specs previous s).1.1 specs)
    (release engine service handle specs previous s).2
  exact ⟨_, added, release_sublist engine service handle specs previous s, heq, hsub⟩

theorem converge_slot_lt {previous : List ActiveEndpoint} (specs : List EndpointSpec) (s : σ)
    (h : ∀ e ∈ previous, e.slot < engine.slots handle) :
    ∀ e ∈ (converge engine service handle previous specs s).1.1, e.slot < engine.slots handle := by
  have hkept := release_sublist engine service handle specs previous s
  rw [converge_eq]
  refine activate_induction engine service handle
    (P := fun active _ => ∀ e ∈ active, e.slot < engine.slots handle) previous ?_ ?_ _ _ _
    fun e he => h e (hkept.subset he)
  · intro active _ _ _ hall _ _ _ _
    exact hall
  · intro active _ identity addresses slot hall hslot _ _ e he
    rcases List.mem_append.mp he with he | he
    · exact hall e he
    · rw [List.mem_singleton.mp he]
      exact hslot

theorem converge_seated {previous : List ActiveEndpoint} (specs : List EndpointSpec) (s : σ)
    (h : Seated (engine.slots handle) previous) :
    Seated (engine.slots handle) (converge engine service handle previous specs s).1.1 := by
  obtain ⟨kept, added, hkept, heq, hsub⟩ :=
    converge_extends engine service handle previous specs s
  have hnew : (added.map (·.identity)).Sublist ((newcomers kept specs).map (·.identity)) := by
    have := hsub.map Prod.fst
    rwa [List.map_map, List.map_map] at this
  refine ⟨?_, converge_slots_nodup engine service handle specs s h.slots,
    converge_slot_lt engine service handle specs s h.slot_lt, ?_⟩
  · rw [heq, List.map_append]
    exact (hnew.append_left _).nodup (newcomers_distinct ((hkept.map _).nodup h.identities) specs)
  · intro e he
    rw [heq] at he
    rcases List.mem_append.mp he with he | he
    · exact h.addresses e (hkept.subset he)
    · obtain ⟨spec, hspec, -, haddresses⟩ := exists_asked hsub he
      have hready := (List.mem_filter.mp hspec).2
      rw [← haddresses]
      intro hnil
      simp [hnil] at hready

end Engine

/-- What holds even in the midst of a request, when a service may be gone before its flows are. -/
structure Filed (engine : Engine σ H ε) (r : Roster H σ) : Prop where
  endpoints : ∀ n : String, n ∈ r.endpoints ↔ n ∈ r.services
  keys : ∀ (key : String) (spec : FlowSpec), r.flows[key]? = some spec →
    key = flowKey spec.name spec.service
  seated : ∀ (n : String) (handle : H) (es : List ActiveEndpoint), r.services[n]? = some handle →
    r.endpoints[n]? = some es → Seated (engine.slots handle) es

/-- The record hangs together. -/
structure Consistent (engine : Engine σ H ε) (r : Roster H σ) : Prop extends Filed engine r where
  served : ∀ (key : String) (spec : FlowSpec), r.flows[key]? = some spec →
    spec.service ∈ r.services

section Consistent

variable {engine : Engine σ H ε} {r : Roster H σ}

theorem Consistent.empty (engine : Engine σ H ε) (s : σ) :
    Consistent engine ({ engine := s } : Roster H σ) := by
  refine ⟨⟨by simp, fun key spec h => ?_, fun n handle es h => ?_⟩, fun key spec h => ?_⟩
  · simp at h
  · simp at h
  · simp at h

/-- The state of the engine is not on record. -/
theorem Filed.withEngine (h : Filed engine r) (s : σ) : Filed engine { r with engine := s } :=
  ⟨h.endpoints, h.keys, h.seated⟩

theorem Consistent.withEngine (h : Consistent engine r) (s : σ) :
    Consistent engine { r with engine := s } :=
  ⟨h.toFiled.withEngine s, h.served⟩

theorem dropService_filed (h : Filed engine r) (name : String) :
    Filed engine (dropService engine name r).2 := by
  rw [dropService_eq]
  dsimp only
  split
  · exact h.withEngine _
  · refine ⟨fun n => ?_, h.keys, fun n handle es hn hes => ?_⟩
    · simp [Std.ExtTreeMap.mem_erase, h.endpoints]
    · exact h.seated n handle es (of_getElem?_erase hn).2 (of_getElem?_erase hes).2

theorem getElem?_forgetFlows (r : Roster H σ) (key : String) : (forgetFlows r).flows[key]? =
    r.flows[key]?.filter fun flow => r.services.contains flow.service :=
  getElem?_keepEntries _ _ _

theorem forgetFlows_consistent (h : Filed engine r) : Consistent engine (forgetFlows r) := by
  have hkept {key : String} {spec : FlowSpec} (hspec : (forgetFlows r).flows[key]? = some spec) :
      r.flows[key]? = some spec ∧ r.services.contains spec.service = true := by
    rw [getElem?_forgetFlows] at hspec
    exact Option.filter_eq_some_iff.mp hspec
  refine ⟨⟨h.endpoints, fun key spec hspec => h.keys key spec (hkept hspec).1, h.seated⟩, ?_⟩
  intro key spec hspec
  exact Std.ExtTreeMap.contains_iff_mem.mp (hkept hspec).2

/-- A service that is new on record has no endpoints. -/
theorem addService_consistent (h : Consistent engine r) (spec : ServiceSpec) :
    Consistent engine (addService engine spec r).2 := by
  rw [addService_eq]
  split
  · exact h
  dsimp only
  split
  · exact h.withEngine _
  · refine ⟨⟨fun n => ?_, h.keys, fun n handle es hn hes => ?_⟩, fun key flow hflow => ?_⟩
    · simp [Std.ExtTreeMap.mem_insert, h.endpoints]
    · rcases of_getElem?_insert hes with ⟨-, rfl⟩ | ⟨hne, hes⟩
      · exact ⟨List.nodup_nil, List.nodup_nil, by simp, by simp⟩
      · rw [getElem?_insert_of_ne (Ne.symm hne)] at hn
        exact h.seated n handle es hn hes
    · exact Std.ExtTreeMap.mem_insert.mpr (.inr (h.served key flow hflow))

theorem setServices_consistent (h : Consistent engine r) (specs : List ServiceSpec) :
    Consistent engine (setServices engine specs r).2 := by
  rw [setServices_eq]
  refine addServices_keeps engine (P := Consistent engine)
    (fun spec _ _ hr => addService_consistent hr spec) (forgetFlows_consistent ?_)
  exact attemptAll_keeps (P := Filed engine) (fun name _ _ hr => dropService_filed hr name) h.toFiled

theorem dropFlow_consistent (h : Consistent engine r) (key : String) :
    Consistent engine (dropFlow engine key r).2 := by
  have herased (s : σ) : Consistent engine { r with flows := r.flows.erase key, engine := s } :=
    ⟨⟨h.endpoints, fun k spec hspec => h.keys k spec (of_getElem?_erase hspec).2, h.seated⟩,
      fun k spec hspec => h.served k spec (of_getElem?_erase hspec).2⟩
  rw [dropFlow_eq]
  split
  · exact h
  · split
    · exact herased r.engine
    · exact herased _

theorem putFlow_consistent (h : Consistent engine r) (spec : FlowSpec) :
    Consistent engine (putFlow engine spec r).2 := by
  rw [putFlow_eq]
  split
  · exact h
  · rename_i handle hservice
    refine ⟨⟨h.endpoints, fun k flow hflow => ?_, h.seated⟩, fun k flow hflow => ?_⟩
    · rcases of_getElem?_insert hflow with ⟨rfl, rfl⟩ | ⟨-, hflow⟩
      · rfl
      · exact h.keys k flow hflow
    · rcases of_getElem?_insert hflow with ⟨-, rfl⟩ | ⟨-, hflow⟩
      · exact mem_of_getElem? hservice
      · exact h.served k flow hflow

theorem setFlows_consistent (h : Consistent engine r) (specs : List FlowSpec) :
    Consistent engine (setFlows engine specs r).2 :=
  setFlows_keeps engine (P := Consistent engine) (fun key _ hr => dropFlow_consistent hr key)
    (fun spec _ hr => putFlow_consistent hr spec) specs h

theorem setEndpoints_consistent (h : Consistent engine r) (service : String)
    (specs : List EndpointSpec) : Consistent engine (setEndpoints engine service specs r).2 := by
  rw [setEndpoints_eq]
  split
  · rename_i handle previous hservice hprevious
    refine ⟨⟨fun n => ?_, h.keys, fun n k es hn hes => ?_⟩, h.served⟩
    · rw [Std.ExtTreeMap.mem_insert, h.endpoints]
      refine ⟨?_, Or.inr⟩
      intro hgiven
      rcases hgiven with heq | hn
      · rw [← Std.LawfulEqOrd.eq_of_compare heq]
        exact mem_of_getElem? hservice
      · exact hn
    · rcases of_getElem?_insert hes with ⟨rfl, rfl⟩ | ⟨-, hes⟩
      · obtain rfl : handle = k := Option.some.inj (hservice.symm.trans hn)
        exact converge_seated engine n handle specs r.engine (h.seated n handle previous hn hprevious)
      · exact h.seated n k es hn hes
  · exact h

theorem Turn.take_consistent (h : Consistent engine r) (turn : Turn σ) :
    Consistent engine (turn.take engine r) := by
  obtain ⟨meanwhile, request⟩ := turn
  have hr := h.withEngine (meanwhile r.engine)
  cases request with
  | services specs => exact setServices_consistent hr specs
  | flows specs => exact setFlows_consistent hr specs
  | endpoints service specs => exact setEndpoints_consistent hr service specs

end Consistent

/-- Whatever is asked for, and whatever the engine says to it: the services on record are those with
a list of endpoints, every flow on record goes by its own key and belongs to one of the services, and
the endpoints of each service have identities and slots of their own, slots that the service has, and
addresses. -/
theorem afterTurns_consistent (engine : Engine σ H ε) (s : σ) (turns : List (Turn σ)) :
    Consistent engine (afterTurns engine s turns) := by
  have run (r : Roster H σ) (h : Consistent engine r) :
      Consistent engine (turns.foldl (Turn.take engine) r) := by
    induction turns generalizing r with
    | nil => exact h
    | cons turn rest ih => exact ih _ (turn.take_consistent h)
  exact run _ (.empty engine s)

end VipSteering.Roster
