import VipSteering.Proofs.Task
import VipSteering.Roster.Flows
import VipSteering.Store

namespace VipSteering.Roster

variable {σ H ε : Type} (engine : Engine σ H ε)

theorem dropFlow_eq (key : String) (r : Roster H σ) :
    dropFlow engine key r =
      match r.flows[key]? with
      | none => (.ok (), r)
      | some spec =>
        match r.services[spec.service]? with
        | none => (.ok (), { r with flows := r.flows.erase key })
        | some handle =>
          let deleted := engine.deleteFlow handle spec.flow r.engine
          (deleted.1.mapError (.deleteFlow key),
            { r with flows := r.flows.erase key, engine := deleted.2 }) := by
  rw [dropFlow]
  simp only [Task.bind_apply, Task.get_apply]
  cases r.flows[key]? with
  | none => rfl
  | some spec =>
    simp only [Task.bind_apply, Task.get_apply, Task.modify_apply]
    cases r.services[spec.service]? <;> rfl

theorem putFlow_eq (spec : FlowSpec) (r : Roster H σ) :
    putFlow engine spec r =
      match r.services[spec.service]? with
      | none => (.ok (), r)
      | some handle =>
        let added := engine.addFlow handle spec.flow r.engine
        (added.1.mapError (.addFlow spec.key),
          { r with flows := r.flows.insert spec.key spec, engine := added.2 }) := by
  rw [putFlow]
  simp only [Task.bind_apply, Task.get_apply]
  cases r.services[spec.service]? <;> rfl

theorem dropFlow_services (key : String) (r : Roster H σ) :
    (dropFlow engine key r).2.services = r.services := by
  rw [dropFlow_eq]
  split
  · rfl
  · split <;> rfl

theorem dropFlows_services (keys : List String) (r : Roster H σ) :
    (attemptAll (dropFlow engine) keys r).2.services = r.services :=
  attemptAll_keeps (P := fun r' : Roster H σ => r'.services = r.services)
    (fun key _ r' hr => (dropFlow_services engine key r').trans hr) rfl

theorem putFlow_services (spec : FlowSpec) (r : Roster H σ) :
    (putFlow engine spec r).2.services = r.services := by
  rw [putFlow_eq]
  split <;> rfl

omit engine in
theorem mem_byKey {r : Roster H σ} {specs : List FlowSpec} {key : String} :
    key ∈ byKey r specs ↔ ∃ spec ∈ specs, spec.service ∈ r.services ∧ spec.key = key := by
  rw [byKey, Std.ExtTreeMap.mem_ofList, List.contains_iff_mem, List.map_map, List.mem_map]
  simp only [List.mem_filter, decide_eq_true_eq, and_assoc, Function.comp_apply]

omit engine in
/-- What is wanted has been asked for and is of services on record. -/
theorem of_mem_byKey_values {r : Roster H σ} {specs : List FlowSpec} {spec : FlowSpec}
    (h : spec ∈ (byKey r specs).values) : spec ∈ specs ∧ spec.service ∈ r.services := by
  obtain ⟨key, hget⟩ := mem_values.mp h
  obtain ⟨other, hother, heq⟩ := List.mem_map.mp (mem_of_getElem?_ofList hget)
  obtain ⟨-, rfl⟩ := Prod.mk.inj heq
  obtain ⟨hmem, hserved⟩ := List.mem_filter.mp hother
  exact ⟨hmem, of_decide_eq_true hserved⟩

omit engine in
/-- What is wanted goes by its key. -/
theorem key_of_getElem?_byKey {r : Roster H σ} {specs : List FlowSpec} {key : String}
    {spec : FlowSpec} (h : (byKey r specs)[key]? = some spec) : spec.key = key := by
  obtain ⟨other, -, heq⟩ := List.mem_map.mp (mem_of_getElem?_ofList h)
  obtain ⟨rfl, rfl⟩ := Prod.mk.inj heq
  rfl

omit engine in
theorem exists_mem_byKey {r : Roster H σ} {specs : List FlowSpec} {key : String} :
    (∃ spec ∈ (byKey r specs).values, spec.key = key) ↔ key ∈ byKey r specs := by
  constructor
  · intro hgiven
    obtain ⟨spec, hmem, rfl⟩ := hgiven
    obtain ⟨k, hget⟩ := mem_values.mp hmem
    rw [key_of_getElem?_byKey hget]
    exact mem_of_getElem? hget
  · intro hmem
    obtain ⟨spec, hget⟩ := exists_of_mem hmem
    exact ⟨spec, mem_values.mpr ⟨key, hget⟩, key_of_getElem?_byKey hget⟩

/-- The keys of the flows that are not wanted any more. -/
def staleFlows (r : Roster H σ) (specs : List FlowSpec) : List String :=
  r.flows.keys.filter (· ∉ byKey r specs)

omit engine in
theorem mem_staleFlows {r : Roster H σ} {specs : List FlowSpec} {key : String} :
    key ∈ r.staleFlows specs ↔ key ∈ r.flows ∧ key ∉ byKey r specs := by
  rw [staleFlows, List.mem_filter, Std.ExtTreeMap.mem_keys, decide_eq_true_eq]

theorem setFlows_eq (specs : List FlowSpec) (r : Roster H σ) :
    setFlows engine specs r =
      let dropped := attemptAll (dropFlow engine) (r.staleFlows specs) r
      let put := attemptAll (putFlow engine) (byKey r specs).values dropped.2
      (Report.ofFaults (dropped.1 ++ put.1), put.2) := rfl

/-- A flow on record has been asked for, or has been on record before. -/
theorem of_getElem?_setFlows {specs : List FlowSpec} {r : Roster H σ} {key : String}
    {spec : FlowSpec} (h : (setFlows engine specs r).2.flows[key]? = some spec) :
    spec ∈ specs ∨ r.flows[key]? = some spec := by
  rw [setFlows_eq] at h
  have hold : ∀ spec : FlowSpec, (attemptAll (dropFlow engine) (r.staleFlows specs)
      r).2.flows[key]? = some spec → r.flows[key]? = some spec := by
    refine attemptAll_keeps (P := fun r' : Roster H σ => ∀ spec : FlowSpec,
      r'.flows[key]? = some spec → r.flows[key]? = some spec) (fun k _ r' hr' spec hget => ?_)
      fun _ => id
    rw [dropFlow_eq] at hget
    split at hget
    · exact hr' spec hget
    · split at hget
      · exact hr' spec (of_getElem?_erase hget).2
      · exact hr' spec (of_getElem?_erase hget).2
  have hnew : ∀ spec : FlowSpec, (attemptAll (putFlow engine) (byKey r specs).values
      (attemptAll (dropFlow engine) (r.staleFlows specs) r).2).2.flows[key]? = some spec →
      spec ∈ specs ∨ r.flows[key]? = some spec := by
    refine attemptAll_keeps (P := fun r' : Roster H σ => ∀ spec : FlowSpec,
      r'.flows[key]? = some spec → spec ∈ specs ∨ r.flows[key]? = some spec)
      (fun put hput r' hr' spec hget => ?_) fun spec hget => .inr (hold spec hget)
    rw [putFlow_eq] at hget
    split at hget
    · exact hr' spec hget
    · rcases of_getElem?_insert hget with ⟨-, rfl⟩ | ⟨-, hget⟩
      · exact .inl (of_mem_byKey_values hput).1
      · exact hr' spec hget
  exact hnew spec h

/-- What each deletion and each flow that is set keeps, the whole keeps. -/
theorem setFlows_keeps {P : Roster H σ → Prop} (hdrop : ∀ key r, P r → P (dropFlow engine key r).2)
    (hput : ∀ spec r, P r → P (putFlow engine spec r).2) (specs : List FlowSpec) {r : Roster H σ}
    (h : P r) : P (setFlows engine specs r).2 := by
  rw [setFlows_eq]
  exact attemptAll_keeps (fun spec _ => hput spec) (attemptAll_keeps (fun key _ => hdrop key) h)

theorem setFlows_services (specs : List FlowSpec) (r : Roster H σ) :
    (setFlows engine specs r).2.services = r.services :=
  setFlows_keeps engine (P := fun r' : Roster H σ => r'.services = r.services)
    (fun key _ hr => (dropFlow_services engine key _).trans hr)
    (fun spec _ hr => (putFlow_services engine spec _).trans hr) specs rfl

/-- Whether or not it can be deleted, a flow that is dropped is off the record. -/
theorem dropFlow_flows (key : String) (r : Roster H σ) :
    (dropFlow engine key r).2.flows = r.flows.erase key := by
  rw [dropFlow_eq]
  split
  · rename_i hnone
    exact (erase_absent hnone).symm
  · split <;> rfl

theorem dropFlows_flows (keys : List String) (r : Roster H σ) (key : String) :
    (attemptAll (dropFlow engine) keys r).2.flows[key]? =
      if key ∈ keys then none else r.flows[key]? := by
  induction keys generalizing r with
  | nil => simp
  | cons first rest ih =>
    rw [attemptAll_cons, ih, dropFlow_flows]
    by_cases hmem : key ∈ rest
    · rw [if_pos hmem, if_pos (List.mem_cons_of_mem _ hmem)]
    · rw [if_neg hmem]
      by_cases hsame : first = key
      · rw [hsame, Std.ExtTreeMap.getElem?_erase_self, if_pos List.mem_cons_self]
      · rw [getElem?_erase_of_ne hsame, if_neg]
        rw [List.mem_cons, not_or]
        exact ⟨fun heq => hsame heq.symm, hmem⟩

/-- Whether or not they can be set, flows of services on record are put on record. -/
theorem putFlows_flows (table : Std.ExtTreeMap String FlowSpec) {specs : List FlowSpec}
    {r : Roster H σ} (hserved : ∀ spec ∈ specs, spec.service ∈ r.services)
    (htable : ∀ spec ∈ specs, table[spec.key]? = some spec) (key : String) :
    (attemptAll (putFlow engine) specs r).2.flows[key]? =
      if key ∈ specs.map (·.key) then table[key]? else r.flows[key]? := by
  induction specs generalizing r with
  | nil => simp
  | cons spec rest ih =>
    simp only [List.mem_cons, forall_eq_or_imp] at hserved htable
    have hservices := putFlow_services engine spec r
    obtain ⟨handle, hhandle⟩ := exists_of_mem hserved.1
    have hflows : (putFlow engine spec r).2.flows = r.flows.insert spec.key spec := by
      rw [putFlow_eq, hhandle]
    rw [attemptAll_cons, ih (fun other hother => by rw [hservices]; exact hserved.2 other hother)
      htable.2, hflows, List.map_cons]
    by_cases hmem : key ∈ rest.map (·.key)
    · rw [if_pos hmem, if_pos (List.mem_cons_of_mem _ hmem)]
    · rw [if_neg hmem]
      by_cases hsame : spec.key = key
      · rw [← hsame, Std.ExtTreeMap.getElem?_insert_self, if_pos List.mem_cons_self, htable.1]
      · rw [getElem?_insert_of_ne hsame, if_neg]
        rw [List.mem_cons, not_or]
        exact ⟨fun heq => hsame heq.symm, hmem⟩

/-- Whatever the engine says, the flows on record are those that are wanted. -/
theorem setFlows_flows (specs : List FlowSpec) (r : Roster H σ) :
    (setFlows engine specs r).2.flows = byKey r specs := by
  refine Std.ExtTreeMap.ext_getElem? fun key => ?_
  rw [setFlows_eq]
  have hservices := dropFlows_services engine (r.staleFlows specs) r
  have hmem : key ∈ (byKey r specs).values.map (·.key) ↔ key ∈ byKey r specs := by
    rw [List.mem_map]
    exact exists_mem_byKey
  dsimp only
  rw [putFlows_flows engine (byKey r specs), dropFlows_flows]
  · by_cases hwanted : key ∈ byKey r specs
    · rw [if_pos (hmem.mpr hwanted)]
    · rw [if_neg ((not_congr hmem).mpr hwanted), Std.ExtTreeMap.getElem?_eq_none hwanted]
      split
      · rfl
      · rename_i hkept
        refine Std.ExtTreeMap.getElem?_eq_none fun hold => ?_
        exact hkept (mem_staleFlows.mpr ⟨hold, hwanted⟩)
  · intro spec hspec
    rw [hservices]
    exact (of_mem_byKey_values hspec).2
  · intro spec hspec
    obtain ⟨k, hget⟩ := mem_values.mp hspec
    rw [key_of_getElem?_byKey hget]
    exact hget

end VipSteering.Roster
