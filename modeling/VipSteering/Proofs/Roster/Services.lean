import VipSteering.Proofs.Task
import VipSteering.Roster.Services

namespace VipSteering.Roster

variable {σ H ε : Type} (engine : Engine σ H ε)

theorem dropService_eq (name : String) (r : Roster H σ) :
    dropService engine name r =
      let deleted := engine.deleteService name r.engine
      match deleted.1 with
      | .error source => (.error (.deleteService name source), { r with engine := deleted.2 })
      | .ok () =>
        (.ok (), { r with
          engine := deleted.2
          services := r.services.erase name
          endpoints := r.endpoints.erase name }) := by
  rw [dropService]
  simp only [Task.bind_apply, onEngine_apply]
  cases (engine.deleteService name r.engine).1 <;> rfl

theorem addService_eq (spec : ServiceSpec) (r : Roster H σ) :
    addService engine spec r =
      if spec.name ∈ r.services then (.ok (), r)
      else
        let added := engine.addService spec.name spec.maxEndpoints r.engine
        match added.1 with
        | .error source => (.error (.addService spec.name source), { r with engine := added.2 })
        | .ok handle =>
          (.ok (), { r with
            engine := added.2
            services := r.services.insert spec.name handle
            endpoints := r.endpoints.insert spec.name [] }) := by
  rw [addService]
  change (if spec.name ∈ r.services then _ else _ :
    StateM (Roster H σ) (Except (Fault ε) Unit)) r = _
  split
  · rfl
  · simp only [Task.bind_apply, onEngine_apply]
    cases (engine.addService spec.name spec.maxEndpoints r.engine).1 <;> rfl

@[simp] theorem addServices_nil (r : Roster H σ) : addServices engine [] r = (.ok (), r) := rfl

theorem addServices_cons (spec : ServiceSpec) (rest : List ServiceSpec) (r : Roster H σ) :
    addServices engine (spec :: rest) r =
      match (addService engine spec r).1 with
      | .error fault => (.error fault, (addService engine spec r).2)
      | .ok () => addServices engine rest (addService engine spec r).2 := by
  rw [addServices]
  simp only [Task.bind_apply]
  cases (addService engine spec r).1 <;> rfl

/-- What each addition keeps, the additions keep, wherever they end. -/
theorem addServices_keeps {P : Roster H σ → Prop} {specs : List ServiceSpec}
    (h : ∀ spec ∈ specs, ∀ r, P r → P (addService engine spec r).2) {r : Roster H σ} (hr : P r) :
    P (addServices engine specs r).2 := by
  induction specs generalizing r with
  | nil => exact hr
  | cons spec rest ih =>
    simp only [List.mem_cons, forall_eq_or_imp] at h
    rw [addServices_cons]
    split
    · exact h.1 r hr
    · exact ih h.2 (h.1 r hr)

/-- The services that are not wanted any more. -/
def staleServices (r : Roster H σ) (specs : List ServiceSpec) : List String :=
  r.services.keys.filter (· ∉ byName specs)

omit engine in
theorem mem_staleServices {r : Roster H σ} {specs : List ServiceSpec} {name : String} :
    name ∈ r.staleServices specs ↔ name ∈ r.services ∧ name ∉ byName specs := by
  rw [staleServices, List.mem_filter, Std.ExtTreeMap.mem_keys, decide_eq_true_eq]

omit engine in
theorem staleServices_nodup (r : Roster H σ) (specs : List ServiceSpec) :
    (r.staleServices specs).Nodup :=
  Std.ExtTreeMap.nodup_keys.filter _

theorem setServices_eq (specs : List ServiceSpec) (r : Roster H σ) :
    setServices engine specs r =
      let dropped := attemptAll (dropService engine) (r.staleServices specs) r
      let added := addServices engine (byName specs).values (forgetFlows dropped.2)
      ((match added.1 with
        | .error fault => .error (.one fault)
        | .ok () => Report.ofFaults dropped.1), added.2) := by
  rw [setServices]
  simp only [Task.bind_apply, Task.get_apply, Task.modify_apply]
  rw [show (r.services.keys.filter (· ∉ byName specs)) = r.staleServices specs from rfl]
  generalize addServices engine (byName specs).values
    (forgetFlows (attemptAll (dropService engine) (r.staleServices specs) r).2) = added
  cases added.1 <;> rfl

/-- What each deletion and each addition keeps, the whole keeps. -/
theorem setServices_keeps {P : Roster H σ → Prop}
    (hdrop : ∀ name r, P r → P (dropService engine name r).2)
    (hforget : ∀ r, P r → P (forgetFlows r))
    (hadd : ∀ spec r, P r → P (addService engine spec r).2) (specs : List ServiceSpec)
    {r : Roster H σ} (h : P r) : P (setServices engine specs r).2 := by
  rw [setServices_eq]
  refine addServices_keeps engine (P := P) (fun spec _ => hadd spec) (hforget _ ?_)
  exact attemptAll_keeps (P := P) (fun name _ => hdrop name) h

omit engine in
theorem mem_byName {specs : List ServiceSpec} {name : String} :
    name ∈ byName specs ↔ ∃ spec ∈ specs, spec.name = name := by
  rw [byName, Std.ExtTreeMap.mem_ofList, List.contains_iff_mem, List.map_map, List.mem_map]
  rfl

omit engine in
theorem exists_mem_byName {specs : List ServiceSpec} {name : String} :
    (∃ spec ∈ (byName specs).values, spec.name = name) ↔ name ∈ byName specs := by
  have hname {n : String} {spec : ServiceSpec} (hget : (byName specs)[n]? = some spec) :
      spec.name = n := by
    obtain ⟨other, -, heq⟩ := List.mem_map.mp (mem_of_getElem?_ofList hget)
    obtain ⟨rfl, rfl⟩ := Prod.mk.inj heq
    rfl
  constructor
  · intro hgiven
    obtain ⟨spec, hmem, rfl⟩ := hgiven
    obtain ⟨n, hget⟩ := mem_values.mp hmem
    rw [hname hget]
    exact mem_of_getElem? hget
  · intro hmem
    obtain ⟨spec, hget⟩ := exists_of_mem hmem
    exact ⟨spec, mem_values.mpr ⟨name, hget⟩, hname hget⟩

omit engine in
theorem of_mem_byName_values {specs : List ServiceSpec} {spec : ServiceSpec}
    (h : spec ∈ (byName specs).values) : spec ∈ specs := by
  obtain ⟨name, hget⟩ := mem_values.mp h
  obtain ⟨other, hother, heq⟩ := List.mem_map.mp (mem_of_getElem?_ofList hget)
  obtain ⟨-, rfl⟩ := Prod.mk.inj heq
  exact hother

/-- If no deletion fails, the services that were to go are gone, and no others. -/
theorem dropServices_ok {names : List String} {r : Roster H σ}
    (h : (attemptAll (dropService engine) names r).1 = []) (name : String) :
    name ∈ (attemptAll (dropService engine) names r).2.services ↔
      name ∈ r.services ∧ name ∉ names := by
  induction names generalizing r with
  | nil => simp
  | cons first rest ih =>
    obtain ⟨hfirst, hrest⟩ := attemptAll_cons_eq_nil.mp h
    have hservices : (dropService engine first r).2.services = r.services.erase first := by
      rw [dropService_eq] at hfirst ⊢
      dsimp only at hfirst ⊢
      split at hfirst
      · cases hfirst
      · rfl
    rw [attemptAll_cons, ih hrest, hservices, mem_erase_iff, List.mem_cons, not_or, and_assoc]

/-- If no addition fails, the services that were to come are there, and those that were. -/
theorem addServices_ok {specs : List ServiceSpec} {r : Roster H σ}
    (h : (addServices engine specs r).1 = .ok ()) (name : String) :
    name ∈ (addServices engine specs r).2.services ↔
      name ∈ r.services ∨ ∃ spec ∈ specs, spec.name = name := by
  induction specs generalizing r with
  | nil => simp
  | cons spec rest ih =>
    rw [addServices_cons] at h ⊢
    have hservices : (addService engine spec r).1 = .ok () →
        (name ∈ (addService engine spec r).2.services ↔ name ∈ r.services ∨ spec.name = name) := by
      intro hadded
      rw [addService_eq] at hadded ⊢
      split at hadded
      · rename_i hold
        rw [if_pos hold]
        refine ⟨.inl, ?_⟩
        intro hgiven
        rcases hgiven with hmem | rfl
        · exact hmem
        · exact hold
      · rename_i hnew
        rw [if_neg hnew]
        dsimp only at hadded ⊢
        split at hadded
        · cases hadded
        · exact mem_insert_iff
    split at h
    · cases h
    · rename_i hadded
      rw [ih h, hservices hadded]
      simp only [List.mem_cons, exists_eq_or_imp, or_assoc]

/-- If the services are set without a fault, those on record are the ones asked for. -/
theorem setServices_ok {specs : List ServiceSpec} {r : Roster H σ}
    (h : (setServices engine specs r).1 = .ok ()) (name : String) :
    name ∈ (setServices engine specs r).2.services ↔ ∃ spec ∈ specs, spec.name = name := by
  rw [setServices_eq] at h ⊢
  dsimp only at h ⊢
  split at h
  · cases h
  · rename_i hadded
    have hdropped := dropServices_ok engine (Report.ofFaults_eq_ok.mp h) name
    rw [addServices_ok engine hadded, exists_mem_byName, ← mem_byName]
    refine ⟨?_, .inr⟩
    intro hgiven
    rcases hgiven with hmem | hmem
    · obtain ⟨hold, hkept⟩ := hdropped.mp hmem
      exact Decidable.byContradiction fun hstale => hkept (mem_staleServices.mpr ⟨hold, hstale⟩)
    · exact hmem

end VipSteering.Roster
