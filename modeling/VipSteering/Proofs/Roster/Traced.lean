import VipSteering.Proofs.Roster.Consistent

namespace VipSteering

variable {σ H ε : Type}

inductive Engine.Call (H : Type) where
  | addService (name : String) (slots : UInt32)
  | deleteService (name : String)
  | addFlow (handle : H) (flow : Flow)
  | deleteFlow (handle : H) (flow : Flow)
  | addTarget (handle : H) (addresses : List Address) (slot : UInt32)
  | deleteTarget (handle : H) (addresses : List Address) (slot : UInt32)
  deriving DecidableEq, Repr

/-- The slot of the target that is added or deleted. -/
def Engine.Call.slot? : Engine.Call H → Option UInt32
  | addTarget _ _ slot | deleteTarget _ _ slot => some slot
  | _ => none

/-- Writes the call down that a task makes. -/
def tracing {α : Type} (call : Engine.Call H) (task : StateM σ α) :
    StateM (σ × List (Engine.Call H)) α := fun (s, calls) =>
  let (result, s) := task s
  (result, s, calls ++ [call])

/-- The engine with a list of the calls made. -/
def Engine.traced (engine : Engine σ H ε) : Engine (σ × List (Engine.Call H)) H ε where
  addService name slots := tracing (.addService name slots) (engine.addService name slots)
  deleteService name := tracing (.deleteService name) (engine.deleteService name)
  slots := engine.slots
  addFlow handle flow := tracing (.addFlow handle flow) (engine.addFlow handle flow)
  deleteFlow handle flow := tracing (.deleteFlow handle flow) (engine.deleteFlow handle flow)
  addTarget handle addresses slot :=
    tracing (.addTarget handle addresses slot) (engine.addTarget handle addresses slot)
  deleteTarget handle addresses slot :=
    tracing (.deleteTarget handle addresses slot) (engine.deleteTarget handle addresses slot)

namespace Roster

/-- The record of an engine that has such a list. -/
def traced (r : Roster H σ) (calls : List (Engine.Call H)) :
    Roster H (σ × List (Engine.Call H)) :=
  { engine := (r.engine, calls), services := r.services, flows := r.flows, endpoints := r.endpoints }

/-- The calls that are made when the endpoints of a service are set. -/
def callsOf (engine : Engine σ H ε) (service : String) (specs : List EndpointSpec)
    (r : Roster H σ) : List (Engine.Call H) :=
  (setEndpoints engine.traced service specs (r.traced [])).2.engine.2

/-- The second task is the first one with its calls written down. -/
def Traces {α : Type} (task : StateM (Roster H σ) α)
    (traced : StateM (Roster H (σ × List (Engine.Call H))) α) : Prop :=
  ∀ r : Roster H σ, ∃ more, ∀ calls,
    traced (r.traced calls) = ((task r).1, (task r).2.traced (calls ++ more))

/-- The calls that are written down are those that are made when the list is empty before. -/
theorem Traces.eq {α : Type} {task : StateM (Roster H σ) α}
    {traced : StateM (Roster H (σ × List (Engine.Call H))) α} (h : Traces task traced)
    (r : Roster H σ) (calls : List (Engine.Call H)) : traced (r.traced calls) =
      ((task r).1, (task r).2.traced (calls ++ (traced (r.traced [])).2.engine.2)) := by
  obtain ⟨more, hmore⟩ := h r
  have hcalls : (traced (r.traced [])).2.engine.2 = more := by
    rw [hmore, List.nil_append]
    rfl
  rw [hmore, hcalls]

section Traced

variable (engine : Engine σ H ε) (service : String) (handle : H)

theorem release_traced (specs : List EndpointSpec) (previous : List ActiveEndpoint) (s : σ) :
    ∃ more, ∀ calls, release engine.traced service handle specs previous (s, calls) =
      ((release engine service handle specs previous s).1,
        (release engine service handle specs previous s).2, calls ++ more) := by
  induction previous generalizing s with
  | nil => exact ⟨[], fun calls => by simp⟩
  | cons e rest ih =>
    by_cases hstays : staysPut specs e = true
    · obtain ⟨more, hrest⟩ := ih s
      refine ⟨more, fun calls => ?_⟩
      rw [release_cons, release_cons, if_pos hstays, if_pos hstays, hrest]
    · obtain ⟨more, hrest⟩ := ih (engine.deleteTarget handle e.addresses e.slot s).2
      refine ⟨.deleteTarget handle e.addresses e.slot :: more, fun calls => ?_⟩
      have hcall : engine.traced.deleteTarget handle e.addresses e.slot (s, calls) =
          ((engine.deleteTarget handle e.addresses e.slot s).1,
            (engine.deleteTarget handle e.addresses e.slot s).2,
            calls ++ [.deleteTarget handle e.addresses e.slot]) := rfl
      rw [release_cons, release_cons, if_neg hstays, if_neg hstays, hcall]
      dsimp only
      rw [hrest, List.append_assoc, List.singleton_append]
      cases (engine.deleteTarget handle e.addresses e.slot s).1 <;> rfl

theorem activate_traced (previous active : List ActiveEndpoint) (specs : List EndpointSpec) (s : σ) :
    ∃ more, ∀ calls, activate engine.traced service handle previous active specs (s, calls) =
      ((activate engine service handle previous active specs s).1,
        (activate engine service handle previous active specs s).2, calls ++ more) := by
  induction specs generalizing active s with
  | nil => exact ⟨[], fun calls => by simp⟩
  | cons spec rest ih =>
    have hslots : engine.traced.slots handle = engine.slots handle := rfl
    simp only [activate_cons, hslots]
    cases pickSlot service spec (slotOf? previous spec.identity) (active.map (·.slot))
        (engine.slots handle) with
    | error fault =>
      obtain ⟨more, hrest⟩ := ih active s
      exact ⟨more, fun calls => by rw [hrest]⟩
    | ok slot =>
      have hcall (calls : List (Engine.Call H)) :
          engine.traced.addTarget handle spec.addresses slot (s, calls) =
            ((engine.addTarget handle spec.addresses slot s).1,
              (engine.addTarget handle spec.addresses slot s).2,
              calls ++ [.addTarget handle spec.addresses slot]) := rfl
      simp only [hcall]
      generalize engine.addTarget handle spec.addresses slot s = added
      obtain ⟨source | _, t⟩ := added
      · obtain ⟨more, hrest⟩ := ih active t
        refine ⟨.addTarget handle spec.addresses slot :: more, fun calls => ?_⟩
        dsimp only
        rw [hrest, List.append_assoc, List.singleton_append]
      · obtain ⟨more, hrest⟩ := ih (active ++ [⟨spec.identity, spec.addresses, slot⟩]) t
        refine ⟨.addTarget handle spec.addresses slot :: more, fun calls => ?_⟩
        dsimp only
        rw [hrest, List.append_assoc, List.singleton_append]

theorem setEndpoints_traces (specs : List EndpointSpec) :
    Traces (setEndpoints engine service specs) (setEndpoints engine.traced service specs) := by
  intro r
  have hservices (calls : List (Engine.Call H)) : (r.traced calls).services = r.services := rfl
  have hendpoints (calls : List (Engine.Call H)) : (r.traced calls).endpoints = r.endpoints := rfl
  simp only [setEndpoints_eq, hservices, hendpoints]
  split
  · rename_i handle previous _ _
    obtain ⟨first, hrelease⟩ := release_traced engine service handle specs previous r.engine
    obtain ⟨second, hactivate⟩ := activate_traced engine service handle previous
      (release engine service handle specs previous r.engine).1.1
      (newcomers (release engine service handle specs previous r.engine).1.1 specs)
      (release engine service handle specs previous r.engine).2
    refine ⟨first ++ second, fun calls => ?_⟩
    have hengine : (r.traced calls).engine = (r.engine, calls) := rfl
    rw [hengine, converge_eq, converge_eq, hrelease]
    dsimp only
    rw [hactivate, List.append_assoc]
    rfl
  · exact ⟨[], fun calls => by simp⟩

/-- Whether the calls are written down or not, the outcome is the same. -/
theorem setEndpoints_traced (specs : List EndpointSpec) (r : Roster H σ)
    (calls : List (Engine.Call H)) :
    setEndpoints engine.traced service specs (r.traced calls) =
      ((setEndpoints engine service specs r).1,
        (setEndpoints engine service specs r).2.traced
          (calls ++ callsOf engine service specs r)) :=
  (setEndpoints_traces engine service specs).eq r calls

theorem callsOf_eq {handle : H} {previous : List ActiveEndpoint} {specs : List EndpointSpec}
    {r : Roster H σ} (hservice : r.services[service]? = some handle)
    (hprevious : r.endpoints[service]? = some previous) :
    callsOf engine service specs r =
      (converge engine.traced service handle previous specs (r.engine, [])).2.2 := by
  rw [callsOf, setEndpoints_eq]
  simp only [traced, hservice, hprevious]

end Traced

theorem Traces.attemptAll {α : Type} {task : α → StateM (Roster H σ) (Except (Fault ε) Unit)}
    {traced : α → StateM (Roster H (σ × List (Engine.Call H))) (Except (Fault ε) Unit)}
    (h : ∀ a, Traces (task a) (traced a)) (items : List α) :
    Traces (attemptAll task items) (attemptAll traced items) := by
  induction items with
  | nil => exact fun r => ⟨[], fun calls => by simp⟩
  | cons a rest ih =>
    intro r
    obtain ⟨first, hfirst⟩ := h a r
    obtain ⟨second, hrest⟩ := ih (task a r).2
    refine ⟨first ++ second, fun calls => ?_⟩
    rw [attemptAll_cons, attemptAll_cons, hfirst, hrest, List.append_assoc]

section Traces

variable (engine : Engine σ H ε)

theorem dropService_traces (name : String) :
    Traces (dropService engine name) (dropService engine.traced name) := by
  intro r
  refine ⟨[.deleteService name], fun calls => ?_⟩
  have hcall : engine.traced.deleteService name (r.traced calls).engine =
      ((engine.deleteService name r.engine).1, (engine.deleteService name r.engine).2,
        calls ++ [.deleteService name]) := rfl
  rw [dropService_eq, dropService_eq, hcall]
  generalize engine.deleteService name r.engine = deleted
  obtain ⟨source | _, left⟩ := deleted
  · rfl
  · rfl

theorem addService_traces (spec : ServiceSpec) :
    Traces (addService engine spec) (addService engine.traced spec) := by
  intro r
  have hservices (calls : List (Engine.Call H)) : (r.traced calls).services = r.services := rfl
  by_cases hold : spec.name ∈ r.services
  · refine ⟨[], fun calls => ?_⟩
    rw [addService_eq, addService_eq, hservices, if_pos hold, if_pos hold, List.append_nil]
  · refine ⟨[.addService spec.name spec.maxEndpoints], fun calls => ?_⟩
    have hcall : engine.traced.addService spec.name spec.maxEndpoints (r.traced calls).engine =
        ((engine.addService spec.name spec.maxEndpoints r.engine).1,
          (engine.addService spec.name spec.maxEndpoints r.engine).2,
          calls ++ [.addService spec.name spec.maxEndpoints]) := rfl
    rw [addService_eq, addService_eq, hservices, if_neg hold, if_neg hold, hcall]
    generalize engine.addService spec.name spec.maxEndpoints r.engine = added
    obtain ⟨source | handle, left⟩ := added
    · rfl
    · rfl

theorem addServices_traces (specs : List ServiceSpec) :
    Traces (addServices engine specs) (addServices engine.traced specs) := by
  induction specs with
  | nil => exact fun r => ⟨[], fun calls => by simp⟩
  | cons spec rest ih =>
    intro r
    obtain ⟨first, hfirst⟩ := addService_traces engine spec r
    obtain ⟨second, hrest⟩ := ih (addService engine spec r).2
    simp only [addServices_cons, hfirst]
    cases (addService engine spec r).1 with
    | error fault => exact ⟨first, fun calls => rfl⟩
    | ok _ =>
      refine ⟨first ++ second, fun calls => ?_⟩
      rw [← List.append_assoc]
      exact hrest (calls ++ first)

theorem setServices_traces (specs : List ServiceSpec) :
    Traces (setServices engine specs) (setServices engine.traced specs) := by
  intro r
  obtain ⟨first, hdrop⟩ :=
    Traces.attemptAll (dropService_traces engine) (r.staleServices specs) r
  obtain ⟨second, hadd⟩ := addServices_traces engine (byName specs).values
    (forgetFlows (attemptAll (dropService engine) (r.staleServices specs) r).2)
  refine ⟨first ++ second, fun calls => ?_⟩
  have hstale : (r.traced calls).staleServices specs = r.staleServices specs := rfl
  have hforget (left : Roster H σ) (calls : List (Engine.Call H)) :
      forgetFlows (left.traced calls) = (forgetFlows left).traced calls := rfl
  rw [setServices_eq, setServices_eq, hstale, hdrop]
  dsimp only
  rw [hforget, hadd, List.append_assoc]

theorem dropFlow_traces (key : String) :
    Traces (dropFlow engine key) (dropFlow engine.traced key) := by
  intro r
  have hflows (calls : List (Engine.Call H)) : (r.traced calls).flows = r.flows := rfl
  have hservices (calls : List (Engine.Call H)) : (r.traced calls).services = r.services := rfl
  simp only [dropFlow_eq, hflows, hservices]
  cases r.flows[key]? with
  | none => exact ⟨[], fun calls => by simp⟩
  | some spec =>
    dsimp only
    cases r.services[spec.service]? with
    | none => exact ⟨[], fun calls => by simp [traced]⟩
    | some handle => exact ⟨[.deleteFlow handle spec.flow], fun calls => rfl⟩

theorem putFlow_traces (spec : FlowSpec) :
    Traces (putFlow engine spec) (putFlow engine.traced spec) := by
  intro r
  have hservices (calls : List (Engine.Call H)) : (r.traced calls).services = r.services := rfl
  simp only [putFlow_eq, hservices]
  cases r.services[spec.service]? with
  | none => exact ⟨[], fun calls => by simp⟩
  | some handle => exact ⟨[.addFlow handle spec.flow], fun calls => rfl⟩

theorem setFlows_traces (specs : List FlowSpec) :
    Traces (setFlows engine specs) (setFlows engine.traced specs) := by
  intro r
  obtain ⟨first, hdrop⟩ := Traces.attemptAll (dropFlow_traces engine) (r.staleFlows specs) r
  obtain ⟨second, hput⟩ := Traces.attemptAll (putFlow_traces engine) (byKey r specs).values
    (attemptAll (dropFlow engine) (r.staleFlows specs) r).2
  refine ⟨first ++ second, fun calls => ?_⟩
  have hstale : (r.traced calls).staleFlows specs = r.staleFlows specs := rfl
  have hkey : byKey (r.traced calls) specs = byKey r specs := rfl
  rw [setFlows_eq, setFlows_eq, hstale, hkey, hdrop]
  dsimp only
  rw [hput, List.append_assoc]

/-- The calls that a request makes, in order. -/
def Request.calls (request : Request) (r : Roster H σ) : List (Engine.Call H) :=
  (request.perform engine.traced (r.traced [])).2.engine.2

/-- Whatever is requested, to write the calls down changes nothing. -/
theorem Request.perform_traced (request : Request) (r : Roster H σ)
    (calls : List (Engine.Call H)) :
    request.perform engine.traced (r.traced calls) =
      ((request.perform engine r).1,
        (request.perform engine r).2.traced (calls ++ request.calls engine r)) := by
  have htraces : Traces (request.perform engine) (request.perform engine.traced) := by
    cases request with
    | services specs => exact setServices_traces engine specs
    | flows specs => exact setFlows_traces engine specs
    | endpoints service specs => exact setEndpoints_traces engine service specs
  exact htraces.eq r calls

end Traces

end Roster
end VipSteering
