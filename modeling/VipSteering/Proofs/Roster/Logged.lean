import Mathlib.Data.List.Forall2
import VipSteering.Proofs.Roster.Apply
import VipSteering.Proofs.Roster.Slots

namespace VipSteering

/-- A call of an engine that failed, with what the engine said. -/
inductive Setback (H ε : Type) where
  | addService (name : String) (slots : UInt32) (source : ε)
  | deleteService (name : String) (source : ε)
  | addFlow (handle : H) (flow : Flow) (source : ε)
  | deleteFlow (handle : H) (flow : Flow) (source : ε)
  | addTarget (handle : H) (addresses : List Address) (slot : UInt32) (source : ε)
  | deleteTarget (handle : H) (addresses : List Address) (slot : UInt32) (source : ε)

namespace Setback

variable {H ε : Type}

def addsService : Setback H ε → Bool
  | addService .. => true
  | _ => false

def deletesService : Setback H ε → Bool
  | deleteService .. => true
  | _ => false

/-- A service could not be deleted, and another could not be added. -/
def Mixed (setbacks : List (Setback H ε)) : Prop :=
  (∃ b ∈ setbacks, b.deletesService = true) ∧ ∃ b ∈ setbacks, b.addsService = true

/-- The setbacks of which something is said: those of deletions of services are passed over once a
service cannot be added. -/
def heard (setbacks : List (Setback H ε)) : List (Setback H ε) :=
  if setbacks.any addsService then setbacks.filter (!·.deletesService) else setbacks

theorem heard_of_none {setbacks : List (Setback H ε)}
    (h : ∀ b ∈ setbacks, b.addsService = false) : heard setbacks = setbacks := by
  rw [heard, if_neg]
  simpa using h

/-- Once a service cannot be added, that alone is heard. -/
theorem heard_addition {deletions : List (Setback H ε)} {b : Setback H ε}
    (h : ∀ b ∈ deletions, b.deletesService = true) (hb : b.addsService = true) :
    heard (deletions ++ [b]) = [b] := by
  have hkept : b.deletesService = false := by
    cases b <;> simp_all [addsService, deletesService]
  have hdropped : deletions.filter (!·.deletesService) = [] :=
    List.filter_eq_nil_iff.mpr fun b hb => by simp [h b hb]
  rw [heard, if_pos (by simp [hb]), List.filter_append, hdropped]
  simp [hkept]

/-- What concerns no service is heard anyway. -/
theorem heard_append {setbacks rest : List (Setback H ε)}
    (h : ∀ b ∈ rest, b.addsService = false ∧ b.deletesService = false) :
    heard (setbacks ++ rest) = heard setbacks ++ rest := by
  have hadds : rest.any addsService = false := by
    simpa using fun b hb => (h b hb).1
  have hkept : rest.filter (!·.deletesService) = rest :=
    List.filter_eq_self.mpr fun b hb => by simp [(h b hb).2]
  rw [heard, heard, List.any_append, hadds, Bool.or_false, List.filter_append, hkept]
  split <;> rfl

theorem heard_eq_nil {setbacks : List (Setback H ε)} : heard setbacks = [] ↔ setbacks = [] := by
  refine ⟨fun h => ?_, fun h => by rw [h]; rfl⟩
  rw [heard] at h
  split at h
  · rename_i hadds
    obtain ⟨b, hb, hadded⟩ := List.any_eq_true.mp hadds
    have hgone := List.filter_eq_nil_iff.mp h b hb
    cases b <;> simp_all [addsService, deletesService]
  · exact h

/-- Something is passed over exactly if both kinds of setbacks have been met. -/
theorem length_heard {setbacks : List (Setback H ε)} :
    (heard setbacks).length = setbacks.length ↔ ¬ Mixed setbacks := by
  rw [heard, Mixed]
  by_cases hadds : ∃ b ∈ setbacks, b.addsService = true
  · rw [if_pos (by simpa using hadds), List.length_filter_eq_length_iff, and_iff_left hadds]
    simp
  · rw [if_neg (by simpa using hadds)]
    simp [hadds]

/-- If not both kinds have been met, all is heard. -/
theorem heard_of_not_mixed {setbacks : List (Setback H ε)} (h : ¬ Mixed setbacks) :
    heard setbacks = setbacks := by
  have hsub : (heard setbacks).Sublist setbacks := by
    rw [heard]
    split
    · exact List.filter_sublist
    · exact List.Sublist.refl _
  exact hsub.eq_of_length (length_heard.mpr h)

end Setback

section Logged

variable {σ H ε α : Type}

/-- What a result adds to a log. -/
def setbackOf (setback : ε → Setback H ε) : Except ε α → List (Setback H ε)
  | .ok _ => []
  | .error source => [setback source]

def noting (setback : ε → Setback H ε) (task : StateM σ (Except ε α)) :
    StateM (σ × List (Setback H ε)) (Except ε α) := fun (s, log) =>
  let (result, s) := task s
  (result, s, log ++ setbackOf setback result)

/-- The engine with a log of the calls that failed. -/
def Engine.logged (engine : Engine σ H ε) : Engine (σ × List (Setback H ε)) H ε where
  addService name slots := noting (.addService name slots) (engine.addService name slots)
  deleteService name := noting (.deleteService name) (engine.deleteService name)
  slots := engine.slots
  addFlow handle flow := noting (.addFlow handle flow) (engine.addFlow handle flow)
  deleteFlow handle flow := noting (.deleteFlow handle flow) (engine.deleteFlow handle flow)
  addTarget handle addresses slot :=
    noting (.addTarget handle addresses slot) (engine.addTarget handle addresses slot)
  deleteTarget handle addresses slot :=
    noting (.deleteTarget handle addresses slot) (engine.deleteTarget handle addresses slot)

/-- The record of an engine that has a log. -/
def Roster.logged (r : Roster H σ) (log : List (Setback H ε)) :
    Roster H (σ × List (Setback H ε)) :=
  { engine := (r.engine, log), services := r.services, flows := r.flows, endpoints := r.endpoints }

section Fields

variable (r : Roster H σ) (log : List (Setback H ε))

@[simp] theorem Roster.logged_engine : (r.logged log).engine = (r.engine, log) := rfl

@[simp] theorem Roster.logged_services : (r.logged log).services = r.services := rfl

@[simp] theorem Roster.logged_flows : (r.logged log).flows = r.flows := rfl

@[simp] theorem Roster.logged_endpoints : (r.logged log).endpoints = r.endpoints := rfl

@[simp] theorem Roster.logged_staleServices (specs : List ServiceSpec) :
    (r.logged log).staleServices specs = r.staleServices specs := rfl

@[simp] theorem Roster.forgetFlows_logged : (r.logged log).forgetFlows = r.forgetFlows.logged log :=
  rfl

@[simp] theorem Roster.logged_staleFlows (specs : List FlowSpec) :
    (r.logged log).staleFlows specs = r.staleFlows specs := rfl

@[simp] theorem Roster.byKey_logged (specs : List FlowSpec) :
    (r.logged log).byKey specs = r.byKey specs := rfl

end Fields

end Logged

namespace Roster

open Setback (heard Mixed)

variable {σ H ε : Type}

/-- The faults in which an engine has its say. -/
def engineFaults (faults : List (Fault ε)) : List (Fault ε) := faults.filter (·.source?.isSome)

theorem engineFaults_append (faults rest : List (Fault ε)) :
    engineFaults (faults ++ rest) = engineFaults faults ++ engineFaults rest :=
  List.filter_append _ _

theorem engineFaults_single {fault : Fault ε} (h : fault.source?.isSome = true) :
    engineFaults [fault] = [fault] := by
  simp [engineFaults, h]

theorem engineFaults_cons_none {fault : Fault ε} (h : fault.source? = none)
    (faults : List (Fault ε)) : engineFaults (fault :: faults) = engineFaults faults := by
  simp [engineFaults, h]

/-- With a log a task has the same outcome, and the setbacks that come to the log are those that the
faults tell of, in their order. -/
def Recounts {S S' α : Type} (attach : S → List (Setback H ε) → S')
    (tells : Setback H ε → Fault ε → Prop) (plain : StateM S α) (logged : StateM S' α) (s : S)
    (faults : List (Fault ε)) : Prop :=
  ∀ log, ∃ setbacks, logged (attach s log) = ((plain s).1, attach (plain s).2 (log ++ setbacks)) ∧
    List.Forall₂ tells setbacks (engineFaults faults)

/-- The fault of a result. -/
def faultOf {φ α : Type} : Except φ α → List φ
  | .ok _ => []
  | .error fault => [fault]

section Recounts

variable {S S' α β : Type} {attach : S → List (Setback H ε) → S'}
  {T : Setback H ε → Fault ε → Prop} {s : S}

theorem Recounts.pure (a : α) (s : S) :
    Recounts attach T (Pure.pure a : StateM S α) (Pure.pure a : StateM S' α) s [] :=
  fun log => ⟨[], by simp, .nil⟩

/-- What one call adds to the log. -/
theorem tells_setbackOf {setback : ε → Setback H ε} {fault : ε → Fault ε}
    (htells : ∀ source, T (setback source) (fault source))
    (hsource : ∀ source, (fault source).source? = some source) (result : Except ε α) :
    List.Forall₂ T (setbackOf setback result)
      (engineFaults (faultOf (result.mapError fault))) := by
  cases result with
  | ok _ => exact .nil
  | error source => simp [setbackOf, faultOf, engineFaults, hsource, htells]

theorem recounts_attemptAll {task : β → StateM S (Except (Fault ε) Unit)}
    {task' : β → StateM S' (Except (Fault ε) Unit)} {I : S → Prop} {items : List β}
    (hkeep : ∀ a ∈ items, ∀ s, I s → I (task a s).2)
    (hone : ∀ a ∈ items, ∀ s, I s →
      Recounts attach T (task a) (task' a) s (faultOf (task a s).1)) (hs : I s) :
    Recounts attach T (attemptAll task items) (attemptAll task' items) s
      (attemptAll task items s).1 := by
  induction items generalizing s with
  | nil => exact .pure [] s
  | cons a rest ih =>
    simp only [List.mem_cons, forall_eq_or_imp] at hkeep hone
    intro log
    obtain ⟨first, heq, htold⟩ := hone.1 s hs log
    obtain ⟨second, heq', htold'⟩ := ih hkeep.2 hone.2 (hkeep.1 s hs) (log ++ first)
    refine ⟨first ++ second, ?_, ?_⟩
    · rw [attemptAll_cons, attemptAll_cons, heq, heq', List.append_assoc]
    · have hfaults : (attemptAll task (a :: rest) s).1 =
          faultOf (task a s).1 ++ (attemptAll task rest (task a s).2).1 := by
        rw [attemptAll_cons]
        cases (task a s).1 <;> rfl
      rw [hfaults, engineFaults_append]
      exact List.rel_append htold htold'

end Recounts

/-- The fault names what the call was about and has what the engine said. -/
inductive Request.Tells (r : Roster H σ) : Request → Setback H ε → Fault ε → Prop
  | addService {specs : List ServiceSpec} {spec : ServiceSpec} (source : ε) (asked : spec ∈ specs) :
    Tells r (.services specs) (.addService spec.name spec.maxEndpoints source)
      (.addService spec.name source)
  | deleteService {specs : List ServiceSpec} {name : String} (source : ε)
    (known : name ∈ r.services) :
    Tells r (.services specs) (.deleteService name source) (.deleteService name source)
  | addFlow {specs : List FlowSpec} {spec : FlowSpec} {handle : H} (source : ε)
    (asked : spec ∈ specs) (known : r.services[spec.service]? = some handle) :
    Tells r (.flows specs) (.addFlow handle spec.flow source) (.addFlow spec.key source)
  | deleteFlow {specs : List FlowSpec} {key : String} {spec : FlowSpec} {handle : H} (source : ε)
    (recorded : r.flows[key]? = some spec) (known : r.services[spec.service]? = some handle) :
    Tells r (.flows specs) (.deleteFlow handle spec.flow source) (.deleteFlow key source)
  | addTarget {service : String} {specs : List EndpointSpec} {spec : EndpointSpec} {handle : H}
    (slot : UInt32) (source : ε) (known : r.services[service]? = some handle)
    (asked : wanted? specs spec.identity = some spec) :
    Tells r (.endpoints service specs) (.addTarget handle spec.addresses slot source)
      (.addTarget service spec.identity slot source)
  | deleteTarget {service : String} {specs : List EndpointSpec} {handle : H}
    {active : List ActiveEndpoint} {e : ActiveEndpoint} (source : ε)
    (known : r.services[service]? = some handle) (recorded : r.endpoints[service]? = some active)
    (held : e ∈ active) :
    Tells r (.endpoints service specs) (.deleteTarget handle e.addresses e.slot source)
      (.deleteTarget service e.identity e.slot source)

section Services

variable (engine : Engine σ H ε)

theorem recounts_dropService (known : Roster H σ) (specs : List ServiceSpec) {name : String}
    (hname : name ∈ known.services) (r : Roster H σ) :
    Recounts Roster.logged
      (fun b f => b.deletesService = true ∧ Request.Tells known (.services specs) b f)
      (dropService engine name) (dropService engine.logged name) r
      (faultOf (dropService engine name r).1) := by
  intro log
  have hcall : engine.logged.deleteService name (r.logged log).engine =
      ((engine.deleteService name r.engine).1, (engine.deleteService name r.engine).2,
        log ++ setbackOf (.deleteService name) (engine.deleteService name r.engine).1) := rfl
  have htells := tells_setbackOf
    (T := fun b f => b.deletesService = true ∧ Request.Tells known (.services specs) b f)
    (fun source => ⟨rfl, .deleteService source hname⟩) (fun _ => rfl)
    (engine.deleteService name r.engine).1
  rw [dropService_eq, dropService_eq, hcall]
  generalize engine.deleteService name r.engine = out at htells ⊢
  obtain ⟨_ | _, s⟩ := out
  · exact ⟨_, rfl, htells⟩
  · exact ⟨_, rfl, htells⟩

theorem recounts_addService (known : Roster H σ) {specs : List ServiceSpec} {spec : ServiceSpec}
    (hspec : spec ∈ specs) (r : Roster H σ) :
    Recounts Roster.logged
      (fun b f => b.addsService = true ∧ Request.Tells known (.services specs) b f)
      (Roster.addService engine spec) (Roster.addService engine.logged spec) r
      (faultOf (Roster.addService engine spec r).1) := by
  intro log
  have hcall : engine.logged.addService spec.name spec.maxEndpoints (r.logged log).engine =
      ((engine.addService spec.name spec.maxEndpoints r.engine).1,
        (engine.addService spec.name spec.maxEndpoints r.engine).2,
        log ++ setbackOf (.addService spec.name spec.maxEndpoints)
          (engine.addService spec.name spec.maxEndpoints r.engine).1) := rfl
  have htells := tells_setbackOf
    (T := fun b f => b.addsService = true ∧ Request.Tells known (.services specs) b f)
    (fun source => ⟨rfl, .addService source hspec⟩) (fun _ => rfl)
    (engine.addService spec.name spec.maxEndpoints r.engine).1
  rw [addService_eq, addService_eq, hcall]
  rw [logged_services]
  by_cases hold : spec.name ∈ r.services
  · rw [if_pos hold, if_pos hold]
    exact ⟨[], by simp [logged], .nil⟩
  · rw [if_neg hold, if_neg hold]
    generalize engine.addService spec.name spec.maxEndpoints r.engine = out at htells ⊢
    obtain ⟨_ | _, s⟩ := out
    · exact ⟨_, rfl, htells⟩
    · exact ⟨_, rfl, htells⟩

theorem recounts_addServices (known : Roster H σ) {specs asked : List ServiceSpec}
    (hspecs : ∀ spec ∈ specs, spec ∈ asked) (r : Roster H σ) :
    Recounts Roster.logged
      (fun b f => b.addsService = true ∧ Request.Tells known (.services asked) b f)
      (addServices engine specs) (addServices engine.logged specs) r
      (faultOf (addServices engine specs r).1) := by
  induction specs generalizing r with
  | nil => exact .pure (Except.ok ()) r
  | cons spec rest ih =>
    simp only [List.mem_cons, forall_eq_or_imp] at hspecs
    intro log
    obtain ⟨first, heq, htold⟩ := recounts_addService engine known hspecs.1 r log
    rw [addServices_cons, addServices_cons, heq]
    cases hresult : (Roster.addService engine spec r).1 with
    | error fault =>
      rw [hresult] at htold
      exact ⟨first, rfl, htold⟩
    | ok done =>
      rw [hresult] at htold
      obtain rfl : first = [] := List.forall₂_nil_right_iff.mp htold
      rw [List.append_nil]
      exact ih hspecs.2 (Roster.addService engine spec r).2 log

/-- It is the engine that has not added a service. -/
theorem source?_of_addServices {specs : List ServiceSpec} {r : Roster H σ} {fault : Fault ε}
    (h : (addServices engine specs r).1 = .error fault) : fault.source?.isSome = true := by
  induction specs generalizing r with
  | nil => cases h
  | cons spec rest ih =>
    rw [addServices_cons] at h
    split at h
    · rename_i hfault
      rw [addService_eq] at hfault
      split at hfault
      · cases hfault
      · dsimp only at hfault
        split at hfault
        · cases hfault
          cases h
          rfl
        · cases hfault
    · exact ih h

/-- If a service cannot be added, nothing is said of those that could not be deleted. -/
theorem setServices_logged (specs : List ServiceSpec) (r : Roster H σ)
    (log : List (Setback H ε)) :
    ∃ setbacks, setServices engine.logged specs (r.logged log) =
        ((setServices engine specs r).1,
          (setServices engine specs r).2.logged (log ++ setbacks)) ∧
      List.Forall₂ (Request.Tells r (.services specs)) (heard setbacks)
        (engineFaults (Report.leaves (setServices engine specs r).1)) := by
  have hdrop : Recounts Roster.logged
      (fun b f => b.deletesService = true ∧ Request.Tells r (.services specs) b f)
      (attemptAll (dropService engine) (r.staleServices specs))
      (attemptAll (dropService engine.logged) (r.staleServices specs)) r
      (attemptAll (dropService engine) (r.staleServices specs) r).1 :=
    recounts_attemptAll (I := fun _ => True) (fun _ _ _ _ => trivial)
      (fun _ hname r' _ => recounts_dropService engine r specs (mem_staleServices.mp hname).1 r')
      trivial
  obtain ⟨first, heq, htold⟩ := hdrop log
  obtain ⟨second, heq', htold'⟩ := recounts_addServices engine r
    (fun spec hspec => of_mem_byName_values hspec)
    (forgetFlows (attemptAll (dropService engine) (r.staleServices specs) r).2) (log ++ first)
  have hsource : ∀ fault, (addServices engine (byName specs).values
      (forgetFlows (attemptAll (dropService engine) (r.staleServices specs) r).2)).1 = .error fault →
      fault.source?.isSome = true := fun fault => source?_of_addServices engine
  obtain ⟨hfirst, htold⟩ := (List.forall₂_and_left _ _).mp htold
  obtain ⟨hsecond, htold'⟩ := (List.forall₂_and_left _ _).mp htold'
  have hdeletions : ∀ b ∈ first, b.addsService = false := by
    intro b hb
    have := hfirst b hb
    cases b <;> simp_all [Setback.deletesService, Setback.addsService]
  refine ⟨first ++ second, ?_, ?_⟩
  · rw [setServices_eq, setServices_eq, ← List.append_assoc]
    dsimp only
    rw [logged_staleServices, heq, forgetFlows_logged, heq']
  · rw [setServices_eq]
    dsimp only
    generalize addServices engine (byName specs).values
      (forgetFlows (attemptAll (dropService engine) (r.staleServices specs) r).2) = added
      at htold' hsource
    obtain ⟨result, left⟩ := added
    cases result with
    | ok done =>
      obtain rfl : second = [] := List.forall₂_nil_right_iff.mp htold'
      rw [List.append_nil, Setback.heard_of_none hdeletions, Report.leaves_ofFaults]
      exact htold
    | error fault =>
      rw [faultOf, engineFaults_single (hsource fault rfl)] at htold'
      rw [Report.leaves, Report.faults, engineFaults_single (hsource fault rfl)]
      obtain ⟨b, rest, htells, hrest, rfl⟩ := List.forall₂_cons_right_iff.mp htold'
      obtain rfl : rest = [] := List.forall₂_nil_right_iff.mp hrest
      rw [Setback.heard_addition hfirst (hsecond b List.mem_cons_self)]
      exact .cons htells .nil

end Services

section Flows

variable (engine : Engine σ H ε)

theorem recounts_dropFlow (known : Roster H σ) {r : Roster H σ} (specs : List FlowSpec)
    (key : String)
    (hservices : r.services = known.services)
    (hflows : ∀ spec : FlowSpec, r.flows[key]? = some spec → known.flows[key]? = some spec) :
    Recounts Roster.logged (Request.Tells known (.flows specs)) (dropFlow engine key)
      (dropFlow engine.logged key) r (faultOf (dropFlow engine key r).1) := by
  intro log
  rw [dropFlow_eq, dropFlow_eq, logged_flows, logged_services]
  cases hspec : r.flows[key]? with
  | none => exact ⟨[], by simp, .nil⟩
  | some spec =>
    dsimp only
    cases hhandle : r.services[spec.service]? with
    | none => exact ⟨[], by simp [logged], .nil⟩
    | some handle =>
      rw [hservices] at hhandle
      exact ⟨_, rfl, tells_setbackOf (fun source => .deleteFlow source (hflows spec hspec) hhandle)
        (fun _ => rfl) (engine.deleteFlow handle spec.flow r.engine).1⟩

theorem recounts_putFlow (known : Roster H σ) {r : Roster H σ} {specs : List FlowSpec} {spec : FlowSpec}
    (hservices : r.services = known.services) (hspec : spec ∈ specs) :
    Recounts Roster.logged (Request.Tells known (.flows specs)) (putFlow engine spec)
      (putFlow engine.logged spec) r (faultOf (putFlow engine spec r).1) := by
  intro log
  rw [putFlow_eq, putFlow_eq, logged_services]
  cases hhandle : r.services[spec.service]? with
  | none => exact ⟨[], by simp, .nil⟩
  | some handle =>
    rw [hservices] at hhandle
    exact ⟨_, rfl, tells_setbackOf (fun source => .addFlow source hspec hhandle) (fun _ => rfl)
      (engine.addFlow handle spec.flow r.engine).1⟩

theorem recounts_setFlows (specs : List FlowSpec) (r : Roster H σ) :
    Recounts Roster.logged (Request.Tells r (.flows specs)) (setFlows engine specs)
      (setFlows engine.logged specs) r (Report.leaves (setFlows engine specs r).1) := by
  intro log
  have hdrop : Recounts Roster.logged (Request.Tells r (.flows specs))
      (attemptAll (dropFlow engine) (r.staleFlows specs))
      (attemptAll (dropFlow engine.logged) (r.staleFlows specs)) r
      (attemptAll (dropFlow engine) (r.staleFlows specs) r).1 := by
    refine recounts_attemptAll (I := fun r' : Roster H σ => r'.services = r.services ∧
      ∀ (key : String) (spec : FlowSpec), r'.flows[key]? = some spec → r.flows[key]? = some spec)
      (fun key _ r' hr => ⟨(dropFlow_services engine key r').trans hr.1, fun k spec hget => ?_⟩)
      (fun key _ r' hr => recounts_dropFlow engine r specs key hr.1 (hr.2 key))
      ⟨rfl, fun _ _ h => h⟩
    rw [dropFlow_flows] at hget
    exact hr.2 k spec (of_getElem?_erase hget).2
  have hservices := dropFlows_services engine (r.staleFlows specs) r
  have hput : Recounts Roster.logged (Request.Tells r (.flows specs))
      (attemptAll (putFlow engine) (byKey r specs).values)
      (attemptAll (putFlow engine.logged) (byKey r specs).values)
      (attemptAll (dropFlow engine) (r.staleFlows specs) r).2
      (attemptAll (putFlow engine) (byKey r specs).values
        (attemptAll (dropFlow engine) (r.staleFlows specs) r).2).1 :=
    recounts_attemptAll (I := fun r' : Roster H σ => r'.services = r.services)
      (fun spec _ r' hr => (putFlow_services engine spec r').trans hr)
      (fun _ hspec _ hr => recounts_putFlow engine r hr (of_mem_byKey_values hspec).1) hservices
  obtain ⟨first, heq, htold⟩ := hdrop log
  obtain ⟨second, heq', htold'⟩ := hput (log ++ first)
  refine ⟨first ++ second, ?_, ?_⟩
  · rw [setFlows_eq, setFlows_eq, ← List.append_assoc]
    dsimp only
    rw [logged_staleFlows, byKey_logged, heq, heq']
  · rw [setFlows_eq]
    dsimp only
    rw [Report.leaves_ofFaults, engineFaults_append]
    exact List.rel_append htold htold'

end Flows

section Endpoints

variable (engine : Engine σ H ε) {known : Roster H σ} {service : String} {handle : H}
  (specs : List EndpointSpec) {previous : List ActiveEndpoint}

omit engine in
/-- It is no matter of the engine if there is no slot for an endpoint. -/
theorem source?_of_pickSlot {spec : EndpointSpec} {before : Option UInt32} {taken : List UInt32}
    {count : UInt32} {fault : Fault ε}
    (h : pickSlot service spec before taken count = .error fault) : fault.source? = none := by
  rw [pickSlot_eq_error] at h
  split at h
  · rw [h.2]
    rfl
  · rw [h.2]
    rfl

theorem recounts_release (hservice : known.services[service]? = some handle)
    (hprevious : known.endpoints[service]? = some previous) {es : List ActiveEndpoint}
    (hes : ∀ e ∈ es, e ∈ previous) (s : σ) :
    Recounts Prod.mk (Request.Tells known (.endpoints service specs))
      (release engine service handle specs es) (release engine.logged service handle specs es) s
      (release engine service handle specs es s).1.2 := by
  induction es generalizing s with
  | nil => exact .pure ([], []) s
  | cons e rest ih =>
    simp only [List.mem_cons, forall_eq_or_imp] at hes
    intro log
    rw [release_cons, release_cons]
    by_cases hstays : staysPut specs e = true
    · obtain ⟨setbacks, heq, htold⟩ := ih hes.2 s log
      rw [if_pos hstays, if_pos hstays, heq]
      exact ⟨setbacks, rfl, htold⟩
    · have htells := tells_setbackOf (T := Request.Tells known (.endpoints service specs))
        (fun source => .deleteTarget source hservice hprevious hes.1) (fun _ => rfl)
        (engine.deleteTarget handle e.addresses e.slot s).1
      obtain ⟨setbacks, heq, htold⟩ := ih hes.2 (engine.deleteTarget handle e.addresses e.slot s).2
        (log ++ setbackOf (.deleteTarget handle e.addresses e.slot)
          (engine.deleteTarget handle e.addresses e.slot s).1)
      have hcall : engine.logged.deleteTarget handle e.addresses e.slot (s, log) =
          ((engine.deleteTarget handle e.addresses e.slot s).1,
            (engine.deleteTarget handle e.addresses e.slot s).2,
            log ++ setbackOf (.deleteTarget handle e.addresses e.slot)
              (engine.deleteTarget handle e.addresses e.slot s).1) := rfl
      rw [if_neg hstays, if_neg hstays, hcall]
      dsimp only
      rw [heq]
      generalize engine.deleteTarget handle e.addresses e.slot s = out at htells htold ⊢
      obtain ⟨_ | _, s'⟩ := out
      · refine ⟨_, by rw [List.append_assoc], ?_⟩
        exact List.rel_append htells htold
      · exact ⟨setbacks, by simp [setbackOf], htold⟩

theorem recounts_activate (previous : List ActiveEndpoint)
    (hservice : known.services[service]? = some handle)
    {asked : List EndpointSpec}
    (hasked : ∀ spec ∈ asked, wanted? specs spec.identity = some spec)
    (active : List ActiveEndpoint) (s : σ) :
    Recounts Prod.mk (Request.Tells known (.endpoints service specs))
      (activate engine service handle previous active asked)
      (activate engine.logged service handle previous active asked) s
      (activate engine service handle previous active asked s).1.2 := by
  induction asked generalizing active s with
  | nil => exact .pure (active, []) s
  | cons spec rest ih =>
    simp only [List.mem_cons, forall_eq_or_imp] at hasked
    intro log
    rw [activate_cons, activate_cons]
    have hslots : engine.logged.slots handle = engine.slots handle := rfl
    rw [hslots]
    cases hpick : pickSlot service spec (slotOf? previous spec.identity) (active.map (·.slot))
        (engine.slots handle) with
    | error fault =>
      obtain ⟨setbacks, heq, htold⟩ := ih hasked.2 active s log
      dsimp only
      rw [heq]
      refine ⟨setbacks, rfl, ?_⟩
      rw [engineFaults_cons_none (source?_of_pickSlot hpick)]
      exact htold
    | ok slot =>
      have htells := tells_setbackOf (T := Request.Tells known (.endpoints service specs))
        (fun source => .addTarget slot source hservice hasked.1) (fun _ => rfl)
        (engine.addTarget handle spec.addresses slot s).1
      have hcall : engine.logged.addTarget handle spec.addresses slot (s, log) =
          ((engine.addTarget handle spec.addresses slot s).1,
            (engine.addTarget handle spec.addresses slot s).2,
            log ++ setbackOf (.addTarget handle spec.addresses slot)
              (engine.addTarget handle spec.addresses slot s).1) := rfl
      dsimp only
      rw [hcall]
      generalize engine.addTarget handle spec.addresses slot s = out at htells ⊢
      obtain ⟨source | _, s'⟩ := out
      · obtain ⟨setbacks, heq, htold⟩ := ih hasked.2 active s' (log ++ [_])
        dsimp only [setbackOf]
        rw [heq, List.append_assoc]
        exact ⟨_, rfl, List.rel_append htells htold⟩
      · dsimp only [setbackOf]
        rw [List.append_nil]
        exact ih hasked.2 _ s' log

theorem recounts_setEndpoints (service : String) (specs : List EndpointSpec) (r : Roster H σ) :
    Recounts Roster.logged (Request.Tells r (.endpoints service specs))
      (setEndpoints engine service specs) (setEndpoints engine.logged service specs) r
      (Report.leaves (setEndpoints engine service specs r).1) := by
  intro log
  rw [setEndpoints_eq, setEndpoints_eq, logged_services, logged_endpoints]
  cases hservice : r.services[service]? with
  | none => exact ⟨[], by simp, .nil⟩
  | some handle =>
    cases hprevious : r.endpoints[service]? with
    | none => exact ⟨[], by simp, .nil⟩
    | some previous =>
      obtain ⟨first, heq, htold⟩ := recounts_release engine specs hservice hprevious
        (fun _ he => he) r.engine log
      obtain ⟨second, heq', htold'⟩ := recounts_activate engine specs previous hservice
        (fun spec hspec => (mem_newcomers.mp hspec).1)
        (release engine service handle specs previous r.engine).1.1
        (release engine service handle specs previous r.engine).2 (log ++ first)
      refine ⟨first ++ second, ?_, ?_⟩
      · dsimp only
        rw [converge_eq, converge_eq, logged_engine, ← List.append_assoc]
        dsimp only
        rw [heq]
        dsimp only
        rw [heq']
        rfl
      · dsimp only
        rw [Report.leaves_ofFaults, converge_eq, engineFaults_append]
        exact List.rel_append htold htold'

end Endpoints

end Roster
end VipSteering
