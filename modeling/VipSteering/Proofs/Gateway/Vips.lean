import VipSteering.Proofs.Gateway.Recorded

namespace VipSteering.Gateway

open Balancer Roster Host

variable {settings : Settings} {g : Gateway Host}

/-- The host holds a flow of a service on record. -/
def HasFlow (name : String) (g : Gateway Host) : Prop :=
  name ∈ g.services ∧ ∃ (key : String) (e : FlowEntry),
    g.engine.host.hashing.flows[key]? = some e ∧ e.target = name

/-- The call has a flow to set or to delete. -/
def Touches (g : Gateway Host) : Call → Prop
  | .setServices specs => ∃ name ∈ g.staleServices specs, HasFlow name g
  | .setFlows specs => (∃ key, key ∈ g.flows) ∨ ∃ key, WantedFlow specs g key
  | .setEndpoints .. => False

theorem dropFlows_current (h : MatchedOn settings ReadableWithSets g)
    (hc : Consistent (Balancer.engine settings) g) {keys : List String}
    (hnil : (attemptAll (dropFlow (Balancer.engine settings)) keys g).1 = []) :
    Current (attemptAll (dropFlow (Balancer.engine settings)) keys g).2.engine.host ↔
      Current g.engine.host ∨ ∃ key ∈ keys, key ∈ g.flows := by
  refine attemptAll_iff (P := fun r : Gateway Host => Current r.engine.host)
    (T := fun (key : String) (r : Gateway Host) => key ∈ r.flows)
    (I := fun r => MatchedOn settings ReadableWithSets r ∧ Consistent (Balancer.engine settings) r)
    (fun key _ r hr =>
      ⟨dropFlow_matchedOn (flowInvariant_readableWithSets _) hr.1 key, dropFlow_consistent hr.2 key⟩)
    (fun key _ r hr hok hmem => ?_) (fun key _ r hr hok hnot => ?_) ⟨h, hc⟩ hnil
  · obtain ⟨spec, hspec⟩ := exists_of_mem hmem
    obtain ⟨l, hl⟩ := exists_of_mem (hr.2.served key spec hspec)
    rw [dropFlow_flow hspec hl] at hok ⊢
    exact (deleteFlow_flowOutcome (hr.1.program hl) hr.1.host.1 hr.1.host.2 spec.key).current
      (mapError_eq_ok.mp (mapError_eq_ok.mp hok))
  · rw [dropFlow_eq, Std.ExtTreeMap.getElem?_eq_none hnot]
    exact ⟨Iff.rfl, fun _ => Iff.rfl⟩

theorem putFlows_current (h : MatchedOn settings ReadableWithSets g) {specs : List FlowSpec}
    (hserved : ∀ spec ∈ specs, spec.service ∈ g.services)
    (hnil : (attemptAll (putFlow (Balancer.engine settings)) specs g).1 = []) :
    Current (attemptAll (putFlow (Balancer.engine settings)) specs g).2.engine.host ↔
      Current g.engine.host ∨ ∃ spec ∈ specs, True := by
  refine attemptAll_iff (P := fun r : Gateway Host => Current r.engine.host) (T := fun _ _ => True)
    (I := fun r => MatchedOn settings ReadableWithSets r ∧ r.services = g.services)
    (fun spec _ r hr => ⟨putFlow_matchedOn (flowInvariant_readableWithSets _) hr.1 spec,
      (putFlow_services _ spec r).trans hr.2⟩)
    (fun spec hmem r hr hok _ => ?_) (fun _ _ _ _ _ hnot => absurd trivial hnot) ⟨h, rfl⟩ hnil
  obtain ⟨l, hl⟩ := exists_of_mem (hserved spec hmem)
  rw [← hr.2] at hl
  rw [putFlow_flow hl (hr.1.matched.sound.name (hr.1.registered hl))] at hok ⊢
  exact (addFlow_flowOutcome (hr.1.program hl) hr.1.host.1 hr.1.host.2 spec.service spec.flow).current
    (mapError_eq_ok.mp (mapError_eq_ok.mp hok))

theorem setFlows_current (h : MatchedOn settings ReadableWithSets g)
    (hc : Consistent (Balancer.engine settings) g) {specs : List FlowSpec}
    (hok : (setFlows (Balancer.engine settings) specs g).1 = .ok ()) :
    Current (setFlows (Balancer.engine settings) specs g).2.engine.host ↔
      Current g.engine.host ∨ Touches g (.setFlows specs) := by
  rw [setFlows_eq] at hok ⊢
  obtain ⟨hdropnil, hputnil⟩ := List.append_eq_nil_iff.mp (Report.ofFaults_eq_ok.mp hok)
  have hdropped : MatchedOn settings ReadableWithSets
      (attemptAll (dropFlow (Balancer.engine settings)) (g.staleFlows specs) g).2 ∧
      (attemptAll (dropFlow (Balancer.engine settings)) (g.staleFlows specs) g).2.services =
        g.services :=
    attemptAll_keeps (P := fun r => MatchedOn settings ReadableWithSets r ∧ r.services = g.services)
      (fun key _ r hr => ⟨dropFlow_matchedOn (flowInvariant_readableWithSets _) hr.1 key,
        (dropFlow_services _ key r).trans hr.2⟩) ⟨h, rfl⟩
  have hserved (spec : FlowSpec) (hmem : spec ∈ (byKey g specs).values) :
      spec.service ∈ (attemptAll (dropFlow (Balancer.engine settings)) (g.staleFlows specs)
        g).2.services := by
    rw [hdropped.2]
    exact (of_mem_byKey_values hmem).2
  have hwanted : (∃ spec ∈ (byKey g specs).values, True) ↔ ∃ key, key ∈ byKey g specs := by
    constructor
    · intro hgiven
      obtain ⟨spec, hmem, -⟩ := hgiven
      exact ⟨spec.key, exists_mem_byKey.mp ⟨spec, hmem, rfl⟩⟩
    · intro hgiven
      obtain ⟨key, hkey⟩ := hgiven
      obtain ⟨spec, hmem, -⟩ := exists_mem_byKey.mpr hkey
      exact ⟨spec, hmem, trivial⟩
  refine (putFlows_current hdropped.1 hserved hputnil).trans ?_
  rw [dropFlows_current h hc hdropnil, hwanted, or_assoc]
  refine or_congr_right ?_
  simp only [Touches, WantedFlow, ← mem_byKey, mem_staleFlows]
  constructor
  · intro hgiven
    rcases hgiven with ⟨key, -, hknown⟩ | hkey
    · exact .inl ⟨key, hknown⟩
    · exact .inr hkey
  · intro hgiven
    rcases hgiven with ⟨key, hknown⟩ | hkey
    · by_cases hkey : key ∈ byKey g specs
      · exact .inr ⟨key, hkey⟩
      · exact .inl ⟨key, ⟨hknown, hkey⟩, hknown⟩
    · exact .inr hkey

theorem dropService_current (h : MatchedOn settings ReadableWithSets g) {name : String}
    (hok : (dropService (Balancer.engine settings) name g).1 = .ok ()) :
    (HasFlow name g → Current (dropService (Balancer.engine settings) name g).2.engine.host) ∧
    (¬ HasFlow name g →
      Alike g.engine.host (dropService (Balancer.engine settings) name g).2.engine.host ∧
      (dropService (Balancer.engine settings) name g).2.services = g.services.erase name) := by
  rw [dropService_eq, engine_deleteService] at hok ⊢
  dsimp only at hok ⊢
  cases hl : g.services[name]? with
  | none =>
    have hn : g.engine.registered[name]? = none := by rw [← h.matched.services]; exact hl
    rw [deleteService_absent settings hn]
    exact ⟨fun hflow => absurd hflow.1 (not_mem_of_getElem? hl), fun _ => ⟨.refl _, rfl⟩⟩
  | some l =>
    obtain ⟨host, hbefore, hafter, hdone⟩ := deleteService_host (h.program hl) (h.registered hl)
    cases hres : (deleteService settings name g.engine).1 with
    | error report => simp [hres] at hok
    | ok _ =>
      have hreadable : AllReadable host.hashing.flows := by rw [hbefore.flows]; exact h.host.1
      have hown : Classifier.HoldsOwnFamily host.tables := by rw [hbefore.tables]; exact h.host.2
      obtain ⟨hsome, hnone⟩ := deleteFlows_current (h.program hl) hreadable hown (hdone hres)
      rw [hbefore.flows] at hsome hnone
      refine ⟨fun hflow => ?_, fun hnot => ⟨?_, rfl⟩⟩
      · have hcurrent := hsome hflow.2
        rwa [Current, ← hafter.tables, ← hafter.flows] at hcurrent
      · exact hbefore.trans ((hnone fun hflow => hnot ⟨mem_of_getElem? hl, hflow⟩).trans hafter)

theorem dropServices_current (h : MatchedOn settings ReadableWithSets g) {names : List String}
    (hnil : (attemptAll (dropService (Balancer.engine settings)) names g).1 = []) :
    Current (dropped settings names g).engine.host ↔
      Current g.engine.host ∨ ∃ name ∈ names, HasFlow name g := by
  refine attemptAll_iff (P := fun r : Gateway Host => Current r.engine.host) (T := HasFlow)
    (I := MatchedOn settings ReadableWithSets)
    (fun name _ r hr => dropService_matchedOn (flowInvariant_readableWithSets _) hr name)
    (fun name _ r hr hok => (dropService_current hr hok).1)
    (fun name _ r hr hok hnot => ?_) h hnil
  obtain ⟨halike, hservices⟩ := (dropService_current hr hok).2 hnot
  refine ⟨current_congr halike, fun other => ?_⟩
  simp only [HasFlow, hservices, halike.flows, mem_erase_iff]
  constructor
  · intro hgiven
    exact ⟨hgiven.1.1, hgiven.2⟩
  · intro hgiven
    exact ⟨⟨hgiven.1, fun heq => hnot (heq ▸ hgiven)⟩, hgiven.2⟩

theorem setServices_current (h : MatchedOn settings ReadableWithSets g) {specs : List ServiceSpec}
    (hok : (setServices (Balancer.engine settings) specs g).1 = .ok ()) :
    Current (setServices (Balancer.engine settings) specs g).2.engine.host ↔
      Current g.engine.host ∨ Touches g (.setServices specs) := by
  have hnil : (attemptAll (dropService (Balancer.engine settings)) (g.staleServices specs) g).1 =
      [] := by
    rw [setServices_eq] at hok
    dsimp only at hok
    split at hok
    · cases hok
    · exact Report.ofFaults_eq_ok.mp hok
  obtain ⟨-, halike⟩ := addServices_alike settings (byName specs).values
    (forgetFlows (dropped settings (g.staleServices specs) g))
  rw [setServices_state]
  exact (current_congr halike).trans (dropServices_current h hnil)

/-- After a call that reports success the sets are up to date exactly if they were before, or if the
call had a flow to set or to delete. -/
theorem Call.perform_current (h : MatchedOn settings ReadableWithSets g)
    (hc : Consistent (Balancer.engine settings) g) {c : Call}
    (hok : (c.perform (Balancer.engine settings) g).1 = .ok ()) :
    Current (c.perform (Balancer.engine settings) g).2.engine.host ↔
      Current g.engine.host ∨ Touches g c := by
  cases c with
  | setServices specs => exact setServices_current h hok
  | setFlows specs => exact setFlows_current h hc hok
  | setEndpoints service specs =>
    exact (current_congr (setEndpoints_alike h service specs)).trans (or_false _).symm.to_iff

/-- A call that changes the destinations of a family whose set is blocked. -/
def Misses (settings : Settings) (g : Gateway Host) : Step → Prop
  | .call c => ∃ family, Blocked settings.program g.engine.host family ∧
    ∃ a : Address, a.family = family ∧
      ¬ (Destined (c.perform (Balancer.engine settings) g).2.engine.host.hashing.flows a ↔
        Destined g.engine.host.hashing.flows a)
  | .disturb _ => False

theorem Call.perform_misses (h : MatchedOn settings ReadableWithSets g)
    (hcurrent : Current g.engine.host)
    (c : Call) : Current (c.perform (Balancer.engine settings) g).2.engine.host ↔
      ¬ Misses settings g (.call c) := by
  have hfollowed := c.perform_matchedOn (flowInvariant_setsFollow settings.program g.engine.host)
    (h.mono ⟨h.host, .refl hcurrent⟩)
  rw [hfollowed.host.2.current_iff hcurrent]
  simp only [Misses, not_exists, not_and, not_not]

theorem Step.apply_current (h : MatchedOn settings ReadableWithSets g)
    (hcurrent : Current g.engine.host)
    (step : Step) : Current (step.event.apply (Balancer.engine settings) g).engine.host ↔
      ¬ Misses settings g step := by
  cases step with
  | call c => exact c.perform_misses h hcurrent
  | disturb d =>
    obtain ⟨faults, heq⟩ := d.apply_frame g.engine.host
    refine iff_of_true ?_ id
    change Current (d.apply g.engine.host)
    rw [heq]
    exact hcurrent

section Runs

variable {setup : Setup} {host : Host}
  (hsetup : (setUp settings : StateM Host _) { } = (.ok setup, host))

include hsetup

theorem afterSteps_readableWithSets (steps : List Step) :
    MatchedOn settings ReadableWithSets (afterSteps settings steps host) := by
  have hmirrored := (setUp_settled hsetup 0).mirrored
  exact afterSteps_matchedOn (flowInvariant_readableWithSets settings.program)
    (fun _ _ h => ⟨h.1, h.2⟩)
    ⟨hmirrored.readable, Classifier.Holds.ownFamily hmirrored.vips⟩ steps

/-- On a host that has been set up the sets are up to date at all times exactly if no call changes
destinations that a set cannot follow. If some call did, the sets are up to date after a call that
reports success exactly if they were before, or if that call had a flow to set or to delete. -/
theorem afterSteps_current (steps : List Step) :
    ((∀ prior, prior <+: steps → Current (afterSteps settings prior host).engine.host) ↔
      ∀ prior step, prior ++ [step] <+: steps →
        ¬ Misses settings (afterSteps settings prior host) step) ∧
    ∀ c : Call, (c.perform (Balancer.engine settings) (afterSteps settings steps host)).1 = .ok () →
      (Current (c.perform (Balancer.engine settings)
          (afterSteps settings steps host)).2.engine.host ↔
        Current (afterSteps settings steps host).engine.host ∨
          Touches (afterSteps settings steps host) c) := by
  refine ⟨prefixes_iff (setUp_settled hsetup 0).mirrored.vips
    (fun prior step hcurrent => ?_) steps, fun c hok => ?_⟩
  · rw [afterSteps_snoc]
    exact Step.apply_current (afterSteps_readableWithSets hsetup prior) hcurrent step
  · exact Call.perform_current (afterSteps_readableWithSets hsetup steps)
      (afterSteps_consistent settings steps host) hok

end Runs

/-- A service gets a flow. -/
def flowRun : List Step := [.call (.setServices [⟨"svc-a", 10⟩]), .call (.setFlows [webFlow])]

theorem flowRun_current : ∃ setup host, (setUp { } : StateM Host _) { } = (.ok setup, host) ∧
    ((∀ prior, prior <+: flowRun → Current (afterSteps { } prior host).engine.host) ↔
      ∀ prior step, prior ++ [step] <+: flowRun →
        ¬ Misses { } (afterSteps { } prior host) step) ∧
    ∀ c : Call, (c.perform (Balancer.engine { }) (afterSteps { } flowRun host)).1 = .ok () →
      (Current (c.perform (Balancer.engine { }) (afterSteps { } flowRun host)).2.engine.host ↔
        Current (afterSteps { } flowRun host).engine.host ∨
          Touches (afterSteps { } flowRun host) c) := by
  obtain ⟨setup, tables, journal, hsetup⟩ := setUp_default
  exact ⟨_, _, hsetup, afterSteps_current hsetup flowRun⟩

/-- Services can be deleted on a host that refuses nothing, whatever it refused before. -/
theorem setServices_nil_ok (h : MatchedOn settings ReadableWithSets g)
    (hf : g.engine.host.faults = []) :
    (setServices (Balancer.engine settings) [] g).1 = .ok () := by
  have hinvariant := (flowInvariant_readableWithSets settings.program).and
    (flowInvariant_faults settings.program [])
  have hnil :
      (attemptAll (dropService (Balancer.engine settings)) (g.staleServices []) g).1 = [] := by
    refine attemptAll_eq_nil
      (I := MatchedOn settings fun host => ReadableWithSets host ∧ host.faults = [])
      (fun name _ r hr => ⟨?_, dropService_matchedOn hinvariant hr name⟩) (h.mono ⟨h.host, hf⟩)
    have hok : (deleteService settings name r.engine).1 = .ok () := by
      cases hl : r.services[name]? with
      | none => rw [deleteService_absent settings (by rw [← hr.matched.services]; exact hl)]
      | some l =>
        exact deleteService_ok (hr.program hl) (hr.registered hl) hr.host.2 hr.host.1.1 hr.host.1.2
    rw [dropService_eq, engine_deleteService]
    simp only [hok]
  rw [setServices_eq]
  simp only [hnil]
  rfl

/-- Once the flows are gone, sets that are not up to date stay so, though `setServices` reports
success. -/
theorem setServices_leaves_stale (h : MatchedOn settings ReadableWithSets g)
    (hf : g.engine.host.faults = [])
    (hnone : ∀ key, key ∉ g.engine.host.hashing.flows) (hstale : ¬ Current g.engine.host) :
    (setServices (Balancer.engine settings) [] g).1 = .ok () ∧
      ¬ Current (setServices (Balancer.engine settings) [] g).2.engine.host := by
  have hok := setServices_nil_ok h hf
  refine ⟨hok, fun hcurrent => ?_⟩
  rcases (setServices_current h hok).mp hcurrent with hbefore | ⟨name, -, -, key, e, hget, -⟩
  · exact hstale hbefore
  · exact hnone key (mem_of_getElem? hget)

/-- The flows of a service go with it, or before it. -/
theorem setServices_nil_flows (h : MatchedOn settings ReadableWithSets g) {name : String}
    (hkeys : g.services.keys = [name]) {key : String} {e : FlowEntry}
    (hget : (setServices (Balancer.engine settings) [] g).2.engine.host.hashing.flows[key]? =
      some e) : g.engine.host.hashing.flows[key]? = some e ∧ (e.target = name →
        g.engine.host.Refuses (Flow.listCommand settings.program) ∨
          g.engine.host.Refuses (Flow.deleteCommand settings.program key)) := by
  have hmem : name ∈ g.services := by
    rw [← Std.ExtTreeMap.mem_keys, hkeys]
    exact List.mem_singleton_self name
  obtain ⟨l, hl⟩ := exists_of_mem hmem
  have hstale : g.staleServices [] = [name] := by
    rw [staleServices, hkeys]
    rfl
  have hstate : (setServices (Balancer.engine settings) [] g).2.engine.host =
      (deleteService settings name g.engine).2.host := by
    have hvalues : (byName []).values = [] := rfl
    rw [setServices_state, hstale, hvalues, addServices_nil, dropped, attemptAll_cons]
    change (dropService (Balancer.engine settings) name g).2.engine.host = _
    rw [dropService_eq, engine_deleteService]
    dsimp only
    cases (deleteService settings name g.engine).1 <;> rfl
  rw [hstate] at hget
  exact (deleteService_held (h.program hl) (h.registered hl) h.host.1 key e).mp hget

/-- If a service goes with its flows while scripts are refused, the sets keep its addresses. -/
theorem setServices_misses (h : MatchedOn settings ReadableWithSets g)
    (hcurrent : Current g.engine.host)
    {name : String} (hkeys : g.services.keys = [name]) {a : Address}
    (hdestined : Destined g.engine.host.hashing.flows a)
    (hscripts : Classifier.RefusesScripts g.engine.host)
    (hlist : ¬ g.engine.host.Refuses (Flow.listCommand settings.program))
    (hflows : ∀ (key : String) (e : FlowEntry), g.engine.host.hashing.flows[key]? = some e →
      e.target = name ∧ ¬ g.engine.host.Refuses (Flow.deleteCommand settings.program key)) :
    let left := (setServices (Balancer.engine settings) [] g).2
    (∀ key, key ∉ left.engine.host.hashing.flows) ∧ ¬ Current left.engine.host := by
  have hnone (key : String) :
      key ∉ (setServices (Balancer.engine settings) [] g).2.engine.host.hashing.flows := by
    intro hmem
    obtain ⟨e, hget⟩ := exists_of_mem hmem
    obtain ⟨hbefore, hrefused⟩ := setServices_nil_flows h hkeys hget
    obtain ⟨htarget, hacc⟩ := hflows key e hbefore
    rcases hrefused htarget with href | href
    · exact hlist href
    · exact hacc href
  refine ⟨hnone, fun hafter => ?_⟩
  refine (Call.perform_misses h hcurrent (.setServices [])).mp hafter
    ⟨a.family, .inr (.inr hscripts), a, rfl, fun hsame => ?_⟩
  obtain ⟨key, e, hget, -⟩ := hsame.mpr hdestined
  exact hnone key (mem_of_getElem? hget)

/-- A service with flows goes while scripts are refused, and its deletion is repeated when nothing is
refused any more: it succeeds, and the sets keep the addresses. -/
theorem setServices_keeps_stale {steps : List Step} {host : Host}
    (h : MatchedOn settings ReadableWithSets (afterSteps settings steps host))
    (hf : (afterSteps settings steps host).engine.host.faults = [])
    (hcurrent : Current (afterSteps settings steps host).engine.host) {name : String}
    (hkeys : (afterSteps settings steps host).services.keys = [name]) {a : Address}
    (hdestined : Destined (afterSteps settings steps host).engine.host.hashing.flows a)
    {pattern : String} (hscripts : Text.occursIn pattern (Classifier.script "").line = true)
    (hlist : Text.occursIn pattern (Flow.listCommand settings.program).line = false)
    (hflows : ∀ (key : String) (e : FlowEntry),
      (afterSteps settings steps host).engine.host.hashing.flows[key]? = some e → e.target = name ∧
        Text.occursIn pattern (Flow.deleteCommand settings.program key).line = false) :
    let g := afterSteps settings (steps ++ [.disturb (.failOn pattern)] ++
      [.call (.setServices [])] ++ [.disturb .clear]) host
    (setServices (Balancer.engine settings) [] g).1 = .ok () ∧
      ¬ Current (setServices (Balancer.engine settings) [] g).2.engine.host := by
  rw [afterSteps_disturb, afterSteps_setServices, afterSteps_disturb]
  generalize afterSteps settings steps host = g at *
  have hrefuses (c : Command) : ((Disturbance.failOn pattern).apply g.engine.host).isFaulty c.line =
      Text.occursIn pattern c.line := by
    simp [Disturbance.apply, isFaulty, failOn, hf]
  have hrefusing := h.congr g.flows (h.host.disturb (.failOn pattern))
  obtain ⟨hnone, hstale⟩ := setServices_misses hrefusing hcurrent hkeys hdestined
    ((hrefuses _).trans hscripts) (ne_true_of_eq_false ((hrefuses _).trans hlist))
    fun key e hget =>
      ⟨(hflows key e hget).1, ne_true_of_eq_false ((hrefuses _).trans (hflows key e hget).2)⟩
  have hleft : MatchedOn settings ReadableWithSets _ :=
    setServices_matchedOn (flowInvariant_readableWithSets _) hrefusing []
  exact setServices_leaves_stale (hleft.congr _ (hleft.host.disturb .clear)) rfl hnone hstale

theorem flowRun_served {tables : FilterTables} {journal : List Command} {setup : Setup}
    (hsetup : (setUp { } : StateM Host _) { } = (.ok setup, { tables, journal })) :
    let g := afterSteps { } flowRun { tables, journal }
    g.services.keys = ["svc-a"] ∧ g.engine.host.faults = [] ∧ Current g.engine.host ∧
      Destined g.engine.host.hashing.flows (.v4 0x14000001#32) ∧
      ∀ (key : String) (e : FlowEntry), g.engine.host.hashing.flows[key]? = some e →
        key = webFlow.key ∧ e.target = "svc-a" := by
  have hkeys : (afterSteps { } (flowRun.take 1) { tables, journal }).services.keys = ["svc-a"] := by
    cbv
  have hempty : (afterSteps { } (flowRun.take 1) { tables, journal }).flows.isEmpty = true := by
    cbv
  have hlive : AllLive (fresh ({ tables, journal } : Host)) := by
    intro name l es hl
    simp [fresh] at hl
  have hp : Text.endsWith "nfqlb" ({ } : Settings).program = true := by decide
  have hcalls : List.map Event.call [.setServices [⟨"svc-a", 10⟩], .setFlows [webFlow]] =
      flowRun.map Step.event := rfl
  have hsettled := (run_settled hp (setUp_settled hsetup _) hlive
    [.setServices [⟨"svc-a", 10⟩], .setFlows [webFlow]]).1
  have hlast : afterSteps { } flowRun { tables, journal } = (setFlows (Balancer.engine { }) [webFlow]
      (afterSteps { } (flowRun.take 1) { tables, journal })).2 :=
    afterSteps_setFlows { } (flowRun.take 1) [webFlow] { tables, journal }
  rw [hcalls, ← afterSteps] at hsettled
  have hmatched := afterSteps_readableWithSets hsetup (flowRun.take 1)
  have hconsistent := afterSteps_consistent { } (flowRun.take 1) { tables, journal }
  rw [hlast] at hsettled ⊢
  generalize afterSteps { } (flowRun.take 1) { tables, journal } = g at *
  have hserved : webFlow.service ∈ g.services := by
    rw [← Std.ExtTreeMap.mem_keys, hkeys]
    exact List.mem_singleton_self _
  have hknown (key : String) (spec : FlowSpec)
      (hget : (setFlows (Balancer.engine { }) [webFlow] g).2.flows[key]? = some spec) :
      spec = webFlow := by
    rcases of_getElem?_setFlows _ hget with hmem | hbefore
    · exact List.mem_singleton.mp hmem
    · rw [Std.ExtTreeMap.isEmpty_iff.mp hempty] at hbefore
      simp at hbefore
  have hrecord : (setFlows (Balancer.engine { }) [webFlow] g).2.flows[webFlow.key]? =
      some webFlow := by
    obtain ⟨spec, hspec⟩ := exists_of_mem ((setFlows_record (flowInvariant_readableWithSets _)
      hmatched hconsistent [webFlow] webFlow.key).mpr
      ⟨webFlow, List.mem_singleton_self _, hserved, rfl⟩)
    rw [hspec, hknown _ spec hspec]
  have hflows := hsettled.flows_eq hsettled.served
  refine ⟨(setFlows_services _ _ g).symm ▸ hkeys, hsettled.mirrored.faults, hsettled.mirrored.vips,
    ⟨webFlow.key, Maglev.entryOf webFlow.service webFlow.flow, ?_, "20.0.0.1/32", ?_, ?_⟩,
    fun key e hget => ?_⟩
  · rw [hflows, hrecord]
    rfl
  · decide
  · cbv
  · rw [hflows, Option.map_eq_some_iff] at hget
    obtain ⟨spec, hspec, rfl⟩ := hget
    obtain rfl := hknown key spec hspec
    exact ⟨(hsettled.keys hspec).symm, rfl⟩

/-- The sets cannot be altered when service and flow go, but they can be later. -/
def staleRun : List Step :=
  flowRun ++ [.disturb (.failOn "nft -f"), .call (.setServices []), .disturb .clear]

theorem staleRun_leaves_stale : ∃ setup host, (setUp { } : StateM Host _) { } = (.ok setup, host) ∧
    let g := afterSteps { } staleRun host
    (setServices (Balancer.engine { }) [] g).1 = .ok () ∧
      ¬ Current (setServices (Balancer.engine { }) [] g).2.engine.host := by
  obtain ⟨setup, tables, journal, hsetup⟩ := setUp_default
  refine ⟨_, _, hsetup, ?_⟩
  obtain ⟨hkeys, hfaults, hcurrent, hdestined, hflows⟩ := flowRun_served hsetup
  have hmatched := afterSteps_readableWithSets hsetup flowRun
  have hsteps : staleRun = flowRun ++ [.disturb (.failOn "nft -f")] ++
      [.call (.setServices [])] ++ [.disturb .clear] := rfl
  rw [hsteps]
  refine setServices_keeps_stale hmatched hfaults hcurrent hkeys hdestined (by cbv) (by cbv)
    fun key e hget => ?_
  obtain ⟨rfl, htarget⟩ := hflows key e hget
  exact ⟨htarget, by cbv⟩

end VipSteering.Gateway
