import VipSteering.Proofs.Gateway.Snapshot
import VipSteering.Proofs.Gateway.Strays

namespace VipSteering

/-- The name of the second goes on from that of the first with what the service of the first begins
with. -/
def FlowSpec.Confusable (f g : FlowSpec) : Prop :=
  ∃ m, g.name = f.name ++ "." ++ m ∧ f.service = m ++ "." ++ g.service

theorem dot_cons_eq_append {rest rest' middle : List Char} :
    '.' :: rest = middle ++ '.' :: rest' ↔
      (middle = [] ∧ rest = rest') ∨ ∃ m, middle = '.' :: m ∧ rest = m ++ '.' :: rest' := by
  rw [List.cons_eq_append_iff]
  simp only [List.cons.injEq, true_and, eq_comm (a := rest')]

/-- If one text is the beginning of the other, the services differ by what the names differ by. -/
theorem flowKey_eq_of_append {name service name' service' : String} {middle : List Char}
    (hname : name'.toList = name.toList ++ middle)
    (hrest : '.' :: service.toList = middle ++ '.' :: service'.toList) :
    (name = name' ∧ service = service') ∨
      ∃ m, name' = name ++ "." ++ m ∧ service = m ++ "." ++ service' := by
  rcases dot_cons_eq_append.mp hrest with ⟨rfl, hsame⟩ | ⟨m, rfl, hservice⟩
  · rw [List.append_nil] at hname
    exact .inl ⟨String.toList_injective hname.symm, String.toList_injective hsame⟩
  · refine .inr ⟨String.ofList m, String.toList_injective ?_, String.toList_injective ?_⟩
    · simpa using hname
    · simpa using hservice

/-- A dot joins two texts so that they can be told apart again, unless one of the names goes on with
what the other service begins with. -/
theorem FlowSpec.key_eq_iff {f g : FlowSpec} :
    f.key = g.key ↔ (f.name = g.name ∧ f.service = g.service) ∨ f.Confusable g ∨ g.Confusable f := by
  constructor
  · intro heq
    have hlists : f.name.toList ++ '.' :: f.service.toList =
        g.name.toList ++ '.' :: g.service.toList := by
      have := congrArg String.toList heq
      simpa [key, flowKey] using this
    rcases List.append_eq_append_iff.mp hlists with ⟨middle, hname, hrest⟩ | ⟨middle, hname, hrest⟩
    · rcases flowKey_eq_of_append hname hrest with hsame | hconfused
      · exact .inl hsame
      · exact .inr (.inl hconfused)
    · rcases flowKey_eq_of_append hname hrest with hsame | hconfused
      · exact .inl ⟨hsame.1.symm, hsame.2.symm⟩
      · exact .inr (.inr hconfused)
  · rw [key, key, flowKey, flowKey]
    rintro (⟨hname, hservice⟩ | ⟨m, hname, hservice⟩ | ⟨m, hname, hservice⟩)
    · rw [hname, hservice]
    · rw [hname, hservice]
      simp only [String.append_assoc]
    · rw [hname, hservice]
      simp only [String.append_assoc]

/-- Flows with one name cannot be confused. -/
theorem FlowSpec.Confusable.name_ne {f g : FlowSpec} (h : f.Confusable g) : f.name ≠ g.name := by
  intro hsame
  obtain ⟨m, hname, -⟩ := h
  rw [← hsame] at hname
  have hlength := congrArg String.length hname
  have hdot : ".".length = 1 := rfl
  rw [String.length_append, String.length_append, hdot] at hlength
  omega

namespace Roster

section Record

variable {σ H : Type} {r : Roster H σ} {specs : List FlowSpec}
  (hserved : ∀ spec ∈ specs, spec.service ∈ r.services)
  (hapart : ∀ f ∈ specs, ∀ g ∈ specs, f.key = g.key → f = g)

include hserved hapart

theorem getElem?_byKey {spec : FlowSpec} (hspec : spec ∈ specs) :
    (byKey r specs)[spec.key]? = some spec := by
  obtain ⟨other, hget⟩ := exists_of_mem (mem_byKey.mpr ⟨spec, hspec, hserved spec hspec, rfl⟩)
  have hother := (of_mem_byKey_values (mem_values.mpr ⟨spec.key, hget⟩)).1
  rw [hget, hapart other hother spec hspec (key_of_getElem?_byKey hget)]

/-- There are as many flows on record as were asked for. -/
theorem size_byKey (hdistinct : specs.Nodup) : (byKey r specs).size = specs.length := by
  have hkeys : (specs.map (·.key)).Nodup :=
    List.Nodup.map_on (fun f hf g hg heq => hapart f hf g hg heq) hdistinct
  have hperm : (byKey r specs).keys.Perm (specs.map (·.key)) := by
    refine (List.perm_ext_iff_of_nodup Std.ExtTreeMap.nodup_keys hkeys).mpr fun key => ?_
    rw [Std.ExtTreeMap.mem_keys, mem_byKey, List.mem_map]
    constructor
    · rintro ⟨spec, hspec, -, hkey⟩
      exact ⟨spec, hspec, hkey⟩
    · rintro ⟨spec, hspec, hkey⟩
      exact ⟨spec, hspec, hserved spec hspec, hkey⟩
  rw [← Std.ExtTreeMap.length_keys, hperm.length_eq, List.length_map]

end Record

end Roster

namespace Gateway

open Balancer Roster Host

variable {settings : Settings} {P : Host → Prop} {g : Gateway Host}

/-- If `setFlows` reports success, the host holds every flow that is on record then. -/
theorem setFlows_entries (h : MatchedOn settings P g) {specs : List FlowSpec}
    (hok : (setFlows (Balancer.engine settings) specs g).1 = .ok ()) {key : String}
    {spec : FlowSpec}
    (hspec : (setFlows (Balancer.engine settings) specs g).2.flows[key]? = some spec) :
    (setFlows (Balancer.engine settings) specs g).2.engine.host.hashing.flows[key]? =
      some (Maglev.entryOf spec.service spec.flow) := by
  obtain ⟨l, hl⟩ := exists_of_mem (setFlows_served hspec)
  have hheld := (setFlows_placed hok hspec hl).2
  rwa [h.matched.sound.name (h.registered hl)] at hheld

/-- Each flow of the list is on record, and the host holds it for its own service; and no others are
on record. -/
structure OneEach (specs : List FlowSpec) (g : Gateway Host) : Prop where
  recorded : ∀ spec ∈ specs, g.flows[spec.key]? = some spec
  held : ∀ spec ∈ specs, g.engine.host.hashing.flows[spec.key]? =
    some (Maglev.entryOf spec.service spec.flow)
  size : g.flows.size = specs.length

/-- Two flows that go by one key cannot both be on record. -/
theorem OneEach.apart {specs : List FlowSpec} (h : OneEach specs g) {f f' : FlowSpec}
    (hf : f ∈ specs) (hf' : f' ∈ specs) (hkey : f.key = f'.key) : f = f' := by
  have hsame := h.recorded f hf
  rw [hkey, h.recorded f' hf'] at hsame
  exact (Option.some.inj hsame).symm

/-- Whatever has happened to a gateway: if flows of services on record, of which no two have both
names in common, are set without a fault, there is one of each exactly if no two of them can be
confused. -/
theorem setFlows_one_each (settings : Settings) (steps : List Step) (host : Host)
    {specs : List FlowSpec}
    (hserved : ∀ spec ∈ specs, spec.service ∈ (afterSteps settings steps host).services)
    (hnames : (specs.map fun spec => (spec.name, spec.service)).Nodup)
    (hok : (setFlows (Balancer.engine settings) specs (afterSteps settings steps host)).1 =
      .ok ()) :
    OneEach specs
        (setFlows (Balancer.engine settings) specs (afterSteps settings steps host)).2 ↔
      ∀ f ∈ specs, ∀ f' ∈ specs, ¬ f.Confusable f' := by
  constructor
  · intro heach f hf f' hf' hconfusable
    have hsame := heach.apart hf hf' (FlowSpec.key_eq_iff.mpr (.inr (.inl hconfusable)))
    exact hconfusable.name_ne (congrArg FlowSpec.name hsame)
  · intro hapart
    have hkeys : ∀ f ∈ specs, ∀ f' ∈ specs, f.key = f'.key → f = f' := by
      intro f hf f' hf' hkey
      rcases FlowSpec.key_eq_iff.mp hkey with hsame | hconfusable | hconfusable
      · exact List.inj_on_of_nodup_map hnames hf hf' (Prod.ext hsame.1 hsame.2)
      · exact absurd hconfusable (hapart f hf f' hf')
      · exact absurd hconfusable (hapart f' hf' f hf)
    have hrecorded : ∀ spec ∈ specs, (setFlows (Balancer.engine settings) specs
        (afterSteps settings steps host)).2.flows[spec.key]? = some spec := by
      intro spec hspec
      rw [setFlows_flows]
      exact getElem?_byKey hserved hkeys hspec
    refine ⟨hrecorded, fun spec hspec => ?_, ?_⟩
    · exact setFlows_entries (afterSteps_matchedOn_trivial settings steps host) hok
        (hrecorded spec hspec)
    · rw [setFlows_flows]
      exact size_byKey hserved hkeys hnames.of_map

/-- The flow with other names. -/
def webFlowNamed (name service : String) : FlowSpec := { webFlow with name, service }

section Named

variable {tables : FilterTables} {journal : List Command} {setup : Setup}
  (hsetup : (setUp { } : StateM Host _) { } = (.ok setup, { tables, journal }))

include hsetup

/-- Flows are set without a fault once services have been set. -/
theorem setFlows_ok_after (services : List ServiceSpec) (specs : List FlowSpec) :
    (setFlows (Balancer.engine { }) specs
      (afterSteps { } [.call (.setServices services)] { tables, journal })).1 = .ok () :=
  setFlows_ok (by decide) (run_setUp hsetup [.setServices services]).1 specs

end Named

/-- One name for the flows of two services. -/
def sharedNames : List FlowSpec := [webFlowNamed "f1" "svc-a", webFlowNamed "f1" "svc-b"]

theorem sharedNames_one_each : ∃ setup host,
    (setUp { } : StateM Host _) { } = (.ok setup, host) ∧
    let g := afterSteps { } [.call (.setServices [⟨"svc-a", 10⟩, ⟨"svc-b", 10⟩])] host
    (∀ spec ∈ sharedNames, spec.service ∈ g.services) ∧
    (sharedNames.map fun spec => (spec.name, spec.service)).Nodup ∧
    (setFlows (Balancer.engine { }) sharedNames g).1 = .ok () ∧
    OneEach sharedNames (setFlows (Balancer.engine { }) sharedNames g).2 := by
  obtain ⟨setup, tables, journal, hsetup⟩ := setUp_default
  have hserved : ∀ spec ∈ sharedNames, spec.service ∈ (afterSteps { }
      [.call (.setServices [⟨"svc-a", 10⟩, ⟨"svc-b", 10⟩])] { tables, journal }).services := by
    simp only [sharedNames, List.forall_mem_cons, Std.ExtTreeMap.mem_iff_contains]
    exact ⟨by cbv, by cbv, by simp⟩
  have hnames : (sharedNames.map fun spec => (spec.name, spec.service)).Nodup := by decide
  have hname : ∀ spec ∈ sharedNames, spec.name = "f1" := by decide
  have hok := setFlows_ok_after hsetup [⟨"svc-a", 10⟩, ⟨"svc-b", 10⟩] sharedNames
  refine ⟨setup, _, hsetup, hserved, hnames, hok, ?_⟩
  refine (setFlows_one_each { } _ _ hserved hnames hok).mpr fun f hf f' hf' hconfusable => ?_
  exact hconfusable.name_ne ((hname f hf).trans (hname f' hf').symm)

/-- The name of a flow and the name of a service have a dot. -/
def dottedNames : List FlowSpec := [webFlowNamed "a.b" "c", webFlowNamed "a" "b.c"]

/-- `setFlows` reports success, but one of the flows is lost. -/
theorem dottedNames_collide : ∃ setup host,
    (setUp { } : StateM Host _) { } = (.ok setup, host) ∧
    let g := afterSteps { } [.call (.setServices [⟨"c", 10⟩, ⟨"b.c", 10⟩])] host
    (∀ spec ∈ dottedNames, spec.service ∈ g.services) ∧
    (dottedNames.map fun spec => (spec.name, spec.service)).Nodup ∧
    (setFlows (Balancer.engine { }) dottedNames g).1 = .ok () ∧
    ¬ OneEach dottedNames (setFlows (Balancer.engine { }) dottedNames g).2 := by
  obtain ⟨setup, tables, journal, hsetup⟩ := setUp_default
  have hserved : ∀ spec ∈ dottedNames, spec.service ∈ (afterSteps { }
      [.call (.setServices [⟨"c", 10⟩, ⟨"b.c", 10⟩])] { tables, journal }).services := by
    simp only [dottedNames, List.forall_mem_cons, Std.ExtTreeMap.mem_iff_contains]
    exact ⟨by cbv, by cbv, by simp⟩
  have hnames : (dottedNames.map fun spec => (spec.name, spec.service)).Nodup := by decide
  have hok := setFlows_ok_after hsetup [⟨"c", 10⟩, ⟨"b.c", 10⟩] dottedNames
  refine ⟨setup, _, hsetup, hserved, hnames, hok, fun heach => ?_⟩
  have hfirst : webFlowNamed "a.b" "c" ∈ dottedNames := by decide
  have hsecond : webFlowNamed "a" "b.c" ∈ dottedNames := by decide
  have hsame := heach.apart hfirst hsecond (by decide)
  exact absurd hsame (by decide)

end Gateway
end VipSteering
