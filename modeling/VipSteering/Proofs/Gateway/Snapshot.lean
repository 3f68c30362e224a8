import VipSteering.Proofs.Gateway.Faithful
import VipSteering.Proofs.Gateway.Recorded
import VipSteering.Proofs.Roster.Apply

namespace VipSteering.Gateway

open Balancer Roster Host

variable {settings : Settings} {setup : Setup} {host : Host} {floor : UInt32} {g : Gateway Host}

/-- A service that cannot be added leaves the balancer as it was. -/
theorem addService_failed {name : String} {slots : UInt32} {b : Balancer Host}
    {fault : Balancer.Fault}
    (he : (Balancer.addService settings name slots b).1 = .error fault) :
    ∃ journal, (Balancer.addService settings name slots b).2 =
      { b with host := { b.host with journal } } := by
  rw [Balancer.addService_eq] at he ⊢
  split at he
  · cases he
  split at he
  · exact ⟨b.host.journal, rfl⟩
  split at he
  · rename_i cause h hran
    have hfailed := run_error (congrArg Prod.fst hran)
    rw [hran] at hfailed
    dsimp only at hfailed
    rw [hfailed]
    exact ⟨_, rfl⟩
  · cases he

/-- A gateway that has got nothing but its host. -/
def Idle (host : Host) (g : Gateway Host) : Prop :=
  ∃ journal, g = fresh { host with journal }

section Idle

variable (hp : ¬ Text.endsWith "nfqlb" settings.program = true)

include hp

theorem addService_idle (h : Idle host g) (spec : ServiceSpec) :
    Idle host (Roster.addService (Balancer.engine settings) spec g).2 := by
  obtain ⟨journal, rfl⟩ := h
  have hnew : spec.name ∉ (fresh { host with journal }).services := Std.ExtTreeMap.not_mem_empty
  have hn : (fresh { host with journal }).engine.registered[spec.name]? = none :=
    Std.ExtTreeMap.getElem?_empty
  rw [Roster.addService_eq, if_neg hnew, engine_addService]
  dsimp only
  cases hadd : (Balancer.addService settings spec.name spec.maxEndpoints
      (fresh { host with journal }).engine).1 with
  | error fault =>
    obtain ⟨journal', hstate⟩ := addService_failed hadd
    rw [hstate]
    exact ⟨journal', rfl⟩
  | ok l => exact absurd (endsWith_of_addService hn hadd) hp

theorem setServices_idle (h : Idle host g) (specs : List ServiceSpec) :
    Idle host (setServices (Balancer.engine settings) specs g).2 := by
  rw [setServices_eq]
  refine addServices_keeps _ (P := Idle host) (fun spec _ _ hr => addService_idle hp hr spec) ?_
  obtain ⟨journal, rfl⟩ := h
  exact ⟨journal, rfl⟩

omit hp in
theorem setFlows_idle (h : Idle host g) (specs : List FlowSpec) :
    setFlows (Balancer.engine settings) specs g = (.ok (), g) := by
  obtain ⟨journal, rfl⟩ := h
  have hwanted : byKey (fresh { host with journal }) specs = ∅ := by
    rw [byKey]
    simp [fresh]
  rw [setFlows_eq, staleFlows, hwanted]
  rfl

omit hp in
theorem setEndpoints_idle (h : Idle host g) (service : String) (specs : List EndpointSpec) :
    (setEndpoints (Balancer.engine settings) service specs g).2 = g := by
  obtain ⟨journal, rfl⟩ := h
  have hn : (fresh { host with journal }).services[service]? = none :=
    Std.ExtTreeMap.getElem?_empty
  rw [setEndpoints_eq, hn]

theorem run_idle (h : Idle host g) (calls : List Call) :
    Idle host (run (Balancer.engine settings) (calls.map .call) g) := by
  induction calls generalizing g with
  | nil => exact h
  | cons c rest ih =>
    refine ih ?_
    cases c with
    | setServices specs => exact setServices_idle hp h specs
    | setFlows specs =>
      change Idle host (setFlows (Balancer.engine settings) specs g).2
      rw [setFlows_idle h]
      exact h
    | setEndpoints service specs =>
      change Idle host (setEndpoints (Balancer.engine settings) service specs g).2
      rw [setEndpoints_idle h]
      exact h

end Idle

theorem Settled.journal (h : Settled floor g) (journal : List Command) :
    Settled floor { g with engine := { g.engine with host := { g.engine.host with journal } } } :=
  ⟨⟨h.matched.congr _ g.flows, ⟨h.mirrored.faults, h.mirrored.segments, h.mirrored.routed,
    h.mirrored.readable, h.mirrored.vips⟩, h.keys, h.flows⟩, h.served⟩

/-- Whatever the program is, the host mirrors the books after every call. -/
theorem run_setUp (hsetup : (setUp settings : StateM Host _) { } = (.ok setup, host))
    (calls : List Call) :
    Settled settings.firstMark (run (Balancer.engine settings) (calls.map .call) (fresh host)) ∧
      AllLive (run (Balancer.engine settings) (calls.map .call) (fresh host)) := by
  have hlive (host : Host) : AllLive (fresh host) := by
    intro name l es hl
    simp [fresh] at hl
  have hfresh := setUp_settled hsetup settings.firstMark
  by_cases hp : Text.endsWith "nfqlb" settings.program = true
  · exact run_settled hp hfresh (hlive host) calls
  · obtain ⟨journal, hidle⟩ := run_idle hp (g := fresh host) ⟨host.journal, rfl⟩ calls
    rw [hidle]
    exact ⟨hfresh.journal journal, hlive _⟩

/-- To apply a snapshot is to make some calls. -/
theorem apply_eq_run (settings : Settings) (d : Snapshot) (slots : UInt32) (g : Gateway Host) :
    ∃ calls : List Call, (Roster.apply (Balancer.engine settings) d slots g).2 =
      run (Balancer.engine settings) (calls.map .call) g := by
  have hnext (r : Gateway Host) (c : Call)
      (hr : ∃ calls : List Call, r = run (Balancer.engine settings) (calls.map .call) g) :
      ∃ calls : List Call, (c.perform (Balancer.engine settings) r).2 =
        run (Balancer.engine settings) (calls.map .call) g := by
    obtain ⟨calls, rfl⟩ := hr
    refine ⟨calls ++ [c], ?_⟩
    rw [List.map_append]
    exact (run_snoc _ _ (.call c) _).symm
  exact apply_keeps (Balancer.engine settings)
    (P := fun r => ∃ calls : List Call, r = run (Balancer.engine settings) (calls.map .call) g)
    (fun specs r hr => hnext r (.setServices specs) hr)
    (fun specs r hr => hnext r (.setFlows specs) hr)
    (fun service specs r hr => hnext r (.setEndpoints service specs) hr) d slots ⟨[], rfl⟩

/-- What there is after calls and a snapshot that is applied then. -/
def applied (settings : Settings) (calls : List Call) (d : Snapshot) (slots : UInt32)
    (host : Host) : Except (Report (Roster.Fault (Report Balancer.Fault))) Unit × Gateway Host :=
  Roster.apply (Balancer.engine settings) d slots
    (run (Balancer.engine settings) (calls.map .call) (fresh host))

theorem applied_settled (hsetup : (setUp settings : StateM Host _) { } = (.ok setup, host))
    (calls : List Call) (d : Snapshot) (slots : UInt32) :
    Settled settings.firstMark (applied settings calls d slots host).2 ∧
      AllLive (applied settings calls d slots host).2 := by
  obtain ⟨further, heq⟩ := apply_eq_run settings d slots
    (run (Balancer.engine settings) (calls.map .call) (fresh host))
  have hall := run_setUp hsetup (calls ++ further)
  rw [List.map_append, run, List.foldl_append] at hall
  rw [applied, heq]
  exact hall

theorem run_consistent (settings : Settings) (calls : List Call) (host : Host) :
    Consistent (Balancer.engine settings)
      (run (Balancer.engine settings) (calls.map .call) (fresh host)) := by
  have hsteps : calls.map (Event.call (σ := Host)) = (calls.map Step.call).map Step.event := by
    rw [List.map_map]
    rfl
  rw [hsteps]
  exact afterSteps_consistent settings (calls.map .call) host

/-- Flows are always set without a fault. -/
theorem setFlows_ok (hp : Text.endsWith "nfqlb" settings.program = true) (h : Settled floor g)
    (specs : List FlowSpec) : (setFlows (Balancer.engine settings) specs g).1 = .ok () := by
  rw [setFlows_eq]
  refine Report.ofFaults_eq_ok.mpr (List.append_eq_nil_iff.mpr ⟨?_, ?_⟩)
  · refine attemptAll_eq_nil (I := Settled floor) (fun key _ r hr => ?_) h
    refine ⟨?_, dropFlow_settled hp hr key⟩
    rw [dropFlow_eq]
    split
    · rfl
    split
    · rfl
    · rename_i spec _ _ l _
      have hdeleted := deleteFlow_ok hp hr.mirrored.readable hr.mirrored.vips.ownFamily
        hr.mirrored.faults spec.flow.name
      simp only [engine_deleteFlow, hdeleted, mapError_ok]
  · have hdropped : Settled floor
        (attemptAll (dropFlow (Balancer.engine settings)) (g.staleFlows specs) g).2 :=
      attemptAll_keeps (P := Settled floor) (fun key _ _ hr => dropFlow_settled hp hr key) h
    refine attemptAll_eq_nil (I := Settled floor) (fun spec _ r hr => ?_) hdropped
    refine ⟨?_, putFlow_settled hp hr spec⟩
    rw [putFlow_eq]
    split
    · rfl
    · rename_i l _
      have hadded :=
        addFlow_ok hp hr.mirrored.readable hr.mirrored.vips.ownFamily hr.mirrored.faults
        l.name spec.flow
      simp only [engine_addFlow, hadded, mapError_ok]

/-- A snapshot is applied without a fault if its services and endpoints are; these do not depend on
its flows. -/
theorem apply_ok (hp : Text.endsWith "nfqlb" settings.program = true)
    (h : Settled settings.firstMark g) {d : Snapshot} {slots : UInt32}
    (hservices : (setServices (Balancer.engine settings) (d.services.map (·.spec slots)) g).1 =
      .ok ())
    (hendpoints : ∀ flows held tables journal,
      (attemptAll (setServiceEndpoints (Balancer.engine settings)
          (setServices (Balancer.engine settings) (d.services.map (·.spec slots)) g).2.services)
        d.services
        (withFlows (setServices (Balancer.engine settings) (d.services.map (·.spec slots)) g).2
          flows held tables journal)).1 = []) :
    (Roster.apply (Balancer.engine settings) d slots g).1 = .ok () := by
  have hsettled := setServices_settled hp h (d.services.map (·.spec slots))
  refine (apply_eq_ok _).mpr ⟨hservices, setFlows_ok hp hsettled d.flows, ?_⟩
  have hmatched : MatchedOn settings (fun _ => True)
      (setServices (Balancer.engine settings) (d.services.map (·.spec slots)) g).2 :=
    ⟨hsettled.matched, fun _ => hp, trivial⟩
  obtain ⟨flows, held, tables, journal, heq⟩ := setFlows_frame hmatched d.flows
  rw [setFlows_services, heq]
  exact hendpoints flows held tables journal

/-- The host is what the snapshot asks for; only the numbers of the slots are left open. -/
structure Realized (d : Snapshot) (g : Gateway Host) : Prop where
  segments : ∀ n : String, n ∈ g.engine.host.hashing.segments ↔ ∃ s ∈ d.services, s.name = n
  keys : ∀ key : String, key ∈ g.engine.host.hashing.flows ↔
    ∃ spec ∈ d.flows, (∃ s ∈ d.services, s.name = spec.service) ∧ spec.key = key
  flows : ∀ key : String, g.engine.host.hashing.flows[key]? =
    d.flowTable[key]?.map fun spec => Maglev.entryOf spec.service spec.flow
  /-- The virtual addresses are the single addresses among the destinations of the flows. -/
  vips : ∀ family, ∃ set, Classifier.setOf g.engine.host.tables family = some set ∧
    ∀ text, text ∈ set ↔ ∃ a, Destined g.engine.host.hashing.flows a ∧ a.family = family ∧
      a.text = text
  /-- Each endpoint that is due holds one slot for itself, and no other slots are active. -/
  endpoints : ∀ s ∈ d.services, ∃ held active, g.slots? s.name = some held ∧
    g.engine.host.hashing.segments[s.name]? = some active ∧
    (∀ identity, identity ∈ held ↔ Due s.endpoints identity) ∧
    (∀ slot, slot ∈ active ↔ ∃ identity : String, held[identity]? = some slot) ∧
    ∀ (i j : String) (slot : UInt32), held[i]? = some slot → held[j]? = some slot → i = j

/-- The slots that endpoints hold are the ones that are active. -/
theorem Settled.slots_active (h : Settled floor g) (hlive : AllLive g) {n : String} {l : Lease}
    {es : List ActiveEndpoint} (hl : g.services[n]? = some l) (hes : g.endpoints[n]? = some es)
    (slot : UInt32) : slot ∈ g.engine.marksOf l ↔ ∃ e ∈ es, e.slot = slot := by
  rw [Std.ExtTreeMap.mem_iff_isSome_getElem?, getElem?_marksOf, Option.isSome_map,
    ← Std.ExtTreeMap.mem_iff_isSome_getElem?]
  constructor
  · intro hmem
    obtain ⟨addresses, hget⟩ := exists_of_mem hmem
    obtain ⟨e, he, hslot, -⟩ := (h.target_iff hlive hl hes slot addresses).mp hget
    exact ⟨e, he, hslot⟩
  · intro hgiven
    obtain ⟨e, he, rfl⟩ := hgiven
    exact mem_of_getElem? ((h.target_iff hlive hl hes e.slot e.addresses).mpr ⟨e, he, rfl, rfl⟩)

theorem Settled.realized (h : Settled floor g) (hlive : AllLive g)
    (hconsistent : Consistent (Balancer.engine settings) g) {d : Snapshot}
    (hd : Converged d g) : Realized d g := by
  have hflows (key : String) : g.engine.host.hashing.flows[key]? =
      d.flowTable[key]?.map fun spec => Maglev.entryOf spec.service spec.flow := by
    rw [← hd.flows]
    exact h.flows_eq h.served key
  refine ⟨fun n => ?_, fun key => ?_, hflows, h.mirrored.vips, fun s hs => ?_⟩
  · rw [← hd.services, Std.ExtTreeMap.mem_iff_isSome_getElem?, h.mirrored.segments,
      h.matched.services, Std.ExtTreeMap.mem_iff_isSome_getElem?, Option.isSome_map]
  · rw [← Snapshot.mem_flowTable, Std.ExtTreeMap.mem_iff_isSome_getElem?, hflows,
      Std.ExtTreeMap.mem_iff_isSome_getElem?, Option.isSome_map]
  · obtain ⟨es, hes, hdue⟩ := hd.endpoints s hs
    obtain ⟨l, hl⟩ := exists_of_mem ((hd.services s.name).mpr ⟨s, hs, rfl⟩)
    have hseated := hconsistent.seated s.name l es hl hes
    have hheld := hseated.getElem?_slots
    refine ⟨_, g.engine.marksOf l, by rw [slots?, hes]; rfl, ?_, fun identity => ?_,
      fun slot => ?_, fun i j slot hi hj => ?_⟩
    · rw [h.mirrored.segments, ← h.matched.services, hl]
      rfl
    · rw [← hdue, Std.ExtTreeMap.mem_ofList, List.contains_iff_mem, List.map_map]
      rfl
    · rw [h.slots_active hlive hl hes]
      simp only [hheld]
      constructor
      · intro hgiven
        obtain ⟨e, he, hslot⟩ := hgiven
        exact ⟨e.identity, e, he, rfl, hslot⟩
      · intro hgiven
        obtain ⟨identity, e, he, -, hslot⟩ := hgiven
        exact ⟨e, he, hslot⟩
    · obtain ⟨e, he, rfl, hslot⟩ := (hheld i slot).mp hi
      obtain ⟨f, hf, rfl, heq⟩ := (hheld j slot).mp hj
      rw [List.inj_on_of_nodup_map hseated.slots he hf (hslot.trans heq.symm)]

/-- Hosts and endpoints are the same but for the numbers of slots. -/
structure SameUpToSlots (d : Snapshot) (g g' : Gateway Host) : Prop where
  segments : ∀ n : String,
    n ∈ g.engine.host.hashing.segments ↔ n ∈ g'.engine.host.hashing.segments
  flows : g.engine.host.hashing.flows = g'.engine.host.hashing.flows
  vips : ∀ family, Classifier.setOf g.engine.host.tables family =
    Classifier.setOf g'.engine.host.tables family
  endpoints : ∀ s ∈ d.services, ∃ held held', g.slots? s.name = some held ∧
    g'.slots? s.name = some held' ∧ ∀ identity, identity ∈ held ↔ identity ∈ held'

/-- What the snapshot asks for leaves no other difference. -/
theorem Realized.same {d : Snapshot} {g' : Gateway Host} (h : Realized d g) (h' : Realized d g') :
    SameUpToSlots d g g' := by
  have hflows : g.engine.host.hashing.flows = g'.engine.host.hashing.flows :=
    Std.ExtTreeMap.ext_getElem? fun key => (h.flows key).trans (h'.flows key).symm
  refine ⟨fun n => (h.segments n).trans (h'.segments n).symm, hflows, fun family => ?_,
    fun s hs => ?_⟩
  · obtain ⟨set, hset, hmem⟩ := h.vips family
    obtain ⟨set', hset', hmem'⟩ := h'.vips family
    rw [hset, hset']
    congr 1
    refine Std.ExtTreeSet.ext_mem fun text => ?_
    rw [hmem, hmem', hflows]
  · obtain ⟨held, -, hheld, -, hdue, -⟩ := h.endpoints s hs
    obtain ⟨held', -, hheld', -, hdue', -⟩ := h'.endpoints s hs
    exact ⟨held, held', hheld, hheld', fun identity => (hdue identity).trans (hdue' identity).symm⟩

/-- Whatever was asked of two gateways before: once a snapshot whose services have names of their own
is applied to both without a fault, both hosts are what it asks for, and so they are the same but for
the numbers of slots. -/
theorem applied_converges (hsetup : (setUp settings : StateM Host _) { } = (.ok setup, host))
    {d : Snapshot} (hnames : (d.services.map (·.name)).Nodup) (slots : UInt32)
    (calls calls' : List Call) (hok : (applied settings calls d slots host).1 = .ok ())
    (hok' : (applied settings calls' d slots host).1 = .ok ()) :
    Realized d (applied settings calls d slots host).2 ∧
      Realized d (applied settings calls' d slots host).2 ∧
      SameUpToSlots d (applied settings calls d slots host).2
        (applied settings calls' d slots host).2 := by
  have hrealized (calls : List Call) (hok : (applied settings calls d slots host).1 = .ok ()) :
      Realized d (applied settings calls d slots host).2 := by
    obtain ⟨hsettled, hlive⟩ := applied_settled hsetup calls d slots
    have hconsistent := run_consistent settings calls host
    exact hsettled.realized hlive (apply_consistent _ hconsistent d slots)
      (apply_converged _ hconsistent hnames hok)
  have h := hrealized calls hok
  have h' := hrealized calls' hok'
  exact ⟨h, h', h.same h'⟩

/-- A service with an endpoint and a flow. -/
def webSnapshot : Snapshot where
  services := [⟨"svc-a", none, [⟨"pod-1", [.v4 0x0A000001#32], true, none⟩]⟩]
  flows := [webFlow]

/-- Another service, and an endpoint that takes the slot which the one of the snapshot would get. -/
def earlierCalls : List Call :=
  [.setServices [⟨"svc-a", 10⟩, ⟨"svc-b", 10⟩],
    .setEndpoints "svc-a" [⟨"pod-2", [.v4 0x0A000002#32], true, none⟩,
      ⟨"pod-1", [.v4 0x0A000001#32], true, none⟩]]

section Web

variable {tables : FilterTables} {journal : List Command} {setup : Setup}
  (hsetup : (setUp { } : StateM Host _) { } = (.ok setup, { tables, journal }))

include hsetup

theorem webSnapshot_ok : (applied { } [] webSnapshot 100 { tables, journal }).1 = .ok () := by
  have hp : Text.endsWith "nfqlb" ({ } : Settings).program = true := by decide
  exact apply_ok hp (run_setUp hsetup []).1 (by cbv)
    (by intro flows held tables' journal'; cbv)

theorem webSnapshot_ok_later :
    (applied { } earlierCalls webSnapshot 100 { tables, journal }).1 = .ok () := by
  have hp : Text.endsWith "nfqlb" ({ } : Settings).program = true := by decide
  exact apply_ok hp (run_setUp hsetup earlierCalls).1 (by cbv)
    (by intro flows held tables' journal'; cbv)

end Web

theorem webSnapshot_converges : ∃ setup host,
    (setUp { } : StateM Host _) { } = (.ok setup, host) ∧
    (webSnapshot.services.map (·.name)).Nodup ∧
    (applied { } [] webSnapshot 100 host).1 = .ok () ∧
    (applied { } earlierCalls webSnapshot 100 host).1 = .ok () ∧
    SameUpToSlots webSnapshot (applied { } [] webSnapshot 100 host).2
      (applied { } earlierCalls webSnapshot 100 host).2 := by
  obtain ⟨setup, tables, journal, hsetup⟩ := setUp_default
  have hnames : (webSnapshot.services.map (·.name)).Nodup := by decide
  have hnew := webSnapshot_ok hsetup
  have hlate := webSnapshot_ok_later hsetup
  exact ⟨setup, _, hsetup, hnames, hnew, hlate,
    (applied_converges hsetup hnames 100 [] earlierCalls hnew hlate).2.2⟩

end VipSteering.Gateway
