import VipSteering.Proofs.Gateway.Snapshot
import VipSteering.Proofs.Gateway.Steps
import VipSteering.Proofs.Gateway.Happenings
import VipSteering.Proofs.Roster.Repeated

namespace VipSteering.Gateway

open Balancer Roster Host

variable {settings : Settings}

/-- The gateway after commands that its host only puts down, the latest first. -/
def issuing (g : Gateway Host) (issued : List Command) : Gateway Host :=
  { g with engine := { g.engine with host := g.engine.host.issuing issued } }

/-- Commands that set and read are run and change neither what is on record nor the host, and there
is no fault unless one of them is refused. -/
def Silent {α : Type} (settings : Settings) (g : Gateway Host) (done : α)
    (outcome : α × Gateway Host) : Prop :=
  ∃ issued, (∀ c ∈ issued, Confirms settings.program c) ∧ outcome.2 = g.issuing issued ∧
    ((∀ c ∈ issued, ¬ g.engine.host.Refuses c) → outcome.1 = done)

section Flows

variable {g : Gateway Host} (hp : Text.endsWith "nfqlb" settings.program = true)
  (hreadable : AllReadable g.engine.host.hashing.flows) (hcurrent : Current g.engine.host)

include hp hreadable hcurrent

theorem putFlow_silent {spec : FlowSpec} {l : Lease} (hspec : g.flows[spec.key]? = some spec)
    (hl : g.services[spec.service]? = some l)
    (hheld : g.engine.host.hashing.flows[spec.key]? = some (Maglev.entryOf l.name spec.flow)) :
    Silent settings g (.ok ()) (putFlow (Balancer.engine settings) spec g) := by
  have hname : g.engine.host.hashing.flows[spec.flow.name]? =
      some (Maglev.entryOf l.name spec.flow) := hheld
  obtain ⟨issued, hall, hstate, hdone⟩ := addFlow_confirmed hp hreadable hcurrent hname
  rw [putFlow_served hl]
  refine ⟨issued, hall, ?_, fun hopen => ?_⟩
  · dsimp only
    rw [hstate, insert_present hspec]
    rfl
  · exact mapError_eq_ok.mpr (mapError_eq_ok.mpr (hdone hopen))

theorem putFlows_silent {specs : List FlowSpec}
    (hspecs : ∀ spec ∈ specs, g.flows[spec.key]? = some spec ∧ ∃ l : Lease,
      g.services[spec.service]? = some l ∧
        g.engine.host.hashing.flows[spec.key]? = some (Maglev.entryOf l.name spec.flow)) :
    Silent settings g [] (attemptAll (putFlow (Balancer.engine settings)) specs g) := by
  induction specs generalizing g with
  | nil => exact ⟨[], by simp, rfl, fun _ => rfl⟩
  | cons spec rest ih =>
    simp only [List.mem_cons, forall_eq_or_imp] at hspecs
    obtain ⟨⟨hspec, l, hl, hheld⟩, hothers⟩ := hspecs
    obtain ⟨first, hfirst, hstate, hdone⟩ :=
      putFlow_silent hp hreadable hcurrent hspec hl hheld
    -- What the first flow leaves differs in the journal only.
    obtain ⟨later, hlater, hend, hrest⟩ := ih (g := g.issuing first) hreadable hcurrent hothers
    refine ⟨later ++ first, List.forall_mem_append.mpr ⟨hlater, hfirst⟩, ?_, fun hopen => ?_⟩
    · rw [attemptAll_cons, hstate, hend]
      simp only [issuing, Host.issuing, List.append_assoc]
    · rw [List.forall_mem_append] at hopen
      rw [attemptAll_cons_eq_nil, hstate]
      exact ⟨hdone hopen.2, hrest hopen.1⟩

end Flows

section Apply

variable {g : Gateway Host} {d : Snapshot} {slots : UInt32}

/-- Endpoints that are set leave flows and virtual addresses alone. -/
theorem setServiceEndpoints_alike (hp : Text.endsWith "nfqlb" settings.program = true)
    (known : Std.ExtTreeMap String Lease) (services : List DesiredService) (g : Gateway Host) :
    Alike g.engine.host (attemptAll (setServiceEndpoints (Balancer.engine settings) known) services
      g).2.engine.host := by
  refine attemptAll_keeps (P := fun r : Gateway Host => Alike g.engine.host r.engine.host)
    (fun s _ r hr => ?_) (.refl _)
  rw [setServiceEndpoints_eq]
  split
  · exact hr.trans (setEndpoints_alike_of hp r s.name s.endpoints)
  · exact hr

/-- Once a snapshot is applied without a fault, the host holds the flows on record, and if there is
one, the virtual addresses are up to date. -/
theorem apply_held (hw : ReadableContents g.engine.host)
    (hok : (apply (Balancer.engine settings) d slots g).1 = .ok ()) {key : String} {spec : FlowSpec}
    {l : Lease} (hspec : (apply (Balancer.engine settings) d slots g).2.flows[key]? = some spec)
    (hl : (apply (Balancer.engine settings) d slots g).2.services[spec.service]? = some l) :
    Text.endsWith "nfqlb" settings.program = true ∧
      (apply (Balancer.engine settings) d slots g).2.engine.host.hashing.flows[key]? =
        some (Maglev.entryOf l.name spec.flow) ∧
      Current (apply (Balancer.engine settings) d slots g).2.engine.host := by
  obtain ⟨-, hflows, -⟩ := (apply_eq_ok _).mp hok
  have hcontents : ReadableContents
      (setServices (Balancer.engine settings) (d.services.map (·.spec slots)) g).2.engine.host :=
    hw.reaches (setServices_balancerCommand g _)
  rw [apply_eq] at hspec hl ⊢
  dsimp only at hspec hl ⊢
  generalize (setServices (Balancer.engine settings) (d.services.map (·.spec slots)) g).2 = r at *
  obtain ⟨b, endpoints, hframe⟩ := setServiceEndpoints_frame (Balancer.engine settings)
    (setFlows (Balancer.engine settings) d.flows r).2.services d.services
    (setFlows (Balancer.engine settings) d.flows r).2
  rw [hframe] at hspec hl
  rw [setFlows_services] at hl
  obtain ⟨hp, hheld⟩ := setFlows_placed hflows hspec hl
  have hcurrent := setFlows_uptodate hflows hspec hcontents
  have halike := setServiceEndpoints_alike hp
    (setFlows (Balancer.engine settings) d.flows r).2.services d.services
    (setFlows (Balancer.engine settings) d.flows r).2
  refine ⟨hp, ?_, (current_congr halike).mpr hcurrent⟩
  rw [halike.flows]
  exact hheld

/-- Once a snapshot is applied without a fault, it is applied again in silence. -/
theorem apply_silent (h : Consistent (Balancer.engine settings) g)
    (hw : ReadableContents g.engine.host)
    (hnames : (d.services.map (·.name)).Nodup)
    (hok : (apply (Balancer.engine settings) d slots g).1 = .ok ()) :
    Silent settings (apply (Balancer.engine settings) d slots g).2 (.ok ())
      (apply (Balancer.engine settings) d slots
        (apply (Balancer.engine settings) d slots g).2) := by
  have hcontents : ReadableContents (apply (Balancer.engine settings) d slots g).2.engine.host :=
    hw.reaches (apply_balancerCommand g d slots)
  have hconsistent := apply_consistent _ h d slots
  have hrecord := apply_flows (Balancer.engine settings) d slots g
  have hheld {key : String} {spec : FlowSpec} {l : Lease}
      (hspec : (apply (Balancer.engine settings) d slots g).2.flows[key]? = some spec)
      (hl : (apply (Balancer.engine settings) d slots g).2.services[spec.service]? = some l) :=
    apply_held hw hok hspec hl
  rw [apply_again _ h hnames hok, setFlows_present _ hrecord]
  generalize (apply (Balancer.engine settings) d slots g).2 = left at *
  have hplaced : ∀ spec ∈ left.flows.values, left.flows[spec.key]? = some spec ∧ ∃ l : Lease,
      left.services[spec.service]? = some l := by
    intro spec hmem
    obtain ⟨key, hspec⟩ := mem_values.mp hmem
    obtain rfl : key = spec.key := hconsistent.keys key spec hspec
    exact ⟨hspec, exists_of_mem (hconsistent.served spec.key spec hspec)⟩
  by_cases hnone : left.flows.values = []
  · rw [hnone]
    exact ⟨[], by simp, rfl, fun _ => rfl⟩
  · obtain ⟨spec, hmem⟩ := List.exists_mem_of_ne_nil _ hnone
    obtain ⟨hspec, l, hl⟩ := hplaced spec hmem
    obtain ⟨hp, -, hcurrent⟩ := hheld hspec hl
    have hreadable : AllReadable left.engine.host.hashing.flows := hcontents.readable
    obtain ⟨issued, hall, hstate, hdone⟩ := putFlows_silent hp hreadable hcurrent
      fun other hother =>
        have ⟨hrecorded, k, hk⟩ := hplaced other hother
        ⟨hrecorded, k, hk, (hheld hrecorded hk).2.1⟩
    exact ⟨issued, hall, hstate, fun hopen => Report.ofFaults_eq_ok.mpr (hdone hopen)⟩

end Apply

/-- The gateway on the host as it is, on which only those commands fail that the host refuses. -/
def onHost {fates : Fates} (g : Gateway (Flaky fates)) : Gateway Host :=
  { g with engine := { g.engine with host := g.engine.host.host } }

/-- Whatever has happened to a gateway, to its balancer and to its host, and whichever commands have
failed: if a snapshot whose services have names of their own is applied without a fault and then
once more, the second application leaves what is on record and the host as they are. The commands
that it runs set flows and read flows and virtual addresses, and it reports success unless one of
them is refused. -/
theorem applied_again_silent (settings : Settings) (fates : Fates) (happenings : List Happening)
    {d : Snapshot} {slots : UInt32} (hnames : (d.services.map (·.name)).Nodup)
    (hok : (apply (Balancer.engine settings) d slots
      (onHost (afterHappenings settings fates happenings))).1 = .ok ()) :
    let first := apply (Balancer.engine settings) d slots
      (onHost (afterHappenings settings fates happenings))
    Silent settings first.2 (.ok ()) (apply (Balancer.engine settings) d slots first.2) := by
  have hrecord := afterHappenings_consistentReadable settings fates happenings
  have hconsistent : Consistent (Balancer.engine settings)
      (onHost (afterHappenings settings fates happenings)) :=
    ⟨⟨hrecord.consistent.endpoints, hrecord.consistent.keys, hrecord.consistent.seated⟩,
      hrecord.consistent.served⟩
  exact apply_silent hconsistent hrecord.contents hnames hok

/-- The balancer's program cannot be run, and neither can any other but the packet filter's. -/
def onlyFilter : Fates := fun _ c =>
  if c.program = "nft" then .done else .refused (failure c injected)

/-- A service that could not be added, before the gateway was started again. -/
def vainStart : List Happening := [.setUp, .call (.setServices [⟨"svc-a", 10⟩]), .restart]

theorem setUp_done {fates : Fates} {s : Flaky fates}
    (hd : ∀ input, fates s.host.journal (Classifier.script input) = .done) :
    setUp settings s = ((setUp settings s.host).1, ⟨(setUp settings s.host).2⟩) := by
  rw [setUp, setUp]
  cases settings.validate with
  | error fault => rfl
  | ok _ =>
    cases QueueRange.parse settings.queue with
    | error fault => rfl
    | ok queue =>
      have hrun := Flaky.run_done (Classifier.configureCommand queue settings.fanout) s (hd _)
      simp only [Classifier.configure, Task.bind_apply, hrun]
      rcases Shell.run (Classifier.configureCommand queue settings.fanout) s.host with ⟨_ | _, _⟩
      · rfl
      · rfl

theorem afterHappenings_vainStart {setup : Setup} {tables : FilterTables} {journal : List Command}
    (hsetup : (setUp { } : StateM Host _) { } = (.ok setup, { tables, journal })) :
    onHost (afterHappenings { } onlyFilter vainStart) =
      fresh { tables, journal := initCommand ({ } : Settings).program "svc-a" 10 :: journal } := by
  have hstart : Happening.apply { } (fresh ⟨{ }⟩) .setUp =
      fresh (⟨{ tables, journal }⟩ : Flaky onlyFilter) := by
    rw [Happening.apply, fresh, setUp_done fun _ => rfl]
    dsimp only
    rw [hsetup]
    rfl
  rw [afterHappenings, vainStart, List.foldl_cons, hstart]
  cbv

theorem vainStart_applied_silent :
    (webSnapshot.services.map (·.name)).Nodup ∧
      (apply (Balancer.engine { }) webSnapshot 100
        (onHost (afterHappenings { } onlyFilter vainStart))).1 = .ok () ∧
      let first := apply (Balancer.engine { }) webSnapshot 100
        (onHost (afterHappenings { } onlyFilter vainStart))
      Silent { } first.2 (.ok ()) (apply (Balancer.engine { }) webSnapshot 100 first.2) := by
  obtain ⟨setup, tables, journal, hsetup⟩ := setUp_default
  have hp : Text.endsWith "nfqlb" ({ } : Settings).program = true := by decide
  have hnames : (webSnapshot.services.map (·.name)).Nodup := by decide
  have hok : (apply (Balancer.engine { }) webSnapshot 100
      (onHost (afterHappenings { } onlyFilter vainStart))).1 = .ok () := by
    rw [afterHappenings_vainStart hsetup]
    exact apply_ok hp ((setUp_settled hsetup _).journal _) (by cbv)
      (by intro flows held tables' journal'; cbv)
  exact ⟨hnames, hok, applied_again_silent { } onlyFilter vainStart hnames hok⟩

end VipSteering.Gateway
