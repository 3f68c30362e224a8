import VipSteering.Balancer.Process
import VipSteering.Proofs.Classifier.Configure
import VipSteering.Proofs.Gateway.Settled

namespace VipSteering.Gateway

open Balancer Roster Host

/-- The addresses behind the mark of an endpoint on record. -/
def Endpoint {σ : Type} (g : Gateway σ) (mark : UInt32) (addresses : List Address) : Prop :=
  ∃ (n : String) (l : Lease) (es : List ActiveEndpoint) (e : ActiveEndpoint),
    g.services[n]? = some l ∧ g.endpoints[n]? = some es ∧ e ∈ es ∧ e.addresses = addresses ∧
      mark = l.mark e.slot

/-- The host does what is on record, and nothing else. -/
structure Faithful (g : Gateway Host) : Prop where
  services : g.engine.registered = g.services
  endpoints : ∀ n : String, n ∈ g.endpoints ↔ n ∈ g.services
  targets : ∀ (n : String) (l : Lease) (es : List ActiveEndpoint), g.services[n]? = some l →
    g.endpoints[n]? = some es → ∀ (slot : UInt32) (addresses : List Address),
      (g.engine.targetsOf l)[slot]? = some addresses ↔
        ∃ e ∈ es, e.slot = slot ∧ e.addresses = addresses
  segments : ∀ n : String, n ∈ g.engine.host.hashing.segments ↔ n ∈ g.services
  /-- The slots of the endpoints are active, each with its mark. -/
  slots : ∀ (n : String) (l : Lease) (es : List ActiveEndpoint)
    (slots : Std.ExtTreeMap UInt32 UInt32), g.services[n]? = some l → g.endpoints[n]? = some es →
    g.engine.host.hashing.segments[n]? = some slots → ∀ slot mark : UInt32,
      slots[slot]? = some mark ↔ (∃ e ∈ es, e.slot = slot) ∧ slot < l.block.size ∧
        mark.toNat = l.block.start.toNat + slot.toNat
  /-- Flows go by their keys. -/
  keys : ∀ (key : String) (spec : FlowSpec), g.flows[key]? = some spec → spec.key = key
  flows : ∀ key : String, g.engine.host.hashing.flows[key]? =
    g.flows[key]?.map fun spec => Maglev.entryOf spec.service spec.flow
  /-- Each mark has a rule for every family among the addresses behind it. -/
  rules : ∀ rule : Rule, rule ∈ g.engine.host.routing.rules ↔ ∃ addresses,
    Endpoint g rule.mark addresses ∧ rule.table = rule.mark ∧
      rule.family ∈ addresses.map Address.family
  /-- The last address of a family is where the table leads. -/
  routes : ∀ route : Route, route ∈ g.engine.host.routing.routes ↔ ∃ addresses,
    Endpoint g route.table addresses ∧
      lastOf route.gateway.family addresses = some route.gateway
  /-- The virtual addresses are the single addresses among the destinations of the flows. -/
  vips : ∀ family, ∃ set, Classifier.setOf g.engine.host.tables family = some set ∧
    ∀ text, text ∈ set ↔ ∃ a, Destined g.engine.host.hashing.flows a ∧ a.family = family ∧
      a.text = text

namespace Settled

variable {floor : UInt32} {g : Gateway Host} (h : Settled floor g) (hlive : AllLive g)

include h hlive

theorem target_iff {n : String} {l : Lease} {es : List ActiveEndpoint}
    (hl : g.services[n]? = some l) (hes : g.endpoints[n]? = some es) (slot : UInt32)
    (addresses : List Address) : (g.engine.targetsOf l)[slot]? = some addresses ↔
      ∃ e ∈ es, e.slot = slot ∧ e.addresses = addresses := by
  constructor
  · exact h.matched.holdsAll hl hes slot addresses
  · intro hgiven
    obtain ⟨e, he, rfl, rfl⟩ := hgiven
    exact hlive n l es hl hes e he

theorem held_iff (mark : UInt32) (addresses : List Address) :
    Held g.engine mark addresses ↔ Endpoint g mark addresses := by
  constructor
  · intro hgiven
    obtain ⟨n, l, slot, hl, hget, rfl⟩ := hgiven
    rw [← h.matched.services] at hl
    obtain ⟨es, hes⟩ := h.matched.endpoints_of hl
    obtain ⟨e, he, rfl, rfl⟩ := (h.target_iff hlive hl hes slot addresses).mp hget
    exact ⟨n, l, es, e, hl, hes, he, rfl, rfl⟩
  · intro hgiven
    obtain ⟨n, l, es, e, hl, hes, he, rfl, rfl⟩ := hgiven
    have hget := (h.target_iff hlive hl hes e.slot e.addresses).mpr ⟨e, he, rfl, rfl⟩
    rw [h.matched.services] at hl
    exact ⟨n, l, e.slot, hl, hget, rfl⟩

/-- A slot is active exactly if an endpoint holds it; its mark is in the block of the service. -/
theorem slot_iff {n : String} {l : Lease} {es : List ActiveEndpoint}
    (hl : g.services[n]? = some l) (hes : g.endpoints[n]? = some es) (slot mark : UInt32) :
    (g.engine.marksOf l)[slot]? = some mark ↔ (∃ e ∈ es, e.slot = slot) ∧ slot < l.block.size ∧
      mark.toNat = l.block.start.toNat + slot.toNat := by
  have hreg : g.engine.registered[n]? = some l := by rw [← h.matched.services]; exact hl
  have hwithin := h.matched.sound.within hreg
  rw [getElem?_marksOf, Option.map_eq_some_iff]
  constructor
  · intro hgiven
    obtain ⟨addresses, hget, rfl⟩ := hgiven
    have hslot := h.matched.sound.slot_lt hreg (mem_of_getElem? hget)
    obtain ⟨e, he, hes, -⟩ := (h.target_iff hlive hl hes slot addresses).mp hget
    exact ⟨⟨e, he, hes⟩, hslot, (Block.contains_mark hwithin hslot).1⟩
  · intro hgiven
    obtain ⟨⟨e, he, rfl⟩, hslot, hmark⟩ := hgiven
    refine ⟨e.addresses, hlive n l es hl hes e he, UInt32.toNat_inj.mp ?_⟩
    rw [hmark]
    exact (Block.contains_mark hwithin hslot).1

theorem faithful : Faithful g where
  services := h.matched.services.symm
  endpoints _ := h.matched.endpoints
  targets n l es hl hes := h.target_iff hlive hl hes
  segments n := by
    rw [Std.ExtTreeMap.mem_iff_isSome_getElem?, h.mirrored.segments, h.matched.services,
      Std.ExtTreeMap.mem_iff_isSome_getElem?, Option.isSome_map]
  slots n l es slots hl hes hslots := by
    rw [h.mirrored.segments, ← h.matched.services, hl, Option.map_some] at hslots
    obtain rfl := Option.some.inj hslots
    exact h.slot_iff hlive hl hes
  keys _ _ := h.keys
  flows key := h.flows_eq h.served key
  rules rule := by
    rw [h.mirrored.routed.rules]
    simp only [h.held_iff hlive]
  routes route := by
    rw [h.mirrored.routed.routes]
    simp only [h.held_iff hlive]
  vips := h.mirrored.vips

end Settled

variable {settings : Settings} {setup : Setup} {host : Host}

theorem settled_of_blank (hf : host.faults = []) (hrouting : host.routing = { })
    (hhashing : host.hashing = { })
    (hsets : ∀ family, Classifier.setOf host.tables family = some ∅) (floor : UInt32) :
    Settled floor (fresh host) := by
  have hnone (m : UInt32) (as : List Address) : ¬ Held { host } m as := by
    intro hgiven
    obtain ⟨n, l, slot, hl, -⟩ := hgiven
    simp at hl
  have hmirrored : Mirrored (fresh host).engine := by
    refine ⟨hf, fun n => ?_, ⟨fun rule => ?_, fun route => ?_⟩, fun he => ?_, fun family => ?_⟩
    · simp [fresh, hhashing]
    · simp [hnone, fresh, hrouting]
    · simp [hnone, fresh, hrouting]
    · simp [fresh, hhashing] at he
    · exact ⟨∅, hsets family, by simp [Destined, fresh, hhashing]⟩
  refine .of_flows (.fresh floor _) hmirrored (fun hspec => ?_) (fun hspec => ?_) fun key => ?_
  · simp [fresh] at hspec
  · simp [fresh] at hspec
  · simp [fresh, hhashing]

theorem setUp_healthy {queue : QueueRange} (hvalid : settings.validate = .ok ())
    (hqueue : QueueRange.parse settings.queue = .ok queue) :
    ∃ tables journal, (setUp settings : StateM Host _) { } =
        (.ok ⟨settings, queue⟩, ({ tables, journal } : Host)) ∧
      ∀ family, Classifier.setOf tables family = some ∅ := by
  obtain ⟨tables, journal, hrun, hsets⟩ :=
    Classifier.configure_healthy queue settings.fanout (h := { }) rfl
  refine ⟨tables, journal, ?_, fun family => ?_⟩
  · rw [setUp]
    simp only [hvalid, hqueue, Task.bind_apply, hrun, Task.pure_apply]
  · rw [hsets family]
    simp [Classifier.setOf, Classifier.setAt?]

/-- The settings by default are sound. -/
theorem setUp_default : ∃ setup tables journal, (setUp { } : StateM Host _) { } =
    (.ok setup, ({ tables, journal } : Host)) := by
  have hvalid : ({ } : Settings).validate = .ok () := by decide
  have hqueue : QueueRange.parse ({ } : Settings).queue = .ok ⟨0, 3, by decide⟩ := by decide
  obtain ⟨tables, journal, hsetup, -⟩ := setUp_healthy hvalid hqueue
  exact ⟨_, tables, journal, hsetup⟩

/-- A host that has only been set up has a packet filter, and nothing else. -/
theorem setUp_settled (hsetup : (setUp settings : StateM Host _) { } = (.ok setup, host))
    (floor : UInt32) : Settled floor (fresh host) := by
  cases hvalid : settings.validate with
  | error fault =>
    rw [setUp, hvalid] at hsetup
    cases hsetup
  | ok _ =>
    cases hqueue : QueueRange.parse settings.queue with
    | error fault =>
      rw [setUp, hvalid] at hsetup
      simp only [hqueue] at hsetup
      cases hsetup
    | ok queue =>
      obtain ⟨tables, journal, hrun, hsets⟩ := setUp_healthy hvalid hqueue
      rw [hrun] at hsetup
      obtain rfl := (Prod.mk.inj hsetup).2
      exact settled_of_blank rfl rfl rfl hsets floor

theorem run_settled (hp : Text.endsWith "nfqlb" settings.program = true) {g : Gateway Host}
    (h : Settled settings.firstMark g) (hlive : AllLive g) (calls : List Call) :
    Settled settings.firstMark (run (Balancer.engine settings) (calls.map .call) g) ∧
      AllLive (run (Balancer.engine settings) (calls.map .call) g) := by
  induction calls generalizing g with
  | nil => exact ⟨h, hlive⟩
  | cons c rest ih => exact ih (c.perform_settled hp h) (c.perform_live hp h hlive)

/-- Whatever calls a gateway gets on a host that it has set up, and whichever of them it refuses: the
host does what is on record. -/
theorem run_faithful (hsetup : (setUp settings : StateM Host _) { } = (.ok setup, host))
    (hp : Text.endsWith "nfqlb" settings.program = true) (calls : List Call) :
    Faithful (run (Balancer.engine settings) (calls.map .call) (fresh host)) := by
  have hlive : AllLive (fresh host) := by
    intro name l es hl
    simp [fresh] at hl
  obtain ⟨hsettled, hlive⟩ := run_settled hp (setUp_settled hsetup _) hlive calls
  exact hsettled.faithful hlive

/-- A service with a flow to one address of either family, and an endpoint that has two addresses of
one family; then the endpoint moves. -/
def movingRun : List Call :=
  let flow : FlowSpec := ⟨"web", "svc-a",
    { sourceCidrs := [], destinationCidrs := ["20.0.0.1/32", "fd00::1/128"], sourcePorts := [],
      destinationPorts := ["80"], protocols := [.tcp], priority := 1, byteMatches := [] }⟩
  [.setServices [⟨"svc-a", 10⟩], .setFlows [flow],
    .setEndpoints "svc-a" [⟨"pod-1", [.v4 0x0A000001#32, .v4 0x0A000002#32], true, none⟩],
    .setEndpoints "svc-a" [⟨"pod-1", [.v4 0x0A000003#32], true, none⟩]]

theorem movingRun_faithful : ∃ setup host, (setUp { } : StateM Host _) { } = (.ok setup, host) ∧
    Text.endsWith "nfqlb" ({ } : Settings).program = true ∧
    Faithful (run (Balancer.engine { }) (movingRun.map .call) (fresh host)) := by
  have hvalid : ({ } : Settings).validate = .ok () := by decide
  have hqueue : QueueRange.parse ({ } : Settings).queue = .ok ⟨0, 3, by decide⟩ := by decide
  obtain ⟨tables, journal, hsetup, -⟩ := setUp_healthy hvalid hqueue
  have hp : Text.endsWith "nfqlb" ({ } : Settings).program = true := by decide
  exact ⟨_, _, hsetup, hp, run_faithful hsetup hp movingRun⟩

end VipSteering.Gateway
