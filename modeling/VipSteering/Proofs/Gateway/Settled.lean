import VipSteering.Proofs.Balancer.Mirror
import VipSteering.Proofs.Gateway.Live

namespace VipSteering.Gateway

open Balancer Roster Host

/-- The host mirrors the books. In the midst of a call there may be flows on record whose service
is gone; the host has not got these. -/
structure Reflected (floor : UInt32) (g : Gateway Host) : Prop where
  matched : Matched floor g
  mirrored : Mirrored g.engine
  keys : ∀ {key : String} {spec : FlowSpec}, g.flows[key]? = some spec → spec.key = key
  flows : ∀ key : String, g.engine.host.hashing.flows[key]? =
    (g.flows[key]?.filter fun spec => g.services.contains spec.service).map
      fun spec => Maglev.entryOf spec.service spec.flow

/-- Every flow on record is one of a service on record. -/
def FlowsServed {σ : Type} (g : Gateway σ) : Prop :=
  ∀ {key : String} {spec : FlowSpec}, g.flows[key]? = some spec → spec.service ∈ g.services

variable {floor : UInt32} {settings : Settings} {g : Gateway Host}

/-- Without a service the host has not got its flows. -/
theorem served_erase (flow : Option FlowSpec) (services : Std.ExtTreeMap String Lease)
    (name : String) :
    ((flow.filter fun spec => services.contains spec.service).map
        fun spec => Maglev.entryOf spec.service spec.flow).filter (·.target ≠ name) =
      (flow.filter fun spec => (services.erase name).contains spec.service).map
        fun spec => Maglev.entryOf spec.service spec.flow := by
  cases flow with
  | none => rfl
  | some spec =>
    have htarget : (Maglev.entryOf spec.service spec.flow).target = spec.service := rfl
    rw [Option.filter_some, Option.filter_some, Std.ExtTreeMap.contains_erase]
    by_cases hname : spec.service = name
    · subst hname
      cases services.contains spec.service <;> simp [Option.filter_some, htarget]
    · have hne : name ≠ spec.service := fun heq => hname heq.symm
      cases services.contains spec.service <;> simp [Option.filter_some, htarget, hname, hne]

theorem FlowsServed.filter {g : Gateway Host} (h : FlowsServed g) (key : String) :
    (g.flows[key]?.filter fun spec => g.services.contains spec.service) = g.flows[key]? := by
  cases hspec : g.flows[key]? with
  | none => rfl
  | some spec =>
    rw [Option.filter_some, if_pos]
    exact Std.ExtTreeMap.contains_iff_mem.mpr (h hspec)

theorem forgetFlows_reflected (h : Reflected floor g) :
    Reflected floor (forgetFlows g) ∧ FlowsServed (forgetFlows g) := by
  have hget (key : String) : (forgetFlows g).flows[key]? =
      g.flows[key]?.filter fun spec => g.services.contains spec.service :=
    getElem?_keepEntries _ _ _
  have hkept {key : String} {spec : FlowSpec} (hspec : (forgetFlows g).flows[key]? = some spec) :
      g.flows[key]? = some spec ∧ g.services.contains spec.service = true := by
    rw [hget] at hspec
    exact Option.filter_eq_some_iff.mp hspec
  refine ⟨⟨h.matched.congr _ _, h.mirrored, fun hspec => h.keys (hkept hspec).1, fun key => ?_⟩,
    fun hspec => (hkept hspec).2⟩
  rw [hget, Option.filter_filter]
  change g.engine.host.hashing.flows[key]? = _
  simp only [h.flows, forgetFlows, Bool.and_self]

/-- If every flow is of a service on record, the host has them all. -/
theorem Reflected.flows_eq (h : Reflected floor g) (hserved : FlowsServed g) (key : String) :
    g.engine.host.hashing.flows[key]? =
      g.flows[key]?.map fun spec => Maglev.entryOf spec.service spec.flow := by
  rw [h.flows, hserved.filter]

/-- The host mirrors the books between two calls. -/
structure Settled (floor : UInt32) (g : Gateway Host) : Prop extends Reflected floor g where
  served : FlowsServed g

theorem Settled.of_flows (hmatched : Matched floor g) (hmirrored : Mirrored g.engine)
    (hkeys : ∀ {key : String} {spec : FlowSpec}, g.flows[key]? = some spec → spec.key = key)
    (hserved : FlowsServed g)
    (hflows : ∀ key : String, g.engine.host.hashing.flows[key]? =
      g.flows[key]?.map fun spec => Maglev.entryOf spec.service spec.flow) : Settled floor g := by
  refine ⟨⟨hmatched, hmirrored, hkeys, fun key => ?_⟩, hserved⟩
  rw [hflows, hserved.filter]

section Calls

variable (hp : Text.endsWith "nfqlb" settings.program = true)

include hp

theorem dropService_reflected (h : Reflected floor g) (name : String) :
    Reflected floor (dropService (Balancer.engine settings) name g).2 := by
  have hmatched : Matched floor (dropService (Balancer.engine settings) name g).2 :=
    dropService_matched h.matched name
  have hdrop (hok : (deleteService settings name g.engine).1 = .ok ()) :
      dropService (Balancer.engine settings) name g = (.ok (), { g with
        engine := (deleteService settings name g.engine).2
        services := g.services.erase name
        endpoints := g.endpoints.erase name }) := by
    rw [dropService_eq, engine_deleteService]
    simp only [hok]
  cases hn : g.engine.registered[name]? with
  | none =>
    have hs : g.services[name]? = none := by rw [h.matched.services]; exact hn
    rw [hdrop (by rw [deleteService_absent settings hn]), deleteService_absent settings hn,
      erase_absent hn, erase_absent hs] at hmatched ⊢
    exact ⟨hmatched, h.mirrored, h.keys, h.flows⟩
  | some l =>
    obtain ⟨hok, hmirrored, hflows⟩ :=
      deleteService_mirrored hp h.mirrored h.matched.sound hn
    rw [hdrop hok] at hmatched ⊢
    refine ⟨hmatched, hmirrored, h.keys, fun key => ?_⟩
    change (deleteService settings name g.engine).2.host.hashing.flows[key]? = _
    rw [hflows, h.flows]
    exact served_erase _ _ _

theorem dropServices_reflected (h : Reflected floor g) (names : List String) :
    Reflected floor (dropped settings names g) :=
  attemptAll_keeps (P := Reflected floor) (fun name _ _ hr => dropService_reflected hp hr name) h

theorem addService_settled (h : Settled settings.firstMark g) (spec : ServiceSpec) :
    Settled settings.firstMark (Roster.addService (Balancer.engine settings) spec g).2 := by
  have hmatched := addService_matched h.matched spec
  rw [Roster.addService_eq] at hmatched ⊢
  split at hmatched
  · rename_i hold
    rw [if_pos hold]
    exact h
  rename_i hnew
  rw [if_neg hnew, engine_addService]
  rw [engine_addService] at hmatched
  have hn : g.engine.registered[spec.name]? = none := by
    rw [← h.matched.services]
    exact Std.ExtTreeMap.getElem?_eq_none hnew
  obtain ⟨hmirrored, hflows⟩ :=
    addService_mirrored hp h.mirrored h.matched.sound hn spec.maxEndpoints
  generalize Balancer.addService settings spec.name spec.maxEndpoints g.engine = added at *
  match added with
  | (.error fault, b) =>
    refine .of_flows hmatched hmirrored h.keys h.served fun key => ?_
    change b.host.hashing.flows[key]? = _
    rw [hflows]
    exact h.flows_eq h.served key
  | (.ok l, b) =>
    refine .of_flows hmatched hmirrored h.keys (fun hspec => ?_) fun key => ?_
    · exact Std.ExtTreeMap.mem_insert.mpr (.inr (h.served hspec))
    · change b.host.hashing.flows[key]? = _
      rw [hflows]
      exact h.flows_eq h.served key

theorem setServices_settled (h : Settled settings.firstMark g) (specs : List ServiceSpec) :
    Settled settings.firstMark (setServices (Balancer.engine settings) specs g).2 := by
  rw [setServices_eq]
  refine addServices_keeps _ (P := Settled settings.firstMark)
    (fun spec _ r hr => addService_settled hp hr spec) ?_
  obtain ⟨hreflected, hserved⟩ :=
    forgetFlows_reflected (dropServices_reflected hp h.toReflected (g.staleServices specs))
  exact ⟨hreflected, hserved⟩

theorem dropFlow_settled (h : Settled floor g) (key : String) :
    Settled floor (dropFlow (Balancer.engine settings) key g).2 := by
  rw [dropFlow_eq]
  cases hspec : g.flows[key]? with
  | none => exact h
  | some spec =>
    obtain ⟨l, hl⟩ := exists_of_mem (h.served hspec)
    obtain ⟨hmirrored, hflows⟩ := deleteFlow_mirrored hp h.mirrored spec.flow.name
    have hkey : spec.flow.name = key := h.keys hspec
    simp only [hl, engine_deleteFlow]
    rw [hkey] at hmirrored hflows ⊢
    refine .of_flows (h.matched.congr _ _) hmirrored (fun hs => h.keys (of_getElem?_erase hs).2)
      (fun hs => h.served (of_getElem?_erase hs).2) fun k => ?_
    rw [hflows, Std.ExtTreeMap.getElem?_erase, Std.ExtTreeMap.getElem?_erase]
    split
    · rfl
    · exact h.flows_eq h.served k

theorem putFlow_settled (h : Settled floor g) (spec : FlowSpec) :
    Settled floor (putFlow (Balancer.engine settings) spec g).2 := by
  rw [putFlow_eq]
  cases hl : g.services[spec.service]? with
  | none => exact h
  | some l =>
    obtain ⟨hmirrored, hflows⟩ := addFlow_mirrored hp h.mirrored l.name spec.flow
    simp only [engine_addFlow]
    have hname : l.name = spec.service := by
      rw [h.matched.services] at hl
      exact h.matched.sound.name hl
    rw [hname] at hmirrored hflows ⊢
    refine .of_flows (h.matched.congr _ _) hmirrored (fun {k s} hs => ?_) (fun {k s} hs => ?_)
      fun k => ?_
    · rcases of_getElem?_insert hs with ⟨rfl, rfl⟩ | ⟨-, hs⟩
      · rfl
      · exact h.keys hs
    · rcases of_getElem?_insert hs with ⟨rfl, rfl⟩ | ⟨-, hs⟩
      · exact mem_of_getElem? hl
      · exact h.served hs
    · rw [hflows, Std.ExtTreeMap.getElem?_insert, Std.ExtTreeMap.getElem?_insert]
      change (if compare spec.key k = .eq then _ else _) = _
      split
      · rfl
      · exact h.flows_eq h.served k

theorem setFlows_settled (h : Settled floor g) (specs : List FlowSpec) :
    Settled floor (setFlows (Balancer.engine settings) specs g).2 :=
  setFlows_keeps _ (P := Settled floor) (fun key _ hr => dropFlow_settled hp hr key)
    (fun spec _ hr => putFlow_settled hp hr spec) specs h

/-- What either pass over the endpoints of a service keeps. -/
structure Kept (floor : UInt32) (name : String) (l : Lease)
    (flows : Std.ExtTreeMap String FlowEntry) (b : Balancer Host) : Prop
    extends Leased floor name l b where
  mirrored : Mirrored b
  flows : b.host.hashing.flows = flows

section Kept

variable {name : String} {l : Lease} {flows : Std.ExtTreeMap String FlowEntry} {b : Balancer Host}

theorem Kept.addTarget (h : Kept floor name l flows b) (addresses : List Address) (slot : UInt32) :
    Kept floor name l flows (addTarget settings.program l addresses slot b).2 := by
  obtain ⟨hmirrored, hflows⟩ :=
    addTarget_mirrored hp h.sound h.mirrored h.registered addresses slot
  exact ⟨h.toLeased.addTarget settings.program addresses slot, hmirrored, hflows.trans h.flows⟩

theorem Kept.deleteTarget (h : Kept floor name l flows b) (slot : UInt32) :
    Kept floor name l flows (deleteTarget settings.program l slot b).2 := by
  obtain ⟨-, hmirrored, hflows⟩ := deleteTarget_mirrored hp h.sound h.mirrored h.registered slot
  exact ⟨h.toLeased.deleteTarget settings.program slot, hmirrored, hflows.trans h.flows⟩

theorem Kept.release (service : String) (specs : List EndpointSpec)
    (previous : List ActiveEndpoint) (h : Kept floor name l flows b) :
    Kept floor name l flows
      (release (Balancer.engine settings) service l specs previous b).2 := by
  induction previous generalizing b with
  | nil => exact h
  | cons e rest ih =>
    rw [release_cons]
    split
    · exact ih h
    · have hone := h.deleteTarget hp e.slot
      dsimp only
      split
      · exact ih hone
      · exact ih hone

theorem Kept.converge (service : String) (previous : List ActiveEndpoint)
    (specs : List EndpointSpec) (h : Kept floor name l flows b) :
    Kept floor name l flows
      (converge (Balancer.engine settings) service l previous specs b).2 := by
  rw [converge_eq]
  exact activate_induction (Balancer.engine settings) service l
    (P := fun _ c => Kept floor name l flows c) previous
    (fun _ _ addresses slot hc _ _ _ _ => hc.addTarget hp addresses slot)
    (fun _ _ _ addresses slot hc _ _ _ => hc.addTarget hp addresses slot) _ _ _
    (h.release hp service specs previous)

end Kept

theorem setEndpoints_settled (h : Settled floor g) (service : String) (specs : List EndpointSpec) :
    Settled floor (setEndpoints (Balancer.engine settings) service specs g).2 := by
  have hmatched : Matched floor (setEndpoints (Balancer.engine settings) service specs g).2 :=
    setEndpoints_matched h.matched service specs
  rw [setEndpoints_eq] at hmatched ⊢
  split at hmatched
  · rename_i l previous hl hes
    have hreg : g.engine.registered[service]? = some l := by rw [← h.matched.services]; exact hl
    have hkept : Kept floor service l g.engine.host.hashing.flows g.engine :=
      ⟨⟨h.matched.sound, hreg⟩, h.mirrored, rfl⟩
    have hleft := hkept.converge hp service previous specs
    refine .of_flows hmatched hleft.mirrored h.keys h.served fun key => ?_
    dsimp only
    rw [hleft.flows]
    exact h.flows_eq h.served key
  · exact h

theorem Call.perform_settled (h : Settled settings.firstMark g) (c : Call) :
    Settled settings.firstMark (c.perform (Balancer.engine settings) g).2 := by
  cases c with
  | setServices specs => exact setServices_settled hp h specs
  | setFlows specs => exact setFlows_settled hp h specs
  | setEndpoints service specs => exact setEndpoints_settled hp h service specs

/-- A deletion that succeeds strands no endpoint. -/
theorem Call.perform_live (h : Settled settings.firstMark g) (hlive : AllLive g) (c : Call) :
    AllLive (c.perform (Balancer.engine settings) g).2 := by
  refine (Event.apply_live h.matched hlive (.call c)).mpr ?_
  cases c with
  | setServices specs =>
    intro hgiven
    obtain ⟨front, name, rest, -, l, slot, report, hl, -, hfails, -⟩ := hgiven
    have hreflected := dropServices_reflected hp h.toReflected front
    have hok := (deleteService_mirrored hp hreflected.mirrored hreflected.matched.sound hl).1
    rw [hok] at hfails
    cases hfails
  | setFlows specs => exact id
  | setEndpoints service specs => exact id

end Calls

end VipSteering.Gateway
