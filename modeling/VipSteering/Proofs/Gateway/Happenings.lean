import VipSteering.Proofs.Balancer.Routine
import VipSteering.Proofs.Gateway.Run
import VipSteering.Proofs.Roster.Apply

namespace VipSteering.Gateway

open Balancer Roster Host

section Calls

variable {σ : Type} [Shell σ] {settings : Settings} (g : Gateway σ)

theorem dropService_balancerCommand (name : String) : Reaches BalancerCommand g.engine.host
    (dropService (Balancer.engine settings) name g).2.engine.host := by
  have hreach := deleteService_balancerCommand settings g.engine name
  rw [dropService_eq, engine_deleteService]
  dsimp only
  split
  · exact hreach
  · exact hreach

theorem addService_balancerCommand (spec : ServiceSpec) : Reaches BalancerCommand g.engine.host
    (Roster.addService (Balancer.engine settings) spec g).2.engine.host := by
  have hreach := Balancer.addService_balancerCommand settings g.engine spec.name spec.maxEndpoints
  rw [Roster.addService_eq]
  split
  · exact .refl
  rw [engine_addService]
  dsimp only
  split
  · exact hreach
  · exact hreach

theorem setServices_balancerCommand (specs : List ServiceSpec) :
    Reaches BalancerCommand g.engine.host
    (setServices (Balancer.engine settings) specs g).2.engine.host :=
  setServices_keeps _
    (P := fun r : Gateway σ => Reaches BalancerCommand g.engine.host r.engine.host)
    (fun name r hr => hr.trans (dropService_balancerCommand r name)) (fun _ hr => hr)
    (fun spec r hr => hr.trans (addService_balancerCommand r spec)) specs .refl

theorem dropFlow_balancerCommand (key : String) : Reaches BalancerCommand g.engine.host
    (dropFlow (Balancer.engine settings) key g).2.engine.host := by
  rw [dropFlow_eq]
  split
  · exact .refl
  split
  · exact .refl
  · rename_i spec _ _ l _
    exact (deleteFlow_removes settings.program spec.flow.name).mono
      (fun _ => Removes.balancerCommand) g.engine.host

theorem putFlow_balancerCommand (spec : FlowSpec) : Reaches BalancerCommand g.engine.host
    (putFlow (Balancer.engine settings) spec g).2.engine.host := by
  rw [putFlow_eq]
  split
  · exact .refl
  · rename_i l _
    exact ((addFlow_sets settings.program l.name spec.flow).mono fun _ => Sets.balancerCommand)
      g.engine.host

theorem setFlows_balancerCommand (specs : List FlowSpec) : Reaches BalancerCommand g.engine.host
    (setFlows (Balancer.engine settings) specs g).2.engine.host :=
  setFlows_keeps _ (P := fun r : Gateway σ => Reaches BalancerCommand g.engine.host r.engine.host)
    (fun key r hr => hr.trans (dropFlow_balancerCommand r key))
    (fun spec r hr => hr.trans (putFlow_balancerCommand r spec)) specs .refl

theorem setEndpoints_balancerCommand (service : String) (specs : List EndpointSpec) :
    Reaches BalancerCommand g.engine.host
      (setEndpoints (Balancer.engine settings) service specs g).2.engine.host := by
  rw [setEndpoints_eq]
  split
  · rename_i l previous _ _
    exact converge_engine_keeps (Balancer.engine settings) service l
      (P := fun b => Reaches BalancerCommand g.engine.host b.host)
      (fun _ slot b hb => hb.trans (deleteTarget_balancerCommand b settings.program l slot))
      (fun addresses slot b hb =>
        hb.trans (addTarget_balancerCommand b settings.program l addresses slot))
      previous specs .refl
  · exact .refl

theorem Call.perform_balancerCommand (c : Call) : Reaches BalancerCommand g.engine.host
    (c.perform (Balancer.engine settings) g).2.engine.host := by
  cases c with
  | setServices specs => exact setServices_balancerCommand g specs
  | setFlows specs => exact setFlows_balancerCommand g specs
  | setEndpoints service specs => exact setEndpoints_balancerCommand g service specs

theorem apply_balancerCommand (d : Snapshot) (slots : UInt32) :
    Reaches BalancerCommand g.engine.host
    (Roster.apply (Balancer.engine settings) d slots g).2.engine.host :=
  apply_keeps _ (P := fun r : Gateway σ => Reaches BalancerCommand g.engine.host r.engine.host)
    (fun specs r hr => hr.trans (setServices_balancerCommand r specs))
    (fun specs r hr => hr.trans (setFlows_balancerCommand r specs))
    (fun service specs r hr => hr.trans (setEndpoints_balancerCommand r service specs))
    d slots .refl

theorem Call.perform_consistent {g : Gateway σ} (h : Consistent (Balancer.engine settings) g)
    (c : Call) :
    Consistent (Balancer.engine settings) (c.perform (Balancer.engine settings) g).2 := by
  cases c with
  | setServices specs => exact setServices_consistent h specs
  | setFlows specs => exact setFlows_consistent h specs
  | setEndpoints service specs => exact setEndpoints_consistent h service specs

end Calls

variable {fates : Fates} {settings : Settings}

/-- What may happen to a gateway, to its balancer or to its host. -/
inductive Happening where
  /-- Nothing is on record any more, but the host is what it was. -/
  | restart
  | setUp
  | tearDown (result : Except Command.Failure Unit)
  | call (c : Call)
  | snapshot (d : Snapshot) (slots : UInt32)
  /-- The balancer is asked behind the back of the roster. -/
  | operate (op : Operation)
  | disturb (d : Disturbance)
  /-- Something else alters rules and routes. -/
  | reroute (change : Routing → Routing)

def Happening.apply (settings : Settings) (g : Gateway (Flaky fates)) :
    Happening → Gateway (Flaky fates)
  | restart => fresh g.engine.host
  | setUp =>
    { g with engine := { g.engine with host := (Balancer.setUp settings g.engine.host).2 } }
  | tearDown result =>
    { g with engine := { g.engine with host := (Balancer.tearDown result g.engine.host).2 } }
  | call c => (c.perform (Balancer.engine settings) g).2
  | snapshot d slots => (Roster.apply (Balancer.engine settings) d slots g).2
  | operate op => { g with engine := op.perform settings g.engine }
  | disturb d =>
    { g with engine := { g.engine with host := ⟨d.apply g.engine.host.host⟩ } }
  | reroute change =>
    { g with engine := { g.engine with host :=
      ⟨{ g.engine.host.host with routing := change g.engine.host.host.routing }⟩ } }

/-- What is left after happenings in turn, from an empty host on. -/
def afterHappenings (settings : Settings) (fates : Fates) (happenings : List Happening) :
    Gateway (Flaky fates) :=
  happenings.foldl (Happening.apply settings) (fresh ⟨{ }⟩)

/-- What the commands of a balancer keep is kept by whatever happens, if it is kept where rules and
routes are altered otherwise. -/
theorem Happening.apply_commandInvariant {P : Host → Prop} (hP : CommandInvariant P)
    {happening : Happening}
    (hreroute : ∀ change, happening = .reroute change →
      ∀ h : Host, P h → P { h with routing := change h.routing })
    {g : Gateway (Flaky fates)} (hg : P g.engine.host.host) :
    P (happening.apply settings g).engine.host.host := by
  cases happening with
  | restart => exact hg
  | setUp => exact hP.reaches_flaky (setUp_balancerCommand settings g.engine.host) hg
  | tearDown result => exact hP.reaches_flaky (tearDown_balancerCommand result g.engine.host) hg
  | call c => exact hP.reaches_flaky (c.perform_balancerCommand g) hg
  | snapshot d slots => exact hP.reaches_flaky (apply_balancerCommand g d slots) hg
  | operate op => exact hP.reaches_flaky (perform_balancerCommand settings g.engine op) hg
  | disturb d =>
    obtain ⟨faults, heq⟩ := d.apply_frame g.engine.host.host
    change P (d.apply g.engine.host.host)
    rw [heq]
    exact hP.refuse hg faults
  | reroute change => exact hreroute change rfl _ hg

/-- What holds of the first gateway and is kept by whatever happens holds in the end. -/
theorem afterHappenings_induction {P : Gateway (Flaky fates) → Prop} (h₀ : P (fresh ⟨{ }⟩))
    {happenings : List Happening} (hstep : ∀ (g : Gateway (Flaky fates)), ∀ happening ∈ happenings,
      P g → P (happening.apply settings g)) : P (afterHappenings settings fates happenings) := by
  have hrun (g : Gateway (Flaky fates)) (hg : P g) :
      P (happenings.foldl (Happening.apply settings) g) := by
    induction happenings generalizing g with
    | nil => exact hg
    | cons happening rest ih =>
      exact ih (fun g later hmem => hstep g later (List.mem_cons_of_mem _ hmem)) _
        (hstep g happening List.mem_cons_self hg)
  exact hrun _ h₀

theorem afterHappenings_commandInvariant {P : Host → Prop} (hP : CommandInvariant P) (h₀ : P { })
    {happenings : List Happening} (hreroute : ∀ change, .reroute change ∈ happenings →
      ∀ h : Host, P h → P { h with routing := change h.routing }) :
    P (afterHappenings settings fates happenings).engine.host.host :=
  afterHappenings_induction (P := fun g : Gateway (Flaky fates) => P g.engine.host.host) h₀
    fun _ happening hmem hg => happening.apply_commandInvariant hP
      (fun change heq => hreroute change (heq ▸ hmem)) hg

/-- What is on record is consistent, and the host holds flows that can be read and sets of
addresses. -/
structure ConsistentReadable (settings : Settings) (g : Gateway (Flaky fates)) : Prop where
  consistent : Consistent (Balancer.engine settings) g
  contents : ReadableContents g.engine.host.host

theorem Happening.apply_consistent {g : Gateway (Flaky fates)}
    (h : Consistent (Balancer.engine settings) g) (happening : Happening) :
    Consistent (Balancer.engine settings) (happening.apply settings g) := by
  cases happening with
  | restart => exact .empty _ _
  | setUp | tearDown _ | operate _ | disturb _ | reroute _ => exact h.withEngine _
  | call c => exact c.perform_consistent h
  | snapshot d slots => exact Roster.apply_consistent _ h d slots

theorem afterHappenings_consistentReadable (settings : Settings) (fates : Fates)
    (happenings : List Happening) :
    ConsistentReadable settings (afterHappenings settings fates happenings) :=
  ⟨afterHappenings_induction (.empty _ _) fun _ happening _ hg => happening.apply_consistent hg,
    afterHappenings_commandInvariant ReadableContents.commandInvariant (.empty [])
      fun _ _ _ hw => ⟨hw.readable, hw.addressed⟩⟩

/-- Where the packet filter table is, both of its sets are. -/
theorem afterHappenings_hasBothSets (settings : Settings) (fates : Fates)
    (happenings : List Happening) :
    Classifier.HasBothSets (afterHappenings settings fates happenings).engine.host.host.tables :=
  afterHappenings_commandInvariant hasBothSets_commandInvariant .empty fun _ _ _ hsets => hsets

/-- What else alters rules and routes adds no rule that leads to another table than its own. -/
def Happening.IsStraight : Happening → Prop
  | reroute change => ∀ routing : Routing, Straight routing → Straight (change routing)
  | _ => True

theorem afterHappenings_straight (settings : Settings) (fates : Fates)
    {happenings : List Happening} (h : ∀ happening ∈ happenings, happening.IsStraight) :
    Straight (afterHappenings settings fates happenings).engine.host.host.routing :=
  afterHappenings_commandInvariant straight_commandInvariant (fun rule hmem => by simp at hmem)
    fun change hmem host => h (.reroute change) hmem host.routing

end VipSteering.Gateway
