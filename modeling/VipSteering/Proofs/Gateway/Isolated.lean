import VipSteering.Proofs.Balancer.Isolated
import VipSteering.Proofs.Gateway.Calls

namespace VipSteering.Gateway

open Balancer Roster Host

section Endpoints

variable {fates : Fates} {floor : UInt32} {settings : Settings} {g : Gateway (Flaky fates)}

/-- Both passes only place targets of the service and give them up. -/
theorem converge_isolated {b : Balancer (Flaky fates)} {name : String} {l : Lease}
    (h : Sound floor b) (hl : b.registered[name]? = some l) (previous : List ActiveEndpoint)
    (specs : List EndpointSpec) :
    let left := (converge (Balancer.engine settings) name l previous specs b).2
    Isolated name b left ∧ Alike b.host.host left.host.host := by
  have hplaced := converge_engine_keeps (Balancer.engine settings) name l
    (P := fun c => Leased floor name l c ∧ Confined l b c ∧
      Reaches (Places settings.program l) b.host c.host)
    (fun _ slot c hgiven => by
      obtain ⟨hc, hconf, hreach⟩ := hgiven
      exact ⟨hc.deleteTarget settings.program slot,
        hconf.trans (deleteTarget_releases settings.program l slot c).toConfined,
        hreach.trans (deleteTarget_reaches settings.program (hc.sound.slot_lt hc.registered))⟩)
    (fun addresses slot c hgiven => by
      obtain ⟨hc, hconf, hreach⟩ := hgiven
      exact ⟨hc.addTarget settings.program addresses slot,
        hconf.trans (addTarget_confined settings.program l addresses slot c),
        hreach.trans (addTarget_reaches settings.program l addresses slot c)⟩)
    previous specs ⟨⟨h, hl⟩, .host l b b.host, .refl⟩
  exact isolated_of_places h hl hplaced.2.1 hplaced.2.2

theorem setEndpoints_isolated (h : Matched floor g) (name : String) (specs : List EndpointSpec) :
    let left := (setEndpoints (Balancer.engine settings) name specs g).2
    (Isolated name g.engine left.engine ∧ Alike g.engine.host.host left.engine.host.host) ∧
      left.services = g.services ∧ left.flows = g.flows ∧
        ∀ n : String, n ≠ name → left.endpoints[n]? = g.endpoints[n]? := by
  rw [setEndpoints_eq]
  dsimp only
  split
  · rename_i l previous hl hes
    rw [h.services] at hl
    exact ⟨converge_isolated h.sound hl previous specs, rfl, rfl, fun n hn =>
      getElem?_insert_of_ne (Ne.symm hn) _⟩
  · exact ⟨⟨.refl name g.engine, .refl _⟩, rfl, rfl, fun _ _ => rfl⟩

end Endpoints

/-- Whatever a balancer or a gateway has been asked to do, whatever has befallen its host and
whichever commands fail: what is done to the targets of a service, or to the service as a whole, is
isolated from everything else, and what is done to its targets leaves all flows and virtual
addresses alone. -/
theorem run_isolated (settings : Settings) {fates : Fates} (host : Flaky fates) (name : String) :
    (∀ events : List (Operation.Event (Flaky fates)),
      let b := Operation.afterEvents settings events { host }
      Isolated name b ((Operation.deleteService name).perform settings b) ∧
        ∀ (addresses : List Address) (slot : UInt32),
          let added := (Operation.addTarget name addresses slot).perform settings b
          let deleted := (Operation.deleteTarget name addresses slot).perform settings b
          (Isolated name b added ∧ Alike b.host.host added.host.host) ∧
            (Isolated name b deleted ∧ Alike b.host.host deleted.host.host)) ∧
    ∀ (events : List (Event (Flaky fates))) (specs : List EndpointSpec),
      let g := run (Balancer.engine settings) events (fresh host)
      let left := (setEndpoints (Balancer.engine settings) name specs g).2
      (Isolated name g.engine left.engine ∧ Alike g.engine.host.host left.engine.host.host) ∧
        left.services = g.services ∧ left.flows = g.flows ∧
          ∀ n : String, n ≠ name → left.endpoints[n]? = g.endpoints[n]? := by
  constructor
  · intro events b
    have hsound : Sound settings.firstMark b :=
      Operation.afterEvents_sound (.empty settings.firstMark host) events
    exact ⟨deleteService_isolated hsound name, fun addresses slot =>
      ⟨addTarget_isolated hsound name addresses slot,
        deleteTarget_isolated hsound name addresses slot⟩⟩
  · intro events specs g
    exact setEndpoints_isolated (run_matched (.fresh settings.firstMark host) events) name specs

end VipSteering.Gateway
