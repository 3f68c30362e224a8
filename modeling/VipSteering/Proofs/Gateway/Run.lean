import VipSteering.Balancer.Service
import VipSteering.Roster.Endpoints
import VipSteering.Roster.Flows
import VipSteering.Roster.Services

namespace VipSteering

/-- A roster with a balancer as its engine. -/
abbrev Gateway (σ : Type) := Roster Lease (Balancer σ)

namespace Gateway

variable {σ ε : Type}

inductive Call where
  | setServices (specs : List ServiceSpec)
  | setFlows (specs : List FlowSpec)
  | setEndpoints (service : String) (specs : List EndpointSpec)

/-- What a call asks of the roster. -/
def Call.perform (engine : Engine (Balancer σ) Lease ε) :
    Call → StateM (Gateway σ) (Except (Report (Roster.Fault ε)) Unit)
  | .setServices specs => Roster.setServices engine specs
  | .setFlows specs => Roster.setFlows engine specs
  | .setEndpoints service specs => Roster.setEndpoints engine service specs

inductive Event (σ : Type) where
  | call (call : Call)
  /-- Something befalls the system. -/
  | outside (change : σ → σ)

def Event.apply (engine : Engine (Balancer σ) Lease ε) (g : Gateway σ) : Event σ → Gateway σ
  | .call c => (c.perform engine g).2
  | .outside change => { g with engine := { g.engine with host := change g.engine.host } }

/-- What is left after events in turn. -/
def run (engine : Engine (Balancer σ) Lease ε) (events : List (Event σ)) (g : Gateway σ) :
    Gateway σ :=
  events.foldl (Event.apply engine) g

/-- A gateway that has not been called yet. -/
def fresh (host : σ) : Gateway σ := { engine := { host } }

end Gateway
end VipSteering
