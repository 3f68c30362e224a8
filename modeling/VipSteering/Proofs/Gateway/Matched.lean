import VipSteering.Proofs.Gateway.Endpoints
import VipSteering.Proofs.Gateway.Run
import VipSteering.Proofs.Roster.Flows
import VipSteering.Proofs.Roster.Services
import VipSteering.Store

namespace VipSteering.Gateway

open Balancer Roster

variable {σ : Type}

structure Matched (floor : UInt32) (g : Gateway σ) : Prop where
  sound : Sound floor g.engine
  services : g.services = g.engine.registered
  endpoints : ∀ {n : String}, n ∈ g.endpoints ↔ n ∈ g.services
  slots_nodup : ∀ {n : String} {es : List ActiveEndpoint}, g.endpoints[n]? = some es →
    (es.map (·.slot)).Nodup
  holdsAll : ∀ {n : String} {l : Lease} {es : List ActiveEndpoint}, g.services[n]? = some l →
    g.endpoints[n]? = some es → HoldsAllTargets es (g.engine.targetsOf l)

namespace Matched

variable {floor : UInt32} {g : Gateway σ}

theorem fresh (floor : UInt32) (host : σ) : Matched floor (Gateway.fresh host) where
  sound := Sound.empty floor host
  services := rfl
  endpoints := by simp [Gateway.fresh]
  slots_nodup h := by simp [Gateway.fresh] at h
  holdsAll h := by simp [Gateway.fresh] at h

/-- Neither the host nor the flows matter. -/
theorem congr (h : Matched floor g) (host : σ) (flows : Std.ExtTreeMap String FlowSpec) :
    Matched floor { g with engine := { g.engine with host }, flows } :=
  ⟨h.sound.host host, h.services, h.endpoints, h.slots_nodup, h.holdsAll⟩

theorem endpoints_of (h : Matched floor g) {n : String} {l : Lease}
    (hl : g.services[n]? = some l) : ∃ es, g.endpoints[n]? = some es := by
  have hmem : n ∈ g.endpoints := h.endpoints.mpr (mem_of_getElem? hl)
  exact exists_of_mem hmem

/-- Services of one lease are one service. -/
theorem number_inj (h : Matched floor g) {n m : String} {l k : Lease}
    (hl : g.services[n]? = some l) (hk : g.services[m]? = some k) (he : l.number = k.number) :
    n = m := by
  rw [h.services] at hl hk
  exact h.sound.number_inj hl hk he

/-- A service may lose targets and stay. -/
theorem releases (h : Matched floor g) {l : Lease} {b : Balancer σ}
    (hr : Releases l g.engine b) : Matched floor { g with engine := b } where
  sound := h.sound.releases hr
  services := h.services.trans hr.registered.symm
  endpoints := h.endpoints
  slots_nodup := h.slots_nodup
  holdsAll {n k es} hk hes := by
    intro slot addresses hget
    refine h.holdsAll hk hes slot addresses ?_
    by_cases he : k.number = l.number
    · rw [targetsOf_congr b he] at hget
      rw [targetsOf_congr g.engine he]
      exact hr.kept slot addresses hget
    · rwa [hr.others k he] at hget

theorem drop (h : Matched floor g) (name : String) :
    Matched floor { g with
      engine := { g.engine with registered := g.engine.registered.erase name }
      services := g.services.erase name
      endpoints := g.endpoints.erase name } where
  sound := h.sound.unregister name
  services := by rw [h.services]
  endpoints {n} := by simp [Std.ExtTreeMap.mem_erase, h.endpoints]
  slots_nodup hes := h.slots_nodup (of_getElem?_erase hes).2
  holdsAll hl hes := h.holdsAll (of_getElem?_erase hl).2 (of_getElem?_erase hes).2

theorem add (h : Matched floor g) {name : String} {slots : UInt32} {block : Block} (host : σ)
    (hblock : Block.allocate floor (g.engine.leases.map (·.block)) slots = .ok block) :
    Matched floor { g with
      engine := { (register g.engine name block).2 with host }
      services := g.services.insert name (register g.engine name block).1
      endpoints := g.endpoints.insert name [] } where
  sound := (h.sound.register hblock name).host host
  services := by rw [h.services]; rfl
  endpoints {n} := by simp [Std.ExtTreeMap.mem_insert, h.endpoints]
  slots_nodup {n es} hes := by
    rcases of_getElem?_insert hes with ⟨-, rfl⟩ | ⟨-, hes⟩
    · exact List.nodup_nil
    · exact h.slots_nodup hes
  holdsAll {n l es} hl hes := by
    change HoldsAllTargets es (g.engine.targetsOf l)
    rcases of_getElem?_insert hl with ⟨rfl, rfl⟩ | ⟨hne, hl⟩
    · intro slot addresses hget
      rw [h.sound.fresh _ (Nat.le_refl _)] at hget
      simp at hget
    · have hes : g.endpoints[n]? = some es := by
        rwa [getElem?_insert_of_ne (Ne.symm hne)] at hes
      exact h.holdsAll hl hes

/-- One service may get other endpoints and, with them, other targets. -/
theorem converge (h : Matched floor g) {name : String} {l : Lease} (hl : g.services[name]? = some l)
    {b : Balancer σ} (hb : Confined l g.engine b) (hs : Sound floor b) {es : List ActiveEndpoint}
    (hd : (es.map (·.slot)).Nodup) (hc : HoldsAllTargets es (b.targetsOf l)) :
    Matched floor { g with engine := b, endpoints := g.endpoints.insert name es } where
  sound := hs
  services := h.services.trans hb.registered.symm
  endpoints {n} := by
    rw [Std.ExtTreeMap.mem_insert, h.endpoints]
    refine ⟨?_, Or.inr⟩
    intro hgiven
    rcases hgiven with heq | hn
    · obtain rfl := Std.LawfulEqOrd.eq_of_compare heq
      exact mem_of_getElem? hl
    · exact hn
  slots_nodup {n ds} hds := by
    rcases of_getElem?_insert hds with ⟨-, rfl⟩ | ⟨-, hds⟩
    · exact hd
    · exact h.slots_nodup hds
  holdsAll {n k ds} hk hds := by
    rcases of_getElem?_insert hds with ⟨rfl, rfl⟩ | ⟨hne, hds⟩
    · obtain rfl : l = k := Option.some.inj (hl.symm.trans hk)
      exact hc
    · have hnum : k.number ≠ l.number := fun he => hne (h.number_inj hk hl he)
      change HoldsAllTargets ds (b.targetsOf k)
      rw [hb.others k hnum]
      exact h.holdsAll hk hds

end Matched

end VipSteering.Gateway
