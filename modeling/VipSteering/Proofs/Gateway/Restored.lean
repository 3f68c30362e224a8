import VipSteering.Proofs.Balancer.Agreed
import VipSteering.Proofs.Balancer.Strays
import VipSteering.Proofs.Gateway.Repeated
import VipSteering.Proofs.Gateway.Leases

namespace VipSteering

open Host PolicyRoute

namespace Balancer

/-- The recorded targets have been routed again, and nothing else has changed. -/
structure Restored (b b' : Balancer Host) : Prop where
  /-- A recorded target has one rule for each family of its addresses. -/
  rule : ∀ {n : String} {l : Lease} {slot : UInt32} {addresses : List Address} {a : Address},
    b.registered[n]? = some l → (b.targetsOf l)[slot]? = some addresses → a ∈ addresses →
      ∀ r : Rule, (r ∈ b'.host.routing.rules ∧
        r.family = a.family ∧ r.mark = l.mark slot ∧ r.table = l.mark slot) ↔
          r = ruleOf a.family (l.mark slot)
  /-- It has one route for each family, by the last address of the family. -/
  route : ∀ {n : String} {l : Lease} {slot : UInt32} {addresses : List Address} {a : Address},
    b.registered[n]? = some l → (b.targetsOf l)[slot]? = some addresses → a ∈ addresses →
      ∃ hop, lastOf a.family addresses = some hop ∧
        ∀ r : Route, (r ∈ b'.host.routing.routes ∧ r.isOf a.family (l.mark slot) = true) ↔
          r = ⟨l.mark slot, hop⟩
  /-- What belongs to no recorded target stays as it is. -/
  others : ∀ e : Entry, ¬ Upholds b e → (Has b' e ↔ Has b e)
  rest : ∃ routing journal, b' = { b with host := { b.host with routing, journal } }

section Heal

variable {floor : UInt32} {b : Balancer Host} (h : Sound floor b) (hf : b.host.faults = [])

include h hf

/-- A mark that is held has, of the families behind it, what serves the addresses. -/
theorem has_heal_of_belongsTo {mark : UInt32} {addresses : List Address}
    (hheld : Held b mark addresses) {e : Entry} (hbelongs : e.BelongsTo mark addresses) :
    Has (heal b).2 e ↔ e.Serves mark addresses := by
  have hupholds : Upholds b e := ⟨mark, addresses, hheld, hbelongs⟩
  rw [has_heal h hf, or_iff_left fun hother => hother.2 hupholds]
  constructor
  · intro hgiven
    obtain ⟨m, as, hheld', hserves⟩ := hgiven
    obtain rfl := hserves.isNamedBy.belongsTo.mark_eq hbelongs
    obtain rfl := hheld.unique h hheld'
    exact hserves
  · intro hserves
    exact ⟨mark, addresses, hheld, hserves⟩

theorem heal_restored : Restored b (heal b).2 where
  rule {n l slot addresses a} hl hget ha r := by
    have hheld : Held b (l.mark slot) addresses := ⟨n, l, slot, hl, hget, rfl⟩
    have hserves : (Entry.rule (ruleOf a.family (l.mark slot))).Serves (l.mark slot) addresses :=
      ⟨a, ha, rfl⟩
    constructor
    · intro hgiven
      obtain ⟨-, hfamily, hmark, htable⟩ := hgiven
      obtain ⟨family, mark, table⟩ := r
      simp only at hfamily hmark htable
      rw [hfamily, hmark, htable]
      rfl
    · intro heq
      rw [heq]
      exact ⟨(has_heal_of_belongsTo h hf hheld hserves.isNamedBy.belongsTo).mpr hserves,
        rfl, rfl, rfl⟩
  route {n l slot addresses a} hl hget ha := by
    have hheld : Held b (l.mark slot) addresses := ⟨n, l, slot, hl, hget, rfl⟩
    obtain ⟨hop, hlast⟩ := exists_lastOf ha
    refine ⟨hop, hlast, fun r => ?_⟩
    have hiff (hof : r.isOf a.family (l.mark slot) = true) :
        r ∈ (heal b).2.host.routing.routes ↔
          r.table = l.mark slot ∧ lastOf r.gateway.family addresses = some r.gateway :=
      has_heal_of_belongsTo h hf hheld (e := .route r) ⟨a, ha, hof⟩
    constructor
    · intro hgiven
      obtain ⟨hmem, hof⟩ := hgiven
      obtain ⟨htable, hgateway⟩ := (hiff hof).mp hmem
      obtain ⟨table, gateway⟩ := r
      simp only [Route.isOf, Bool.and_eq_true, decide_eq_true_eq] at hof htable hgateway
      rw [hof.2, hlast] at hgateway
      rw [htable, Option.some.inj hgateway]
    · intro heq
      have hfamily : hop.family = a.family := (lastOf_mem hlast).2
      have hof : r.isOf a.family (l.mark slot) = true := by
        rw [heq]
        simp [Route.isOf, hfamily]
      refine ⟨(hiff hof).mpr ?_, hof⟩
      rw [heq]
      exact ⟨rfl, by rw [hfamily, hlast]⟩
  others e hnot := by
    rw [has_heal h hf, and_iff_left hnot, or_iff_right]
    exact fun hserves => hnot (hserves.mono fun _ _ hs => hs.isNamedBy.belongsTo)
  rest := heal_frame b

end Heal

end Balancer

namespace Gateway

open Balancer

/-- Whatever has happened to a gateway, to its balancer and to its host, and whatever rules and
routes the host holds: if no command fails, a repair leaves every recorded target with one rule for
each family of its addresses and one route, by the last address of the family. All else stays as it
was. -/
theorem heal_restores_routes (settings : Settings) (fates : Fates) (happenings : List Happening)
    (routing : Routing) :
    let b := (onHost (afterHappenings settings fates happenings)).engine
    let found : Balancer Host := { b with host := { b.host with routing, faults := [] } }
    Restored found (heal found).2 := by
  have hleases := afterHappenings_soundLeases settings fates happenings
  exact heal_restored (hleases.books.sound.host _) rfl

end Gateway

end VipSteering
