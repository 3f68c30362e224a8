import Mathlib.Data.List.Induction
import VipSteering.Balancer.Target
import VipSteering.Proofs.PolicyRoute.Entries

namespace VipSteering

open Host PolicyRoute

namespace Balancer

/-- The last of the addresses of a family. -/
def lastOf (family : Family) (addresses : List Address) : Option Address :=
  (addresses.filter (·.family = family)).getLast?

theorem lastOf_concat (family : Family) (addresses : List Address) (a : Address) :
    lastOf family (addresses ++ [a]) =
      if a.family = family then some a else lastOf family addresses := by
  rw [lastOf, List.filter_append]
  by_cases h : a.family = family
  · rw [if_pos h, List.filter_cons_of_pos (by simpa using h), List.filter_nil,
      List.getLast?_concat]
  · rw [if_neg h, List.filter_cons_of_neg (by simpa using h), List.filter_nil, List.append_nil]
    rfl

theorem lastOf_mem {family : Family} {addresses : List Address} {a : Address}
    (h : lastOf family addresses = some a) : a ∈ addresses ∧ a.family = family := by
  simpa using List.mem_filter.mp (List.mem_of_getLast? h)

theorem exists_lastOf {addresses : List Address} {a : Address} (ha : a ∈ addresses) :
    ∃ hop, lastOf a.family addresses = some hop := by
  have hne : addresses.filter (·.family = a.family) ≠ [] :=
    List.ne_nil_of_mem (List.mem_filter.mpr ⟨ha, by simp⟩)
  exact ⟨_, List.getLast?_eq_some_getLast hne⟩

end Balancer

namespace PolicyRoute.Entry

/-- The entry is one that the mark has of a family among the addresses. -/
def BelongsTo (mark : UInt32) (addresses : List Address) (e : Entry) : Prop :=
  ∃ a ∈ addresses, e.IsOf mark a.family

/-- The entry is part of the policy route of the mark by one of the addresses. -/
def IsNamedBy (mark : UInt32) (addresses : List Address) (e : Entry) : Prop :=
  ∃ a ∈ addresses, e.IsPart mark a

/-- The entry is in place when the mark has been routed to the addresses in turn: a rule for each
family, and the route by the last address of the family. -/
def Serves (mark : UInt32) (addresses : List Address) : Entry → Prop
  | rule r => ∃ a ∈ addresses, r = ruleOf a.family mark
  | route r => r.table = mark ∧ Balancer.lastOf r.gateway.family addresses = some r.gateway

variable {e : Entry} {mark m : UInt32} {addresses : List Address}

/-- An entry is of one mark only. -/
theorem IsOf.mark_eq {family family' : Family} (h : e.IsOf mark family) (h' : e.IsOf m family') :
    mark = m := by
  cases e with
  | rule r =>
    obtain rfl := h
    exact congrArg Rule.mark h'
  | route r =>
    simp only [IsOf, Route.isOf, Bool.and_eq_true, decide_eq_true_eq] at h h'
    rw [← h.1, h'.1]

theorem BelongsTo.mark_eq {as : List Address} (h : e.BelongsTo mark addresses)
    (h' : e.BelongsTo m as) : mark = m := by
  obtain ⟨a, -, hof⟩ := h
  obtain ⟨a', -, hof'⟩ := h'
  exact hof.mark_eq hof'

theorem IsNamedBy.belongsTo (h : e.IsNamedBy mark addresses) : e.BelongsTo mark addresses := by
  obtain ⟨a, ha, hpart⟩ := h
  exact ⟨a, ha, hpart.isOf⟩

theorem Serves.isNamedBy (h : e.Serves mark addresses) : e.IsNamedBy mark addresses := by
  cases e with
  | rule r => exact h
  | route r =>
    obtain ⟨rfl, hlast⟩ := h
    exact ⟨r.gateway, (Balancer.lastOf_mem hlast).1, rfl⟩

/-- The policy route that is made last takes the place of those of its family. -/
theorem serves_concat {a : Address} :
    e.Serves mark (addresses ++ [a]) ↔
      e.IsPart mark a ∨ e.Serves mark addresses ∧ ¬ e.IsOf mark a.family := by
  cases e with
  | rule r =>
    by_cases hr : r = ruleOf a.family mark
    · simp [Serves, IsPart, IsOf, hr, or_and_right, exists_or]
    · simp [Serves, IsPart, IsOf, hr, or_and_right, exists_or]
  | route r =>
    obtain ⟨table, gateway⟩ := r
    simp only [Serves, IsPart, IsOf, Route.isOf, Balancer.lastOf_concat, Route.mk.injEq,
      Bool.and_eq_true, decide_eq_true_eq, not_and]
    by_cases htable : table = mark
    · by_cases hfamily : a.family = gateway.family
      · simp [htable, hfamily, eq_comm]
      · have hne : gateway ≠ a := fun heq => hfamily (by rw [heq])
        simp [htable, hfamily, Ne.symm hfamily, hne]
    · simp [htable]

end PolicyRoute.Entry

namespace Balancer

/-- Something holds of the entry for the addresses behind some mark. -/
def Among (held : UInt32 → List Address → Prop) (P : UInt32 → List Address → Entry → Prop)
    (e : Entry) : Prop :=
  ∃ mark addresses, held mark addresses ∧ P mark addresses e

/-- The addresses behind marks, with one mark more. -/
def extend (held : UInt32 → List Address → Prop) (mark : UInt32) (addresses : List Address) :
    UInt32 → List Address → Prop :=
  fun m as => held m as ∨ (m = mark ∧ as = addresses)

section Among

variable {held held' : UInt32 → List Address → Prop} {P Q : UInt32 → List Address → Entry → Prop}
  {mark : UInt32} {addresses : List Address} {e : Entry}

theorem Among.congr (h : ∀ m as, held' m as ↔ held m as) : Among held' P e ↔ Among held P e := by
  simp only [Among, h]

theorem Among.mono (h : Among held P e) (hpq : ∀ m as, P m as e → Q m as e) : Among held Q e := by
  obtain ⟨m, as, hheld, hp⟩ := h
  exact ⟨m, as, hheld, hpq m as hp⟩

theorem among_extend :
    Among (extend held mark addresses) P e ↔ Among held P e ∨ P mark addresses e := by
  constructor
  · intro hgiven
    obtain ⟨m, as, hheld | ⟨rfl, rfl⟩, hp⟩ := hgiven
    · exact .inl ⟨m, as, hheld, hp⟩
    · exact .inr hp
  · intro hgiven
    rcases hgiven with ⟨m, as, hheld, hp⟩ | hp
    · exact ⟨m, as, .inl hheld, hp⟩
    · exact ⟨mark, addresses, .inr ⟨rfl, rfl⟩, hp⟩

/-- What belongs to a mark that is held belongs to no mark that is free. -/
theorem Among.not_belongsTo (h : Among held Entry.BelongsTo e) (hfree : ∀ as, ¬ held mark as)
    (addresses : List Address) : ¬ e.BelongsTo mark addresses := by
  obtain ⟨m, as, hheld, hbelongs⟩ := h
  intro hgiven
  obtain rfl := hgiven.mark_eq hbelongs
  exact hfree as hheld

end Among

section Tasks

variable {mark : UInt32} {addresses : List Address} {e : Entry} {h : Host}

theorem createRoutes_about {σ : Type} [Shell σ] (mark : UInt32) (addresses : List Address) :
    Only (IsAbout mark) (createRoutes (σ := σ) mark addresses) :=
  .forM fun address _ => .discard ((create_only mark address).mono fun _ => IsFor.isAbout)

theorem createRoutes_ip {σ : Type} [Shell σ] (mark : UInt32) (addresses : List Address) :
    Only (·.program = "ip") (createRoutes (σ := σ) mark addresses) :=
  (createRoutes_about mark addresses).mono fun _ hc => hc.1

theorem deleteRoutes_about {σ : Type} [Shell σ] (mark : UInt32) (addresses : List Address) :
    Only (IsAbout mark) (deleteRoutes (σ := σ) mark addresses) :=
  .forM fun address _ => .discard ((delete_only mark address).mono fun _ => IsFor.isAbout)

theorem deleteRoutes_ip {σ : Type} [Shell σ] (mark : UInt32) (addresses : List Address) :
    Only (·.program = "ip") (deleteRoutes (σ := σ) mark addresses) :=
  (deleteRoutes_about mark addresses).mono fun _ hc => hc.1

theorem createRoutes_spares (h : Host) (hother : ¬ e.BelongsTo mark addresses) :
    e.IsIn (createRoutes mark addresses h).2.routing ↔ e.IsIn h.routing := by
  refine Task.forM_keeps (P := fun h' : Host => e.IsIn h'.routing ↔ e.IsIn h.routing)
    (fun a ha h' hkept => ?_) Iff.rfl
  exact (create_spares h' fun hof => hother ⟨a, ha, hof⟩).trans hkept

/-- Entries of the families of the addresses are then those that serve them. -/
theorem isIn_createRoutes_healthy (hf : h.faults = []) (mark : UInt32) (addresses : List Address) :
    e.IsIn (createRoutes mark addresses h).2.routing ↔
      e.Serves mark addresses ∨ e.IsIn h.routing ∧ ¬ e.BelongsTo mark addresses := by
  induction addresses using List.reverseRecOn with
  | nil =>
    cases e with
    | rule r => simp [createRoutes, Entry.Serves, Entry.BelongsTo]
    | route r => simp [createRoutes, Entry.Serves, Entry.BelongsTo, lastOf]
  | append_singleton addresses a ih =>
    have hf' : (createRoutes mark addresses h).2.faults = [] :=
      (only_ip_alike (createRoutes_ip mark addresses) h).faults.trans hf
    have hbelongs : e.BelongsTo mark (addresses ++ [a]) ↔
        e.BelongsTo mark addresses ∨ e.IsOf mark a.family := by
      simp [Entry.BelongsTo, or_and_right, exists_or]
    have hstate : (createRoutes mark (addresses ++ [a]) h).2 =
        (create mark a (createRoutes mark addresses h).2).2 := by
      rw [createRoutes, Task.forM_append]
      rfl
    rw [hstate, isIn_create_healthy hf', ih, Entry.serves_concat, hbelongs]
    tauto

/-- Of the entries that are to go those stay whose deletion is refused. -/
theorem isIn_deleteRoutes (h : Host) (mark : UInt32) (addresses : List Address) :
    e.IsIn (deleteRoutes mark addresses h).2.routing ↔
      e.IsIn h.routing ∧ (e.IsNamedBy mark addresses → h.Refuses e.deletion) := by
  induction addresses generalizing h with
  | nil => simp [deleteRoutes, Entry.IsNamedBy]
  | cons a rest ih =>
    obtain ⟨routing, journal, hframe⟩ :=
      only_ip_frame ((delete_only mark a).mono fun _ hc => hc.1) h
    have hrefuses : (delete mark a h).2.Refuses e.deletion ↔ h.Refuses e.deletion := by
      rw [hframe]
      rfl
    have hnamed : e.IsNamedBy mark (a :: rest) ↔ e.IsPart mark a ∨ e.IsNamedBy mark rest := by
      simp [Entry.IsNamedBy]
    have hstate : (deleteRoutes mark (a :: rest) h).2 =
        (deleteRoutes mark rest (delete mark a h).2).2 := rfl
    rw [hstate, ih, isIn_delete, hrefuses, hnamed, or_imp, and_assoc]

end Tasks

/-- Each mark has a rule for every family among the addresses behind it, and the last address of the
family is where its table leads. -/
structure Routed (held : UInt32 → List Address → Prop) (r : Routing) : Prop where
  rules : ∀ rule : Rule, rule ∈ r.rules ↔ ∃ addresses, held rule.mark addresses ∧
    rule.table = rule.mark ∧ rule.family ∈ addresses.map Address.family
  routes : ∀ route : Route, route ∈ r.routes ↔ ∃ addresses, held route.table addresses ∧
    lastOf route.gateway.family addresses = some route.gateway

section Routed

variable {held held' : UInt32 → List Address → Prop} {mark : UInt32} {r : Routing} {h : Host}

theorem routed_iff : Routed held r ↔ ∀ e : Entry, e.IsIn r ↔ Among held Entry.Serves e := by
  have hrule (rule : Rule) : Among held Entry.Serves (.rule rule) ↔
      ∃ addresses, held rule.mark addresses ∧ rule.table = rule.mark ∧
        rule.family ∈ addresses.map Address.family := by
    constructor
    · intro hgiven
      obtain ⟨m, as, hheld, a, ha, rfl⟩ := hgiven
      exact ⟨as, hheld, rfl, List.mem_map.mpr ⟨a, ha, rfl⟩⟩
    · intro hgiven
      obtain ⟨as, hheld, htable, hfamily⟩ := hgiven
      obtain ⟨a, ha, hfamily⟩ := List.mem_map.mp hfamily
      obtain ⟨family, m, table⟩ := rule
      cases htable
      exact ⟨m, as, hheld, a, ha, by rw [ruleOf, hfamily]⟩
  have hroute (route : Route) : Among held Entry.Serves (.route route) ↔
      ∃ addresses, held route.table addresses ∧
        lastOf route.gateway.family addresses = some route.gateway := by
    constructor
    · intro hgiven
      obtain ⟨m, as, hheld, rfl, hlast⟩ := hgiven
      exact ⟨as, hheld, hlast⟩
    · intro hgiven
      obtain ⟨as, hheld, hlast⟩ := hgiven
      exact ⟨route.table, as, hheld, rfl, hlast⟩
  constructor
  · intro h e
    cases e with
    | rule x => exact (h.rules x).trans (hrule x).symm
    | route x => exact (h.routes x).trans (hroute x).symm
  · intro h
    exact ⟨fun x => (h (.rule x)).trans (hrule x), fun x => (h (.route x)).trans (hroute x)⟩

theorem Routed.congr (h : Routed held r) (heq : ∀ m as, held' m as ↔ held m as) :
    Routed held' r :=
  routed_iff.mpr fun e => (routed_iff.mp h e).trans (Among.congr heq).symm

/-- A mark that was free leads to the addresses in the end. -/
theorem createRoutes_healthy (hf : h.faults = []) (hfree : ∀ as, ¬ held mark as)
    (hr : Routed held h.routing) (addresses : List Address) :
    ∃ routing journal, createRoutes mark addresses h = ((), { h with routing, journal }) ∧
      Routed (extend held mark addresses) routing := by
  obtain ⟨routing, journal, hframe⟩ := only_ip_frame (createRoutes_ip mark addresses) h
  refine ⟨routing, journal, Prod.ext rfl hframe, routed_iff.mpr fun e => ?_⟩
  have hin := isIn_createRoutes_healthy (e := e) hf mark addresses
  rw [hframe, routed_iff.mp hr e] at hin
  rw [hin, among_extend, or_comm]
  refine or_congr_left (and_iff_left_of_imp fun hserves => ?_)
  exact (hserves.mono fun _ _ hs => hs.isNamedBy.belongsTo).not_belongsTo hfree addresses

/-- Without its rules and routes a mark is free. -/
theorem deleteRoutes_healthy (hf : h.faults = []) (hfree : ∀ as, ¬ held mark as)
    {addresses : List Address} (hr : Routed (extend held mark addresses) h.routing) :
    ∃ routing journal, deleteRoutes mark addresses h = ((), { h with routing, journal }) ∧
      Routed held routing := by
  obtain ⟨routing, journal, hframe⟩ := only_ip_frame (deleteRoutes_ip mark addresses) h
  refine ⟨routing, journal, Prod.ext rfl hframe, routed_iff.mpr fun e => ?_⟩
  have hin := isIn_deleteRoutes (e := e) h mark addresses
  rw [hframe, routed_iff.mp hr e, among_extend, imp_iff_not (not_refuses hf _)] at hin
  rw [hin]
  constructor
  · intro hgiven
    obtain ⟨hserves | hserves, hkept⟩ := hgiven
    · exact hserves
    · exact absurd hserves.isNamedBy hkept
  · intro hserves
    have hother := (hserves.mono fun _ _ hs => hs.isNamedBy.belongsTo).not_belongsTo
      hfree addresses
    exact ⟨.inl hserves, fun hnamed => hother hnamed.belongsTo⟩

end Routed

end Balancer
end VipSteering
