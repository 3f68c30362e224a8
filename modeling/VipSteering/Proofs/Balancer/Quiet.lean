import VipSteering.Proofs.Balancer.Agreed
import VipSteering.Proofs.Balancer.Leases
import VipSteering.Proofs.Balancer.Strays
import VipSteering.Proofs.PolicyRoute.Asking

namespace VipSteering.Balancer

open Host PolicyRoute

/-- No two of the addresses are of one family. -/
def SingleHomed (addresses : List Address) : Prop :=
  ∀ a ∈ addresses, ∀ other ∈ addresses, a.family = other.family → a = other

theorem singleHomed_iff {addresses : List Address} :
    SingleHomed addresses ↔ ∀ a ∈ addresses, lastOf a.family addresses = some a := by
  constructor
  · intro hsingle a ha
    obtain ⟨hop, hlast⟩ := exists_lastOf ha
    obtain ⟨hmem, hfamily⟩ := lastOf_mem hlast
    rw [hlast, hsingle a ha hop hmem hfamily.symm]
  · intro hall a ha other hother hfamily
    have hlast := hall a ha
    rw [hfamily, hall other hother] at hlast
    exact (Option.some.inj hlast).symm

/-- Of the routes by the addresses of a mark only the last of each family is in place. -/
theorem Routed.inPlace_iff {held : UInt32 → List Address → Prop} {r : Routing}
    (hr : Routed held r) {mark : UInt32} {addresses : List Address} (hheld : held mark addresses)
    (hunique : ∀ as, held mark as → as = addresses) {a : Address} (ha : a ∈ addresses) :
    InPlace r mark a ↔ lastOf a.family addresses = some a := by
  have hrule : ruleOf a.family mark ∈ r.rules :=
    (hr.rules _).mpr ⟨addresses, hheld, rfl, List.mem_map.mpr ⟨a, ha, rfl⟩⟩
  have hroute {route : Route} (hof : route.isOf a.family mark = true) :
      route ∈ r.routes ↔ lastOf a.family addresses = some route.gateway := by
    simp only [Route.isOf, Bool.and_eq_true, decide_eq_true_eq] at hof
    rw [hr.routes, hof.1, hof.2]
    constructor
    · intro hgiven
      obtain ⟨as, hheld', hlast⟩ := hgiven
      rwa [hunique as hheld'] at hlast
    · intro hlast
      exact ⟨addresses, hheld, hlast⟩
  have hown : Route.isOf a.family mark ⟨mark, a⟩ = true := by simp [Route.isOf]
  constructor
  · intro hplace
    exact (hroute hown).mp ((hplace.2 ⟨mark, a⟩).mpr rfl).1
  · intro hlast
    refine ⟨hrule, fun route => ?_⟩
    constructor
    · intro hgiven
      obtain ⟨hmem, hof⟩ := hgiven
      have hgateway := (hroute hof).mp hmem
      rw [hlast] at hgateway
      simp only [Route.isOf, Bool.and_eq_true, decide_eq_true_eq] at hof
      obtain ⟨table, gateway⟩ := route
      rw [Option.some.inj hgateway]
      simp only at hof ⊢
      rw [hof.1]
    · intro heq
      rw [heq]
      exact ⟨(hroute hown).mpr hlast, hown⟩

section Heal

variable {b : Balancer Host}

theorem createRoutes_quietIf (mark : UInt32) (addresses : List Address) :
    QuietIf (fun r => ∀ a ∈ addresses, InPlace r mark a) (createRoutes mark addresses) :=
  .forM (fun a => create_quietIf mark a) addresses

theorem createAll_quietIf (holdings : List (UInt32 × List Address)) :
    QuietIf (fun r => ∀ held ∈ holdings, ∀ a ∈ held.2, InPlace r held.1 a) (createAll holdings) :=
  .forM (fun held => createRoutes_quietIf held.1 held.2) holdings

/-- Everything that a repair asserts is in place. -/
def AllInPlace (b : Balancer Host) : Prop :=
  ∀ mark addresses, Held b mark addresses → ∀ a ∈ addresses, InPlace b.host.routing mark a

theorem allInPlace_iff :
    AllInPlace b ↔ ∀ held ∈ b.holdings, ∀ a ∈ held.2, InPlace b.host.routing held.1 a := by
  constructor
  · intro hall held hmem
    exact hall held.1 held.2 (mem_holdings.mp hmem)
  · intro hall mark addresses hheld
    exact hall (mark, addresses) (mem_holdings.mpr hheld)

theorem heal_asked_iff (hf : b.host.faults = []) :
    Asked b.host (heal b).2.host ↔ AllInPlace b := by
  rw [heal_eq_createAll, allInPlace_iff]
  exact (createAll_quietIf b.holdings).asked hf

theorem heal_kept (hf : b.host.faults = []) (hall : AllInPlace b) :
    (heal b).2.host.routing = b.host.routing := by
  rw [heal_eq_createAll]
  exact (createAll_quietIf b.holdings).kept hf (allInPlace_iff.mp hall)

end Heal

/-- Nothing fails on the host, and its rules and routes are those of the recorded targets. -/
structure RoutedFaultless (settings : Settings) (b : Balancer Host) : Prop where
  books : SoundBooks settings b
  faults : b.host.faults = []
  routed : Routed (Held b) b.host.routing

section RoutedFaultless

variable {settings : Settings} {b b' : Balancer Host}

theorem Unmoved.routed (h : Unmoved b b') (hr : Routed (Held b) b.host.routing) :
    Routed (Held b') b'.host.routing := by
  rw [h.routing]
  exact hr.congr h.held

theorem RoutedFaultless.unmoved (h : RoutedFaultless settings b) (hb : Follows settings b b')
    (hsame : Unmoved b b') : RoutedFaultless settings b' :=
  ⟨h.books.grows hb.sound hb.grows, hsame.faults.trans h.faults, hsame.routed h.routed⟩

/-- What lacks at most some targets holds no mark anew. -/
theorem Held.of_releases {l : Lease} (h : Releases l b b') {m : UInt32} {as : List Address}
    (hheld : Held b' m as) : Held b m as := by
  obtain ⟨n, k, slot, hk, hget, hmark⟩ := hheld
  rw [h.registered] at hk
  refine ⟨n, k, slot, hk, ?_, hmark⟩
  by_cases hnumber : k.number = l.number
  · rw [targetsOf_congr b' hnumber] at hget
    rw [targetsOf_congr b hnumber]
    exact h.kept slot as hget
  · rwa [h.others k hnumber] at hget

theorem Held.of_deleteService {name : String} {m : UInt32} {as : List Address}
    (hheld : Held (deleteService settings name b).2 m as) : Held b m as := by
  have herased {c : Balancer Host} (hgiven : Held { c with
      registered := c.registered.erase name } m as) : Held c m as := by
    obtain ⟨n, k, slot, hk, hget, hmark⟩ := hgiven
    exact ⟨n, k, slot, (of_getElem?_erase hk).2, hget, hmark⟩
  cases hl : b.registered[name]? with
  | none =>
    rw [deleteService_absent settings hl] at hheld
    exact herased hheld
  | some l =>
    rcases deleteService_cases settings hl with ⟨_, left, heq, hr⟩ | ⟨left, heq, hr⟩
    · rw [heq] at hheld
      exact hheld.of_releases hr
    · rw [heq] at hheld
      exact (herased hheld).of_releases hr

/-- Where nothing fails, the entries of targets that are given up are deleted, and no others. -/
theorem RoutedFaultless.sheds (h : RoutedFaultless settings b) (hb : Follows settings b b')
    (hsheds : ∀ e, Sheds e b b') (hheld : ∀ m as, Held b' m as → Held b m as) :
    RoutedFaultless settings b' := by
  have hrouted := routed_iff.mp h.routed
  have hsound := h.books.sound
  -- What the host refuses is the same whichever entry is looked at.
  have hfaults := (hsheds (.rule (ruleOf .ipv4 0))).faults
  refine ⟨h.books.grows hb.sound hb.grows, hfaults.trans h.faults, routed_iff.mpr fun e => ?_⟩
  by_cases hup : Upholds b' e
  · obtain ⟨-, -, hhas⟩ := (hsheds e).kept hup
    refine hhas.trans ((hrouted e).trans ?_)
    constructor
    · intro hgiven
      obtain ⟨m, as, hbefore, hserves⟩ := hgiven
      obtain ⟨m', as', hafter, hbelongs⟩ := hup
      obtain rfl := hserves.isNamedBy.belongsTo.mark_eq hbelongs
      obtain rfl := (hheld _ _ hafter).unique hsound hbefore
      exact ⟨m, _, hafter, hserves⟩
    · intro hgiven
      obtain ⟨m, as, hafter, hserves⟩ := hgiven
      exact ⟨m, as, hheld m as hafter, hserves⟩
  · refine iff_of_false (fun hin => ?_) fun hgiven => ?_
    · obtain ⟨hbefore, hrefused⟩ := ((hsheds e).gone hup).mp hin
      exact not_refuses h.faults _
        (hrefused (((hrouted e).mp hbefore).mono fun _ _ hs => hs.isNamedBy))
    · exact hup (hgiven.mono fun _ _ hs => hs.isNamedBy.belongsTo)

theorem addTarget_routed {program n : String} {floor : UInt32} {l : Lease}
    (hp : Text.endsWith "nfqlb" program = true) (h : Sound floor b)
    (hl : b.registered[n]? = some l) (hf : b.host.faults = [])
    (hr : Routed (Held b) b.host.routing) (addresses : List Address) (slot : UInt32) :
    Routed (Held (addTarget program l addresses slot b).2)
      (addTarget program l addresses slot b).2.host.routing := by
  obtain ⟨hashing, journal, hsame | ⟨hslot, hfree, hadded⟩⟩ := addTarget_left hp l addresses slot b
  · rw [hsame]
    exact hr
  · obtain ⟨routing, journal', hcreated, hrouted⟩ := createRoutes_healthy
      (h := { b.host with hashing, journal }) hf (Held.free h hl hslot hfree) hr addresses
    rw [hadded, hcreated]
    exact hrouted.congr (held_record h hl addresses hfree)

theorem heal_routedFaultless (h : RoutedFaultless settings b) : RoutedFaultless settings
    (heal b).2 := by
  obtain ⟨routing, journal, heq⟩ := heal_frame b
  have hhas := has_heal h.books.sound h.faults
  have hrouted := routed_iff.mp h.routed
  rw [heq] at hhas ⊢
  refine ⟨h.books.host _, h.faults, routed_iff.mpr fun e => (hhas e).trans ?_⟩
  rw [or_iff_left]
  · rfl
  · intro hgiven
    exact hgiven.2 (((hrouted e).mp hgiven.1).mono fun _ _ hs => hs.isNamedBy.belongsTo)

theorem perform_routedFaultless (h : RoutedFaultless settings b) (op : Operation) :
    RoutedFaultless settings (op.perform settings b) := by
  have hsound := h.books.sound
  cases op with
  | addService name slots =>
    exact h.unmoved (addService_follows hsound name slots) (addService_unmoved hsound name slots)
  | deleteService name =>
    exact h.sheds (deleteService_follows hsound name)
      (deleteService_sheds hsound fun _ => h.books.program) fun _ _ => .of_deleteService
  | addFlow name flow =>
    refine Operation.withLease_keeps h fun l hl => h.unmoved (.host hsound _) ?_
    obtain ⟨tables, journal, hframe⟩ :=
      addFlow_frame (h.books.program hl) b.host l.name flow
    change Unmoved b { b with host := (Balancer.addFlow settings.program l.name flow b.host).2 }
    rw [hframe]
    exact .host b (by rfl) (by rfl)
  | deleteFlow name flow =>
    refine Operation.withLease_keeps h fun l hl => h.unmoved (.host hsound _) ?_
    obtain ⟨tables, journal, hframe⟩ :=
      deleteFlow_frame (h.books.program hl) b.host flow.name
    change Unmoved b { b with host := (Balancer.deleteFlow settings.program flow.name b.host).2 }
    rw [hframe]
    exact .host b (by rfl) (by rfl)
  | addTarget name addresses slot =>
    refine Operation.withLease_keeps h fun l hl => ?_
    have hp := h.books.program hl
    have hfollows := addTarget_follows hsound (hsound.knows hl) addresses slot
    exact ⟨h.books.grows hfollows.sound hfollows.grows,
      (addTarget_alike hp l addresses slot b).faults.trans h.faults,
      addTarget_routed hp hsound hl h.faults h.routed addresses slot⟩
  | deleteTarget name addresses slot =>
    refine Operation.withLease_keeps h fun l hl => ?_
    exact h.sheds (deleteTarget_follows hsound l slot)
      (fun e => deleteTarget_sheds (h.books.program hl) hsound hl e slot)
      fun _ _ => .of_releases (deleteTarget_releases settings.program l slot b)
  | heal => exact heal_routedFaultless h

theorem run_routedFaultless (h : RoutedFaultless settings b) (ops : List Operation) :
    RoutedFaultless settings (Operation.run settings ops b) := by
  induction ops generalizing b with
  | nil => exact h
  | cons op rest ih => exact ih (perform_routedFaultless h op)

/-- A balancer that starts on a host without rules and routes. -/
theorem RoutedFaultless.empty (settings : Settings) (host : Host) :
    RoutedFaultless settings { host := host.dropRoutes.clearFaults } := by
  refine ⟨.empty settings _, rfl, routed_iff.mpr fun e => ?_⟩
  refine iff_of_false (fun hin => ?_) fun hgiven => ?_
  · cases e with
    | rule r => exact Std.ExtTreeSet.not_mem_empty hin
    | route r => exact Std.ExtTreeSet.not_mem_empty hin
  · obtain ⟨m, as, ⟨n, l, slot, hl, -, -⟩, -⟩ := hgiven
    simp at hl

theorem RoutedFaultless.allInPlace_iff (h : RoutedFaultless settings b) :
    AllInPlace b ↔ ∀ mark addresses, Held b mark addresses → SingleHomed addresses := by
  have hplace {mark : UInt32} {addresses : List Address} (hheld : Held b mark addresses) :
      (∀ a ∈ addresses, InPlace b.host.routing mark a) ↔ SingleHomed addresses := by
    rw [singleHomed_iff]
    refine forall₂_congr fun a ha => ?_
    exact h.routed.inPlace_iff hheld (fun as hheld' => hheld'.unique h.books.sound hheld) ha
  exact forall₂_congr fun mark addresses => forall_congr' hplace

end RoutedFaultless

/-- If nothing has failed and nothing else has altered rules or routes, a repair issues nothing but
queries exactly if no recorded target has two addresses of one family, and then it leaves everything
as it is. -/
theorem run_quiet_iff (settings : Settings) (host : Host) (ops : List Operation) :
    let b := Operation.run settings ops { host := host.dropRoutes.clearFaults }
    (Asked b.host (heal b).2.host ↔
      ∀ (n : String) (l : Lease) (slot : UInt32) (addresses : List Address),
        b.registered[n]? = some l → (b.targetsOf l)[slot]? = some addresses →
          SingleHomed addresses) ∧
    (Asked b.host (heal b).2.host →
      ∃ journal, (heal b).2 = { b with host := { b.host with journal } }) := by
  intro b
  have h : RoutedFaultless settings b := run_routedFaultless (.empty settings host) ops
  constructor
  · rw [heal_asked_iff h.faults, h.allInPlace_iff]
    constructor
    · intro hall n l slot addresses hl hget
      exact hall (l.mark slot) addresses ⟨n, l, slot, hl, hget, rfl⟩
    · intro hall mark addresses hheld
      obtain ⟨n, l, slot, hl, hget, -⟩ := hheld
      exact hall n l slot addresses hl hget
  · intro hasked
    have hkept := heal_kept h.faults ((heal_asked_iff h.faults).mp hasked)
    obtain ⟨routing, journal, heq⟩ := heal_frame b
    rw [heq] at hkept
    obtain rfl : routing = b.host.routing := hkept
    exact ⟨journal, heq⟩

/-- A target with two addresses of one family. -/
def twoHomed : List Operation :=
  [.addService "svc-a" 10, .addTarget "svc-a" [.v4 0x0a000001, .v4 0x0a000002] 0]

/-- Its route is made anew whenever the routes are repaired. -/
theorem twoHomed_not_quiet :
    let b := Operation.run { } twoHomed ({ host := { } } : Balancer Host)
    ¬ Asked b.host (heal b).2.host := by
  intro b hasked
  have h : RoutedFaultless { } b := run_routedFaultless (.empty { } { }) twoHomed
  rw [heal_asked_iff h.faults, h.allInPlace_iff] at hasked
  have hrecorded : b.registered["svc-a"]?.bind (fun l => (b.targetsOf l)[(0 : UInt32)]?) =
      some [.v4 0x0a000001, .v4 0x0a000002] := by
    decide +kernel
  obtain ⟨l, hl, hget⟩ := Option.bind_eq_some_iff.mp hrecorded
  have hsingle := hasked _ _ ⟨_, l, _, hl, hget, rfl⟩
  have hsame := hsingle (.v4 0x0a000001) (by simp) (.v4 0x0a000002) (by simp) rfl
  exact absurd hsame (by decide)

end VipSteering.Balancer
