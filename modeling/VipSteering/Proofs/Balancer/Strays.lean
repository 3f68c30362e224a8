import VipSteering.Proofs.Balancer.Mirror
import VipSteering.Proofs.Balancer.Refusals

namespace VipSteering.Balancer

open Host PolicyRoute

/-- The mark of a recorded target has the entry for a family of the target's addresses. -/
def Upholds (b : Balancer Host) (e : Entry) : Prop := Among (Held b) Entry.BelongsTo e

/-- The entry is part of the policy routes of a recorded target. -/
def NamesEntry (b : Balancer Host) (e : Entry) : Prop := Among (Held b) Entry.IsNamedBy e

def Has (b : Balancer Host) (e : Entry) : Prop := e.IsIn b.host.routing

theorem NamesEntry.upholds {b : Balancer Host} {e : Entry} (h : NamesEntry b e) : Upholds b e :=
  h.mono fun _ _ hnamed => hnamed.belongsTo

/-- Recorded targets, rules and routes are the same, and so is what the host refuses. -/
structure Unmoved (b b' : Balancer Host) : Prop where
  held : ∀ m as, Held b' m as ↔ Held b m as
  routing : b'.host.routing = b.host.routing
  faults : b'.host.faults = b.host.faults

/-- Some targets are given up, as far as the entry is concerned. -/
structure Sheds (e : Entry) (b b' : Balancer Host) : Prop where
  faults : b'.host.faults = b.host.faults
  kept : Upholds b' e → Upholds b e ∧ (NamesEntry b' e ↔ NamesEntry b e) ∧ (Has b' e ↔ Has b e)
  gone : ¬ Upholds b' e → (Has b' e ↔ Has b e ∧ (NamesEntry b e → b.host.Refuses e.deletion))

/-- Some targets are new, as far as the entry is concerned. -/
structure Gains (e : Entry) (b b' : Balancer Host) : Prop where
  upholds : Upholds b e → Upholds b' e
  others : ¬ Upholds b' e → (Has b' e ↔ Has b e)

variable {b b' b'' : Balancer Host} {e : Entry} {mark : UInt32} {addresses : List Address}

theorem refuses_congr {h h' : Host} (hfaults : h'.faults = h.faults) (c : Command) :
    h'.Refuses c ↔ h.Refuses c := by
  rw [Refuses, Refuses, isFaulty, isFaulty, hfaults]

namespace Unmoved

theorem refl (b : Balancer Host) : Unmoved b b := ⟨fun _ _ => Iff.rfl, rfl, rfl⟩

/-- Of the host only rules, routes and what it refuses matter. -/
theorem host (b : Balancer Host) {host : Host} (hrouting : host.routing = b.host.routing)
    (hfaults : host.faults = b.host.faults) : Unmoved b { b with host } :=
  ⟨fun _ _ => Iff.rfl, hrouting, hfaults⟩

theorem has (h : Unmoved b b') (e : Entry) : Has b' e ↔ Has b e := by
  rw [Has, Has, h.routing]

theorem upholds (h : Unmoved b b') (e : Entry) : Upholds b' e ↔ Upholds b e := Among.congr h.held

theorem sheds (h : Unmoved b b') (e : Entry) : Sheds e b b' := by
  have hnames : NamesEntry b' e ↔ NamesEntry b e := Among.congr h.held
  refine ⟨h.faults, fun hup => ⟨(h.upholds e).mp hup, hnames, h.has e⟩, fun hnot => ?_⟩
  rw [h.has, and_iff_left]
  intro hgiven
  exact absurd ((h.upholds e).mpr hgiven.upholds) hnot

theorem gains (h : Unmoved b b') (e : Entry) : Gains e b b' :=
  ⟨(h.upholds e).mpr, fun _ => h.has e⟩

end Unmoved

namespace Sheds

theorem trans (h : Sheds e b b') (k : Sheds e b' b'') : Sheds e b b'' := by
  refine ⟨k.faults.trans h.faults, fun hup => ?_, fun hnot => ?_⟩
  · obtain ⟨hup', hnames', hhas'⟩ := k.kept hup
    obtain ⟨hup, hnames, hhas⟩ := h.kept hup'
    exact ⟨hup, hnames'.trans hnames, hhas'.trans hhas⟩
  · rw [k.gone hnot]
    by_cases hup' : Upholds b' e
    · obtain ⟨-, hnames, hhas⟩ := h.kept hup'
      rw [hnames, hhas, refuses_congr h.faults]
    · rw [and_iff_left fun hnamed => absurd hnamed.upholds hup', h.gone hup']

/-- A target is given up, and those of its entries deleted that can be. -/
theorem remove (hfree : ∀ as, ¬ Held b' mark as)
    (hheld : ∀ m as, Held b m as ↔ extend (Held b') mark addresses m as)
    (hfaults : b'.host.faults = b.host.faults)
    (hhas : Has b' e ↔ Has b e ∧ (e.IsNamedBy mark addresses → b.host.Refuses e.deletion)) :
    Sheds e b b' := by
  have hupholds : Upholds b e ↔ Upholds b' e ∨ e.BelongsTo mark addresses :=
    (Among.congr hheld).trans among_extend
  have hnames : NamesEntry b e ↔ NamesEntry b' e ∨ e.IsNamedBy mark addresses :=
    (Among.congr hheld).trans among_extend
  refine ⟨hfaults, fun hup => ?_, fun hnot => ?_⟩
  · have hother : ¬ e.IsNamedBy mark addresses := fun hnamed =>
      hup.not_belongsTo hfree addresses hnamed.belongsTo
    refine ⟨hupholds.mpr (.inl hup), ?_, ?_⟩
    · rw [hnames, or_iff_left hother]
    · rw [hhas, and_iff_left fun hnamed => absurd hnamed hother]
  · rw [hhas, hnames, or_iff_right fun hnamed => hnot hnamed.upholds]

end Sheds

namespace Gains

theorem trans (h : Gains e b b') (k : Gains e b' b'') : Gains e b b'' :=
  ⟨fun hup => k.upholds (h.upholds hup), fun hnot =>
    (k.others hnot).trans (h.others fun hup => hnot (k.upholds hup))⟩

theorem add (hheld : ∀ m as, Held b' m as ↔ extend (Held b) mark addresses m as)
    (hhas : ¬ e.BelongsTo mark addresses → (Has b' e ↔ Has b e)) : Gains e b b' := by
  have hupholds : Upholds b' e ↔ Upholds b e ∨ e.BelongsTo mark addresses :=
    (Among.congr hheld).trans among_extend
  exact ⟨fun hup => hupholds.mpr (.inl hup), fun hnot => hhas fun hbelongs =>
    hnot (hupholds.mpr (.inr hbelongs))⟩

end Gains

/-- Some targets are given up first and others are new then, as far as the entry is concerned. -/
def Turns (e : Entry) (b b' : Balancer Host) : Prop := ∃ mid, Sheds e b mid ∧ Gains e mid b'

theorem Unmoved.turns (h : Unmoved b b') (e : Entry) : Turns e b b' :=
  ⟨b, (Unmoved.refl b).sheds e, h.gains e⟩

/-- An entry that belongs to no target in the end is there if it was before and has not been
deleted. -/
theorem Turns.has (h : Turns e b b') (hnot : ¬ Upholds b' e) :
    Has b' e ↔ Has b e ∧ (NamesEntry b e → b.host.Refuses e.deletion) := by
  obtain ⟨mid, hsheds, hgains⟩ := h
  exact (hgains.others hnot).trans (hsheds.gone fun hup => hnot (hgains.upholds hup))

section Targets

variable {floor : UInt32} {program n : String} {l : Lease}
  (hp : Text.endsWith "nfqlb" program = true) (h : Sound floor b) (hl : b.registered[n]? = some l)

include hp h hl

theorem deleteTarget_sheds (e : Entry) (slot : UInt32) :
    Sheds e b (deleteTarget program l slot b).2 := by
  rw [deleteTarget_eq]
  cases hget : (b.targetsOf l)[slot]? with
  | none => exact (Unmoved.refl b).sheds e
  | some addresses =>
    obtain ⟨hashing, journal, hran⟩ := run_maglev_frame (c := deactivateCommand program l.name slot)
      hp (Maglev.parse_deactivateCommand program l.name slot) b.host
    dsimp only
    rw [hran]
    split
    · exact (Unmoved.host b (by rfl) (by rfl)).sheds e
    · obtain ⟨hfree, hheld⟩ := held_erase h hl hget
      have hfaults := (only_ip_alike (deleteRoutes_ip (l.mark slot) addresses)
        { b.host with hashing, journal }).faults
      exact .remove hfree hheld hfaults (isIn_deleteRoutes _ (l.mark slot) addresses)

theorem addTarget_gains (e : Entry) (addresses : List Address) (slot : UInt32) :
    Gains e b (addTarget program l addresses slot b).2 := by
  obtain ⟨hashing, journal, hsame | ⟨-, hfree, hadded⟩⟩ := addTarget_left hp l addresses slot b
  · rw [hsame]
    exact (Unmoved.host b (by rfl) (by rfl)).gains e
  · rw [hadded]
    exact .add (held_record h hl addresses hfree) fun hother => createRoutes_spares _ hother

theorem releaseTargets_sheds (e : Entry) : Sheds e b (releaseTargets program l b).2 := by
  refine (attemptAll_keeps (P := fun c => Leased floor n l c ∧ Sheds e b c)
    (fun slot _ c hgiven => ?_) ⟨⟨h, hl⟩, (Unmoved.refl b).sheds e⟩).2
  obtain ⟨hc, hsheds⟩ := hgiven
  exact ⟨hc.deleteTarget program slot,
    hsheds.trans (deleteTarget_sheds hp hc.sound hc.registered e slot)⟩

end Targets

section Services

variable {settings : Settings}

theorem stage_eq_nil {faults : List Fault} (h : stage faults = []) : faults = [] := by
  rw [stage] at h
  split at h
  · rename_i hnone
    exact Report.ofFaults_eq_ok.mp hnone
  · cases h

theorem deleteService_sheds {floor : UInt32} (h : Sound floor b) {name : String}
    (hp : ∀ l : Lease, b.registered[name]? = some l →
      Text.endsWith "nfqlb" settings.program = true) (e : Entry) :
    Sheds e b (deleteService settings name b).2 := by
  cases hl : b.registered[name]? with
  | none =>
    rw [deleteService_absent settings hl, erase_absent hl]
    exact (Unmoved.refl b).sheds e
  | some l =>
    have hp := hp l hl
    have hreleased := releaseTargets_sheds hp h hl e
    have hl' : (releaseTargets settings.program l b).2.registered[name]? = some l := by
      rw [(releaseTargets_releases settings.program l b).registered, hl]
    obtain ⟨flows, tables, journal, hcleared, -⟩ :=
      clearHost_frame hp (releaseTargets settings.program l b).2.host name
    rw [deleteService_eq, hl]
    dsimp only
    rw [hcleared]
    split
    · exact hreleased.trans ((Unmoved.host _ (by rfl) (by rfl)).sheds e)
    · rename_i hgather
      rw [Report.gather_eq_ok, List.append_eq_nil_iff, List.append_eq_nil_iff] at hgather
      have hempty := releaseTargets_empty (stage_eq_nil hgather.1.1)
      refine hreleased.trans (Unmoved.sheds ?_ e)
      exact ⟨held_unregister hl' hempty, rfl, rfl⟩

theorem addService_unmoved (h : Sound settings.firstMark b) (name : String) (slots : UInt32) :
    Unmoved b (addService settings name slots b).2 := by
  obtain ⟨hashing, journal, hran⟩ := init_frame settings.program name slots b.host
  rw [addService_eq]
  split
  · exact .refl b
  rename_i hn
  split
  · exact .refl b
  rename_i block hblock
  split
  · rename_i heq
    rw [heq] at hran
    dsimp only at hran ⊢
    rw [hran]
    exact .host b (by rfl) (by rfl)
  · rename_i heq
    rw [heq] at hran
    dsimp only at hran ⊢
    rw [hran]
    exact ⟨held_register h hn block, rfl, rfl⟩

end Services

section Heal

/-- The marks of the recorded targets of a service, with the addresses behind them. -/
def holdingsOf (b : Balancer Host) (l : Lease) : List (UInt32 × List Address) :=
  (b.targetsOf l).toList.map fun target => (l.mark target.1, target.2)

/-- The marks of all recorded targets, with the addresses behind them. -/
def holdings (b : Balancer Host) : List (UInt32 × List Address) := b.leases.flatMap b.holdingsOf

theorem mem_holdings {m : UInt32} {as : List Address} : (m, as) ∈ b.holdings ↔ Held b m as := by
  rw [holdings, List.mem_flatMap]
  constructor
  · intro hgiven
    obtain ⟨l, hl, hmem⟩ := hgiven
    obtain ⟨n, hn⟩ := mem_leases.mp hl
    obtain ⟨⟨slot, addresses⟩, htarget, heq⟩ := List.mem_map.mp hmem
    obtain ⟨rfl, rfl⟩ := Prod.mk.inj heq
    exact ⟨n, l, slot, hn, Std.ExtTreeMap.mem_toList_iff_getElem?_eq_some.mp htarget, rfl⟩
  · intro hgiven
    obtain ⟨n, l, slot, hn, hget, rfl⟩ := hgiven
    refine ⟨l, mem_leases.mpr ⟨n, hn⟩, List.mem_map.mpr ⟨(slot, as), ?_, rfl⟩⟩
    exact Std.ExtTreeMap.mem_toList_iff_getElem?_eq_some.mpr hget

/-- A mark is held once. -/
theorem Held.unique {floor : UInt32} (h : Sound floor b) {m : UInt32} {as as' : List Address}
    (hheld : Held b m as) (hheld' : Held b m as') : as = as' := by
  obtain ⟨n, l, slot, hl, hget, rfl⟩ := hheld
  obtain ⟨n', l', slot', hl', hget', hmark⟩ := hheld'
  obtain ⟨rfl, rfl⟩ := h.mark_inj hl hl' (h.slot_lt hl (mem_of_getElem? hget))
    (h.slot_lt hl' (mem_of_getElem? hget')) hmark
  exact Option.some.inj (hget.symm.trans hget')

/-- Routes each mark of a list to the addresses behind it. -/
def createAll (holdings : List (UInt32 × List Address)) : StateM Host Unit :=
  holdings.forM fun held => createRoutes held.1 held.2

theorem heal_eq_createAll (b : Balancer Host) :
    heal b = ((), { b with host := (createAll b.holdings b.host).2 }) := by
  have service (l : Lease) (host : Host) : healService l { b with host } =
      ((), { b with host := (createAll (b.holdingsOf l) host).2 }) := by
    rw [createAll, holdingsOf, Task.forM_map]
    rfl
  have all (leases : List Lease) (host : Host) :
      leases.forM (m := StateM (Balancer Host)) healService { b with host } =
        ((), { b with host := (createAll (leases.flatMap b.holdingsOf) host).2 }) := by
    induction leases generalizing host with
    | nil => rfl
    | cons l rest ih =>
      rw [Task.forM_cons, service, ih, List.flatMap_cons, createAll, createAll, createAll,
        Task.forM_append]
  exact all b.leases b.host

/-- If nothing fails, an entry that belongs to one of the marks is there exactly if it serves one;
the others stay as they are. -/
theorem isIn_createAll_healthy {holdings : List (UInt32 × List Address)} {host : Host}
    (hf : host.faults = []) (hunique : ∀ p ∈ holdings, ∀ q ∈ holdings, p.1 = q.1 → p.2 = q.2) :
    e.IsIn (createAll holdings host).2.routing ↔
      Among (fun m as => (m, as) ∈ holdings) Entry.Serves e ∨
        e.IsIn host.routing ∧ ¬ Among (fun m as => (m, as) ∈ holdings) Entry.BelongsTo e := by
  have hcons (P : UInt32 → List Address → Entry → Prop) (first : UInt32 × List Address)
      (rest : List (UInt32 × List Address)) :
      Among (fun m as => (m, as) ∈ first :: rest) P e ↔
        Among (fun m as => (m, as) ∈ rest) P e ∨ P first.1 first.2 e := by
    rw [← among_extend]
    refine Among.congr fun m as => ?_
    rw [List.mem_cons, or_comm, Prod.ext_iff]
    rfl
  induction holdings generalizing host with
  | nil => simp [createAll, Among]
  | cons first rest ih =>
    have hf' : (createRoutes first.1 first.2 host).2.faults = [] :=
      (only_ip_alike (createRoutes_ip first.1 first.2) host).faults.trans hf
    have hunique' : ∀ p ∈ rest, ∀ q ∈ rest, p.1 = q.1 → p.2 = q.2 := fun p hp q hq =>
      hunique p (List.mem_cons_of_mem _ hp) q (List.mem_cons_of_mem _ hq)
    have hstate : createAll (first :: rest) host =
        createAll rest (createRoutes first.1 first.2 host).2 := rfl
    -- A mark that comes again has the same addresses behind it.
    have hagain : e.Serves first.1 first.2 →
        Among (fun m as => (m, as) ∈ rest) Entry.BelongsTo e →
        Among (fun m as => (m, as) ∈ rest) Entry.Serves e := by
      intro hserves hgiven
      obtain ⟨m, as, hmem, hbelongs⟩ := hgiven
      obtain rfl := hserves.isNamedBy.belongsTo.mark_eq hbelongs
      have hsame : first.2 = as :=
        hunique first List.mem_cons_self (first.1, as) (List.mem_cons_of_mem _ hmem) rfl
      exact ⟨first.1, as, hmem, by rwa [← hsame]⟩
    rw [hstate]
    refine (ih hf' hunique').trans ?_
    rw [isIn_createRoutes_healthy hf, hcons, hcons]
    tauto

theorem has_heal {floor : UInt32} (h : Sound floor b) (hf : b.host.faults = []) (e : Entry) :
    Has (heal b).2 e ↔ Among (Held b) Entry.Serves e ∨ Has b e ∧ ¬ Upholds b e := by
  have hunique : ∀ p ∈ b.holdings, ∀ q ∈ b.holdings, p.1 = q.1 → p.2 = q.2 := by
    intro p hp q hq heq
    have hheld : Held b p.1 q.2 := by
      rw [heq]
      exact mem_holdings.mp hq
    exact (mem_holdings.mp hp).unique h hheld
  rw [heal_eq_createAll]
  refine (isIn_createAll_healthy hf hunique).trans ?_
  simp only [mem_holdings]
  rfl

end Heal

end VipSteering.Balancer
