import VipSteering.Proofs.Balancer.Identified
import VipSteering.Proofs.Balancer.Refusals

namespace VipSteering.Balancer

open Host PolicyRoute

variable {fates : Fates}

/-- One of the marks that the entry is for is outside the block. -/
def Outside (block : Block) (e : Entry) : Prop := ∃ m ∈ e.marks, block.contains m = false

/-- The segments of other services and what is outside the block are the same. -/
structure Spared (l : Lease) (h h' : Host) : Prop where
  segments : ∀ n : String, n ≠ l.name → h'.hashing.segments[n]? = h.hashing.segments[n]?
  entries : ∀ e : Entry, Outside l.block e → (e.IsIn h'.routing ↔ e.IsIn h.routing)

section Commands

variable {program : String} {l : Lease} {c : Command} {s s' : Flaky fates}

theorem Spared.trans {h h' h'' : Host} (h₁ : Spared l h h') (h₂ : Spared l h' h'') :
    Spared l h h'' where
  segments n hn := (h₂.segments n hn).trans (h₁.segments n hn)
  entries e he := (h₂.entries e he).trans (h₁.entries e he)

/-- A request of the service alters no segment but its own. -/
theorem perform_segments {hashing hashing' : Hashing} {request : Maglev.Request} {output : String}
    (hof : request.IsOf l) (he : Maglev.perform hashing request = .ok (output, hashing'))
    {n : String} (hn : n ≠ l.name) : hashing'.segments[n]? = hashing.segments[n]? := by
  cases request with
  | init segment => cases hof
  | delete segment =>
    obtain rfl := hof
    simp only [Maglev.perform] at he
    split at he
    · cases he
      exact getElem?_erase_of_ne (Ne.symm hn)
    · cases he
  | activate segment slot mark =>
    obtain ⟨rfl, -, -⟩ := hof
    simp only [Maglev.perform] at he
    split at he
    · cases he
    · cases he
      exact getElem?_insert_of_ne (Ne.symm hn) _
  | deactivate segment slot =>
    obtain rfl := hof
    simp only [Maglev.perform] at he
    split at he
    · cases he
    · cases he
      exact getElem?_insert_of_ne (Ne.symm hn) _
  | setFlow name flow =>
    cases he
    rfl
  | deleteFlow name =>
    simp only [Maglev.perform] at he
    split at he
    · cases he
      rfl
    · cases he
  | listFlows =>
    cases he
    rfl

theorem issued_spared (hwithin : l.block.start.toNat + l.block.size.toNat ≤ Block.limit)
    (hc : Issued program l c) (s : Flaky fates) : Spared l s.host (Shell.run c s).2.host where
  segments n hn := by
    rcases Flaky.run_hashing c s with hsame | ⟨request, output, hp, hparse, hperform⟩
    · rw [hsame]
    cases hc with
    | routes slot hslot habout => rw [habout.1] at hp; exact absurd hp (by decide)
    | filter hprogram => rw [hprogram] at hp; exact absurd hp (by decide)
    | hashing _ _ asked hasked hof =>
      obtain rfl := Except.ok.inj (hasked.symm.trans hparse)
      exact perform_segments hof hperform hn
  entries e he := by
    rcases Flaky.run_routing c s with hsame | ⟨json, request, output, hp, hparse, hperform⟩
    · rw [hsame]
    cases hc with
    | routes slot hslot habout =>
      obtain ⟨-, json', asked, hasked, hmarks⟩ := habout
      obtain ⟨rfl, rfl⟩ := Prod.mk.inj (Except.ok.inj (hasked.symm.trans hparse))
      refine perform_unaltered hperform fun halters => ?_
      obtain ⟨m, hm, hout⟩ := he
      obtain rfl := hmarks m (halters.marks_subset hm)
      have hin : l.block.contains (l.mark slot) = true := (Block.contains_mark hwithin hslot).2
      rw [hin] at hout
      cases hout
    | filter hprogram => rw [hprogram] at hp; exact absurd hp (by decide)
    | hashing _ hunroutable => exact absurd hparse (hunroutable _)

theorem spared_of_reaches (hwithin : l.block.start.toNat + l.block.size.toNat ≤ Block.limit)
    (h : Reaches (Issued program l) s s') : Spared l s.host s'.host :=
  h.keeps (P := fun t => Spared l s.host t.host)
    (fun _ t hc ht => ht.trans (issued_spared hwithin hc t)) ⟨fun _ _ => rfl, fun _ _ => Iff.rfl⟩

/-- A command that places a target alters neither flows nor virtual addresses. -/
theorem places_alike (hc : Places program l c) (s : Flaky fates) :
    Alike s.host (Shell.run c s).2.host where
  faults := Flaky.run_faults c s
  tables := by
    rcases Flaky.run_tables c s with hsame | ⟨output, hp, hexecute⟩
    · exact hsame
    cases hc with
    | routes slot hslot habout => rw [habout.1] at hp; exact absurd hp (by decide)
    | activate slot hslot heq =>
      subst heq
      cases hexecute
    | deactivate slot heq =>
      subst heq
      cases hexecute
  flows := by
    rcases Flaky.run_hashing c s with hsame | ⟨request, output, hp, hparse, hperform⟩
    · rw [hsame]
    cases hc with
    | routes slot hslot habout => rw [habout.1] at hp; exact absurd hp (by decide)
    | activate slot hslot heq =>
      rw [heq, Maglev.parse_activateCommand] at hparse
      obtain rfl := Except.ok.inj hparse
      exact Maglev.perform_segmental (r := .activate l.name slot (l.mark slot)) trivial hperform
    | deactivate slot heq =>
      rw [heq, Maglev.parse_deactivateCommand] at hparse
      obtain rfl := Except.ok.inj hparse
      exact Maglev.perform_segmental (r := .deactivate l.name slot) trivial hperform

theorem alike_of_reaches (h : Reaches (Places program l) s s') : Alike s.host s'.host :=
  h.keeps (P := fun t => Alike s.host t.host) (fun _ t hc ht => ht.trans (places_alike hc t))
    (.refl _)

end Commands

/-- The flows of other services are the same. -/
def OthersKept (service : String) (h h' : Host) : Prop :=
  ∀ (key : String) (e : FlowEntry), e.target ≠ service →
    (h'.hashing.flows[key]? = some e ↔ h.hashing.flows[key]? = some e)

section Flows

variable {program service : String} {s s' : Flaky fates}

/-- Whatever a host holds: what can be read from its listing are flows that it holds. -/
theorem listFlows_listed {read : List ListedFlow} (hok : (listFlows program s).1 = .ok read)
    {f : ListedFlow} (hf : f ∈ read) :
    ∃ e : FlowEntry, s.host.hashing.flows[f.flow.name]? = some e ∧ e.target = f.service := by
  rw [listFlows] at hok
  simp only [Task.bind_apply] at hok
  cases hran : (Shell.run (Flow.listCommand program) s).1 with
  | error cause =>
    rw [hran] at hok
    cases hok
  | ok output =>
    rw [hran] at hok
    obtain ⟨-, hhost⟩ := Flaky.run_ok _ s hran
    have hp : Text.endsWith "nfqlb" program = true :=
      endsWith_of_run (c := Flow.listCommand program) (isUnroutable_of_head rfl (by decide))
        (by intro _ _ hexecute; cases hexecute) hhost
    rw [run_maglev_eq (c := Flow.listCommand program) hp (Maglev.parse_flowList program)] at hhost
    split at hhost
    · cases hhost
    cases hread : ListedFlow.readAll? output with
    | none =>
      simp only [hread] at hok
      cases hok
    | some flows =>
      simp only [hread] at hok
      obtain rfl := Except.ok.inj hok
      obtain rfl := Except.ok.inj hhost
      obtain ⟨⟨name, e⟩, hmem, hname, hservice⟩ := ListedFlow.mem_of_readAll?_listing hread hf
      have hget := Std.ExtTreeMap.mem_toList_iff_getElem?_eq_some.mp hmem
      exact ⟨e, by rw [hname]; exact hget, hservice.symm⟩

/-- Neither the listing nor the sets of virtual addresses alter what the program holds. -/
theorem refreshes_hashing {c : Command} (hc : Refreshes program c) (s : Flaky fates) :
    (Shell.run c s).2.host.hashing = s.host.hashing := by
  rcases Flaky.run_hashing c s with hsame | ⟨request, output, hp, hparse, hperform⟩
  · rw [hsame]
  rcases hc with rfl | hfilters
  · rw [Maglev.parse_flowList] at hparse
    obtain rfl := Except.ok.inj hparse
    rw [← (Prod.mk.inj (Except.ok.inj hperform)).2]
  · rw [hfilters.program] at hp
    exact absurd hp (by decide)

theorem removes_othersKept {name : String} {c : Command} (hc : Removes program name c) {h : Host}
    (hname : ∀ e : FlowEntry, h.hashing.flows[name]? = some e → e.target = service)
    (hs : OthersKept service h s.host) : OthersKept service h (Shell.run c s).2.host := by
  intro key e he
  rcases hc with rfl | hrefreshes
  · rcases Flaky.run_hashing (Flow.deleteCommand program name) s with
      hsame | ⟨request, output, -, hparse, hperform⟩
    · rw [hsame]
      exact hs key e he
    rw [Maglev.parse_flowDelete] at hparse
    obtain rfl := Except.ok.inj hparse
    simp only [Maglev.perform] at hperform
    split at hperform
    · rw [← (Prod.mk.inj (Except.ok.inj hperform)).2]
      by_cases hkey : name = key
      · subst hkey
        rw [Std.ExtTreeMap.getElem?_erase_self]
        exact ⟨fun hget => absurd hget (by simp), fun hget => absurd (hname e hget) he⟩
      · rw [getElem?_erase_of_ne hkey]
        exact hs key e he
    · cases hperform
  · rw [refreshes_hashing hrefreshes]
    exact hs key e he

/-- Only flows of the service are deleted. -/
theorem deleteFlows_othersKept (program service : String) (s : Flaky fates) :
    OthersKept service s.host (deleteFlows program service s).2.host := by
  have hlisted : (listFlows program s).2.host.hashing.flows = s.host.hashing.flows :=
    (listFlows_only program s).keeps
      (P := fun t : Flaky fates => t.host.hashing.flows = s.host.hashing.flows)
      (fun c t hc ht => (congrArg (·.flows) (refreshes_hashing (.inl hc) t)).trans ht) rfl
  have hkept : OthersKept service s.host (listFlows program s).2.host := by
    intro key e _
    rw [hlisted]
  rw [deleteFlows]
  simp only [Task.bind_apply]
  cases hread : (listFlows program s).1 with
  | error fault => exact hkept
  | ok read =>
    refine attemptAll_keeps (P := fun t : Flaky fates => OthersKept service s.host t.host)
      (fun name hmem t ht => ?_) hkept
    obtain ⟨f, hf, rfl⟩ := List.mem_map.mp hmem
    obtain ⟨hf, hservice⟩ := List.mem_filter.mp hf
    obtain ⟨e, hget, htarget⟩ := listFlows_listed hread hf
    have hname (d : FlowEntry) (hd : s.host.hashing.flows[f.flow.name]? = some d) :
        d.target = service := by
      obtain rfl : e = d := Option.some.inj (hget.symm.trans hd)
      exact htarget.trans (of_decide_eq_true hservice)
    exact (deleteFlow_removes program f.flow.name t).keeps
      (P := fun t : Flaky fates => OthersKept service s.host t.host)
      (fun c t hc ht => removes_othersKept hc hname ht) ht

theorem deleteSegment_flows (program name : String) (s : Flaky fates) :
    (deleteSegment program name s).2.host.hashing.flows = s.host.hashing.flows := by
  rw [deleteSegment_eq]
  rcases Flaky.run_hashing (deleteCommand program name) s with
    hsame | ⟨request, output, -, hparse, hperform⟩
  · rw [hsame]
  · rw [Maglev.parse_deleteCommand] at hparse
    obtain rfl := Except.ok.inj hparse
    exact Maglev.perform_segmental (r := .delete name) trivial hperform

end Flows

/-- Nothing has changed but what is of the service. -/
structure Isolated (name : String) (b b' : Balancer (Flaky fates)) : Prop where
  registered : ∀ n : String, n ≠ name → b'.registered[n]? = b.registered[n]?
  targets : ∀ (n : String) (l : Lease), n ≠ name → b.registered[n]? = some l →
    b'.targetsOf l = b.targetsOf l
  segments : ∀ n : String, n ≠ name →
    b'.host.host.hashing.segments[n]? = b.host.host.hashing.segments[n]?
  /-- A service that is not registered has no marks. -/
  entries : ∀ e : Entry, (∀ l, b.registered[name]? = some l → Outside l.block e) →
    (e.IsIn b'.host.host.routing ↔ e.IsIn b.host.host.routing)
  flows : OthersKept name b.host.host b'.host.host

section Operations

variable {floor : UInt32} {settings : Settings} {b b' : Balancer (Flaky fates)} {name : String}
  {l : Lease}

theorem Isolated.refl (name : String) (b : Balancer (Flaky fates)) : Isolated name b b :=
  ⟨fun _ _ => rfl, fun _ _ _ _ => rfl, fun _ _ => rfl, fun _ _ => Iff.rfl, fun _ _ _ => Iff.rfl⟩

/-- What is asked for the service of a lease is isolated if the books, apart from the service
itself, differ at most in the targets of the lease. -/
theorem Isolated.of_reaches (h : Sound floor b) (hl : b.registered[name]? = some l)
    (hreg : ∀ n : String, n ≠ name → b'.registered[n]? = b.registered[n]?)
    (htargets : ∀ k : Lease, k.number ≠ l.number → b'.targetsOf k = b.targetsOf k)
    (hreach : Reaches (Issued settings.program l) b.host b'.host)
    (hflows : OthersKept name b.host.host b'.host.host) : Isolated name b b' := by
  obtain rfl := h.name hl
  have hspared := spared_of_reaches (h.within hl) hreach
  refine ⟨hreg, fun n k hn hk => htargets k fun heq => hn (h.number_inj hk hl heq),
    hspared.segments, fun e he => hspared.entries e (he l hl), hflows⟩

/-- What places targets of a service or gives them up leaves all flows and virtual addresses
alone as well. -/
theorem isolated_of_places (h : Sound floor b) (hl : b.registered[name]? = some l)
    (hb : Confined l b b') (hreach : Reaches (Places settings.program l) b.host b'.host) :
    Isolated name b b' ∧ Alike b.host.host b'.host.host := by
  have halike := alike_of_reaches hreach
  refine ⟨.of_reaches h hl (fun n _ => by rw [hb.registered]) hb.others
    (hreach.mono fun _ => Places.issued) fun key e _ => ?_, halike⟩
  rw [halike.flows]

theorem deleteService_othersKept (h : Sound floor b) (hl : b.registered[name]? = some l) :
    OthersKept name b.host.host (deleteService settings name b).2.host.host := by
  obtain rfl := h.name hl
  have hreleased := alike_of_reaches (releaseTargets_reaches settings.program h hl)
  have hcleared (s : Flaky fates) :
      OthersKept l.name s.host (clearHost settings.program l.name s).2.host := by
    intro key e he
    change (deleteSegment settings.program l.name
      (deleteFlows settings.program l.name s).2).2.host.hashing.flows[key]? = _ ↔ _
    rw [deleteSegment_flows]
    exact deleteFlows_othersKept settings.program l.name s key e he
  have hall : OthersKept l.name b.host.host
      (clearHost settings.program l.name (releaseTargets settings.program l b).2.host).2.host := by
    intro key e he
    rw [hcleared _ key e he, hreleased.flows]
  rw [deleteService_eq, hl]
  dsimp only
  split
  · exact hall
  · exact hall

theorem deleteService_isolated (h : Sound floor b) (name : String) :
    Isolated name b (deleteService settings name b).2 := by
  cases hl : b.registered[name]? with
  | none =>
    rw [deleteService_absent settings hl, erase_absent hl]
    exact .refl name b
  | some l =>
    have hreach : Reaches (Issued settings.program l) b.host
        (deleteService settings name b).2.host := deleteService_reaches h hl
    have hflows : OthersKept name b.host.host (deleteService settings name b).2.host.host :=
      deleteService_othersKept h hl
    rcases deleteService_cases settings hl with ⟨report, left, heq, hr⟩ | ⟨left, heq, hr⟩
    · rw [heq] at hreach hflows ⊢
      exact .of_reaches h hl (fun n _ => by rw [hr.registered]) hr.others hreach hflows
    · rw [heq] at hreach hflows ⊢
      refine .of_reaches h hl (fun n hn => ?_) hr.others hreach hflows
      exact (getElem?_erase_of_ne (Ne.symm hn)).trans (by rw [hr.registered])

theorem withLease_isolated {α : Type} {task : Lease → StateM (Balancer (Flaky fates)) α}
    (htask : ∀ l, b.registered[name]? = some l →
      Isolated name b (task l b).2 ∧ Alike b.host.host (task l b).2.host.host) :
    Isolated name b (Operation.withLease b name task) ∧
      Alike b.host.host (Operation.withLease b name task).host.host :=
  Operation.withLease_keeps
    (P := fun c => Isolated name b c ∧ Alike b.host.host c.host.host)
    ⟨.refl name b, .refl _⟩ htask

theorem addTarget_isolated (h : Sound floor b) (name : String) (addresses : List Address)
    (slot : UInt32) :
    let left := (Operation.addTarget name addresses slot).perform settings b
    Isolated name b left ∧ Alike b.host.host left.host.host :=
  withLease_isolated fun l hl => isolated_of_places h hl
    (addTarget_confined settings.program l addresses slot b)
    (addTarget_reaches settings.program l addresses slot b)

theorem deleteTarget_isolated (h : Sound floor b) (name : String) (addresses : List Address)
    (slot : UInt32) :
    let left := (Operation.deleteTarget name addresses slot).perform settings b
    Isolated name b left ∧ Alike b.host.host left.host.host :=
  withLease_isolated fun l hl => isolated_of_places h hl
    (deleteTarget_releases settings.program l slot b).toConfined
    (deleteTarget_reaches settings.program (h.slot_lt hl))

end Operations

namespace Operation

variable {σ : Type}

/-- Something is asked of a balancer, or something befalls its system. -/
inductive Event (σ : Type) where
  | operate (op : Operation)
  | outside (change : σ → σ)

variable [Shell σ]

def Event.apply (settings : Settings) (b : Balancer σ) : Event σ → Balancer σ
  | operate op => op.perform settings b
  | outside change => { b with host := change b.host }

/-- What is left after events in turn. -/
def afterEvents (settings : Settings) (events : List (Event σ)) (b : Balancer σ) : Balancer σ :=
  events.foldl (Event.apply settings) b

theorem afterEvents_sound {settings : Settings} {b : Balancer σ} (h : Sound settings.firstMark b)
    (events : List (Event σ)) : Sound settings.firstMark (afterEvents settings events b) := by
  induction events generalizing b with
  | nil => exact h
  | cons event rest ih =>
    cases event with
    | operate op => exact ih (perform_sound h op)
    | outside change => exact ih (h.host _)

end Operation

end VipSteering.Balancer
