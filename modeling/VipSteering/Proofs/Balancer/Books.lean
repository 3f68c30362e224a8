import VipSteering.Balancer.Service
import VipSteering.Proofs.Task
import VipSteering.Store

namespace VipSteering.Balancer

variable {σ : Type}

theorem targetsOf_congr (b : Balancer σ) {l k : Lease} (h : l.number = k.number) :
    b.targetsOf l = b.targetsOf k := by
  rw [targetsOf, targetsOf, h]

/-- Apart from the host, `b'` differs at most in the targets of the lease. -/
structure Confined (l : Lease) (b b' : Balancer σ) : Prop where
  registered : b'.registered = b.registered
  issued : b'.issued = b.issued
  others : ∀ k : Lease, k.number ≠ l.number → b'.targetsOf k = b.targetsOf k

namespace Confined

variable {l : Lease} {b b' b'' : Balancer σ}

theorem host (l : Lease) (b : Balancer σ) (h : σ) : Confined l b { b with host := h } :=
  ⟨rfl, rfl, fun _ _ => rfl⟩

theorem trans (h : Confined l b b') (k : Confined l b' b'') : Confined l b b'' where
  registered := k.registered.trans h.registered
  issued := k.issued.trans h.issued
  others lease hne := (k.others lease hne).trans (h.others lease hne)

theorem alter (l : Lease) (b : Balancer σ) (change : Targets → Targets) (h : σ) :
    Confined l b { b.alterTargets l change with host := h } where
  registered := rfl
  issued := rfl
  others _ hne := targetsOf_alterTargets_of_ne b hne change

end Confined

/-- Apart from the host, `b'` lacks at most some targets of the lease. -/
structure Releases (l : Lease) (b b' : Balancer σ) : Prop extends Confined l b b' where
  kept : ∀ (slot : UInt32) (addresses : List Address),
    (b'.targetsOf l)[slot]? = some addresses → (b.targetsOf l)[slot]? = some addresses

namespace Releases

variable {l : Lease} {b b' b'' : Balancer σ}

theorem host (l : Lease) (b : Balancer σ) (h : σ) : Releases l b { b with host := h } :=
  ⟨.host l b h, fun _ _ hs => hs⟩

theorem trans (h : Releases l b b') (k : Releases l b' b'') : Releases l b b'' :=
  ⟨h.toConfined.trans k.toConfined, fun slot addresses hs =>
    h.kept slot addresses (k.kept slot addresses hs)⟩

theorem mem (h : Releases l b b') {slot : UInt32} (hs : slot ∈ b'.targetsOf l) :
    slot ∈ b.targetsOf l := by
  obtain ⟨addresses, hs⟩ := exists_of_mem hs
  exact mem_of_getElem? (h.kept slot addresses hs)

theorem erase (l : Lease) (b : Balancer σ) (slot : UInt32) (h : σ) :
    Releases l b { b.alterTargets l (·.erase slot) with host := h } := by
  refine ⟨.alter l b _ h, ?_⟩
  intro s addresses hs
  change ((b.alterTargets l (·.erase slot)).targetsOf l)[s]? = some addresses at hs
  rw [targetsOf_alterTargets] at hs
  exact (of_getElem?_erase hs).2

end Releases

variable [Shell σ]

theorem addTarget_eq (program : String) (l : Lease) (addresses : List Address) (slot : UInt32)
    (b : Balancer σ) :
    addTarget program l addresses slot b =
      if l.block.size ≤ slot then (.error (.targetLimit l.name slot l.block.size), b)
      else if slot ∈ b.targetsOf l then (.ok (), b)
      else match Shell.run (activateCommand program l.name slot (l.mark slot)) b.host with
        | (.error cause, host) => (.error (.activate l.name slot cause), { b with host })
        | (.ok _, host) =>
          (.ok (), { b.alterTargets l (·.insert slot addresses) with
            host := (createRoutes (l.mark slot) addresses host).2 }) := by
  rw [addTarget]
  split
  · rfl
  change (if slot ∈ b.targetsOf l then _ else _ : StateM (Balancer σ) (Except Fault Unit)) b = _
  split
  · rfl
  simp only [Task.bind_apply, onHost_apply]
  rcases Shell.run (activateCommand program l.name slot (l.mark slot)) b.host with ⟨_ | _, _⟩ <;>
    rfl

theorem deleteTarget_eq (program : String) (l : Lease) (slot : UInt32) (b : Balancer σ) :
    deleteTarget program l slot b =
      match (b.targetsOf l)[slot]? with
      | none => (.ok (), b)
      | some addresses =>
        let ran := Shell.run (deactivateCommand program l.name slot) b.host
        match ran.1.deleted with
        | .error cause => (.error (.deactivate l.name slot cause), { b with host := ran.2 })
        | .ok () =>
          (.ok (), { b.alterTargets l (·.erase slot) with
            host := (deleteRoutes (l.mark slot) addresses ran.2).2 }) := by
  rw [deleteTarget]
  simp only [Task.bind_apply, Task.get_apply]
  cases (b.targetsOf l)[slot]? with
  | none => rfl
  | some addresses =>
    simp only [Task.bind_apply, onHost_apply]
    cases (Shell.run (deactivateCommand program l.name slot) b.host).1.deleted <;> rfl

theorem addService_eq (settings : Settings) (name : String) (slots : UInt32) (b : Balancer σ) :
    addService settings name slots b =
      match b.registered[name]? with
      | some l => (.ok l, b)
      | none =>
        match Block.allocate settings.firstMark (b.leases.map (·.block)) slots with
        | .error fault => (.error (.network fault), b)
        | .ok block =>
          match Shell.run (initCommand settings.program name slots) b.host with
          | (.error cause, host) => (.error (.init name cause), { b with host })
          | (.ok _, host) =>
            (.ok (register b name block).1, { (register b name block).2 with host }) := by
  rw [addService]
  simp only [Task.bind_apply, Task.get_apply]
  cases b.registered[name]? with
  | some l => rfl
  | none =>
    dsimp only
    cases Block.allocate settings.firstMark (b.leases.map (·.block)) slots with
    | error fault => rfl
    | ok block =>
      simp only [Task.bind_apply, onHost_apply]
      rcases Shell.run (initCommand settings.program name slots) b.host with ⟨_ | _, _⟩ <;> rfl

theorem deleteSegment_eq (program name : String) (s : σ) :
    deleteSegment program name s =
      ((match (Shell.run (deleteCommand program name) s).1.deleted with
        | .error cause => [.deleteSegment name cause]
        | .ok () => []), (Shell.run (deleteCommand program name) s).2) := by
  rw [deleteSegment]
  simp only [Task.bind_apply]
  cases (Shell.run (deleteCommand program name) s).1.deleted <;> rfl

/-- The stages that come after the targets: the flows, then the segment. -/
def clearHost (program name : String) : StateM σ (List Fault × List Fault) := do
  let flows ← deleteFlows program name
  let segment ← deleteSegment program name
  return (flows, segment)

theorem deleteService_eq (settings : Settings) (name : String) (b : Balancer σ) :
    deleteService settings name b =
      match b.registered[name]? with
      | none => (.ok (), b)
      | some l =>
        let held := releaseTargets settings.program l b
        let cleared := clearHost settings.program name held.2.host
        let left : Balancer σ := { held.2 with host := cleared.2 }
        match Report.gather (stage held.1 ++ cleared.1.1.map .one ++ cleared.1.2.map .one) with
        | .error report => (.error report, left)
        | .ok () => (.ok (), { left with registered := left.registered.erase name }) := by
  rw [deleteService]
  simp only [Task.bind_apply, Task.get_apply]
  cases b.registered[name]? with
  | none => rfl
  | some l =>
    simp only [Task.bind_apply, onHost_apply, clearHost, Task.pure_apply]
    generalize Report.gather _ = result
    cases result <;> rfl

section Engine

variable (settings : Settings) (l : Lease) (b : Balancer σ)

theorem engine_addService (name : String) (slots : UInt32) :
    (engine settings).addService name slots b =
      ((addService settings name slots b).1.mapError .one, (addService settings name slots b).2) :=
  rfl

theorem engine_deleteService (name : String) :
    (engine settings).deleteService name b = deleteService settings name b := rfl

theorem engine_addTarget (addresses : List Address) (slot : UInt32) :
    (engine settings).addTarget l addresses slot b =
      ((addTarget settings.program l addresses slot b).1.mapError .one,
        (addTarget settings.program l addresses slot b).2) := rfl

theorem engine_deleteTarget (addresses : List Address) (slot : UInt32) :
    (engine settings).deleteTarget l addresses slot b =
      ((deleteTarget settings.program l slot b).1.mapError .one,
        (deleteTarget settings.program l slot b).2) := rfl

theorem engine_addFlow (flow : Flow) :
    (engine settings).addFlow l flow b =
      ((addFlow settings.program l.name flow b.host).1.mapError .one,
        { b with host := (addFlow settings.program l.name flow b.host).2 }) := rfl

theorem engine_deleteFlow (flow : Flow) :
    (engine settings).deleteFlow l flow b =
      ((deleteFlow settings.program flow.name b.host).1.mapError .one,
        { b with host := (deleteFlow settings.program flow.name b.host).2 }) := rfl

end Engine

/-- A service that is new gets a block that is free, unless there is none or the program fails. -/
theorem addService_cases (settings : Settings) {name : String} (slots : UInt32) {b : Balancer σ}
    (h : b.registered[name]? = none) :
    (∃ fault host, addService settings name slots b = (.error fault, { b with host })) ∨
    (∃ block host,
      Block.allocate settings.firstMark (b.leases.map (·.block)) slots = .ok block ∧
      addService settings name slots b =
        (.ok (register b name block).1, { (register b name block).2 with host })) := by
  rw [addService_eq, h]
  cases hblock : Block.allocate settings.firstMark (b.leases.map (·.block)) slots with
  | error fault => exact .inl ⟨_, b.host, rfl⟩
  | ok block =>
    dsimp only
    split
    · exact .inl ⟨_, _, rfl⟩
    · exact .inr ⟨block, _, rfl, rfl⟩

theorem deleteTarget_releases (program : String) (l : Lease) (slot : UInt32) (b : Balancer σ) :
    Releases l b (deleteTarget program l slot b).2 := by
  rw [deleteTarget_eq]
  split
  · exact .host l b b.host
  · dsimp only
    split
    · exact .host l b _
    · exact .erase l b slot _

theorem addTarget_confined (program : String) (l : Lease) (addresses : List Address)
    (slot : UInt32) (b : Balancer σ) : Confined l b (addTarget program l addresses slot b).2 := by
  rw [addTarget_eq]
  split
  · exact .host l b b.host
  split
  · exact .host l b b.host
  split
  · exact .host l b _
  · exact .alter l b _ _

/-- A slot that was free is recorded exactly if it could be activated. -/
theorem addTarget_targets (program : String) {l : Lease} (addresses : List Address) {slot : UInt32}
    {b : Balancer σ} (h : slot ∉ b.targetsOf l) :
    (addTarget program l addresses slot b).2.targetsOf l =
      match (addTarget program l addresses slot b).1 with
      | .ok () => (b.targetsOf l).insert slot addresses
      | .error _ => b.targetsOf l := by
  rw [addTarget_eq]
  split
  · rfl
  split
  · rfl
  · exact targetsOf_alterTargets b l (·.insert slot addresses)

/-- A slot is off the books exactly if it could be deactivated. -/
theorem deleteTarget_targets (program : String) (l : Lease) (slot : UInt32) (b : Balancer σ) :
    (deleteTarget program l slot b).2.targetsOf l =
      match (deleteTarget program l slot b).1 with
      | .ok () => (b.targetsOf l).erase slot
      | .error _ => b.targetsOf l := by
  rw [deleteTarget_eq]
  cases h : (b.targetsOf l)[slot]? with
  | none =>
    exact (erase_absent h).symm
  | some addresses =>
    dsimp only
    split
    · rfl
    · exact targetsOf_alterTargets b l (·.erase slot)

theorem releaseTargets_releases (program : String) (l : Lease) (b : Balancer σ) :
    Releases l b (releaseTargets program l b).2 := by
  refine attemptAll_keeps (P := Releases l b) (fun slot _ c hc => ?_) (.host l b b.host)
  exact hc.trans (deleteTarget_releases program l slot c)

/-- If no fault is met, the slots that were to be given up are off the books. -/
theorem releaseAll_targets {program : String} {l : Lease} {slots : List UInt32} {b : Balancer σ}
    (hnil : (attemptAll (deleteTarget program l) slots b).1 = []) (slot : UInt32) :
    slot ∈ (attemptAll (deleteTarget program l) slots b).2.targetsOf l ↔
      slot ∈ b.targetsOf l ∧ slot ∉ slots := by
  induction slots generalizing b with
  | nil => simp
  | cons first rest ih =>
    obtain ⟨hok, hrest⟩ := attemptAll_cons_eq_nil.mp hnil
    have htargets := deleteTarget_targets program l first b
    rw [hok] at htargets
    rw [attemptAll_cons, ih hrest, htargets, mem_erase_iff, List.mem_cons, not_or, and_assoc]

theorem releaseTargets_empty {program : String} {l : Lease} {b : Balancer σ}
    (hnil : (releaseTargets program l b).1 = []) :
    (releaseTargets program l b).2.targetsOf l = ∅ := by
  apply Std.ExtTreeMap.eq_empty_iff_forall_not_mem.mpr
  intro slot hmem
  obtain ⟨hold, hnot⟩ := (releaseAll_targets hnil slot).mp hmem
  exact hnot (Std.ExtTreeMap.mem_keys.mpr hold)

theorem deleteService_absent (settings : Settings) {name : String} {b : Balancer σ}
    (h : b.registered[name]? = none) :
    deleteService settings name b =
      (.ok (), { b with registered := b.registered.erase name }) := by
  rw [deleteService_eq, h, erase_absent h]

/-- A deletion that fails may have released targets; one that succeeds has the service off the
books as well. -/
theorem deleteService_cases (settings : Settings) {name : String} {l : Lease} {b : Balancer σ}
    (h : b.registered[name]? = some l) :
    (∃ report b', deleteService settings name b = (.error report, b') ∧ Releases l b b') ∨
    (∃ b', deleteService settings name b =
        (.ok (), { b' with registered := b'.registered.erase name }) ∧ Releases l b b') := by
  have hr := releaseTargets_releases settings.program l b
  rw [deleteService_eq, h]
  dsimp only
  split
  · exact .inl ⟨_, _, rfl, hr.trans (.host l _ _)⟩
  · exact .inr ⟨_, rfl, hr.trans (.host l _ _)⟩

/-- What the deletion of a registered service leaves: the stages one after another, and the service
itself is off the books if success is reported. -/
theorem deleteService_left (settings : Settings) {name : String} {l : Lease} {b : Balancer σ}
    (h : b.registered[name]? = some l) :
    (deleteService settings name b).2 = { (releaseTargets settings.program l b).2 with
      host := (clearHost settings.program name (releaseTargets settings.program l b).2.host).2
      registered := match (deleteService settings name b).1 with
        | .ok () => b.registered.erase name
        | .error _ => b.registered } := by
  have hreg := (releaseTargets_releases settings.program l b).registered
  rw [deleteService_eq, h]
  dsimp only
  split
  · dsimp only
    rw [← hreg]
  · dsimp only
    rw [hreg]

theorem heal_eq (b : Balancer σ) : ∃ host, heal b = ((), { b with host }) := by
  have keep (leases : List Lease) (c : Balancer σ) :
      ∃ host, leases.forM (m := StateM (Balancer σ)) healService c = ((), { c with host }) := by
    induction leases generalizing c with
    | nil => exact ⟨c.host, rfl⟩
    | cons l rest ih =>
      obtain ⟨host, h⟩ := ih (healService l c).2
      exact ⟨host, h⟩
  exact keep b.leases b

end VipSteering.Balancer
