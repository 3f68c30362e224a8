import VipSteering.Proofs.Balancer.Owned

namespace VipSteering.Balancer

open Host

/-- What can be asked of a balancer. All but the first two and the last need the service to be
registered. -/
inductive Operation where
  | addService (name : String) (slots : UInt32)
  | deleteService (name : String)
  | addFlow (name : String) (flow : Flow)
  | deleteFlow (name : String) (flow : Flow)
  | addTarget (name : String) (addresses : List Address) (slot : UInt32)
  | deleteTarget (name : String) (addresses : List Address) (slot : UInt32)
  | heal

namespace Operation

/-- Is the operation about the service? Healing is about all of them. -/
def Concerns (n : String) : Operation → Prop
  | addService name _ | deleteService name | addFlow name _ | deleteFlow name _
  | addTarget name _ _ | deleteTarget name _ _ => name = n
  | heal => True

section Perform

variable {σ : Type} [Shell σ]

/-- What the balancer makes of a task for a service, if it is registered. -/
def withLease {α : Type} (b : Balancer σ) (name : String)
    (task : Lease → StateM (Balancer σ) α) : Balancer σ :=
  match b.registered[name]? with
  | none => b
  | some l => (task l b).2

def perform (settings : Settings) (op : Operation) (b : Balancer σ) : Balancer σ :=
  let engine := engine settings
  match op with
  | addService name slots => (engine.addService name slots b).2
  | deleteService name => (engine.deleteService name b).2
  | addFlow name flow => withLease b name fun l => engine.addFlow l flow
  | deleteFlow name flow => withLease b name fun l => engine.deleteFlow l flow
  | addTarget name addresses slot => withLease b name fun l => engine.addTarget l addresses slot
  | deleteTarget name addresses slot =>
    withLease b name fun l => engine.deleteTarget l addresses slot
  | heal => (Balancer.heal b).2

/-- What is left after operations in turn. -/
def run (settings : Settings) (ops : List Operation) (b : Balancer σ) : Balancer σ :=
  ops.foldl (fun b op => op.perform settings b) b

variable {floor : UInt32} {settings : Settings} {b : Balancer σ}

omit [Shell σ] in
theorem withLease_keeps {P : Balancer σ → Prop} (hb : P b) {name : String} {α : Type}
    {task : Lease → StateM (Balancer σ) α}
    (h : ∀ l, b.registered[name]? = some l → P (task l b).2) : P (withLease b name task) := by
  rw [withLease]
  split
  · exact hb
  · rename_i l hl
    exact h l hl

theorem perform_sound (h : Sound settings.firstMark b) (op : Operation) :
    Sound settings.firstMark (op.perform settings b) := by
  cases op with
  | addService name slots => exact addService_sound h name slots
  | deleteService name => exact deleteService_sound settings h name
  | addFlow name flow => exact withLease_keeps h fun l _ => h.host _
  | deleteFlow name flow => exact withLease_keeps h fun l _ => h.host _
  | addTarget name addresses slot =>
    exact withLease_keeps h fun l hl =>
      addTarget_sound settings.program h (h.knows hl) addresses slot
  | deleteTarget name addresses slot =>
    exact withLease_keeps h fun l _ => deleteTarget_sound settings.program l h slot
  | heal => exact heal_sound h

theorem run_sound (h : Sound settings.firstMark b) (ops : List Operation) :
    Sound settings.firstMark (run settings ops b) := by
  induction ops generalizing b with
  | nil => exact h
  | cons op rest ih => exact ih (perform_sound h op)

/-- The command is a request about marks of the block, or has nothing to do with rules and routes. -/
inductive Allowed (settings : Settings) (inBlock : UInt32 → Prop) (c : Command) : Prop where
  | routes (hprogram : c.program = "ip") (json : Bool) (request : Ip.Request)
    (hparse : Ip.parse c.args = .ok (json, request)) (hmarks : ∀ mark ∈ request.marks, inBlock mark)
  | hashing (hprogram : c.program = settings.program) (hunroutable : IsUnroutable c)
  | filter (hprogram : c.program = "nft")

/-- The marks of the registered services that an operation is about. Healing is about the marks of
recorded targets only. -/
def Marks (op : Operation) (b : Balancer σ) (mark : UInt32) : Prop :=
  ∃ (n : String) (l : Lease), op.Concerns n ∧ b.registered[n]? = some l ∧
    l.block.contains mark = true ∧ (op = heal → ∃ slot ∈ b.targetsOf l, mark = l.mark slot)

omit [Shell σ] in
theorem allowed_of_issued (h : Sound floor b) {op : Operation} {n : String} {l : Lease}
    (hop : op.Concerns n) (hne : op ≠ heal) (hl : b.registered[n]? = some l) {c : Command}
    (hc : Issued settings.program l c) : Allowed settings (op.Marks b) c := by
  cases hc with
  | routes slot hslot habout =>
    obtain ⟨hprogram, json, request, hparse, hmarks⟩ := habout
    refine .routes hprogram json request hparse fun mark hmem =>
      ⟨n, l, hop, hl, ?_, fun heal => absurd heal hne⟩
    rw [hmarks mark hmem]
    exact (Block.contains_mark (h.within hl) hslot).2
  | hashing hprogram hunroutable => exact .hashing hprogram hunroutable
  | filter hprogram => exact .filter hprogram

omit [Shell σ] in
theorem allowed_of_repairs (h : Sound floor b) {c : Command} (hc : Repairs b c) :
    Allowed settings (heal.Marks b) c := by
  obtain ⟨n, l, slot, hl, hslot, hprogram, json, request, hparse, hmarks⟩ := hc
  refine .routes hprogram json request hparse fun mark hmem => ?_
  rw [hmarks mark hmem]
  exact ⟨n, l, trivial, hl, (Block.contains_mark (h.within hl) (h.slot_lt hl hslot)).2,
    fun _ => ⟨slot, hslot, rfl⟩⟩

theorem perform_reaches (h : Sound settings.firstMark b) (op : Operation) :
    Reaches (Allowed settings (op.Marks b)) b.host (op.perform settings b).host := by
  have own {name : String} {l : Lease} (hop : op.Concerns name) (hne : op ≠ heal)
      (hl : b.registered[name]? = some l) {s : σ}
      (hs : Reaches (Issued settings.program l) b.host s) :
      Reaches (Allowed settings (op.Marks b)) b.host s :=
    hs.mono fun _ => allowed_of_issued h hop hne hl
  cases op with
  | addService name slots =>
    change Reaches _ b.host (Balancer.addService settings name slots b).2.host
    have hran := Reaches.run (Q := Allowed settings ((addService name slots).Marks b))
      (c := initCommand settings.program name slots)
      (.hashing rfl (isUnroutable_of_head rfl (by decide))) b.host
    rw [addService_eq]
    split
    · exact .refl
    split
    · exact .refl
    split
    · rename_i heq
      rw [heq] at hran
      exact hran
    · rename_i heq
      rw [heq] at hran
      exact hran
  | deleteService name =>
    change Reaches _ b.host (Balancer.deleteService settings name b).2.host
    cases hl : b.registered[name]? with
    | none =>
      rw [deleteService_absent settings hl]
      exact .refl
    | some l => exact own rfl nofun hl (deleteService_reaches h hl)
  | addFlow name flow =>
    refine withLease_keeps (P := fun c => Reaches _ b.host c.host) .refl fun l hl => ?_
    exact own rfl nofun hl (addFlow_only settings.program l flow b.host)
  | deleteFlow name flow =>
    refine withLease_keeps (P := fun c => Reaches _ b.host c.host) .refl fun l hl => ?_
    exact own rfl nofun hl (deleteFlow_only settings.program l flow.name b.host)
  | addTarget name addresses slot =>
    refine withLease_keeps (P := fun c => Reaches _ b.host c.host) .refl fun l hl => ?_
    exact own rfl nofun hl ((addTarget_reaches settings.program l addresses slot b).mono
      fun _ => Places.issued)
  | deleteTarget name addresses slot =>
    refine withLease_keeps (P := fun c => Reaches _ b.host c.host) .refl fun l hl => ?_
    exact own rfl nofun hl ((deleteTarget_reaches settings.program (h.slot_lt hl)).mono
      fun _ => Places.issued)
  | heal => exact (heal_reaches b).mono fun _ => allowed_of_repairs h

end Perform

section Flaky

variable {fates : Fates} {settings : Settings} {b : Balancer (Flaky fates)}

/-- The books are sound, and what is active on the host are slots of registered services. -/
structure SegmentsOwned (settings : Settings) (b : Balancer (Flaky fates)) : Prop where
  sound : Sound settings.firstMark b
  owned : Owned b.registered b.host.host.hashing
  /-- A program that is none for hash tables sets none up. -/
  idle : Text.endsWith "nfqlb" settings.program = false → b.host.host.hashing.segments = ∅

theorem perform_idle (h : Sound settings.firstMark b)
    (hp : Text.endsWith "nfqlb" settings.program = false) (op : Operation) :
    (op.perform settings b).host.host.hashing = b.host.host.hashing := by
  refine (perform_reaches h op).keeps (P := fun s => s.host.hashing = b.host.host.hashing)
    (fun c s hc hs => ?_) rfl
  rcases Flaky.run_hashing c s with hsame | ⟨-, -, hends, -, -⟩
  · exact hsame.trans hs
  · cases hc with
    | routes hprogram => rw [hprogram] at hends; exact absurd hends (by decide)
    | hashing hprogram => rw [hprogram, hp] at hends; cases hends
    | filter hprogram => rw [hprogram] at hends; exact absurd hends (by decide)

theorem addService_owned (h : SegmentsOwned settings b) (name : String) (slots : UInt32) :
    Owned (Balancer.addService settings name slots b).2.registered
      (Balancer.addService settings name slots b).2.host.host.hashing := by
  have hinit := owned_init settings.program name slots h.owned
  rw [addService_eq]
  cases hn : b.registered[name]? with
  | some l => exact h.owned
  | none =>
    dsimp only
    split
    · exact h.owned
    split
    · rename_i heq
      rw [heq] at hinit
      exact hinit
    · rename_i heq
      rw [heq] at hinit
      exact hinit.register hn _

/-- A service is off the books only if its segment is gone. -/
theorem deleteService_owned (hhonest : Honest settings.program fates) (h : SegmentsOwned settings b)
    (name : String) : Owned (Balancer.deleteService settings name b).2.registered
      (Balancer.deleteService settings name b).2.host.host.hashing := by
  cases hl : b.registered[name]? with
  | none =>
    rw [deleteService_absent settings hl, erase_absent hl]
    exact h.owned
  | some l =>
    obtain rfl := h.sound.name hl
    have howned : Owned b.registered
        (Balancer.deleteService settings l.name b).2.host.host.hashing :=
      h.owned.reaches hl (deleteService_reaches h.sound hl)
    have hidle (hp : Text.endsWith "nfqlb" settings.program = false) :
        (Balancer.deleteService settings l.name b).2.host.host.hashing = b.host.host.hashing :=
      perform_idle h.sound hp (.deleteService l.name)
    have hreg := (releaseTargets_releases settings.program l b).registered
    rw [deleteService_eq, hl] at howned hidle ⊢
    dsimp only at howned hidle ⊢
    split
    · rename_i heq
      simp only [heq] at howned
      change Owned (releaseTargets settings.program l b).2.registered _
      rw [hreg]
      exact howned
    · rename_i heq
      simp only [heq] at howned hidle
      change Owned ((releaseTargets settings.program l b).2.registered.erase l.name) _
      rw [hreg]
      refine howned.unregister ?_
      rw [Report.gather_eq_ok, List.append_eq_nil_iff, List.map_eq_nil_iff] at heq
      cases hp : Text.endsWith "nfqlb" settings.program with
      | true => exact not_mem_of_clearHost hp hhonest heq.2
      | false => simp [hidle hp, h.idle hp]

theorem perform_owned (hhonest : Honest settings.program fates) (h : SegmentsOwned settings b)
    (op : Operation) :
    Owned (op.perform settings b).registered (op.perform settings b).host.host.hashing := by
  -- As long as the books stay as they are, it is enough to look at the commands.
  have own {name : String} {l : Lease} (hl : b.registered[name]? = some l)
      {c : Balancer (Flaky fates)} (hreg : c.registered = b.registered)
      (hs : Reaches (Issued settings.program l) b.host c.host) :
      Owned c.registered c.host.host.hashing := by
    obtain rfl := h.sound.name hl
    rw [hreg]
    exact h.owned.reaches hl hs
  have kept {name : String} {α : Type} {task : Lease → StateM (Balancer (Flaky fates)) α}
      (htask : ∀ l, b.registered[name]? = some l →
        Owned (task l b).2.registered (task l b).2.host.host.hashing) :
      Owned (withLease b name task).registered (withLease b name task).host.host.hashing :=
    withLease_keeps (P := fun c : Balancer (Flaky fates) => Owned c.registered c.host.host.hashing)
      h.owned htask
  cases op with
  | addService name slots => exact addService_owned h name slots
  | deleteService name => exact deleteService_owned hhonest h name
  | addFlow name flow =>
    exact kept fun l hl => own hl rfl (addFlow_only settings.program l flow b.host)
  | deleteFlow name flow =>
    exact kept fun l hl => own hl rfl (deleteFlow_only settings.program l flow.name b.host)
  | addTarget name addresses slot =>
    refine kept fun l hl => ?_
    exact own hl (addTarget_confined settings.program l addresses slot b).registered
      ((addTarget_reaches settings.program l addresses slot b).mono fun _ => Places.issued)
  | deleteTarget name addresses slot =>
    refine kept fun l hl => ?_
    exact own hl (deleteTarget_releases settings.program l slot b).registered
      ((deleteTarget_reaches settings.program (h.sound.slot_lt hl)).mono fun _ => Places.issued)
  | heal =>
    obtain ⟨host, hheal⟩ := heal_eq b
    change Owned (Balancer.heal b).2.registered (Balancer.heal b).2.host.host.hashing
    have hreg : (Balancer.heal b).2.registered = b.registered := by rw [hheal]
    rw [hreg]
    refine (heal_reaches b).keeps (P := fun s => Owned b.registered s.host.hashing)
      (fun c s hc hs => ?_) h.owned
    obtain ⟨n, l, hl, hissued⟩ := hc.issued h.sound settings.program
    obtain rfl := h.sound.name hl
    exact owned_issued hl hissued hs

theorem perform_segmentsOwned (hhonest : Honest settings.program fates) (h : SegmentsOwned settings b)
    (op : Operation) : SegmentsOwned settings (op.perform settings b) where
  sound := perform_sound h.sound op
  owned := perform_owned hhonest h op
  idle hp := by rw [perform_idle h.sound hp op, h.idle hp]

theorem run_segmentsOwned (hhonest : Honest settings.program fates) (h : SegmentsOwned settings b)
    (ops : List Operation) : SegmentsOwned settings (run settings ops b) := by
  induction ops generalizing b with
  | nil => exact h
  | cons op rest ih => exact ih (perform_segmentsOwned hhonest h op)

end Flaky

end Operation

/-- Marks of registered services tell the services and the slots apart. -/
structure Separated {σ : Type} (settings : Settings) (b : Balancer σ) : Prop where
  /-- Two blocks share no mark. -/
  disjoint : ∀ (n m : String) (l k : Lease) (mark : UInt32), b.registered[n]? = some l →
    b.registered[m]? = some k → l.block.contains mark = true → k.block.contains mark = true → n = m
  /-- No block reaches down to the tables of the system. -/
  floor_le : ∀ (n : String) (l : Lease), b.registered[n]? = some l →
    settings.firstMark ≤ l.block.start ∧ Settings.leastMark ≤ l.block.start
  /-- No block runs past the last mark there is. -/
  within : ∀ (n : String) (l : Lease), b.registered[n]? = some l →
    l.block.start.toNat + l.block.size.toNat ≤ UInt32.size
  /-- The mark of a recorded target is its slot's number behind the first of the block. -/
  recorded : ∀ (n : String) (l : Lease) (slot : UInt32), b.registered[n]? = some l →
    slot ∈ b.targetsOf l → slot < l.block.size ∧
      (l.mark slot).toNat = l.block.start.toNat + slot.toNat ∧ l.block.contains (l.mark slot) = true

/-- An active mark tells the service and the slot. -/
structure Identified (registered : Std.ExtTreeMap String Lease) (h : Hashing) : Prop where
  owned : Owned registered h
  /-- Marks that are active are active once. -/
  distinct : ∀ (n m : String) (slot slot' mark : UInt32), Active h n slot mark →
    Active h m slot' mark → n = m ∧ slot = slot'

section Identified

variable {settings : Settings}

theorem firstMark_of_validate (hvalid : settings.validate = .ok ()) :
    Settings.leastMark ≤ settings.firstMark := by
  rw [Settings.validate] at hvalid
  split at hvalid
  · cases hvalid
  split at hvalid
  · cases hvalid
  split at hvalid
  · cases hvalid
  · rename_i hleast
    simpa using hleast

theorem Sound.separated {σ : Type} {b : Balancer σ} (h : Sound settings.firstMark b)
    (hvalid : settings.validate = .ok ()) : Separated settings b where
  disjoint n m l k mark hl hk hmark hmark' := h.disjoint hl hk hmark hmark'
  floor_le n l hl :=
    ⟨h.floor_le hl, UInt32.le_trans (firstMark_of_validate hvalid) (h.floor_le hl)⟩
  within n l hl := h.within hl
  recorded n l slot hl hmem := by
    have hslot := h.slot_lt hl hmem
    exact ⟨hslot, Block.contains_mark (h.within hl) hslot⟩

theorem Sound.identified {σ : Type} {b : Balancer σ} {floor : UInt32} (h : Sound floor b)
    {hashing : Hashing} (howned : Owned b.registered hashing) :
    Identified b.registered hashing where
  owned := howned
  distinct n m s t mark hs ht := by
    obtain ⟨l, hl, hslot, rfl⟩ := howned n s mark hs
    obtain ⟨k, hk, hslot', heq⟩ := howned m t _ ht
    obtain ⟨rfl, rfl⟩ := h.mark_inj hl hk hslot hslot' heq
    exact ⟨(h.name hl).symm.trans (h.name hk), rfl⟩

variable {fates : Fates}

/-- Whatever operations a balancer carries out on a host on which any command may fail: marks of its
services are apart, and the next operation as well names only marks in the blocks of services that
it is about; a repair of the routes names only the marks of recorded targets. On a host without
segments to begin with, active marks tell the slots too, unless the deletion of a segment that is
there fails as if it were not. -/
theorem run_identified (hvalid : settings.validate = .ok ()) (host : Flaky fates)
    (ops : List Operation) :
    Separated settings (Operation.run settings ops { host }) ∧
    (host.host.hashing.segments = ∅ → Honest settings.program fates →
      Identified (Operation.run settings ops { host }).registered
        (Operation.run settings ops { host }).host.host.hashing) ∧
    ∀ op : Operation,
      ∃ issued, (op.perform settings (Operation.run settings ops { host })).host.host.journal =
          issued ++ (Operation.run settings ops { host }).host.host.journal ∧
        ∀ c ∈ issued,
          Operation.Allowed settings (op.Marks (Operation.run settings ops { host })) c := by
  have hsound := Operation.run_sound (.empty settings.firstMark host) ops
  refine ⟨hsound.separated hvalid, fun hempty hhonest => ?_, fun op =>
    Flaky.journal_of_reaches (Operation.perform_reaches hsound op)⟩
  have hstart : Operation.SegmentsOwned settings ({ host } : Balancer (Flaky fates)) := by
    refine ⟨.empty _ host, ?_, fun _ => hempty⟩
    intro n slot mark hgiven
    obtain ⟨slots, hslots, -⟩ := hgiven
    simp [hempty] at hslots
  exact hsound.identified (Operation.run_segmentsOwned hhonest hstart ops).owned

/-- Every fifth command has its effect, but is reported to have failed. -/
def everyFifth : Fates := fun before c =>
  if before.length % 5 = 4 then .lost (.timeout c.line 30000) else .done

/-- Two services come, get targets and lose some; one of them goes, and comes back with a block of
another size. -/
def changingRun : List Operation :=
  [.addService "svc-a" 10, .addService "svc-b" 5, .addService "svc-b" 5,
    .addTarget "svc-a" [.v4 0x0A000001#32] 3, .addTarget "svc-b" [.v4 0x0A000002#32] 0,
    .deleteService "svc-a", .deleteService "svc-a", .addService "svc-a" 20,
    .addTarget "svc-a" [.v4 0x0A000001#32] 3, .heal]

theorem changingRun_identified : ({ } : Settings).validate = .ok () ∧
    (⟨{ }⟩ : Flaky everyFifth).host.hashing.segments = ∅ ∧
    Honest ({ } : Settings).program everyFifth ∧
    let b := Operation.run { } changingRun { host := (⟨{ }⟩ : Flaky everyFifth) }
    Separated { } b ∧ Identified b.registered b.host.host.hashing ∧
      ∃ issued, (Operation.heal.perform { } b).host.host.journal = issued ++ b.host.host.journal ∧
        ∀ c ∈ issued, Operation.Allowed { } (Operation.heal.Marks b) c := by
  have hvalid : ({ } : Settings).validate = .ok () := by decide
  have hhonest : Honest ({ } : Settings).program everyFifth := by
    intro before n cause hcause
    rw [everyFifth] at hcause
    split at hcause
    · obtain rfl := Option.some.inj hcause
      rfl
    · cases hcause
  obtain ⟨hseparated, hidentified, hissued⟩ :=
    run_identified hvalid (⟨{ }⟩ : Flaky everyFifth) changingRun
  exact ⟨hvalid, rfl, hhonest, hseparated, hidentified rfl hhonest, hissued .heal⟩

end Identified

end VipSteering.Balancer
