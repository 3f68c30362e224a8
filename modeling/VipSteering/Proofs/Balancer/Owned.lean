import VipSteering.Proofs.Balancer.Commands
import VipSteering.Proofs.Host.Flaky

namespace VipSteering.Balancer

open Host

/-- The slot of a segment is active with a mark. -/
def Active (h : Hashing) (n : String) (slot mark : UInt32) : Prop :=
  ∃ slots, h.segments[n]? = some slots ∧ slots[slot]? = some mark

/-- Active slots are those of registered services, and have their marks. -/
def Owned (registered : Std.ExtTreeMap String Lease) (h : Hashing) : Prop :=
  ∀ (n : String) (slot mark : UInt32), Active h n slot mark →
    ∃ l, registered[n]? = some l ∧ slot < l.block.size ∧ mark = l.mark slot

section Owned

variable {registered : Std.ExtTreeMap String Lease} {h h' : Hashing} {l : Lease}

theorem Owned.insert (ho : Owned registered h) {n : String}
    {slots : Std.ExtTreeMap UInt32 UInt32} (hslots : ∀ slot mark : UInt32,
      slots[slot]? = some mark → ∃ l, registered[n]? = some l ∧ slot < l.block.size ∧
        mark = l.mark slot) :
    Owned registered { h with segments := h.segments.insert n slots } := by
  intro m slot mark hgiven
  obtain ⟨found, hfound, hmark⟩ := hgiven
  rcases of_getElem?_insert hfound with ⟨rfl, rfl⟩ | ⟨-, hfound⟩
  · exact hslots slot mark hmark
  · exact ho _ _ _ ⟨found, hfound, hmark⟩

theorem Owned.erase (ho : Owned registered h) (n : String) :
    Owned registered { h with segments := h.segments.erase n } := by
  intro m slot mark hgiven
  obtain ⟨found, hfound, hmark⟩ := hgiven
  exact ho _ _ _ ⟨found, (of_getElem?_erase hfound).2, hmark⟩

/-- What a service asks for leaves each slot with its owner. -/
theorem Owned.perform (ho : Owned registered h) (hl : registered[l.name]? = some l)
    {request : Maglev.Request} (hof : request.IsOf l) {output : String}
    (he : Maglev.perform h request = .ok (output, h')) : Owned registered h' := by
  cases request with
  | init segment => cases hof
  | delete segment =>
    simp only [Maglev.perform] at he
    split at he
    · cases he
      exact ho.erase segment
    · cases he
  | activate segment slot mark =>
    obtain ⟨rfl, hslot, rfl⟩ := hof
    simp only [Maglev.perform] at he
    split at he
    · cases he
    · rename_i slots hslots
      cases he
      refine ho.insert fun t mark hmark => ?_
      rcases of_getElem?_insert hmark with ⟨rfl, rfl⟩ | ⟨-, hmark⟩
      · exact ⟨l, hl, hslot, rfl⟩
      · exact ho _ _ _ ⟨slots, hslots, hmark⟩
  | deactivate segment slot =>
    simp only [Maglev.perform] at he
    split at he
    · cases he
    · rename_i slots hslots
      cases he
      refine ho.insert fun t mark hmark => ?_
      exact ho _ _ _ ⟨slots, hslots, (of_getElem?_erase hmark).2⟩
  | setFlow name flow =>
    cases he
    exact ho
  | deleteFlow name =>
    simp only [Maglev.perform] at he
    split at he
    · cases he
      exact ho
    · cases he
  | listFlows =>
    cases he
    exact ho

/-- A new service owns nothing yet. -/
theorem Owned.register (ho : Owned registered h) {n : String} (hn : registered[n]? = none)
    (l : Lease) : Owned (registered.insert n l) h := by
  intro m slot mark hactive
  obtain ⟨k, hk, hslot, hmark⟩ := ho _ _ _ hactive
  have hne : n ≠ m := by
    intro heq
    rw [heq, hk] at hn
    cases hn
  exact ⟨k, (getElem?_insert_of_ne hne l).trans hk, hslot, hmark⟩

/-- A service without a segment owns nothing any more. -/
theorem Owned.unregister (ho : Owned registered h) {n : String} (hn : n ∉ h.segments) :
    Owned (registered.erase n) h := by
  intro m slot mark hgiven
  obtain ⟨slots, hslots, hmark⟩ := hgiven
  obtain ⟨k, hk, hslot, hmark'⟩ := ho _ _ _ ⟨slots, hslots, hmark⟩
  have hne : n ≠ m := by
    intro heq
    rw [heq] at hn
    exact hn (mem_of_getElem? hslots)
  exact ⟨k, (getElem?_erase_of_ne hne).trans hk, hslot, hmark'⟩

end Owned

section Flaky

variable {fates : Fates} {registered : Std.ExtTreeMap String Lease} {program : String}
  {s s' : Flaky fates} {l : Lease}

theorem owned_issued {c : Command} (hl : registered[l.name]? = some l) (hc : Issued program l c)
    (ho : Owned registered s.host.hashing) :
    Owned registered (Shell.run c s).2.host.hashing := by
  rcases Flaky.run_hashing c s with hsame | ⟨request, output, hp, hparse, hperform⟩
  · rw [hsame]
    exact ho
  cases hc with
  | routes slot hslot habout => rw [habout.1] at hp; exact absurd hp (by decide)
  | filter hprogram => rw [hprogram] at hp; exact absurd hp (by decide)
  | hashing _ _ asked hasked hof =>
    rw [hasked] at hparse
    obtain rfl := Except.ok.inj hparse
    exact ho.perform hl hof hperform

theorem Owned.reaches (ho : Owned registered s.host.hashing) (hl : registered[l.name]? = some l)
    (h : Reaches (Issued program l) s s') : Owned registered s'.host.hashing :=
  h.keeps (P := fun s => Owned registered s.host.hashing) (fun _ _ hc hs => owned_issued hl hc hs) ho

/-- A segment that is set up has no active slots. -/
theorem owned_init (program n : String) (slots : UInt32) (ho : Owned registered s.host.hashing) :
    Owned registered (Shell.run (initCommand program n slots) s).2.host.hashing := by
  rcases Flaky.run_hashing (initCommand program n slots) s with
    hsame | ⟨request, output, -, hparse, hperform⟩
  · rw [hsame]
    exact ho
  · rw [Maglev.parse_initCommand] at hparse
    obtain rfl := Except.ok.inj hparse
    simp only [Maglev.perform, Except.ok.injEq, Prod.mk.injEq] at hperform
    rw [← hperform.2]
    exact ho.insert fun slot mark hmark => by simp at hmark

/-- No deletion of a segment fails as if there were no such segment. Where there is none, the host
says so itself. -/
def Honest (program : String) (fates : Fates) : Prop :=
  ∀ (before : List Command) (n : String) (cause : Command.Failure),
    (fates before (deleteCommand program n)).cause? = some cause → cause.isAbsence = false

theorem host_not_mem_of_deleted (hp : Text.endsWith "nfqlb" program = true) {h : Host} {n : String}
    (hdeleted : (Host.run (deleteCommand program n) h).1.deleted = .ok ()) :
    n ∉ (Host.run (deleteCommand program n) h).2.hashing.segments := by
  have hip : program ≠ "ip" := by intro heq; obtain rfl := heq; exact absurd hp (by decide)
  have hnft : program ≠ "nft" := by intro heq; obtain rfl := heq; exact absurd hp (by decide)
  have hexecute : (h.record (deleteCommand program n)).execute (deleteCommand program n) =
      (Maglev.perform h.hashing (.delete n)).map fun answer =>
        (answer.1, { h.record (deleteCommand program n) with hashing := answer.2 }) := by
    rw [execute]
    change (if program = "ip" then _ else if program = "nft" then _ else
      if Text.endsWith "nfqlb" program = true then _ else _) = _
    rw [if_neg hip, if_neg hnft, if_pos hp, Maglev.execute, Maglev.parse_deleteCommand]
    rfl
  rw [Host.run] at hdeleted ⊢
  split at hdeleted
  · have hinjected : (failure (deleteCommand program n) injected).isAbsence = false := by
      change Command.Failure.absenceMarks.any (Text.occursIn · injected) = false
      decide
    rw [deleted_refused hinjected] at hdeleted
    cases hdeleted
  · rename_i hfault
    simp only [hfault, hexecute, Maglev.perform]
    by_cases hmem : n ∈ h.hashing.segments
    · simp [hmem, Except.map]
    · simp only [if_neg hmem, Except.map]
      exact hmem

/-- A segment that counts as deleted is gone. -/
theorem not_mem_of_deleted (hp : Text.endsWith "nfqlb" program = true)
    (hhonest : Honest program fates) {n : String}
    (h : (Shell.run (deleteCommand program n) s).1.deleted = .ok ()) :
    n ∉ (Shell.run (deleteCommand program n) s).2.host.hashing.segments := by
  have hrun := Flaky.run_deleted _ s (hhonest s.host.journal n) h
  rw [hrun] at h ⊢
  exact host_not_mem_of_deleted hp h

theorem not_mem_of_clearHost (hp : Text.endsWith "nfqlb" program = true)
    (hhonest : Honest program fates) {n : String} (h : (clearHost program n s).1.2 = []) :
    n ∉ (clearHost program n s).2.host.hashing.segments := by
  change (deleteSegment program n (deleteFlows program n s).2).1 = [] at h
  change n ∉ (deleteSegment program n (deleteFlows program n s).2).2.host.hashing.segments
  rw [deleteSegment_eq] at h ⊢
  refine not_mem_of_deleted hp hhonest ?_
  generalize Outcome.deleted _ = deleted at h
  cases deleted with
  | error cause => cases h
  | ok _ => rfl

end Flaky

end VipSteering.Balancer
