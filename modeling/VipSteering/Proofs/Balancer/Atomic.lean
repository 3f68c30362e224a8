import VipSteering.Proofs.Balancer.Routes
import VipSteering.Proofs.Balancer.Routine
import VipSteering.Proofs.Balancer.Withdrawn
import VipSteering.Proofs.PolicyRoute.Outcomes

namespace VipSteering

open Host PolicyRoute

/-- A command that fails has no effect. -/
def Fates.Clean (fates : Fates) : Prop :=
  ∀ (before : List Command) (c : Command) (cause : Command.Failure), fates before c ≠ .lost cause

theorem Fates.refusing_clean (failing : Command → Bool) : (Fates.refusing failing).Clean := by
  intro before c cause hlost
  rw [Fates.refusing] at hlost
  split at hlost
  · cases hlost
  · cases hlost

variable {fates : Fates}

theorem Flaky.run_error (hclean : fates.Clean) {c : Command} {s : Flaky fates}
    {cause : Command.Failure} (he : (Shell.run c s).1 = .error cause) :
    (Shell.run c s).2 = ⟨s.host.record c⟩ := by
  change (Flaky.run c s).1 = _ at he
  change (Flaky.run c s).2 = _
  rw [Flaky.run] at he ⊢
  cases hfate : fates s.host.journal c with
  | done =>
    rw [hfate] at he
    exact congrArg Flaky.mk (Host.run_error he)
  | refused cause => rfl
  | lost cause => exact absurd hfate (hclean _ c cause)

theorem Outcome.error_of_deleted {outcome : Outcome} {cause : Command.Failure}
    (h : outcome.deleted = .error cause) : outcome = .error cause := by
  cases outcome with
  | ok output => cases h
  | error other =>
    rw [Outcome.deleted] at h
    split at h
    · cases h
    · cases h
      rfl

namespace Balancer

/-- Nothing but the journal of the host is different, and that only grows. -/
def Untouched (b b' : Balancer (Flaky fates)) : Prop :=
  ∃ tried : List Command,
    b' = { b with host := ⟨{ b.host.host with journal := tried ++ b.host.host.journal }⟩ }

variable {b : Balancer (Flaky fates)} {l : Lease} {mark slot : UInt32} {addresses : List Address}
  {e : Entry} {s s' : Flaky fates}

theorem Untouched.refl (b : Balancer (Flaky fates)) : Untouched b b := ⟨[], rfl⟩

/-- The command is all that is left of a call that ends with its failure. -/
theorem Untouched.of_run (hclean : fates.Clean) {c : Command} {cause : Command.Failure}
    {host : Flaky fates} (hran : Shell.run c b.host = (.error cause, host)) :
    Untouched b { b with host } := by
  have hstate : (Shell.run c b.host).2 = ⟨b.host.host.record c⟩ :=
    Flaky.run_error hclean (congrArg Prod.fst hran)
  rw [hran] at hstate
  obtain rfl : host = _ := hstate
  exact ⟨[c], rfl⟩

theorem addService_untouched (hclean : fates.Clean) (settings : Settings) {name : String}
    {slots : UInt32} {fault : Fault} (he : (addService settings name slots b).1 = .error fault) :
    Untouched b (addService settings name slots b).2 := by
  rw [addService_eq] at he ⊢
  cases hregistered : b.registered[name]? with
  | some l => exact .refl b
  | none =>
    rw [hregistered] at he
    dsimp only at he ⊢
    cases hblock : Block.allocate settings.firstMark (b.leases.map (·.block)) slots with
    | error fault => exact .refl b
    | ok block =>
      rw [hblock] at he
      dsimp only at he ⊢
      split at he
      · rename_i hran
        exact .of_run hclean hran
      · cases he

/-- Only the activation matters, and only if the slot is not active. -/
theorem addTarget_ok_iff (program : String) :
    (addTarget program l addresses slot b).1 = .ok () ↔ slot < l.block.size ∧
      (slot ∈ b.targetsOf l ∨
        ∃ output, (Shell.run (activateCommand program l.name slot (l.mark slot)) b.host).1 =
          .ok output) := by
  rw [addTarget_eq]
  split
  · rename_i hbeyond
    exact iff_of_false nofun fun hgiven => absurd hbeyond (UInt32.not_le.mpr hgiven.1)
  rename_i hwithin
  split
  · rename_i hactive
    exact iff_of_true rfl ⟨UInt32.not_le.mp hwithin, .inl hactive⟩
  rename_i hfree
  split
  · rename_i hran
    rw [hran]
    refine iff_of_false nofun fun hgiven => ?_
    obtain hactive | ⟨output, hok⟩ := hgiven.2
    · exact hfree hactive
    · cases hok
  · rename_i output host hran
    rw [hran]
    exact iff_of_true rfl ⟨UInt32.not_le.mp hwithin, .inr ⟨output, rfl⟩⟩

theorem addTarget_untouched (hclean : fates.Clean) (program : String) {fault : Fault}
    (he : (addTarget program l addresses slot b).1 = .error fault) :
    Untouched b (addTarget program l addresses slot b).2 := by
  rw [addTarget_eq] at he ⊢
  split
  · exact .refl b
  rename_i hwithin
  rw [if_neg hwithin] at he
  split
  · exact .refl b
  rename_i hfree
  rw [if_neg hfree] at he
  split at he
  · rename_i hran
    exact .of_run hclean hran
  · cases he

theorem addTarget_active (program : String) (hwithin : slot < l.block.size)
    (hactive : slot ∈ b.targetsOf l) : addTarget program l addresses slot b = (.ok (), b) := by
  rw [addTarget_eq, if_neg (UInt32.not_le.mpr hwithin), if_pos hactive]

/-- The commands that delete the routes of a mark. -/
def routeDeletions (mark : UInt32) (addresses : List Address) : List Command :=
  addresses.flatMap fun a => [ruleCommand "del" mark a, routeCommand "del" mark a]

theorem mem_routeDeletions {c : Command} :
    c ∈ routeDeletions mark addresses ↔
      ∃ d : Entry, d.IsNamedBy mark addresses ∧ c = d.deletion := by
  rw [routeDeletions, List.mem_flatMap]
  constructor
  · rintro ⟨a, ha, hc⟩
    simp only [List.mem_cons, List.not_mem_nil, or_false] at hc
    obtain rfl | rfl := hc
    · exact ⟨.rule (ruleOf a.family mark), ⟨a, ha, rfl⟩, rfl⟩
    · exact ⟨.route ⟨mark, a⟩, ⟨a, ha, rfl⟩, rfl⟩
  · rintro ⟨d, ⟨a, ha, hpart⟩, rfl⟩
    refine ⟨a, ha, ?_⟩
    cases d with
    | rule r =>
      obtain rfl := hpart
      exact List.mem_cons_self
    | route r =>
      obtain rfl := hpart
      exact List.mem_cons_of_mem _ List.mem_cons_self

/-- Every deletion is tried, whatever became of those before. -/
theorem deleteRoutes_eq (mark : UInt32) (addresses : List Address) (s : Flaky fates) :
    (deleteRoutes mark addresses s).2 = afterCommands (routeDeletions mark addresses) s := by
  induction addresses generalizing s with
  | nil => rfl
  | cons a rest ih =>
    have hfirst : (PolicyRoute.delete mark a s).2 =
        afterCommands [ruleCommand "del" mark a, routeCommand "del" mark a] s := by
      rw [delete_eq, deletePart_eq, deletePart_eq]
      rfl
    change (deleteRoutes mark rest (PolicyRoute.delete mark a s).2).2 = _
    rw [ih, hfirst, ← afterCommands_append]
    rfl

theorem deleteTarget_untouched (hclean : fates.Clean) (program : String) {fault : Fault}
    (he : (deleteTarget program l slot b).1 = .error fault) :
    Untouched b (deleteTarget program l slot b).2 := by
  rw [deleteTarget_eq] at he ⊢
  cases hget : (b.targetsOf l)[slot]? with
  | none => exact .refl b
  | some recorded =>
    rw [hget] at he
    dsimp only at he ⊢
    cases hdeleted :
        (Shell.run (deactivateCommand program l.name slot) b.host).1.deleted with
    | error cause => exact .of_run hclean (Prod.ext (Outcome.error_of_deleted hdeleted) rfl)
    | ok _ =>
      rw [hdeleted] at he
      cases he

/-- The routes that are deleted are those of the addresses on the books. -/
theorem deleteTarget_commands (program : String) (hok : (deleteTarget program l slot b).1 = .ok ())
    {recorded : List Address} (hget : (b.targetsOf l)[slot]? = some recorded) :
    (deleteTarget program l slot b).2.host = afterCommands
      (deactivateCommand program l.name slot :: routeDeletions (l.mark slot) recorded) b.host := by
  have hdeleted := (deleteTarget_ok_iff_deactivated program).mp hok (mem_of_getElem? hget)
  rw [deleteTarget_eq, hget]
  simp only [hdeleted, deleteRoutes_eq]
  rfl

/-- A deletion takes away no entry but its own. -/
theorem run_deletion_spares {d : Entry} (hother : e ≠ d) (s : Flaky fates) :
    e.IsIn (Shell.run d.deletion s).2.host.routing ↔ e.IsIn s.host.routing := by
  rcases Flaky.run_host d.deletion s with heq | heq
  · rw [heq]
    rfl
  · rw [heq, isIn_run_deletion]
    exact and_iff_left fun hsame => absurd hsame hother

theorem run_deletion_subset {d : Entry} (h : e.IsIn (Shell.run d.deletion s).2.host.routing) :
    e.IsIn s.host.routing := by
  rcases Flaky.run_host d.deletion s with heq | heq
  · rwa [heq] at h
  · rw [heq] at h
    exact ((isIn_run_deletion s.host d).mp h).1

theorem deleteRoutes_spares (hother : ¬ e.IsNamedBy mark addresses) (s : Flaky fates) :
    e.IsIn (afterCommands (routeDeletions mark addresses) s).host.routing ↔
      e.IsIn s.host.routing := by
  refine (reaches_afterCommands (fun c hc => hc) s).keeps
    (P := fun t : Flaky fates => e.IsIn t.host.routing ↔ e.IsIn s.host.routing)
    (fun c t hc ht => ?_) Iff.rfl
  obtain ⟨d, hnamed, rfl⟩ := mem_routeDeletions.mp hc
  refine (run_deletion_spares (fun heq => hother ?_) t).trans ht
  rwa [heq]

/-- An entry is gone once its own deletion has been carried out. -/
theorem afterDeletions_gone {issued : List Command}
    (hall : ∀ c ∈ issued, ∃ d : Entry, c = d.deletion) (hmem : e.deletion ∈ issued)
    (hdone : ∀ before : List Command, fates before e.deletion = .done)
    (hacc : ¬ s.host.Refuses e.deletion) :
    ¬ e.IsIn (afterCommands issued s).host.routing := by
  induction issued generalizing s with
  | nil => cases hmem
  | cons c rest ih =>
    have hlater : ∀ c ∈ rest, ∃ d : Entry, c = d.deletion := fun c hc =>
      hall c (List.mem_cons_of_mem _ hc)
    have hfaults : (Shell.run c s).2.host.Refuses e.deletion ↔ s.host.Refuses e.deletion := by
      rw [Refuses, Refuses, isFaulty, isFaulty, Flaky.run_faults]
    rw [afterCommands_cons]
    rcases List.mem_cons.mp hmem with rfl | hrest
    · have hgone : ¬ e.IsIn (Shell.run e.deletion s).2.host.routing := by
        rw [Flaky.run_done _ s (hdone _), isIn_run_deletion]
        exact fun hgiven => hacc (hgiven.2 rfl)
      refine (reaches_afterCommands hlater _).keeps
        (P := fun t : Flaky fates => ¬ e.IsIn t.host.routing) (fun c t hc ht => ?_) hgone
      obtain ⟨d, rfl⟩ := hc
      exact fun hstays => ht (run_deletion_subset hstays)
    · exact ih hlater hrest fun href => hacc (hfaults.mp href)

/-- What a call that puts a target at a slot promises, whichever commands fail. -/
structure PutsTarget (program : String) (l : Lease) (addresses : List Address) (slot : UInt32)
    (b : Balancer (Flaky fates)) (answer : Except (Report Fault) Unit × Balancer (Flaky fates)) :
    Prop where
  undone : ∀ report, answer.1 = .error report → Untouched b answer.2
  /-- The routes do not matter, only the activation does. -/
  accepted : answer.1 = .ok () ↔ slot < l.block.size ∧ (slot ∈ b.targetsOf l ∨ ∃ output,
    (Shell.run (activateCommand program l.name slot (l.mark slot)) b.host).1 = .ok output)
  /-- A slot that is active stays as it is, and no command is run. -/
  kept : answer.1 = .ok () → slot ∈ b.targetsOf l → answer.2 = b
  recorded : answer.1 = .ok () → slot ∉ b.targetsOf l →
    Confined l b answer.2 ∧ answer.2.targetsOf l = (b.targetsOf l).insert slot addresses

/-- What a call that deletes a target promises, whichever commands fail. -/
structure DropsTarget (program : String) (l : Lease) (slot : UInt32) (b : Balancer (Flaky fates))
    (answer : Except (Report Fault) Unit × Balancer (Flaky fates)) : Prop where
  undone : ∀ report, answer.1 = .error report → Untouched b answer.2
  /-- The routes do not matter, only the deactivation does. -/
  accepted : answer.1 = .ok () ↔ (slot ∈ b.targetsOf l →
    (Shell.run (deactivateCommand program l.name slot) b.host).1.deleted = .ok ())
  kept : slot ∉ b.targetsOf l → answer.2 = b
  recorded : answer.1 = .ok () →
    Confined l b answer.2 ∧ answer.2.targetsOf l = (b.targetsOf l).erase slot
  /-- The slot is deactivated, then the routes to the addresses on the books are deleted. -/
  commands : answer.1 = .ok () → ∀ recorded : List Address,
    (b.targetsOf l)[slot]? = some recorded → answer.2.host = afterCommands
      (deactivateCommand program l.name slot :: routeDeletions (l.mark slot) recorded) b.host
  /-- Of these rules and routes none is left whose deletion is carried out. -/
  gone : answer.1 = .ok () → ∀ (recorded : List Address) (e : Entry),
    (b.targetsOf l)[slot]? = some recorded → e.IsNamedBy (l.mark slot) recorded →
    (∀ before : List Command, fates before e.deletion = .done) →
    ¬ b.host.host.Refuses e.deletion → ¬ e.IsIn answer.2.host.host.routing
  /-- All others are left alone. -/
  spared : ∀ e : Entry, (∀ recorded : List Address, (b.targetsOf l)[slot]? = some recorded →
      ¬ e.IsNamedBy (l.mark slot) recorded) →
    (e.IsIn answer.2.host.host.routing ↔ e.IsIn b.host.host.routing)

theorem engine_addTarget_puts (hclean : fates.Clean) (settings : Settings) (l : Lease)
    (addresses : List Address) (slot : UInt32) (b : Balancer (Flaky fates)) :
    PutsTarget settings.program l addresses slot b
      ((engine settings).addTarget l addresses slot b) := by
  rw [engine_addTarget]
  refine ⟨fun report he => ?_, mapError_eq_ok.trans (addTarget_ok_iff settings.program),
    fun hok hactive => ?_, fun hok hfree => ⟨addTarget_confined _ _ _ _ _, ?_⟩⟩
  · obtain ⟨fault, he, -⟩ := mapError_eq_error.mp he
    exact addTarget_untouched hclean settings.program he
  · have hwithin := ((addTarget_ok_iff settings.program).mp (mapError_eq_ok.mp hok)).1
    rw [addTarget_active settings.program hwithin hactive]
  · have htargets := addTarget_targets settings.program addresses hfree
    rwa [mapError_eq_ok.mp hok] at htargets

/-- A deactivation has nothing to do with rules and routes. -/
theorem run_deactivate_routing (program : String) (l : Lease) (slot : UInt32) (s : Flaky fates) :
    (Shell.run (deactivateCommand program l.name slot) s).2.host.routing = s.host.routing := by
  rcases Flaky.run_routing (deactivateCommand program l.name slot) s with
    hsame | ⟨json, request, output, -, hparse, -⟩
  · exact hsame
  · have hunroutable := isUnroutable_of_parse
      (Maglev.parse_deactivateCommand program l.name slot)
    exact absurd hparse (hunroutable _)

theorem engine_deleteTarget_drops (hclean : fates.Clean) (settings : Settings) (l : Lease)
    (addresses : List Address) (slot : UInt32) (b : Balancer (Flaky fates)) :
    DropsTarget settings.program l slot b ((engine settings).deleteTarget l addresses slot b) := by
  rw [engine_deleteTarget]
  have hconfined := (deleteTarget_releases settings.program l slot b).toConfined
  have hcommands (hok : (deleteTarget settings.program l slot b).1 = .ok ())
      (recorded : List Address) (hget : (b.targetsOf l)[slot]? = some recorded) :=
    deleteTarget_commands settings.program hok hget
  refine ⟨fun report he => ?_,
    mapError_eq_ok.trans (deleteTarget_ok_iff_deactivated settings.program), fun hfree => ?_,
    fun hok => ⟨hconfined, ?_⟩, fun hok => hcommands (mapError_eq_ok.mp hok),
    fun hok recorded e hget hnamed hdone hacc => ?_, fun e hother => ?_⟩
  · obtain ⟨fault, he, -⟩ := mapError_eq_error.mp he
    exact deleteTarget_untouched hclean settings.program he
  · rw [deleteTarget_eq, Std.ExtTreeMap.getElem?_eq_none hfree]
  · have htargets := deleteTarget_targets settings.program l slot b
    rwa [mapError_eq_ok.mp hok] at htargets
  · have hfaults := Flaky.run_faults (deactivateCommand settings.program l.name slot) b.host
    dsimp only
    rw [hcommands (mapError_eq_ok.mp hok) recorded hget, afterCommands_cons]
    refine afterDeletions_gone (fun c hc => ?_) (mem_routeDeletions.mpr ⟨e, hnamed, rfl⟩) hdone ?_
    · obtain ⟨d, -, heq⟩ := mem_routeDeletions.mp hc
      exact ⟨d, heq⟩
    · rwa [Refuses, isFaulty, hfaults]
  · cases hresult : (deleteTarget settings.program l slot b).1 with
    | error fault =>
      obtain ⟨tried, hsame⟩ := deleteTarget_untouched hclean settings.program hresult
      dsimp only
      rw [hsame]
    | ok _ =>
      cases hget : (b.targetsOf l)[slot]? with
      | none =>
        dsimp only
        rw [deleteTarget_eq, hget]
      | some recorded =>
        dsimp only
        rw [hcommands hresult recorded hget, afterCommands_cons, deleteRoutes_spares (hother _ hget),
          run_deactivate_routing]

/-- Whichever commands fail, a call that ends with a failure has changed nothing but the journal of
the host. A target that is said to be put is recorded, and one that is said to be deleted is not,
whatever became of the routes. An active slot keeps its addresses; the routes that are deleted are
those of the addresses on the books, not of those that are named in the call. -/
theorem failures_atomic (hclean : fates.Clean) (settings : Settings) (b : Balancer (Flaky fates)) :
    (∀ (name : String) (slots : UInt32) (report : Report Fault),
      ((engine settings).addService name slots b).1 = .error report →
        Untouched b ((engine settings).addService name slots b).2) ∧
    ∀ (l : Lease) (addresses : List Address) (slot : UInt32),
      PutsTarget settings.program l addresses slot b
        ((engine settings).addTarget l addresses slot b) ∧
      DropsTarget settings.program l slot b
        ((engine settings).deleteTarget l addresses slot b) := by
  refine ⟨fun name slots report he => ?_, fun l addresses slot =>
    ⟨engine_addTarget_puts hclean settings l addresses slot b,
      engine_deleteTarget_drops hclean settings l addresses slot b⟩⟩
  rw [engine_addService] at he ⊢
  obtain ⟨fault, he, -⟩ := mapError_eq_error.mp he
  exact addService_untouched hclean settings he

/-- Neither can a route be altered nor the slot 3 be deactivated. -/
def hampered (c : Command) : Bool := c.program = "ip" || c.args.contains "--index=3"

/-- A service with two targets. -/
def twoTargets : Balancer (Flaky (.refusing hampered)) where
  host := ⟨{ hashing := { segments := (∅ : Std.ExtTreeMap String _).insert "svc-a" ∅ } }⟩
  registered := (∅ : Std.ExtTreeMap String Lease).insert "svc-a" ⟨0, "svc-a", ⟨5000, 10⟩⟩
  targets := (∅ : Std.ExtTreeMap Nat Targets).insert 0
    (((∅ : Targets).insert 3 [.v4 0x0A000001#32]).insert 5 [.v4 0x0A000002#32])
  issued := 1

theorem twoTargets_atomic : (Fates.refusing hampered).Clean ∧
    let l : Lease := ⟨0, "svc-a", ⟨5000, 10⟩⟩
    let held := (engine { }).deleteTarget l [.v4 0x0A000001#32] 3 twoTargets
    let dropped := (engine { }).deleteTarget l [.v4 0x0A000009#32] 5 twoTargets
    let put := (engine { }).addTarget l [.v4 0x0A000003#32] 6 twoTargets
    (∃ report, held.1 = .error report) ∧ Untouched twoTargets held.2 ∧
      dropped.1 = .ok () ∧ 5 ∉ dropped.2.targetsOf l ∧
      dropped.2.host = afterCommands [deactivateCommand "nfqlb" "svc-a" 5,
        ruleCommand "del" 5005 (.v4 0x0A000002#32),
        routeCommand "del" 5005 (.v4 0x0A000002#32)] twoTargets.host ∧
      put.1 = .ok () ∧ (put.2.targetsOf l)[(6 : UInt32)]? = some [.v4 0x0A000003#32] := by
  have hclean := Fates.refusing_clean hampered
  refine ⟨hclean, ?_⟩
  intro l held dropped put
  have hcalls := (failures_atomic hclean { } twoTargets).2 l
  have hheld : ∃ report, held.1 = .error report := ⟨_, rfl⟩
  have hdeleted : (deleteTarget "nfqlb" l 5 twoTargets).1 = .ok () :=
    (deleteTarget_ok_iff (by decide) rfl 5).mpr fun _ => by decide
  have hdropped : dropped.1 = .ok () := mapError_eq_ok.mpr hdeleted
  obtain ⟨report, hreport⟩ := hheld
  have hdrop := (hcalls [.v4 0x0A000009#32] 5).2
  have hadd := (hcalls [.v4 0x0A000003#32] 6).1
  have hsegment : twoTargets.host.host.hashing.segments[l.name]? = some ∅ :=
    Std.ExtTreeMap.getElem?_insert_self
  have hactivated :
      (Shell.run (activateCommand "nfqlb" l.name 6 (l.mark 6)) twoTargets.host).1 = .ok "" := by
    rw [run_request (by decide) (Maglev.parse_activateCommand "nfqlb" l.name 6 (l.mark 6)) rfl
      (by decide)]
    simp only [Maglev.perform, hsegment]
  have hput : put.1 = .ok () := hadd.accepted.mpr ⟨by decide, .inr ⟨"", hactivated⟩⟩
  have htargets : dropped.2.targetsOf l = (twoTargets.targetsOf l).erase 5 :=
    (hdrop.recorded hdropped).2
  have hfree : (6 : UInt32) ∉ twoTargets.targetsOf l := by decide
  have hrecorded : put.2.targetsOf l = (twoTargets.targetsOf l).insert 6 [.v4 0x0A000003#32] :=
    (hadd.recorded hput hfree).2
  refine ⟨⟨report, hreport⟩, (hcalls _ 3).2.undone report hreport, hdropped, ?_,
    hdrop.commands hdropped _ rfl, hput, ?_⟩
  · rw [htargets]
    simp
  · rw [hrecorded]
    exact Std.ExtTreeMap.getElem?_insert_self

end Balancer
end VipSteering
