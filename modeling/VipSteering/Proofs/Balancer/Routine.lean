import VipSteering.Balancer.Process
import VipSteering.Proofs.Balancer.Identified
import VipSteering.Proofs.Balancer.Refusals

namespace VipSteering

open Host

/-- If the request sets a flow, the flow can be read when it is listed. -/
def Host.Maglev.Request.IsReadable : Maglev.Request → Prop
  | .setFlow _ flow => ListedFlow.IsReadable flow
  | _ => True

namespace Balancer

/-- A command that a balancer runs. -/
inductive BalancerCommand (c : Command) : Prop where
  | routes (mark : UInt32) (habout : PolicyRoute.IsAbout mark c)
  | hashing (request : Maglev.Request) (hparse : Maglev.parse c.args = .ok request)
    (hreadable : request.IsReadable)
  | filter (h : Classifier.Filters c)

section Commands

variable {program : String} {c : Command}

theorem Places.balancerCommand {l : Lease} (h : Places program l c) : BalancerCommand c := by
  cases h with
  | routes slot hslot habout => exact .routes (l.mark slot) habout
  | activate slot hslot heq =>
    rw [heq]
    exact .hashing _ (Maglev.parse_activateCommand program l.name slot (l.mark slot)) trivial
  | deactivate slot heq =>
    rw [heq]
    exact .hashing _ (Maglev.parse_deactivateCommand program l.name slot) trivial

theorem Refreshes.balancerCommand (h : Refreshes program c) : BalancerCommand c := by
  rcases h with rfl | hfilters
  · exact .hashing _ (Maglev.parse_flowList program) trivial
  · exact .filter hfilters

theorem Sets.balancerCommand {service : String} {flow : Flow} (h : Sets program service flow c) :
    BalancerCommand c := by
  rcases h with rfl | hrefreshes
  · exact .hashing _ (Maglev.parse_setCommand program service flow)
      (ListedFlow.isReadable_entryOf service flow)
  · exact hrefreshes.balancerCommand

theorem Removes.balancerCommand {name : String} (h : Removes program name c) : BalancerCommand c :=
  by
  rcases h with rfl | hrefreshes
  · exact .hashing _ (Maglev.parse_flowDelete program name) trivial
  · exact hrefreshes.balancerCommand

end Commands

section Operations

variable {σ : Type} [Shell σ] (settings : Settings) (b : Balancer σ)

theorem addTarget_balancerCommand (program : String) (l : Lease) (addresses : List Address)
    (slot : UInt32) :
    Reaches BalancerCommand b.host (addTarget program l addresses slot b).2.host :=
  (addTarget_reaches program l addresses slot b).mono fun _ => Places.balancerCommand

/-- The slot of a target may be any. -/
theorem deleteTarget_balancerCommand (program : String) (l : Lease) (slot : UInt32) :
    Reaches BalancerCommand b.host (deleteTarget program l slot b).2.host := by
  rw [deleteTarget_eq]
  cases (b.targetsOf l)[slot]? with
  | none => exact .refl
  | some addresses =>
    have hdeactivate : BalancerCommand (deactivateCommand program l.name slot) :=
      .hashing _ (Maglev.parse_deactivateCommand program l.name slot) trivial
    have hran := Reaches.run hdeactivate b.host
    dsimp only
    split
    · exact hran
    · exact hran.trans
        ((deleteRoutes_about (l.mark slot) addresses _).mono fun _ => .routes (l.mark slot))

theorem deleteFlows_balancerCommand (program service : String) :
    Only BalancerCommand (deleteFlows (σ := σ) program service) :=
  (deleteFlows_removes program service).mono fun _ hgiven =>
    have ⟨_, hc⟩ := hgiven
    hc.balancerCommand

theorem clearHost_balancerCommand (program name : String) :
    Only BalancerCommand (clearHost (σ := σ) program name) := by
  have hsegment : Only BalancerCommand (deleteSegment (σ := σ) program name) := by
    rw [deleteSegment]
    refine .bind (.run (.hashing _ (Maglev.parse_deleteCommand program name) trivial))
      fun outcome => ?_
    split
    · exact .pure _
    · exact .pure _
  exact .bind (deleteFlows_balancerCommand program name) fun _ => .bind hsegment fun _ => .pure _

theorem addService_balancerCommand (name : String) (slots : UInt32) :
    Reaches BalancerCommand b.host (addService settings name slots b).2.host := by
  have hinit : BalancerCommand (initCommand settings.program name slots) :=
    .hashing _ (Maglev.parse_initCommand settings.program name slots) trivial
  have hran := Reaches.run hinit b.host
  rw [addService_eq]
  split
  · exact .refl
  split
  · exact .refl
  split
  · rename_i heq
    rw [heq] at hran
    exact hran
  · rename_i heq
    rw [heq] at hran
    exact hran

theorem deleteService_balancerCommand (name : String) :
    Reaches BalancerCommand b.host (deleteService settings name b).2.host := by
  rw [deleteService_eq]
  split
  · exact .refl
  rename_i l _
  have hreleased : Reaches BalancerCommand b.host (releaseTargets settings.program l b).2.host :=
    attemptAll_keeps (P := fun c : Balancer σ => Reaches BalancerCommand b.host c.host)
      (fun slot _ c hc => hc.trans (deleteTarget_balancerCommand c settings.program l slot)) .refl
  have hall := hreleased.trans (clearHost_balancerCommand settings.program name _)
  dsimp only
  split
  · exact hall
  · exact hall

theorem heal_balancerCommand : Reaches BalancerCommand b.host (heal b).2.host := by
  refine Task.forM_keeps (P := fun c : Balancer σ => Reaches BalancerCommand b.host c.host)
    (fun l _ c hc => hc.trans ?_) .refl
  exact Only.forM (Q := BalancerCommand) (fun target _ => (createRoutes_about (l.mark target.1)
    target.2).mono fun _ => .routes (l.mark target.1)) c.host

theorem perform_balancerCommand (op : Operation) :
    Reaches BalancerCommand b.host (op.perform settings b).host := by
  cases op with
  | addService name slots => exact addService_balancerCommand settings b name slots
  | deleteService name => exact deleteService_balancerCommand settings b name
  | addFlow name flow =>
    exact Operation.withLease_keeps (P := fun c => Reaches BalancerCommand b.host c.host) .refl
      fun l _ => (addFlow_sets settings.program l.name flow).mono
        (fun _ => Sets.balancerCommand) b.host
  | deleteFlow name flow =>
    exact Operation.withLease_keeps (P := fun c => Reaches BalancerCommand b.host c.host) .refl
      fun l _ => (deleteFlow_removes settings.program flow.name).mono
        (fun _ => Removes.balancerCommand) b.host
  | addTarget name addresses slot =>
    exact Operation.withLease_keeps (P := fun c => Reaches BalancerCommand b.host c.host) .refl
      fun l _ => addTarget_balancerCommand b settings.program l addresses slot
  | deleteTarget name addresses slot =>
    exact Operation.withLease_keeps (P := fun c => Reaches BalancerCommand b.host c.host) .refl
      fun l _ => deleteTarget_balancerCommand b settings.program l slot
  | heal => exact heal_balancerCommand b

theorem setUp_balancerCommand : Only BalancerCommand (setUp (σ := σ) settings) := by
  rw [setUp]
  cases settings.validate with
  | error _ => exact .pure _
  | ok _ =>
    dsimp only
    cases QueueRange.parse settings.queue with
    | error _ => exact .pure _
    | ok queue =>
      refine .bind ((Classifier.configure_filters queue settings.fanout).mono fun _ => .filter)
        fun outcome => ?_
      cases outcome with
      | error _ => exact .pure _
      | ok _ => exact .pure _

theorem tearDown_balancerCommand (result : Except Command.Failure Unit) :
    Only BalancerCommand (tearDown (σ := σ) result) := by
  unfold tearDown
  refine .bind (Classifier.delete_filters.mono fun _ => .filter) fun outcome => ?_
  cases outcome with
  | error _ => exact .pure _
  | ok _ => exact .pure _

end Operations

/-- Only a command about the packet filter table is a script. -/
theorem BalancerCommand.tables_cases {c : Command} {h h' : Host} {output : String}
    (hc : BalancerCommand c)
    (he : h.execute c = .ok (output, h')) : h'.tables = h.tables ∨
      Nft.execute c.args c.input h.tables = .ok (output, h'.tables) ∧
        (c.args ≠ ["-f", "-"] ∨ Classifier.Filters c) := by
  rcases execute_tables he with hsame | ⟨hp, hran⟩
  · exact .inl hsame
  refine .inr ⟨hran, ?_⟩
  cases hc with
  | routes mark habout => rw [habout.1] at hp; exact absurd hp (by decide)
  | hashing request hparse =>
    refine .inl fun hargs => ?_
    rw [hargs] at hparse
    cases hparse
  | filter hfilters => exact .inr hfilters

/-- Commands of a balancer keep the property. It does not depend on the journal, nor on which commands
the host refuses. -/
structure CommandInvariant (P : Host → Prop) : Prop where
  record : ∀ {h : Host}, P h → ∀ c : Command, P (h.record c)
  refuse : ∀ {h : Host}, P h → ∀ faults : List String, P { h with faults }
  execute : ∀ {h h' : Host} {c : Command} {output : String}, P h → BalancerCommand c →
    h.execute c = .ok (output, h') → P h'

namespace CommandInvariant

variable {P : Host → Prop} (hP : CommandInvariant P)

include hP

theorem reaches {h h' : Host} (hreach : Reaches BalancerCommand h h') (hh : P h) : P h' := by
  refine hreach.keeps (fun c s hc hs => ?_) hh
  rcases Host.run_cases c s with hsame | ⟨output, he⟩
  · rw [hsame]
    exact hP.record hs c
  · exact hP.execute (hP.record hs c) hc he

/-- However the commands fare. -/
theorem reaches_flaky {fates : Fates} {s s' : Flaky fates} (hreach : Reaches BalancerCommand s s')
    (hs : P s.host) : P s'.host := by
  refine hreach.keeps (P := fun s => P s.host) (fun c s hc hs => ?_) hs
  rcases Flaky.run_cases c s with hsame | ⟨output, he⟩
  · rw [hsame]
    exact hP.record hs c
  · exact hP.execute (hP.record hs c) hc he

end CommandInvariant

/-- Both sets stay where the packet filter table is. -/
theorem hasBothSets_commandInvariant :
    CommandInvariant fun h => Classifier.HasBothSets h.tables where
  record hsets _ := hsets
  refuse hsets _ := hsets
  execute hsets hc he := by
    rcases hc.tables_cases he with hsame | ⟨hran, hargs | hfilters⟩
    · rw [hsame]
      exact hsets
    · exact hsets.execute hargs hran
    · exact hsets.filters hfilters hran

/-- Each rule leads to the table that has its mark for a number. -/
def Straight (r : Routing) : Prop := ∀ rule ∈ r.rules, rule.table = rule.mark

theorem isUnroutable_of_parse {c : Command} {request : Maglev.Request}
    (hparse : Maglev.parse c.args = .ok request) : IsUnroutable c := by
  cases hargs : c.args with
  | nil =>
    rw [hargs] at hparse
    cases hparse
  | cons word rest =>
    refine isUnroutable_of_head hargs fun hword => ?_
    rw [hargs] at hparse
    simp only [List.mem_cons, List.not_mem_nil, or_false] at hword
    obtain rfl | rfl | rfl := hword
    · cases hparse
    · cases hparse
    · cases hparse

theorem straight_commandInvariant : CommandInvariant fun h => Straight h.routing where
  record hs _ := hs
  refuse hs _ := hs
  execute hs hc he := by
    rcases execute_routing he with hsame | ⟨json, request, hp, hparse, hperform⟩
    · rw [hsame]
      exact hs
    cases hc with
    | routes mark habout =>
      obtain ⟨-, json', asked, hasked, hmarks⟩ := habout
      obtain ⟨rfl, rfl⟩ := Prod.mk.inj (Except.ok.inj (hasked.symm.trans hparse))
      intro rule hmem
      by_cases halters : PolicyRoute.Alters (.rule rule) asked
      · have hall (m : UInt32) (hm : m ∈ [rule.mark, rule.table]) : m = mark :=
          hmarks m (halters.marks_subset hm)
        rw [hall rule.mark (by simp), hall rule.table (by simp)]
      · exact hs rule ((PolicyRoute.perform_unaltered hperform halters).mp hmem)
    | hashing asked hasked => exact absurd hparse (isUnroutable_of_parse hasked _)
    | filter hfilters => rw [hfilters.program] at hp; exact absurd hp (by decide)

/-- The flows can be read, and the sets that are there hold addresses of their family. -/
structure ReadableContents (h : Host) : Prop where
  readable : AllReadable h.hashing.flows
  addressed : Classifier.Addressed h.tables

namespace ReadableContents

variable {c : Command} {h h' : Host}

theorem empty (faults : List String) : ReadableContents { faults } :=
  ⟨AllReadable.empty, .empty⟩

theorem perform {hashing hashing' : Hashing} {request : Maglev.Request} {output : String}
    (hreadable : request.IsReadable) (hflows : AllReadable hashing.flows)
    (he : Maglev.perform hashing request = .ok (output, hashing')) : AllReadable hashing'.flows := by
  by_cases hsegmental : request.IsSegmental
  · rw [Maglev.perform_segmental hsegmental he]
    exact hflows
  cases request with
  | setFlow name flow =>
    cases he
    exact hflows.insertEntry name hreadable
  | deleteFlow name =>
    simp only [Maglev.perform] at he
    split at he
    · cases he
      exact hflows.erase name
    · cases he
  | listFlows =>
    cases he
    exact hflows
  | init | delete | activate | deactivate => exact absurd trivial hsegmental

theorem execute {output : String} (hw : ReadableContents h) (hc : BalancerCommand c)
    (he : h.execute c = .ok (output, h')) : ReadableContents h' := by
  refine ⟨?_, ?_⟩
  · rcases (execute_hashing he).2 with hsame | ⟨request, hp, hparse, hperform⟩
    · rw [hsame]
      exact hw.readable
    cases hc with
    | routes mark habout => rw [habout.1] at hp; exact absurd hp (by decide)
    | hashing asked hasked hreadable =>
      obtain rfl := Except.ok.inj (hasked.symm.trans hparse)
      exact perform hreadable hw.readable hperform
    | filter hfilters => rw [hfilters.program] at hp; exact absurd hp (by decide)
  · rcases hc.tables_cases he with hsame | ⟨hran, hargs | hfilters⟩
    · rw [hsame]
      exact hw.addressed
    · exact hw.addressed.execute hargs hran
    · exact hw.addressed.filters hfilters hran

theorem commandInvariant : CommandInvariant ReadableContents where
  record hw _ := ⟨hw.readable, hw.addressed⟩
  refuse hw _ := ⟨hw.readable, hw.addressed⟩
  execute := execute

theorem reaches (hw : ReadableContents h) (hreach : Reaches BalancerCommand h h') :
    ReadableContents h' :=
  commandInvariant.reaches hreach hw

end ReadableContents

end Balancer
end VipSteering
