import VipSteering.Proofs.Balancer.Strays
import VipSteering.Proofs.Balancer.Withdrawn
import VipSteering.Proofs.Gateway.Repeated
import VipSteering.Proofs.Gateway.Leases

namespace VipSteering

open Host PolicyRoute

namespace Balancer

/-- Nothing is left of the service, and nothing of the policy routes of its targets. -/
structure Erased (l : Lease) (b : Balancer Host)
    (answer : Except (Report Fault) Unit × Balancer Host) : Prop where
  ok : answer.1 = .ok ()
  segment : l.name ∉ answer.2.host.hashing.segments
  flows : ∀ (key : String) (e : FlowEntry), answer.2.host.hashing.flows[key]? = some e →
    e.target ≠ l.name
  registered : answer.2.registered[l.name]? = none
  /-- A rule for the mark of a recorded target can only be one that leads to another table, and had
  been there before. -/
  rules : ∀ (slot : UInt32) (addresses : List Address), (b.targetsOf l)[slot]? = some addresses →
    ∀ a ∈ addresses, ∀ r ∈ answer.2.host.routing.rules, r.family = a.family → r.mark = l.mark slot →
      r ∈ b.host.routing.rules ∧ r.table ≠ r.mark
  routes : ∀ (slot : UInt32) (addresses : List Address), (b.targetsOf l)[slot]? = some addresses →
    ∀ a ∈ addresses, ⟨l.mark slot, a⟩ ∉ answer.2.host.routing.routes

section Erased

variable {settings : Settings} {floor : UInt32} {b : Balancer Host} {name : String} {l : Lease}
  (h : Sound floor b) (hl : b.registered[name]? = some l)

include h hl

/-- The marks of a service that is off the books are free. -/
theorem not_held_of_deleted (hok : (deleteService settings name b).1 = .ok ()) {slot : UInt32}
    (hslot : slot ∈ b.targetsOf l) (addresses : List Address) :
    ¬ Held (deleteService settings name b).2 (l.mark slot) addresses := by
  rcases deleteService_cases settings hl with ⟨report, left, heq, -⟩ | ⟨left, heq, hr⟩
  · rw [heq] at hok
    cases hok
  rw [heq]
  intro hgiven
  obtain ⟨n, k, t, hk, hget, hmark⟩ := hgiven
  obtain ⟨hne, hk⟩ := of_getElem?_erase hk
  rw [hr.registered] at hk
  have hnumber : k.number ≠ l.number := fun heq => hne (h.number_inj hk hl heq)
  have ht : t ∈ b.targetsOf k := by
    rw [← hr.others k hnumber]
    exact mem_of_getElem? hget
  obtain ⟨rfl, -⟩ := h.mark_inj hl hk (h.slot_lt hl hslot) (h.slot_lt hk ht) hmark
  exact hnumber rfl

variable (hp : Text.endsWith "nfqlb" settings.program = true) (hf : b.host.faults = [])

include hp hf

/-- An entry of a policy route that the service had is gone. -/
theorem not_has_of_deleted (hok : (deleteService settings name b).1 = .ok ()) {slot : UInt32}
    {addresses : List Address} (hget : (b.targetsOf l)[slot]? = some addresses) {e : Entry}
    (hnamed : e.IsNamedBy (l.mark slot) addresses) :
    ¬ Has (deleteService settings name b).2 e := by
  have hnot : ¬ Upholds (deleteService settings name b).2 e := fun hgiven =>
    hgiven.not_belongsTo (not_held_of_deleted h hl hok (mem_of_getElem? hget)) addresses
      hnamed.belongsTo
  rw [(deleteService_sheds h (fun _ _ => hp) e).gone hnot]
  intro hgiven
  exact not_refuses hf _ (hgiven.2 ⟨l.mark slot, addresses, ⟨name, l, slot, hl, hget, rfl⟩, hnamed⟩)

omit hl hf in
/-- A rule that leads to another table than its own is no concern of a balancer. -/
theorem has_deleteService_of_crooked {r : Rule} (hcrooked : r.table ≠ r.mark) :
    Has (deleteService settings name b).2 (.rule r) ↔ Has b (.rule r) := by
  have hother {mark : UInt32} {addresses : List Address} :
      ¬ (Entry.rule r).BelongsTo mark addresses := by
    intro hgiven
    obtain ⟨a, -, hr⟩ := hgiven
    rw [Entry.IsOf] at hr
    rw [hr] at hcrooked
    exact hcrooked rfl
  have hnot : ¬ Upholds (deleteService settings name b).2 (.rule r) := by
    intro hgiven
    obtain ⟨_, _, _, hbelongs⟩ := hgiven
    exact hother hbelongs
  rw [(deleteService_sheds h (fun _ _ => hp) _).gone hnot, and_iff_left]
  intro hgiven
  obtain ⟨_, _, _, hnamed⟩ := hgiven
  exact absurd hnamed.belongsTo hother

theorem deleteService_erased (hreadable : AllReadable b.host.hashing.flows)
    (hown : Classifier.HoldsOwnFamily b.host.tables) :
    Erased l b (deleteService settings name b) := by
  obtain rfl := h.name hl
  have hok : (deleteService settings l.name b).1 = .ok () :=
    deleteService_ok hp hl hf hreadable hown
  have hleft := deleteService_left settings hl
  refine ⟨hok, ?_, fun key e hget => deleteService_gone hp hl hreadable hok hget, ?_,
    fun slot addresses hget a ha r hr hfamily hmark => ?_, fun slot addresses hget a ha hr => ?_⟩
  · have hreleased := releaseTargets_alike hp l b
    obtain ⟨flows, tables, journal, hcleared, -⟩ :=
      clearHost_frame hp (releaseTargets settings.program l b).2.host l.name
    rw [hleft]
    dsimp only
    rw [hcleared, if_neg (not_refuses (hreleased.faults.trans hf) _)]
    simp
  · rw [hleft, hok]
    exact Std.ExtTreeMap.getElem?_erase_self
  · have hcrooked : r.table ≠ r.mark := by
      intro htable
      refine not_has_of_deleted h hl hp hf hok hget (e := .rule r) ⟨a, ha, ?_⟩ hr
      obtain ⟨family, mark, table⟩ := r
      simp only at hfamily hmark htable
      rw [htable, hmark, hfamily]
      rfl
    exact ⟨(has_deleteService_of_crooked h hp hcrooked).mp hr, hcrooked⟩
  · exact not_has_of_deleted h hl hp hf hok hget (e := .route ⟨l.mark slot, a⟩) ⟨a, ha, rfl⟩ hr

end Erased

/-- The balancer on its host, on which just the commands of a set fail. -/
def refusing (b : Balancer Host) (failing : Command → Bool) :
    Balancer (Flaky (.refusing failing)) :=
  { b with host := ⟨b.host.clearFaults⟩ }

/-- The balancer on its host, on which no command fails. -/
def healthy (b : Balancer Host) : Balancer Host := { b with host := b.host.clearFaults }

/-- What an operation leaves while the commands of a set fail. -/
def attempt (settings : Settings) (b : Balancer Host) (op : Operation)
    (failing : Command → Bool) : Balancer Host :=
  let left := op.perform settings (b.refusing failing)
  { left with host := left.host.host }

/-- What is left after attempts in turn, each while other commands fail. -/
def afterAttempts (settings : Settings) (attempts : List (Operation × (Command → Bool)))
    (b : Balancer Host) : Balancer Host :=
  attempts.foldl (fun b (op, failing) => attempt settings b op failing) b

/-- The books are sound, and the host holds flows that can be read and, where the table is, two sets
of addresses. -/
structure SoundOnReadable (settings : Settings) (b : Balancer Host) : Prop where
  books : SoundBooks settings b
  contents : ReadableContents b.host
  bothSets : Classifier.HasBothSets b.host.tables

section Attempts

variable {settings : Settings} {b : Balancer Host}

theorem attempt_commandInvariant {P : Host → Prop} (hP : CommandInvariant P) (hb : P b.host)
    (op : Operation)
    (failing : Command → Bool) : P (attempt settings b op failing).host :=
  hP.reaches_flaky (perform_balancerCommand settings (b.refusing failing) op) (hP.refuse hb [])

theorem attempt_soundOnReadable (h : SoundOnReadable settings b) (op : Operation)
    (failing : Command → Bool) :
    SoundOnReadable settings (attempt settings b op failing) := by
  have hbooks : SoundBooks settings (b.refusing failing) := h.books.host _
  have hfollows := perform_follows hbooks.sound op
  exact ⟨(hbooks.grows hfollows.sound hfollows.grows).host _,
    attempt_commandInvariant ReadableContents.commandInvariant h.contents op failing,
    attempt_commandInvariant hasBothSets_commandInvariant h.bothSets op failing⟩

theorem afterAttempts_keeps {P : Balancer Host → Prop}
    (hstep : ∀ b op failing, P b → P (attempt settings b op failing))
    (attempts : List (Operation × (Command → Bool))) (hb : P b) :
    P (afterAttempts settings attempts b) := by
  induction attempts generalizing b with
  | nil => exact hb
  | cons first rest ih => exact ih (hstep b first.1 first.2 hb)

end Attempts

end Balancer

namespace Gateway

open Balancer Classifier

theorem afterAttempts_soundOnReadable (settings : Settings) (fates : Fates)
    (happenings : List Happening)
    (attempts : List (Operation × (Command → Bool))) :
    SoundOnReadable settings (afterAttempts settings attempts
      (onHost (afterHappenings settings fates happenings)).engine) := by
  have hleases := afterHappenings_soundLeases settings fates happenings
  have hrecord := afterHappenings_consistentReadable settings fates happenings
  have hsets := afterHappenings_hasBothSets settings fates happenings
  exact afterAttempts_keeps (P := SoundOnReadable settings)
    (fun _ op failing hb => attempt_soundOnReadable hb op failing) attempts
    ⟨hleases.books.host _, hrecord.contents, hsets⟩

theorem afterAttempts_straight (settings : Settings) (fates : Fates) {happenings : List Happening}
    (h : ∀ happening ∈ happenings, happening.IsStraight)
    (attempts : List (Operation × (Command → Bool))) :
    Straight (afterAttempts settings attempts
      (onHost (afterHappenings settings fates happenings)).engine).host.routing :=
  afterAttempts_keeps (P := fun b => Straight b.host.routing)
    (fun _ op failing hb => attempt_commandInvariant straight_commandInvariant hb op failing)
    attempts
    (afterHappenings_straight settings fates h)

/-- Whatever has happened to a gateway, to its balancer and to its host, and whatever the balancer has
been asked to do since while some commands failed: a service that is registered is deleted up to what
needs a command that fails, and is off the books exactly if success is reported. Once no command
fails, it is deleted with all that is left of it, wherever the packet filter table is. -/
theorem delete_service_retryable (settings : Settings) (fates : Fates) (happenings : List Happening)
    (attempts : List (Operation × (Command → Bool))) {name : String} {l : Lease}
    (hl : (afterAttempts settings attempts
      (onHost (afterHappenings settings fates happenings)).engine).registered[name]? = some l) :
    let b := afterAttempts settings attempts
      (onHost (afterHappenings settings fates happenings)).engine
    (∀ failing : Command → Bool, Withdrawn settings.program l (b.refusing failing)
      (deleteService settings name (b.refusing failing))) ∧
    (tableName ∈ b.host.tables →
      Erased l b.healthy (deleteService settings name b.healthy) ∧
      -- If nothing else has led a mark to the table of another, no rule is left for the marks.
      ((∀ happening ∈ happenings, happening.IsStraight) →
        ∀ (slot : UInt32) (addresses : List Address), (b.targetsOf l)[slot]? = some addresses →
          ∀ a ∈ addresses, ∀ r ∈ (deleteService settings name b.healthy).2.host.routing.rules,
            r.family = a.family → r.mark ≠ l.mark slot)) := by
  intro b
  have hstate : SoundOnReadable settings b :=
    afterAttempts_soundOnReadable settings fates happenings attempts
  have hp := hstate.books.program hl
  refine ⟨fun failing => ?_, fun htable => ?_⟩
  · exact deleteService_withdrawn (hstate.books.sound.host _) hl hp rfl hstate.contents.readable
  have herased : Erased l b.healthy (deleteService settings name b.healthy) :=
    deleteService_erased (hstate.books.sound.host _) hl hp rfl hstate.contents.readable
      (hstate.bothSets.ownFamily hstate.contents.addressed htable)
  refine ⟨herased, fun hstraight slot addresses hget a ha r hr hfamily hmark => ?_⟩
  obtain ⟨hbefore, hcrooked⟩ := herased.rules slot addresses hget a ha r hr hfamily hmark
  exact hcrooked (afterAttempts_straight settings fates hstraight attempts r hbefore)

/-- A service gets a target. -/
def servedStart : List Happening :=
  [.setUp, .operate (.addService "svc-a" 10),
    .operate (.addTarget "svc-a" [.v4 0x0A000001#32] 3)]

/-- Another target cannot be activated. -/
def vainTarget : List (Operation × (Command → Bool)) :=
  [(.addTarget "svc-a" [.v4 0x0A000002#32] 4, fun c => c.args.head? = some "activate")]

theorem afterAttempts_vainTarget {setup : Setup} {tables : FilterTables} {journal : List Command}
    (hsetup : (setUp { } : StateM Host _) { } = (.ok setup, { tables, journal })) :
    let b := afterAttempts { } vainTarget
      (onHost (afterHappenings { } (fun _ _ => .done) servedStart)).engine
    b.registered["svc-a"]? = some ⟨0, "svc-a", ⟨5000, 10⟩⟩ ∧ b.host.tables = tables := by
  have hstart : Happening.apply { } (fresh ⟨{ }⟩) .setUp =
      fresh (⟨{ tables, journal }⟩ : Flaky fun _ _ => .done) := by
    rw [Happening.apply, fresh, setUp_done fun _ => rfl]
    dsimp only
    rw [hsetup]
    rfl
  rw [afterHappenings, servedStart, List.foldl_cons, hstart]
  cbv

theorem vainTarget_retryable :
    let b := afterAttempts { } vainTarget
      (onHost (afterHappenings { } (fun _ _ => .done) servedStart)).engine
    let l : Lease := ⟨0, "svc-a", ⟨5000, 10⟩⟩
    b.registered["svc-a"]? = some l ∧ tableName ∈ b.host.tables ∧
      (∀ failing : Command → Bool, Withdrawn "nfqlb" l (b.refusing failing)
        (deleteService { } "svc-a" (b.refusing failing))) ∧
      Erased l b.healthy (deleteService { } "svc-a" b.healthy) ∧
      ∀ (slot : UInt32) (addresses : List Address), (b.targetsOf l)[slot]? = some addresses →
        ∀ a ∈ addresses, ∀ r ∈ (deleteService { } "svc-a" b.healthy).2.host.routing.rules,
          r.family = a.family → r.mark ≠ l.mark slot := by
  intro b l
  have hstraight : ∀ happening ∈ servedStart, happening.IsStraight := by
    simp [servedStart, Happening.IsStraight]
  obtain ⟨setup, tables, journal, hsetup⟩ := setUp_default
  obtain ⟨hl, htables⟩ := afterAttempts_vainTarget hsetup
  have htable : tableName ∈ b.host.tables := by
    obtain ⟨set, hset, -⟩ := (setUp_settled hsetup 0).mirrored.vips .ipv4
    rw [htables]
    exact HasBothSets.mem_of_setOf (Option.isSome_of_eq_some hset)
  obtain ⟨hwithdrawn, hretried⟩ :=
    delete_service_retryable { } (fun _ _ => .done) servedStart vainTarget hl
  obtain ⟨herased, hunmarked⟩ := hretried htable
  refine ⟨hl, htable, hwithdrawn, herased, ?_⟩
  subst b l
  exact hunmarked hstraight

end Gateway
end VipSteering
