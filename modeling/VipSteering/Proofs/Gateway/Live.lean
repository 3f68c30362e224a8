import Mathlib.Data.List.Induction
import VipSteering.Host.Basic
import VipSteering.Proofs.Gateway.Calls

namespace VipSteering.Gateway

open Balancer Roster

variable {σ : Type}

/-- Every endpoint on record for the service is active in the balancer. -/
def LiveAt (name : String) (g : Gateway σ) : Prop :=
  ∀ (l : Lease) (es : List ActiveEndpoint), g.services[name]? = some l →
    g.endpoints[name]? = some es → Live es (g.engine.targetsOf l)

/-- Every endpoint on record is active in the balancer. -/
def AllLive (g : Gateway σ) : Prop := ∀ name, LiveAt name g

theorem liveAt_congr {name : String} {g g' : Gateway σ}
    (hs : g'.services[name]? = g.services[name]?) (he : g'.endpoints[name]? = g.endpoints[name]?)
    (ht : ∀ l, g.services[name]? = some l → g'.engine.targetsOf l = g.engine.targetsOf l) :
    LiveAt name g' ↔ LiveAt name g := by
  rw [LiveAt, LiveAt, hs, he]
  constructor
  · intro h l es hl hes
    rw [← ht l hl]
    exact h l es hl hes
  · intro h l es hl hes
    rw [ht l hl]
    exact h l es hl hes

/-- Endpoints that were live stay so exactly if no slot is given up. -/
theorem Live.releases_iff {l : Lease} {b b' : Balancer σ} {es : List ActiveEndpoint}
    (hr : Releases l b b') (hc : HoldsAllTargets es (b.targetsOf l)) (h : Live es (b.targetsOf l)) :
    Live es (b'.targetsOf l) ↔ ∀ slot ∈ b.targetsOf l, slot ∈ b'.targetsOf l := by
  constructor
  · intro hafter slot hs
    obtain ⟨addresses, hs⟩ := exists_of_mem hs
    obtain ⟨e, he, rfl, -⟩ := hc slot addresses hs
    exact mem_of_getElem? (hafter e he)
  · intro hkept e he
    have hs := hkept e.slot (mem_of_getElem? (h e he))
    obtain ⟨addresses, hs⟩ := exists_of_mem hs
    have hsame := (h e he).symm.trans (hr.kept e.slot addresses hs)
    rw [hs, Option.some.inj hsame]

variable [Shell σ] {floor : UInt32} {settings : Settings} {g : Gateway σ} {name other : String}

/-- The deletion of the service fails, but not before it has deactivated a slot. -/
def FailsPartway (settings : Settings) (name : String) (b : Balancer σ) : Prop :=
  ∃ (l : Lease) (slot : UInt32) (report : Report Balancer.Fault), b.registered[name]? = some l ∧
    slot ∈ b.targetsOf l ∧ (deleteService settings name b).1 = .error report ∧
    slot ∉ (deleteService settings name b).2.targetsOf l

theorem dropService_liveAt_ne (h : Matched floor g) (hne : other ≠ name) :
    LiveAt name (dropService (Balancer.engine settings) other g).2 ↔ LiveAt name g := by
  have hget {β : Type} (m : Std.ExtTreeMap String β) : (m.erase other)[name]? = m[name]? :=
    getElem?_erase_of_ne hne
  rw [dropService_eq, engine_deleteService]
  cases hn : g.engine.registered[other]? with
  | none =>
    rw [deleteService_absent settings hn]
    exact liveAt_congr (hget _) (hget _) fun _ _ => rfl
  | some k =>
    have hothers {b : Balancer σ} (hr : Releases k g.engine b) {l : Lease}
        (hl : g.services[name]? = some l) : b.targetsOf l = g.engine.targetsOf l := by
      refine hr.others l fun he => hne ?_
      rw [← h.services] at hn
      exact (h.number_inj hl hn he).symm
    rcases deleteService_cases settings hn with ⟨_, b, hd, hr⟩ | ⟨b, hd, hr⟩
    · rw [hd]
      exact liveAt_congr rfl rfl fun l hl => hothers hr hl
    · rw [hd]
      exact liveAt_congr (hget _) (hget _) fun l hl => hothers hr hl

/-- A service that was live stays so, unless its deletion fails too late. -/
theorem dropService_liveAt (h : Matched floor g) (hlive : LiveAt name g) :
    LiveAt name (dropService (Balancer.engine settings) name g).2 ↔
      ¬ FailsPartway settings name g.engine := by
  rw [dropService_eq, engine_deleteService]
  have gone {e : Balancer σ} {flows : Std.ExtTreeMap String FlowSpec} : LiveAt name
      ({ g with engine := e, services := g.services.erase name, flows,
                endpoints := g.endpoints.erase name } : Gateway σ) := by
    intro l es hl
    simp at hl
  cases hn : g.engine.registered[name]? with
  | none =>
    rw [deleteService_absent settings hn]
    refine iff_of_true gone ?_
    intro hgiven
    obtain ⟨l, _, _, hl, -⟩ := hgiven
    rw [hn] at hl
    cases hl
  | some l =>
    have hl : g.services[name]? = some l := by rw [h.services]; exact hn
    obtain ⟨es, hes⟩ := h.endpoints_of hl
    rcases deleteService_cases settings hn with ⟨report, b, hd, hr⟩ | ⟨b, hd, -⟩
    · rw [hd]
      have hiff := Live.releases_iff hr (h.holdsAll hl hes) (hlive l es hl hes)
      constructor
      · intro hafter hgiven
        obtain ⟨k, slot, _, hk, hs, -, hgone⟩ := hgiven
        obtain rfl : l = k := Option.some.inj (hn.symm.trans hk)
        rw [hd] at hgone
        exact hgone (hiff.mp (hafter l es hl hes) slot hs)
      · intro hnot k ds hk hds
        obtain rfl : l = k := Option.some.inj (hl.symm.trans hk)
        obtain rfl : es = ds := Option.some.inj (hes.symm.trans hds)
        refine hiff.mpr fun slot hs => Classical.byContradiction fun hgone => ?_
        exact hnot ⟨l, slot, report, hn, hs, by rw [hd], by rw [hd]; exact hgone⟩
    · rw [hd]
      refine iff_of_true gone ?_
      intro hgiven
      obtain ⟨_, _, _, -, -, he, -⟩ := hgiven
      rw [hd] at he
      cases he

theorem dropServices_liveAt_not_mem {names : List String} (h : Matched floor g)
    (hn : name ∉ names) :
    LiveAt name (attemptAll (dropService (Balancer.engine settings)) names g).2 ↔
      LiveAt name g := by
  refine (attemptAll_keeps (P := fun r => Matched floor r ∧ (LiveAt name r ↔ LiveAt name g))
    ?_ ⟨h, Iff.rfl⟩).2
  intro m hm r hgiven
  obtain ⟨hr, hiff⟩ := hgiven
  have hne : m ≠ name := fun he => hn (he ▸ hm)
  exact ⟨dropService_matched hr m, (dropService_liveAt_ne hr hne).trans hiff⟩

/-- The deletions in turn, up to one of them. -/
def dropped (settings : Settings) (names : List String) (g : Gateway σ) : Gateway σ :=
  (attemptAll (dropService (Balancer.engine settings)) names g).2

theorem dropped_matched (settings : Settings) (h : Matched floor g) (names : List String) :
    Matched floor (dropped settings names g) :=
  attemptAll_keeps (P := Matched floor) (fun m _ _ hr => dropService_matched hr m) h

theorem dropServices_live {names : List String} (hd : names.Nodup) (h : Matched floor g)
    (hlive : AllLive g) :
    AllLive (dropped settings names g) ↔
      ∀ front name rest, names = front ++ name :: rest →
        ¬ FailsPartway settings name (dropped settings front g).engine := by
  have key (front : List String) (name : String) (rest : List String)
      (he : names = front ++ name :: rest) : LiveAt name (dropped settings names g) ↔
        ¬ FailsPartway settings name (dropped settings front g).engine := by
    rw [he, List.nodup_append, List.nodup_cons] at hd
    obtain ⟨-, ⟨hrest, -⟩, hfront⟩ := hd
    have hfront : name ∉ front := fun hm => hfront name hm name List.mem_cons_self rfl
    have hturn := dropped_matched settings h front
    have hbefore : LiveAt name (dropped settings front g) :=
      (dropServices_liveAt_not_mem h hfront).mpr (hlive name)
    rw [he, dropped, attemptAll_append, attemptAll_cons]
    exact (dropServices_liveAt_not_mem (dropService_matched hturn name) hrest).trans
      (dropService_liveAt hturn hbefore)
  constructor
  · intro hall front name rest he
    exact (key front name rest he).mp (hall name)
  · intro hnone name
    by_cases hm : name ∈ names
    · obtain ⟨front, rest, he⟩ := List.append_of_mem hm
      exact (key front name rest he).mpr (hnone front name rest he)
    · exact (dropServices_liveAt_not_mem h hm).mpr (hlive name)

theorem addService_liveAt (h : Matched settings.firstMark g) (spec : ServiceSpec) :
    LiveAt name (Roster.addService (Balancer.engine settings) spec g).2 ↔ LiveAt name g := by
  rw [Roster.addService_eq]
  split
  · rfl
  rename_i hnew
  have hn : g.services[spec.name]? = none := Std.ExtTreeMap.getElem?_eq_none hnew
  have hreg : g.engine.registered[spec.name]? = none := by rw [← h.services]; exact hn
  rw [engine_addService]
  rcases addService_cases settings spec.maxEndpoints hreg with ⟨_, host, he⟩ | ⟨block, host, -, he⟩
  · rw [he]
    exact liveAt_congr rfl rfl fun _ _ => rfl
  · rw [he]
    by_cases heq : spec.name = name
    · subst heq
      refine iff_of_true ?_ ?_
      · intro l es _ hes e hmem
        simp only [mapError_ok, Std.ExtTreeMap.getElem?_insert_self, Option.some.injEq] at hes
        rw [← hes] at hmem
        cases hmem
      · intro l es hl
        rw [hn] at hl
        cases hl
    · have hget {β : Type} (m : Std.ExtTreeMap String β) (v : β) :
          (m.insert spec.name v)[name]? = m[name]? :=
        getElem?_insert_of_ne heq v
      exact liveAt_congr (hget _ _) (hget _ _) fun _ _ => rfl

theorem addServices_liveAt (h : Matched settings.firstMark g) (specs : List ServiceSpec) :
    LiveAt name (addServices (Balancer.engine settings) specs g).2 ↔ LiveAt name g := by
  refine (addServices_keeps _
    (P := fun r => Matched settings.firstMark r ∧ (LiveAt name r ↔ LiveAt name g))
    ?_ ⟨h, Iff.rfl⟩).2
  intro spec _ r hgiven
  obtain ⟨hr, hiff⟩ := hgiven
  exact ⟨addService_matched hr spec, (addService_liveAt hr spec).trans hiff⟩

theorem setServices_live (h : Matched settings.firstMark g) (hlive : AllLive g)
    (specs : List ServiceSpec) :
    AllLive (setServices (Balancer.engine settings) specs g).2 ↔
      ∀ front name rest, g.staleServices specs = front ++ name :: rest →
        ¬ FailsPartway settings name (dropped settings front g).engine := by
  rw [← dropServices_live (staleServices_nodup g specs) h hlive]
  have hdropped := dropped_matched settings h (g.staleServices specs)
  refine forall_congr' fun name => ?_
  have hforget : LiveAt name (forgetFlows (dropped settings (g.staleServices specs) g)) ↔
      LiveAt name (dropped settings (g.staleServices specs) g) :=
    liveAt_congr rfl rfl fun _ _ => rfl
  rw [setServices_eq]
  exact (addServices_liveAt (hdropped.congr _ _) _).trans hforget

theorem setFlows_liveAt (specs : List FlowSpec) :
    LiveAt name (setFlows (Balancer.engine settings) specs g).2 ↔ LiveAt name g := by
  refine setFlows_keeps _ (P := fun r => LiveAt name r ↔ LiveAt name g)
    (fun key r hr => ?_) (fun spec r hr => ?_) specs Iff.rfl
  · rw [dropFlow_eq]
    split
    · exact hr
    · split
      · exact (liveAt_congr rfl rfl fun _ _ => rfl).trans hr
      · exact (liveAt_congr rfl rfl fun _ _ => rfl).trans hr
  · rw [putFlow_eq]
    split
    · exact hr
    · exact (liveAt_congr rfl rfl fun _ _ => rfl).trans hr

theorem setEndpoints_live (h : Matched floor g) (hlive : AllLive g) (service : String)
    (specs : List EndpointSpec) :
    AllLive (setEndpoints (Balancer.engine settings) service specs g).2 := by
  rw [setEndpoints_eq]
  split
  · rename_i l previous hl hes
    obtain ⟨hconf, -, hkeep⟩ :=
      converge_keeps settings service l specs (h.slots_nodup hes) (h.holdsAll hl hes)
    intro name k ds hk hds
    rcases of_getElem?_insert hds with ⟨rfl, rfl⟩ | ⟨hne, hds⟩
    · obtain rfl : l = k := Option.some.inj (hl.symm.trans hk)
      exact hkeep (hlive _ l previous hl hes)
    · have hnum : k.number ≠ l.number := fun he => hne (h.number_inj hk hl he)
      have := hlive name k ds hk hds
      rwa [← hconf.others k hnum] at this
  · exact hlive

/-- The event is a call that deletes a service, and the deletion fails partway. -/
def Strands (settings : Settings) (g : Gateway σ) : Event σ → Prop
  | .call (.setServices specs) =>
    ∃ front name rest, g.staleServices specs = front ++ name :: rest ∧
      FailsPartway settings name (dropped settings front g).engine
  | _ => False

theorem Event.apply_live (h : Matched settings.firstMark g) (hlive : AllLive g) (e : Event σ) :
    AllLive (e.apply (Balancer.engine settings) g) ↔ ¬ Strands settings g e := by
  match e with
  | .call (.setServices specs) =>
    refine (setServices_live h hlive specs).trans ?_
    simp only [Strands, not_exists, not_and]
  | .call (.setFlows specs) =>
    exact iff_of_true (fun name => (setFlows_liveAt specs).mpr (hlive name)) id
  | .call (.setEndpoints service specs) =>
    exact iff_of_true (setEndpoints_live h hlive service specs) id
  | .outside _ =>
    exact iff_of_true (fun name => (liveAt_congr rfl rfl fun _ _ => rfl).mpr (hlive name)) id

omit [Shell σ] in
theorem run_snoc (engine : Engine (Balancer σ) Lease (Report Balancer.Fault))
    (events : List (Event σ)) (e : Event σ) (g : Gateway σ) :
    run engine (events ++ [e]) g = e.apply engine (run engine events g) := by
  rw [run, List.foldl_append]
  rfl

/-- Every endpoint on record is active at all times of a run exactly if no deletion in it fails
partway. -/
theorem run_live_iff (host : σ) (events : List (Event σ)) :
    (∀ prior, prior <+: events →
      AllLive (run (Balancer.engine settings) prior (fresh host))) ↔
    ∀ prior e, prior ++ [e] <+: events →
      ¬ Strands settings (run (Balancer.engine settings) prior (fresh host)) e := by
  have hmatched (prior : List (Event σ)) :
      Matched settings.firstMark (run (Balancer.engine settings) prior (fresh host)) :=
    run_matched (.fresh _ host) prior
  have hfresh : AllLive (fresh host) := by
    intro name l es hl
    simp [fresh] at hl
  constructor
  · intro hall prior e hp
    have hbefore := hall prior ((List.prefix_append prior [e]).trans hp)
    have hafter := hall _ hp
    rw [run_snoc] at hafter
    exact (Event.apply_live (hmatched prior) hbefore e).mp hafter
  · intro hnone prior hp
    induction prior using List.reverseRecOn with
    | nil => exact hfresh
    | append_singleton prior e ih =>
      rw [run_snoc]
      have hbefore := ih ((List.prefix_append prior [e]).trans hp)
      exact (Event.apply_live (hmatched prior) hbefore e).mpr (hnone prior e hp)

/-- The segment of a service cannot be deleted when the service is not wanted any more, but it can
be later, when service and endpoint are wanted again. -/
def strandingRun : List (Event Host) :=
  let service : ServiceSpec := ⟨"svc-a", 10⟩
  let endpoint : EndpointSpec := ⟨"pod-1", [.v4 0x0A000001#32], true, none⟩
  [.call (.setServices [service]), .call (.setEndpoints "svc-a" [endpoint]),
    .outside (·.failOn "delete --shm"), .call (.setServices []),
    .outside Host.clearFaults, .call (.setServices [service]),
    .call (.setEndpoints "svc-a" [endpoint])]

theorem strandingRun_not_live :
    ¬ AllLive (run (Balancer.engine {}) strandingRun (fresh ({} : Host))) := by
  have h : let g := run (Balancer.engine {}) strandingRun (fresh ({} : Host))
      g.services["svc-a"]? = some ⟨0, "svc-a", ⟨5000, 10⟩⟩ ∧
      g.endpoints["svc-a"]? = some [⟨"pod-1", [.v4 0x0A000001#32], 0⟩] ∧
      (g.engine.targetsOf ⟨0, "svc-a", ⟨5000, 10⟩⟩)[(0 : UInt32)]? = none := by
    decide +kernel
  obtain ⟨hl, hes, hnone⟩ := h
  intro hall
  have hlive := hall "svc-a" _ _ hl hes _ List.mem_cons_self
  rw [hnone] at hlive
  cases hlive

end VipSteering.Gateway
