import VipSteering.Proofs.Gateway.Calls

namespace VipSteering.Gateway

open Balancer Roster

variable {σ : Type} [Shell σ]

/-- What else could be done with a target for an active slot. -/
abbrev Meeting (σ : Type) :=
  Lease → List Address → UInt32 → StateM (Balancer σ) (Except (Report Balancer.Fault) Unit)

/-- The engine, apart from what it does with a target for an active slot. -/
def engineMeeting (meeting : Meeting σ) (settings : Settings) :
    Engine (Balancer σ) Lease (Report Balancer.Fault) :=
  { Balancer.engine settings with
    addTarget := fun l addresses slot b =>
      if slot ∈ b.targetsOf l then meeting l addresses slot b
      else (Balancer.engine settings).addTarget l addresses slot b }

variable (meeting : Meeting σ) (settings : Settings)

theorem engineMeeting_addServices (specs : List ServiceSpec) (g : Gateway σ) :
    addServices (engineMeeting meeting settings) specs g =
      addServices (Balancer.engine settings) specs g := by
  induction specs generalizing g with
  | nil => rfl
  | cons spec rest ih =>
    rw [addServices_cons, addServices_cons, ih]
    rfl

theorem engineMeeting_setServices (specs : List ServiceSpec) (g : Gateway σ) :
    setServices (engineMeeting meeting settings) specs g =
      setServices (Balancer.engine settings) specs g := by
  simp only [setServices_eq, engineMeeting_addServices]
  rfl

theorem engineMeeting_release (service : String) (l : Lease) (specs : List EndpointSpec)
    (previous : List ActiveEndpoint) (b : Balancer σ) :
    release (engineMeeting meeting settings) service l specs previous b =
      release (Balancer.engine settings) service l specs previous b := by
  induction previous generalizing b with
  | nil => rfl
  | cons e rest ih =>
    simp only [release_cons, ih]
    rfl

/-- New endpoints get slots that no endpoint holds, so that no target is there. -/
theorem engineMeeting_activate (service : String) (l : Lease) (previous : List ActiveEndpoint)
    (active : List ActiveEndpoint) (specs : List EndpointSpec) {b : Balancer σ}
    (h : HoldsAllTargets active (b.targetsOf l)) :
    activate (engineMeeting meeting settings) service l previous active specs b =
      activate (Balancer.engine settings) service l previous active specs b := by
  induction specs generalizing active b with
  | nil => rfl
  | cons spec rest ih =>
    have hslots : (engineMeeting meeting settings).slots l =
        (Balancer.engine (σ := σ) settings).slots l := rfl
    rw [activate_cons, activate_cons, hslots]
    generalize hpick : pickSlot service spec (slotOf? previous spec.identity)
      (active.map (·.slot)) ((Balancer.engine (σ := σ) settings).slots l) = picked
    cases picked with
    | error fault =>
      dsimp only
      rw [ih active h]
    | ok slot =>
      have hfree := (pickSlot_ok service hpick).2
      have hnew := h.not_mem hfree
      have hsame : (engineMeeting meeting settings).addTarget l spec.addresses slot b =
          (Balancer.engine settings).addTarget l spec.addresses slot b := if_neg hnew
      have htargets := addTarget_targets settings.program spec.addresses hnew
      dsimp only
      rw [hsame, engine_addTarget]
      cases hres : (Balancer.addTarget settings.program l spec.addresses slot b).1 with
      | error fault =>
        rw [hres] at htargets
        simp only [mapError_error]
        rw [ih active (by rw [htargets]; exact h)]
      | ok _ =>
        rw [hres] at htargets
        simp only [mapError_ok]
        exact ih _ (by rw [htargets]; exact h.append ⟨spec.identity, spec.addresses, slot⟩)

theorem engineMeeting_setEndpoints {g : Gateway σ} (h : Matched settings.firstMark g)
    (service : String) (specs : List EndpointSpec) :
    setEndpoints (engineMeeting meeting settings) service specs g =
      setEndpoints (Balancer.engine settings) service specs g := by
  rw [setEndpoints_eq, setEndpoints_eq]
  split
  · rename_i l previous hl hes
    have hkept := release_keeps settings service l specs (fun _ _ _ _ => HoldsAllTargets.erase) []
      previous g.engine (h.holdsAll hl hes)
    rw [List.nil_append] at hkept
    have hsame : converge (engineMeeting meeting settings) service l previous specs g.engine =
        converge (Balancer.engine settings) service l previous specs g.engine := by
      simp only [converge_eq, engineMeeting_release,
        engineMeeting_activate meeting settings service l previous _ _ hkept]
    rw [hsame]
  · rfl

theorem Event.engineMeeting_apply {g : Gateway σ} (h : Matched settings.firstMark g)
    (e : Event σ) :
    e.apply (engineMeeting meeting settings) g = e.apply (Balancer.engine settings) g := by
  match e with
  | .call (.setServices specs) =>
    exact congrArg Prod.snd (engineMeeting_setServices meeting settings specs g)
  | .call (.setFlows specs) => rfl
  | .call (.setEndpoints service specs) =>
    exact congrArg Prod.snd (engineMeeting_setEndpoints meeting settings h service specs)
  | .outside _ => rfl

theorem engineMeeting_run {g : Gateway σ} (h : Matched settings.firstMark g)
    (events : List (Event σ)) :
    run (engineMeeting meeting settings) events g = run (Balancer.engine settings) events g := by
  induction events generalizing g with
  | nil => rfl
  | cons e rest ih =>
    change run _ rest (e.apply _ g) = run _ rest (e.apply _ g)
    rw [e.engineMeeting_apply meeting settings h]
    exact ih (e.apply_matched h)

/-- However commands fail, the roster and the balancer have the same services under the same leases;
each target is that of exactly one endpoint, with the same addresses; and no target is ever given to
the balancer for a slot that is active. -/
theorem run_no_ghosts (host : σ) (events : List (Event σ)) :
    let g := run (Balancer.engine settings) events (fresh host)
    g.services = g.engine.registered ∧
    (∀ (name : String) (l : Lease) (slot : UInt32) (addresses : List Address),
      g.engine.registered[name]? = some l → (g.engine.targetsOf l)[slot]? = some addresses →
      ∃ es, g.endpoints[name]? = some es ∧
        (es.filter (·.slot = slot)).map (·.addresses) = [addresses]) ∧
    ∀ meeting : Meeting σ, run (engineMeeting meeting settings) events (fresh host) = g := by
  have h := run_matched (.fresh settings.firstMark host) events
  refine ⟨h.services, ?_, fun meeting => engineMeeting_run meeting settings (.fresh _ host) events⟩
  intro name l slot addresses hl hs
  rw [← h.services] at hl
  obtain ⟨es, hes⟩ := h.endpoints_of hl
  exact ⟨es, hes, (h.holdsAll hl hes).unique (h.slots_nodup hes) hs⟩

end VipSteering.Gateway
