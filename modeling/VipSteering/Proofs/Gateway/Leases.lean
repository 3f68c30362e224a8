import VipSteering.Proofs.Balancer.Leases
import VipSteering.Proofs.Gateway.Happenings

namespace VipSteering.Gateway

open Balancer Roster

variable {fates : Fates} {settings : Settings} {g : Gateway (Flaky fates)}

/-- The balancer's books are sound, and each lease on record has been issued and is the only one of
its number. The service of a lease may be gone, if the balancer has been asked behind the roster's
back. -/
structure SoundLeases (settings : Settings) (g : Gateway (Flaky fates)) : Prop where
  books : SoundBooks settings g.engine
  knows : ∀ {n : String} {l : Lease}, g.services[n]? = some l → Knows g.engine l

theorem SoundLeases.empty (settings : Settings) (host : Flaky fates) :
    SoundLeases settings (fresh host) :=
  ⟨.empty settings host, fun hn => by simp [fresh] at hn⟩

theorem SoundLeases.follows (h : SoundLeases settings g) {b : Balancer (Flaky fates)}
    (hb : Follows settings g.engine b) : SoundLeases settings { g with engine := b } :=
  ⟨h.books.grows hb.sound hb.grows, fun hn => hb.grows.knows (h.knows hn)⟩

theorem SoundLeases.host (h : SoundLeases settings g) (host : Flaky fates) :
    SoundLeases settings { g with engine := { g.engine with host } } :=
  h.follows (.host h.books.sound host)

theorem dropService_soundLeases (h : SoundLeases settings g) (name : String) :
    SoundLeases settings (dropService (Balancer.engine settings) name g).2 := by
  have hleft := h.follows (deleteService_follows h.books.sound name)
  rw [dropService_eq, engine_deleteService]
  dsimp only
  split
  · exact hleft
  · exact ⟨hleft.books, fun hn => hleft.knows (of_getElem?_erase hn).2⟩

theorem addService_soundLeases (h : SoundLeases settings g) (spec : ServiceSpec) :
    SoundLeases settings (Roster.addService (Balancer.engine settings) spec g).2 := by
  have hadded := addService_follows h.books.sound spec.name spec.maxEndpoints
  have hleft := h.follows hadded
  rw [Roster.addService_eq]
  split
  · exact h
  rw [engine_addService]
  dsimp only
  split
  · exact hleft
  · rename_i l hok
    refine ⟨hleft.books, fun {n k} hn => ?_⟩
    rcases of_getElem?_insert hn with ⟨-, rfl⟩ | ⟨-, hn⟩
    · exact hadded.sound.knows (addService_registered (mapError_eq_ok.mp hok))
    · exact hleft.knows hn

theorem setServices_soundLeases (h : SoundLeases settings g) (specs : List ServiceSpec) :
    SoundLeases settings (setServices (Balancer.engine settings) specs g).2 :=
  setServices_keeps _ (P := SoundLeases settings) (fun name _ hr => dropService_soundLeases hr name)
    (fun _ hr => ⟨hr.books, hr.knows⟩) (fun spec _ hr => addService_soundLeases hr spec) specs h

theorem setFlows_soundLeases (h : SoundLeases settings g) (specs : List FlowSpec) :
    SoundLeases settings (setFlows (Balancer.engine settings) specs g).2 := by
  refine setFlows_keeps _ (P := SoundLeases settings) (fun key r hr => ?_)
    (fun spec r hr => ?_) specs h
  · rw [dropFlow_eq]
    split
    · exact hr
    split
    · exact ⟨hr.books, hr.knows⟩
    · exact ⟨(hr.host _).books, (hr.host _).knows⟩
  · rw [putFlow_eq]
    split
    · exact hr
    · exact ⟨(hr.host _).books, (hr.host _).knows⟩

/-- The lease on record may be that of a service that is gone. -/
theorem converge_follows (settings : Settings) (service : String) {l : Lease}
    {b : Balancer (Flaky fates)} (hb : Sound settings.firstMark b) (hl : Knows b l)
    (previous : List ActiveEndpoint) (specs : List EndpointSpec) :
    Follows settings b (converge (Balancer.engine settings) service l previous specs b).2 :=
  converge_engine_keeps (Balancer.engine settings) service l (P := Follows settings b)
    (fun _ slot _ hc => hc.trans (deleteTarget_follows hc.sound l slot))
    (fun addresses slot _ hc =>
      hc.trans (addTarget_follows hc.sound (hc.grows.knows hl) addresses slot))
    previous specs (.host hb b.host)

theorem setEndpoints_soundLeases (h : SoundLeases settings g) (service : String)
    (specs : List EndpointSpec) :
    SoundLeases settings (setEndpoints (Balancer.engine settings) service specs g).2 := by
  rw [setEndpoints_eq]
  split
  · rename_i l previous hl _
    have hleft := h.follows
      (converge_follows settings service h.books.sound (h.knows hl) previous specs)
    exact ⟨hleft.books, hleft.knows⟩
  · exact h

theorem Call.perform_soundLeases (h : SoundLeases settings g) (c : Call) :
    SoundLeases settings (c.perform (Balancer.engine settings) g).2 := by
  cases c with
  | setServices specs => exact setServices_soundLeases h specs
  | setFlows specs => exact setFlows_soundLeases h specs
  | setEndpoints service specs => exact setEndpoints_soundLeases h service specs

theorem apply_soundLeases (h : SoundLeases settings g) (d : Snapshot) (slots : UInt32) :
    SoundLeases settings (Roster.apply (Balancer.engine settings) d slots g).2 :=
  apply_keeps _ (P := SoundLeases settings) (fun specs _ hr => setServices_soundLeases hr specs)
    (fun specs _ hr => setFlows_soundLeases hr specs)
    (fun service specs _ hr => setEndpoints_soundLeases hr service specs) d slots h

theorem Happening.apply_soundLeases (h : SoundLeases settings g) (happening : Happening) :
    SoundLeases settings (happening.apply settings g) := by
  cases happening with
  | restart => exact .empty settings g.engine.host
  | setUp | tearDown _ | disturb _ | reroute _ => exact h.host _
  | call c => exact c.perform_soundLeases h
  | snapshot d slots => exact Gateway.apply_soundLeases h d slots
  | operate op => exact h.follows (perform_follows h.books.sound op)

theorem afterHappenings_soundLeases (settings : Settings) (fates : Fates)
    (happenings : List Happening) :
    SoundLeases settings (afterHappenings settings fates happenings) :=
  afterHappenings_induction (P := SoundLeases settings) (.empty settings _)
    fun _ happening _ hg => happening.apply_soundLeases hg

end VipSteering.Gateway
