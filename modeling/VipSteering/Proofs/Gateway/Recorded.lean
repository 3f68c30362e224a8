import Mathlib
import VipSteering.Proofs.Gateway.Faithful
import VipSteering.Proofs.Gateway.Steps

namespace VipSteering.Gateway

open Balancer Roster Host

/-- Every flow of the host is on record. -/
def AllRecorded (g : Gateway Host) : Prop :=
  ∀ key : String, key ∈ g.engine.host.hashing.flows → key ∈ g.flows

/-- The flow with the key is among those that are asked for, and its service is on record. -/
def WantedFlow (specs : List FlowSpec) (g : Gateway Host) (key : String) : Prop :=
  ∃ spec ∈ specs, spec.service ∈ g.services ∧ spec.key = key

variable {settings : Settings} {P : Host → Prop} {g g' g'' : Gateway Host}

/-- What comes of the deletion of flows that are on record. -/
structure FlowsDropped (settings : Settings) (keys : List String) (done : Prop)
    (g g' : Gateway Host) : Prop where
  services : g'.services = g.services
  faults : g'.engine.host.faults = g.engine.host.faults
  record : ∀ key, key ∈ g'.flows ↔ key ∈ g.flows ∧ key ∉ keys
  flows : ∀ key, key ∈ g'.engine.host.hashing.flows ↔ key ∈ g.engine.host.hashing.flows ∧
    ¬ (key ∈ keys ∧ key ∈ g.flows ∧
      ¬ g.engine.host.Refuses (Flow.deleteCommand settings.program key))
  /-- If all is done, nothing has been refused. -/
  accepted : done → ∀ key ∈ keys, key ∈ g.flows →
    ¬ g.engine.host.Refuses (Flow.deleteCommand settings.program key)

theorem dropFlow_flowsDropped (h : MatchedOn settings P g)
    (hc : Consistent (Balancer.engine settings) g) (key : String) :
    FlowsDropped settings [key] ((dropFlow (Balancer.engine settings) key g).1 = .ok ()) g
      (dropFlow (Balancer.engine settings) key g).2 := by
  cases hspec : g.flows[key]? with
  | none =>
    have habsent := not_mem_of_getElem? hspec
    rw [dropFlow_eq, hspec]
    refine ⟨rfl, rfl, fun k => ?_, fun k => ?_, fun _ k hk hmem => ?_⟩
    · rw [List.mem_singleton]
      exact ⟨fun hk => ⟨hk, fun heq => habsent (heq ▸ hk)⟩, And.left⟩
    · rw [List.mem_singleton]
      exact ⟨fun hk => ⟨hk, fun hgiven => habsent (hgiven.1 ▸ hgiven.2.1)⟩, And.left⟩
    · rw [List.mem_singleton] at hk
      exact absurd (hk ▸ hmem) habsent
  | some spec =>
    obtain ⟨l, hl⟩ := exists_of_mem (hc.served key spec hspec)
    have hkey : spec.key = key := (hc.keys key spec hspec).symm
    have hp := h.program hl
    have hmem : key ∈ g.flows := mem_of_getElem? hspec
    obtain ⟨tables, journal, hdelete⟩ := deleteFlow_frame hp g.engine.host key
    rw [dropFlow_flow hspec hl, hkey]
    refine ⟨rfl, ?_, fun k => ?_, fun k => ?_, fun hok k hk _ => ?_⟩
    · dsimp only
      rw [hdelete]
    · rw [List.mem_singleton]
      exact mem_erase_iff
    · dsimp only
      rw [hdelete, List.mem_singleton]
      by_cases href : g.engine.host.Refuses (Flow.deleteCommand settings.program key)
      · simp only [href, if_true]
        exact ⟨fun hk => ⟨hk, fun hgiven => hgiven.2.2 (hgiven.1 ▸ href)⟩, And.left⟩
      · simp only [href, if_false, mem_erase_iff]
        constructor
        · intro hk
          exact ⟨hk.1, fun hgiven => hk.2 hgiven.1⟩
        · intro hk
          refine ⟨hk.1, ?_⟩
          rintro rfl
          exact hk.2 ⟨rfl, hmem, href⟩
    · rw [List.mem_singleton.mp hk]
      exact not_refuses_of_deleteFlow hp _ (mapError_eq_ok.mp (mapError_eq_ok.mp hok))

/-- Deletions follow each other; the second list need not be apart from the first. -/
theorem FlowsDropped.trans {keys rest : List String} {p q : Prop}
    (h : FlowsDropped settings keys p g g') (h' : FlowsDropped settings rest q g' g'') :
    FlowsDropped settings (keys ++ rest) (p ∧ q) g g'' := by
  have hrefuses (c : Command) : g'.engine.host.Refuses c ↔ g.engine.host.Refuses c := by
    rw [Refuses, Refuses, isFaulty, isFaulty, h.faults]
  refine ⟨h'.services.trans h.services, h'.faults.trans h.faults, fun key => ?_, fun key => ?_,
    fun hdone key hmem hrecord => ?_⟩
  · rw [h'.record, h.record, List.mem_append, not_or, and_assoc]
  · rw [h'.flows, h.flows, h.record, hrefuses, List.mem_append]
    tauto
  · by_cases hkey : key ∈ keys
    · exact h.accepted hdone.1 key hkey hrecord
    · have hrest := (List.mem_append.mp hmem).resolve_left hkey
      rw [← hrefuses]
      exact h'.accepted hdone.2 key hrest ((h.record key).mpr ⟨hrecord, hkey⟩)

theorem dropFlows_flowsDropped (hP : FlowInvariant settings.program P) (h : MatchedOn settings P g)
    (hc : Consistent (Balancer.engine settings) g) (keys : List String) :
    FlowsDropped settings keys ((attemptAll (dropFlow (Balancer.engine settings)) keys g).1 = []) g
      (attemptAll (dropFlow (Balancer.engine settings)) keys g).2 :=
  attemptAll_composes
    (I := fun r => MatchedOn settings P r ∧ Consistent (Balancer.engine settings) r)
    (fun key _ hr => ⟨dropFlow_matchedOn hP hr.1 key, dropFlow_consistent hr.2 key⟩)
    (fun _ => ⟨rfl, rfl, by simp, by simp, fun _ => nofun⟩)
    (fun key _ hr => dropFlow_flowsDropped hr.1 hr.2 key) (fun _ _ _ _ _ _ _ => .trans) keys ⟨h, hc⟩

/-- What comes of setting flows. -/
structure FlowsPut (settings : Settings) (specs : List FlowSpec) (done : Prop)
    (g g' : Gateway Host) : Prop where
  services : g'.services = g.services
  faults : g'.engine.host.faults = g.engine.host.faults
  /-- They are on record even if the host has refused them. -/
  record : ∀ key, key ∈ g'.flows ↔ key ∈ g.flows ∨ WantedFlow specs g key
  flows : ∀ key, key ∈ g'.engine.host.hashing.flows ↔ key ∈ g.engine.host.hashing.flows ∨
    ∃ spec ∈ specs, spec.service ∈ g.services ∧ spec.key = key ∧
      ¬ g.engine.host.Refuses (spec.flow.setCommand settings.program spec.service)
  /-- If all is done, nothing has been refused. -/
  accepted : done → ∀ spec ∈ specs, spec.service ∈ g.services →
    ¬ g.engine.host.Refuses (spec.flow.setCommand settings.program spec.service)

theorem putFlow_flowsPut (h : MatchedOn settings P g) (spec : FlowSpec) :
    FlowsPut settings [spec] ((putFlow (Balancer.engine settings) spec g).1 = .ok ()) g
      (putFlow (Balancer.engine settings) spec g).2 := by
  cases hl : g.services[spec.service]? with
  | none =>
    have habsent := not_mem_of_getElem? hl
    rw [putFlow_eq, hl]
    refine ⟨rfl, rfl, fun key => ?_, fun key => ?_, fun _ other hother hmem => ?_⟩
    · simp [WantedFlow, habsent]
    · simp [habsent]
    · rw [List.mem_singleton.mp hother] at hmem
      exact absurd hmem habsent
  | some l =>
    have hp := h.program hl
    have hmem : spec.service ∈ g.services := mem_of_getElem? hl
    obtain ⟨tables, journal, hadd⟩ := addFlow_frame hp g.engine.host spec.service spec.flow
    have hname : spec.flow.name = spec.key := rfl
    rw [putFlow_flow hl (h.matched.sound.name (h.registered hl))]
    refine ⟨rfl, ?_, fun key => ?_, fun key => ?_, fun hok other hother _ => ?_⟩
    · dsimp only
      rw [hadd]
    · simp only [WantedFlow, List.mem_singleton, exists_eq_left, hmem, true_and,
        mem_insert_iff]
    · dsimp only
      rw [hadd, hname]
      by_cases href : g.engine.host.Refuses (spec.flow.setCommand settings.program spec.service)
      · simp [href]
      · simp only [href, if_false, List.mem_singleton, exists_eq_left, hmem, true_and,
          not_false_eq_true, and_true, mem_insert_iff]
    · rw [List.mem_singleton.mp hother]
      exact not_refuses_of_addFlow hp _ (mapError_eq_ok.mp (mapError_eq_ok.mp hok))

theorem FlowsPut.trans {specs rest : List FlowSpec} {p q : Prop} (h : FlowsPut settings specs p g g')
    (h' : FlowsPut settings rest q g' g'') : FlowsPut settings (specs ++ rest) (p ∧ q) g g'' where
  services := h'.services.trans h.services
  faults := h'.faults.trans h.faults
  record key := by
    rw [h'.record, h.record, or_assoc]
    simp only [WantedFlow, h.services, List.mem_append, or_and_right, exists_or]
  flows key := by
    rw [h'.flows, h.flows, or_assoc]
    simp only [Refuses, isFaulty, h.faults, h.services, List.mem_append, or_and_right, exists_or]
  accepted hdone spec hmem hservice := by
    rcases List.mem_append.mp hmem with hspec | hrest
    · exact h.accepted hdone.1 spec hspec hservice
    · have hacc := h'.accepted hdone.2 spec hrest (by rwa [h.services])
      rwa [Refuses, isFaulty, h.faults] at hacc

theorem putFlows_flowsPut (hP : FlowInvariant settings.program P) (h : MatchedOn settings P g)
    (specs : List FlowSpec) :
    FlowsPut settings specs ((attemptAll (putFlow (Balancer.engine settings)) specs g).1 = []) g
      (attemptAll (putFlow (Balancer.engine settings)) specs g).2 :=
  attemptAll_composes (I := MatchedOn settings P) (fun spec _ hr => putFlow_matchedOn hP hr spec)
    (fun _ => ⟨rfl, rfl, by simp [WantedFlow], by simp, fun _ => nofun⟩)
    (fun spec _ hr => putFlow_flowsPut hr spec) (fun _ _ _ _ _ _ _ => .trans) specs h

/-- What comes of the deletion of services. -/
structure ServicesDropped (g g' : Gateway Host) : Prop where
  record : g'.flows = g.flows
  held : ∀ (key : String) (e : FlowEntry), g'.engine.host.hashing.flows[key]? = some e →
    g.engine.host.hashing.flows[key]? = some e
  gone : ∀ name : String, name ∈ g.services → name ∉ g'.services →
    ∀ (key : String) (e : FlowEntry), g'.engine.host.hashing.flows[key]? = some e → e.target ≠ name

theorem ServicesDropped.refl (g : Gateway Host) : ServicesDropped g g :=
  ⟨rfl, fun _ _ => id, fun _ hmem hnot => absurd hmem hnot⟩

theorem ServicesDropped.trans (h : ServicesDropped g g') (h' : ServicesDropped g' g'') :
    ServicesDropped g g'' where
  record := h'.record.trans h.record
  held key e hget := h.held key e (h'.held key e hget)
  gone name hmem hnot key e hget := by
    by_cases hmid : name ∈ g'.services
    · exact h'.gone name hmid hnot key e hget
    · exact h.gone name hmem hmid key e (h'.held key e hget)

theorem dropService_servicesDropped
    (h : MatchedOn settings (fun host => AllReadable host.hashing.flows) g) (name : String) :
    ServicesDropped g (dropService (Balancer.engine settings) name g).2 := by
  rw [dropService_eq, engine_deleteService]
  have hother {n : String} (hmem : n ∈ g.services) (hnot : n ∉ g.services.erase name) :
      n = name := by
    by_contra hne
    exact hnot (mem_erase_iff.mpr ⟨hmem, hne⟩)
  cases hl : g.services[name]? with
  | none =>
    rw [deleteService_absent settings (by rw [← h.matched.services]; exact hl)]
    refine ⟨rfl, fun _ _ => id, fun n hmem hnot => ?_⟩
    obtain rfl := hother hmem hnot
    exact absurd hmem (not_mem_of_getElem? hl)
  | some l =>
    have hp := h.program hl
    have hheld (key : String) (e : FlowEntry)
        (hget : (deleteService settings name g.engine).2.host.hashing.flows[key]? = some e) :
        g.engine.host.hashing.flows[key]? = some e :=
      ((deleteService_held hp (h.registered hl) h.host key e).mp hget).1
    dsimp only
    cases hdone : (deleteService settings name g.engine).1 with
    | error report => exact ⟨rfl, hheld, fun n hmem hnot => absurd hmem hnot⟩
    | ok _ =>
      refine ⟨rfl, hheld, fun n hmem hnot => ?_⟩
      obtain rfl := hother hmem hnot
      exact fun key e => deleteService_gone hp (h.registered hl) h.host hdone

theorem flowsDropped_servicesDropped
    (h : MatchedOn settings (fun host => AllReadable host.hashing.flows) g) (names : List String) :
    ServicesDropped g (dropped settings names g) := by
  refine (attemptAll_keeps (P := fun r =>
    MatchedOn settings (fun host => AllReadable host.hashing.flows) r ∧ ServicesDropped g r)
    (fun name _ r hr => ?_) ⟨h, .refl g⟩).2
  exact ⟨dropService_matchedOn (flowInvariant_readable settings.program) hr.1 name,
    hr.2.trans (dropService_servicesDropped hr.1 name)⟩

/-- A flow goes unrecorded exactly if its service goes, and what is held under its name is a flow of
another one. -/
theorem setServices_recorded
    (h : MatchedOn settings (fun host => AllReadable host.hashing.flows) g)
    (hc : Consistent (Balancer.engine settings) g) (hrecorded : AllRecorded g)
    (specs : List ServiceSpec) :
    AllRecorded (setServices (Balancer.engine settings) specs g).2 ↔
      ¬ ∃ (key : String) (spec : FlowSpec) (e : FlowEntry), g.flows[key]? = some spec ∧
        spec.service ∉ (dropped settings (g.staleServices specs) g).services ∧
        (dropped settings (g.staleServices specs) g).engine.host.hashing.flows[key]? = some e ∧
        e.target ≠ spec.service := by
  have hcleared := flowsDropped_servicesDropped h (g.staleServices specs)
  obtain ⟨hrecord, halike⟩ := addServices_alike settings (byName specs).values
    (forgetFlows (dropped settings (g.staleServices specs) g))
  have hflows : (setServices (Balancer.engine settings) specs g).2.engine.host.hashing.flows =
      (dropped settings (g.staleServices specs) g).engine.host.hashing.flows := by
    rw [setServices_state]
    exact halike.flows
  have hknown (key : String) : (setServices (Balancer.engine settings) specs g).2.flows[key]? =
      g.flows[key]?.filter fun spec =>
        (dropped settings (g.staleServices specs) g).services.contains spec.service := by
    rw [setServices_state, hrecord, getElem?_forgetFlows, hcleared.record]
  constructor
  · intro hall hgiven
    obtain ⟨key, spec, e, hspec, hservice, hget, -⟩ := hgiven
    obtain ⟨kept, hkept⟩ := exists_of_mem (hall key (by rw [hflows]; exact mem_of_getElem? hget))
    rw [hknown, hspec, Option.filter_eq_some_iff] at hkept
    obtain ⟨heq, hcontains⟩ := hkept
    rw [← Option.some.inj heq] at hcontains
    exact hservice (Std.ExtTreeMap.contains_iff_mem.mp hcontains)
  · intro hnone key hheld
    rw [hflows] at hheld
    obtain ⟨e, hget⟩ := exists_of_mem hheld
    have hbefore := mem_of_getElem? (hcleared.held key e hget)
    obtain ⟨spec, hspec⟩ := exists_of_mem (hrecorded key hbefore)
    have hserved : spec.service ∈ (dropped settings (g.staleServices specs) g).services := by
      by_contra hnot
      have htarget := hcleared.gone spec.service (hc.served key spec hspec) hnot key e hget
      exact hnone ⟨key, spec, e, hspec, hnot, hget, htarget⟩
    have hkept : (setServices (Balancer.engine settings) specs g).2.flows[key]? = some spec := by
      rw [hknown, hspec, Option.filter_some, if_pos (Std.ExtTreeMap.contains_iff_mem.mpr hserved)]
    exact mem_of_getElem? hkept

section Calls

variable (hP : FlowInvariant settings.program P) (h : MatchedOn settings P g)
  (hc : Consistent (Balancer.engine settings) g)

/-- What `setFlows` sets is what is wanted. -/
theorem wantedFlow_byKey (hservices : g'.services = g.services) {specs : List FlowSpec}
    {key : String} :
    WantedFlow (byKey g specs).values g' key ↔ WantedFlow specs g key := by
  have hkeys : (∃ spec ∈ (byKey g specs).values, spec.key = key) ↔ WantedFlow specs g key :=
    exists_mem_byKey.trans mem_byKey
  constructor
  · intro hgiven
    obtain ⟨spec, hmem, -, hkey⟩ := hgiven
    exact hkeys.mp ⟨spec, hmem, hkey⟩
  · intro hgiven
    obtain ⟨spec, hmem, hkey⟩ := hkeys.mpr hgiven
    refine ⟨spec, hmem, ?_, hkey⟩
    rw [hservices]
    exact (of_mem_byKey_values hmem).2

include hP h hc

theorem setFlows_phases (specs : List FlowSpec) :
    ∃ (g' : Gateway Host) (dropped put : Prop),
      FlowsDropped settings (g.staleFlows specs) dropped g g' ∧
      FlowsPut settings (byKey g specs).values put g'
        (setFlows (Balancer.engine settings) specs g).2 ∧
      ((setFlows (Balancer.engine settings) specs g).1 = .ok () → dropped ∧ put) := by
  have hdropped := dropFlows_flowsDropped hP h hc (g.staleFlows specs)
  have hmatched : MatchedOn settings P
      (attemptAll (dropFlow (Balancer.engine settings)) (g.staleFlows specs) g).2 :=
    attemptAll_keeps (P := MatchedOn settings P) (fun key _ _ hr => dropFlow_matchedOn hP hr key) h
  have hput := putFlows_flowsPut hP hmatched (byKey g specs).values
  rw [setFlows_eq]
  exact ⟨_, _, _, hdropped, hput,
    fun hok => List.append_eq_nil_iff.mp (Report.ofFaults_eq_ok.mp hok)⟩

/-- The flows on record are those that are wanted, whatever the host has refused. -/
theorem setFlows_record (specs : List FlowSpec) (key : String) :
    key ∈ (setFlows (Balancer.engine settings) specs g).2.flows ↔ WantedFlow specs g key := by
  obtain ⟨g', _, _, hdropped, hput, -⟩ := setFlows_phases hP h hc specs
  have hwanted : key ∈ byKey g specs ↔ WantedFlow specs g key := mem_byKey
  rw [hput.record, hdropped.record, mem_staleFlows, wantedFlow_byKey hdropped.services, hwanted]
  tauto

/-- What the host holds stays if it is not on record, or if its deletion is refused. -/
theorem setFlows_leaves (specs : List FlowSpec) {key : String}
    (hheld : key ∈ g.engine.host.hashing.flows)
    (hleft : key ∉ g.flows ∨
      g.engine.host.Refuses (Flow.deleteCommand settings.program key)) :
    key ∈ (setFlows (Balancer.engine settings) specs g).2.engine.host.hashing.flows := by
  obtain ⟨g', _, _, hdropped, hput, -⟩ := setFlows_phases hP h hc specs
  refine (hput.flows key).mpr (.inl ((hdropped.flows key).mpr ⟨hheld, fun hgone => ?_⟩))
  rcases hleft with hnot | href
  · exact hnot hgone.2.1
  · exact hgone.2.2 href

/-- A flow goes unrecorded exactly if it is held, is not wanted, and its deletion is refused. -/
theorem setFlows_recorded (hrecorded : AllRecorded g) (specs : List FlowSpec) :
    AllRecorded (setFlows (Balancer.engine settings) specs g).2 ↔
      ¬ ∃ key ∈ g.staleFlows specs, key ∈ g.engine.host.hashing.flows ∧
        g.engine.host.Refuses (Flow.deleteCommand settings.program key) := by
  have hrecord := setFlows_record hP h hc specs
  obtain ⟨g', _, _, hdropped, hput, -⟩ := setFlows_phases hP h hc specs
  constructor
  · intro hall hgiven
    obtain ⟨key, hstale, hheld, href⟩ := hgiven
    have hafter := (hrecord key).mp (hall key (setFlows_leaves hP h hc specs hheld (.inr href)))
    exact (mem_staleFlows.mp hstale).2 (mem_byKey.mpr hafter)
  · intro hnone key hheld
    rcases (hput.flows key).mp hheld with hleft | ⟨spec, hmem, -, hkey, -⟩
    · obtain ⟨hbefore, hkept⟩ := (hdropped.flows key).mp hleft
      have hknown := hrecorded key hbefore
      refine (hput.record key).mpr (.inl ((hdropped.record key).mpr ⟨hknown, fun hstale => ?_⟩))
      exact hkept ⟨hstale, hknown, fun href => hnone ⟨key, hstale, hbefore, href⟩⟩
    · exact (hrecord key).mpr (mem_byKey.mp (exists_mem_byKey.mp ⟨spec, hmem, hkey⟩))

/-- What is wanted is held if nothing is refused. -/
theorem setFlows_holds (hfaults : g.engine.host.faults = []) {specs : List FlowSpec} {key : String}
    (hwanted : WantedFlow specs g key) :
    key ∈ (setFlows (Balancer.engine settings) specs g).2.engine.host.hashing.flows := by
  obtain ⟨g', _, _, hdropped, hput, -⟩ := setFlows_phases hP h hc specs
  obtain ⟨spec, hmem, hservice, hkey⟩ := (wantedFlow_byKey hdropped.services).mpr hwanted
  exact (hput.flows key).mpr (.inr ⟨spec, hmem, hservice, hkey,
    not_refuses (hdropped.faults.trans hfaults) _⟩)

/-- If `setFlows` reports success, the host holds what is wanted, and what has been held without
being on record. -/
theorem setFlows_held (specs : List FlowSpec)
    (hok : (setFlows (Balancer.engine settings) specs g).1 = .ok ()) (key : String) :
    key ∈ (setFlows (Balancer.engine settings) specs g).2.engine.host.hashing.flows ↔
      WantedFlow specs g key ∨ (key ∈ g.engine.host.hashing.flows ∧ key ∉ g.flows) := by
  obtain ⟨g', _, _, hdropped, hput, hdone⟩ := setFlows_phases hP h hc specs
  have hdrops := hdropped.accepted (hdone hok).1
  have hputs := hput.accepted (hdone hok).2
  rw [hput.flows, hdropped.flows]
  have hwanted : (∃ spec ∈ (byKey g specs).values, spec.service ∈ g'.services ∧ spec.key = key ∧
      ¬ g'.engine.host.Refuses (spec.flow.setCommand settings.program spec.service)) ↔
      WantedFlow specs g key := by
    rw [← wantedFlow_byKey hdropped.services]
    constructor
    · intro hgiven
      obtain ⟨spec, hmem, hservice, hkey, -⟩ := hgiven
      exact ⟨spec, hmem, hservice, hkey⟩
    · intro hgiven
      obtain ⟨spec, hmem, hservice, hkey⟩ := hgiven
      exact ⟨spec, hmem, hservice, hkey, hputs spec hmem hservice⟩
  have hgone : key ∈ g.staleFlows specs ∧ key ∈ g.flows ∧
      ¬ g.engine.host.Refuses (Flow.deleteCommand settings.program key) ↔
      key ∈ g.flows ∧ ¬ WantedFlow specs g key := by
    rw [mem_staleFlows, mem_byKey]
    constructor
    · intro hgiven
      exact hgiven.1
    · intro hgiven
      have hstale := mem_staleFlows.mpr ⟨hgiven.1, mt mem_byKey.mp hgiven.2⟩
      exact ⟨hgiven, hgiven.1, hdrops key hstale hgiven.1⟩
  rw [hwanted, hgone]
  tauto

end Calls

/-- After the step the host holds a flow that has gone off the record. -/
def Loses (settings : Settings) (g : Gateway Host) : Step → Prop
  | .call (.setFlows specs) =>
    ∃ key ∈ g.staleFlows specs, key ∈ g.engine.host.hashing.flows ∧
      g.engine.host.Refuses (Flow.deleteCommand settings.program key)
  | .call (.setServices specs) =>
    let left := dropped settings (g.staleServices specs) g
    ∃ (key : String) (spec : FlowSpec) (e : FlowEntry), g.flows[key]? = some spec ∧
      spec.service ∉ left.services ∧ left.engine.host.hashing.flows[key]? = some e ∧
      e.target ≠ spec.service
  | _ => False

theorem Step.apply_recorded (h : MatchedOn settings (fun host => AllReadable host.hashing.flows) g)
    (hc : Consistent (Balancer.engine settings) g) (hrecorded : AllRecorded g) (step : Step) :
    AllRecorded (step.event.apply (Balancer.engine settings) g) ↔ ¬ Loses settings g step := by
  match step with
  | .call (.setServices specs) => exact setServices_recorded h hc hrecorded specs
  | .call (.setFlows specs) =>
    exact setFlows_recorded (flowInvariant_readable settings.program) h hc hrecorded specs
  | .call (.setEndpoints service specs) =>
    refine iff_of_true (fun key hheld => ?_) id
    have halike := setEndpoints_alike h service specs
    obtain ⟨b, endpoints, heq⟩ := setEndpoints_frame (Balancer.engine settings) service specs g
    change key ∈
      (setEndpoints (Balancer.engine settings) service specs g).2.engine.host.hashing.flows at hheld
    change key ∈ (setEndpoints (Balancer.engine settings) service specs g).2.flows
    rw [halike.flows] at hheld
    rw [heq]
    exact hrecorded key hheld
  | .disturb d =>
    obtain ⟨faults, heq⟩ := d.apply_frame g.engine.host
    refine iff_of_true (fun key hheld => ?_) id
    change key ∈ (d.apply g.engine.host).hashing.flows at hheld
    rw [heq] at hheld
    exact hrecorded key hheld

theorem afterSteps_readable (settings : Settings) {host : Host}
    (hreadable : AllReadable host.hashing.flows) (steps : List Step) :
    MatchedOn settings (fun host => AllReadable host.hashing.flows)
      (afterSteps settings steps host) :=
  afterSteps_matchedOn (flowInvariant_readable settings.program) (fun _ _ => id) hreadable steps

/-- At all times of a run every flow of the host is on record exactly if no step loses one, and
if `setFlows` reports success after the run, the host holds what is wanted and what was lost. -/
theorem afterSteps_recorded (settings : Settings) (h : Host) (steps : List Step) :
    let after (prior : List Step) := afterSteps settings prior { h with hashing := { } }
    ((∀ prior, prior <+: steps → AllRecorded (after prior)) ↔
      ∀ prior step, prior ++ [step] <+: steps → ¬ Loses settings (after prior) step) ∧
    ∀ specs : List FlowSpec,
      (setFlows (Balancer.engine settings) specs (after steps)).1 = .ok () → ∀ key : String,
        (key ∈ (setFlows (Balancer.engine settings) specs
            (after steps)).2.engine.host.hashing.flows ↔
          WantedFlow specs (after steps) key ∨
            (key ∈ (after steps).engine.host.hashing.flows ∧ key ∉ (after steps).flows)) := by
  intro after
  refine ⟨prefixes_iff (fun key hheld => ?_) (fun prior step hrecorded => ?_) steps, ?_⟩
  · change key ∈ (∅ : Std.ExtTreeMap String FlowEntry) at hheld
    exact absurd hheld Std.ExtTreeMap.not_mem_empty
  · change AllRecorded (afterSteps settings (prior ++ [step]) { h with hashing := { } }) ↔ _
    rw [afterSteps_snoc]
    exact Step.apply_recorded (afterSteps_readable settings AllReadable.empty prior)
      (afterSteps_consistent settings prior _) hrecorded step
  · exact setFlows_held (flowInvariant_readable settings.program)
      (afterSteps_readable settings AllReadable.empty steps) (afterSteps_consistent settings steps _)

/-- With nothing on record there is nothing to delete. -/
theorem setFlows_nothing (hnone : ∀ key, key ∉ g.flows) :
    setFlows (Balancer.engine settings) [] g = (.ok (), g) := by
  have hstale : g.staleFlows [] = [] :=
    List.eq_nil_iff_forall_not_mem.mpr fun key hmem => hnone key (mem_staleFlows.mp hmem).1
  have hvalues : (byKey g []).values = [] := by
    refine List.eq_nil_iff_forall_not_mem.mpr fun spec hmem => ?_
    obtain ⟨_, hnot, -⟩ := mem_byKey.mp (exists_mem_byKey.mp ⟨spec, hmem, rfl⟩)
    cases hnot
  rw [setFlows_eq, hstale, hvalues]
  rfl

section Losing

variable (settings : Settings) {host : Host} (hreadable : AllReadable host.hashing.flows)
  (steps : List Step)

include hreadable

/-- A flow whose deletion is refused is lost: whatever is refused later, `setFlows` finds nothing to
do and reports success. -/
theorem setFlows_loses {key : String}
    (hheld : key ∈ (afterSteps settings steps host).engine.host.hashing.flows)
    (href : (afterSteps settings steps host).engine.host.Refuses
      (Flow.deleteCommand settings.program key)) (d : Disturbance) :
    let left := afterSteps settings (steps ++ [.call (.setFlows [])] ++ [.disturb d]) host
    setFlows (Balancer.engine settings) [] left = (.ok (), left) ∧
      key ∈ left.engine.host.hashing.flows := by
  have hinvariant := flowInvariant_readable settings.program
  have hmatched := afterSteps_readable settings hreadable steps
  have hconsistent := afterSteps_consistent settings steps host
  rw [afterSteps_disturb, afterSteps_setFlows]
  refine ⟨setFlows_nothing fun k => ?_, ?_⟩
  · dsimp only
    rw [setFlows_record hinvariant hmatched hconsistent]
    simp [WantedFlow]
  · obtain ⟨faults, heq⟩ := d.apply_frame
      (setFlows (Balancer.engine settings) [] (afterSteps settings steps host)).2.engine.host
    rw [heq]
    exact setFlows_leaves hinvariant hmatched hconsistent [] hheld (.inr href)

/-- Any flow of a service can be lost so. -/
theorem setFlows_loses_any (spec : FlowSpec) (pattern : String)
    (hservice : spec.service ∈ (afterSteps settings steps host).services)
    (hfaults : (afterSteps settings steps host).engine.host.faults = [])
    (hpattern : Text.occursIn pattern (Flow.deleteCommand settings.program spec.key).line = true) :
    let left := afterSteps settings (steps ++ [.call (.setFlows [spec])] ++
      [.disturb (.failOn pattern)] ++ [.call (.setFlows [])] ++ [.disturb .clear]) host
    setFlows (Balancer.engine settings) [] left = (.ok (), left) ∧
      spec.key ∈ left.engine.host.hashing.flows := by
  refine setFlows_loses settings hreadable _ ?_ ?_ .clear
  · rw [afterSteps_disturb, afterSteps_setFlows]
    exact setFlows_holds (flowInvariant_readable settings.program)
      (afterSteps_readable settings hreadable steps) (afterSteps_consistent settings steps _)
      hfaults ⟨spec, List.mem_singleton_self _, hservice, rfl⟩
  · rw [afterSteps_disturb]
    simp [Refuses, isFaulty, Disturbance.apply, failOn, hpattern]

end Losing

def webFlow : FlowSpec where
  name := "f1"
  service := "svc-a"
  selectors :=
    { sourceCidrs := [], destinationCidrs := ["20.0.0.1/32"], sourcePorts := [],
      destinationPorts := [], protocols := [.tcp], priority := 1, byteMatches := [] }

/-- A flow cannot be deleted when it is not wanted any more, but it can be later. -/
def losingRun : List Step :=
  [.call (.setServices [⟨"svc-a", 10⟩]), .call (.setFlows [webFlow]),
    .disturb (.failOn "flow-delete"), .call (.setFlows []), .disturb .clear]

/-- `setFlows` reports success, but the host holds a flow that is not wanted. -/
theorem losingRun_leaves_flow : ∃ setup host, (setUp { } : StateM Host _) { } = (.ok setup, host) ∧
    let g := afterSteps { } losingRun host
    (setFlows (Balancer.engine { }) [] g).1 = .ok () ∧
      webFlow.key ∈ (setFlows (Balancer.engine { }) [] g).2.engine.host.hashing.flows ∧
      ¬ WantedFlow [] g webFlow.key := by
  obtain ⟨setup, tables, journal, hsetup⟩ := setUp_default
  refine ⟨_, _, hsetup, ?_⟩
  have hservice : webFlow.service ∈
      (afterSteps { } (losingRun.take 1) { tables, journal }).services := by
    rw [Std.ExtTreeMap.mem_iff_contains]
    cbv
  have hfaults : (afterSteps { } (losingRun.take 1) { tables, journal }).engine.host.faults = [] := by
    cbv
  obtain ⟨hdone, hheld⟩ := setFlows_loses_any { } AllReadable.empty (losingRun.take 1) webFlow
    "flow-delete" hservice hfaults (by cbv)
  rw [show losingRun = losingRun.take 1 ++ [.call (.setFlows [webFlow])] ++
    [.disturb (.failOn "flow-delete")] ++ [.call (.setFlows [])] ++ [.disturb .clear] from rfl]
  dsimp only
  rw [hdone]
  exact ⟨rfl, hheld, by simp [WantedFlow]⟩

end VipSteering.Gateway
