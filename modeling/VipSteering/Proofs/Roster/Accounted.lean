import VipSteering.Proofs.Roster.Logged

namespace VipSteering

namespace Roster

variable {σ H ε : Type}

/-- The endpoint that a fault is about. -/
def Fault.endpoint? : Fault ε → Option String
  | addTarget _ endpoint .. | deleteTarget _ endpoint .. | capacity _ endpoint _
  | slotUnavailable _ endpoint _ => some endpoint
  | _ => none

/-- There is reason for the fault if these are active endpoints: a slot is only refused if it is not
one of the service's or held, and a lack of slots only reported if all are held. -/
def Fault.IsReasoned (service : String) (count : UInt32) (es : List ActiveEndpoint) :
    Fault ε → Prop
  | addTarget s .. | deleteTarget s .. => s = service
  | capacity s _ n => s = service ∧ n = count ∧ ∀ slot < count, slot ∈ es.map (·.slot)
  | slotUnavailable s _ slot => s = service ∧ (count ≤ slot ∨ slot ∈ es.map (·.slot))
  | _ => False

theorem Fault.IsReasoned.mono {service : String} {count : UInt32} {es es' : List ActiveEndpoint}
    (hsub : es ⊆ es') {fault : Fault ε} (h : fault.IsReasoned service count es) :
    fault.IsReasoned service count es' := by
  have hslots : es.map (·.slot) ⊆ es'.map (·.slot) := List.map_subset _ hsub
  cases fault with
  | addTarget _ _ _ _ => exact h
  | deleteTarget _ _ _ _ => exact h
  | capacity s endpoint n => exact ⟨h.1, h.2.1, fun slot hslot => hslots (h.2.2 slot hslot)⟩
  | slotUnavailable s endpoint slot => exact ⟨h.1, h.2.imp_right fun hmem => hslots hmem⟩
  | _ => exact h

theorem pickSlot_error {service : String} {spec : EndpointSpec} {previous : Option UInt32}
    {active : List ActiveEndpoint} {count : UInt32} {fault : Fault ε}
    (h : pickSlot service spec previous (active.map (·.slot)) count = .error fault) :
    fault.endpoint? = some spec.identity ∧ fault.IsReasoned service count active ∧
      (spec.slot = none → fault = .capacity service spec.identity count) := by
  rw [pickSlot_eq_error] at h
  cases hassigned : spec.slot with
  | some slot =>
    rw [hassigned] at h
    obtain ⟨htaken, rfl⟩ := h
    refine ⟨rfl, ⟨rfl, ?_⟩, fun hnone => nomatch hnone⟩
    by_cases hlt : slot < count
    · exact .inr (htaken hlt)
    · exact .inl (UInt32.not_lt.mp hlt)
  | none =>
    rw [hassigned] at h
    obtain ⟨hall, rfl⟩ := h
    exact ⟨rfl, ⟨rfl, rfl, hall⟩, fun _ => rfl⟩

section Engine

variable (engine : Engine σ H ε) (service : String) (handle : H)

/-- What is active still can stay as it is, or there is a fault for it. -/
theorem release_faults (specs : List EndpointSpec) (previous : List ActiveEndpoint) (s : σ) :
    let left := (release engine service handle specs previous s).1
    (∀ e ∈ left.1, staysPut specs e = true ∨
      ∃ source, Fault.deleteTarget service e.identity e.slot source ∈ left.2) ∧
    (∀ fault ∈ left.2, ∃ identity slot source, fault = .deleteTarget service identity slot source) ∧
    (left.2.map Fault.endpoint?).Sublist (left.1.map fun e => some e.identity) := by
  induction previous generalizing s with
  | nil => exact ⟨by simp, by simp, .slnil⟩
  | cons e rest ih =>
    rw [release_cons]
    by_cases hstays : staysPut specs e = true
    · rw [if_pos hstays]
      obtain ⟨hkept, hfaults, hnames⟩ := ih s
      exact ⟨List.forall_mem_cons.mpr ⟨.inl hstays, hkept⟩, hfaults, hnames.cons _⟩
    rw [if_neg hstays]
    obtain ⟨hkept, hfaults, hnames⟩ := ih (engine.deleteTarget handle e.addresses e.slot s).2
    dsimp only
    cases (engine.deleteTarget handle e.addresses e.slot s).1 with
    | ok _ => exact ⟨hkept, hfaults, hnames⟩
    | error source =>
      refine ⟨List.forall_mem_cons.mpr ⟨.inr ⟨source, List.mem_cons_self⟩, fun a ha => ?_⟩,
        List.forall_mem_cons.mpr ⟨⟨_, _, _, rfl⟩, hfaults⟩, hnames.cons_cons _⟩
      exact (hkept a ha).imp_right fun hgiven =>
        have ⟨source, hmem⟩ := hgiven
        ⟨source, List.mem_cons_of_mem _ hmem⟩

theorem activate_subset (previous active : List ActiveEndpoint) (specs : List EndpointSpec) (s : σ) :
    active ⊆ (activate engine service handle previous active specs s).1.1 := by
  obtain ⟨added, heq, -⟩ := activate_extends engine service handle previous active specs s
  rw [heq]
  exact List.subset_append_left _ _

/-- Every endpoint that is asked for is active in the end, or there is a fault for it: one or the
other, and once. -/
theorem activate_perm (previous active : List ActiveEndpoint) (specs : List EndpointSpec) (s : σ) :
    let left := (activate engine service handle previous active specs s).1
    (left.1.map (fun e => some e.identity) ++ left.2.map Fault.endpoint?).Perm
      (active.map (fun e => some e.identity) ++ specs.map fun spec => some spec.identity) := by
  induction specs generalizing active s with
  | nil => simp
  | cons spec rest ih =>
    -- A fault that is met counts for the endpoint in place of its activation.
    have hfault (fault : Fault ε) (hnamed : fault.endpoint? = some spec.identity) (t : σ) :
        let left := (activate engine service handle previous active rest t).1
        (left.1.map (fun e => some e.identity) ++ (fault :: left.2).map Fault.endpoint?).Perm
          (active.map (fun e => some e.identity) ++
            (spec :: rest).map fun spec => some spec.identity) := by
      simp only [List.map_cons, hnamed]
      exact (List.perm_middle.trans ((ih active t).cons _)).trans List.perm_middle.symm
    rw [activate_cons]
    split
    · rename_i fault hpick
      exact hfault fault (pickSlot_error hpick).1 s
    · rename_i slot _
      dsimp only
      split
      · rename_i source _
        exact hfault (.addTarget service spec.identity slot source) rfl _
      · refine (ih _ _).trans ?_
        rw [List.map_append, List.append_assoc]
        exact .refl _

/-- The faults have their reasons still in the end. -/
theorem activate_reasoned (previous active : List ActiveEndpoint) (specs : List EndpointSpec)
    (s : σ) : let left := (activate engine service handle previous active specs s).1
    ∀ fault ∈ left.2, fault.IsReasoned service (engine.slots handle) left.1 := by
  induction specs generalizing active s with
  | nil => simp
  | cons spec rest ih =>
    rw [activate_cons]
    split
    · rename_i fault hpick
      exact List.forall_mem_cons.mpr ⟨(pickSlot_error hpick).2.1.mono
        (activate_subset engine service handle previous active rest s), ih active s⟩
    · dsimp only
      split
      · exact List.forall_mem_cons.mpr ⟨rfl, ih active _⟩
      · exact ih _ _

/-- Without a failure of the engine and without slots that are asked for, all that can be lacking are
slots. -/
theorem activate_capacity (previous active : List ActiveEndpoint) {specs : List EndpointSpec}
    {s : σ} (hany : ∀ spec ∈ specs, spec.slot = none)
    (hquiet : Quiet (activate engine service handle previous active specs s).1.2) :
    ∀ fault ∈ (activate engine service handle previous active specs s).1.2,
      ∃ identity, fault = .capacity service identity (engine.slots handle) := by
  induction specs generalizing active s with
  | nil => simp
  | cons spec rest ih =>
    obtain ⟨hfirst, hrest⟩ := List.forall_mem_cons.mp hany
    rw [activate_cons] at hquiet ⊢
    split
    · rename_i fault hpick
      rw [hpick] at hquiet
      exact List.forall_mem_cons.mpr ⟨⟨_, (pickSlot_error hpick).2.2 hfirst⟩,
        ih active hrest (List.forall_mem_cons.mp hquiet).2⟩
    · rename_i slot hpick
      rw [hpick] at hquiet
      dsimp only at hquiet ⊢
      split
      · rename_i source hadd
        rw [hadd] at hquiet
        exact nomatch (List.forall_mem_cons.mp hquiet).1
      · rename_i hadd
        rw [hadd] at hquiet
        exact ih _ hrest hquiet

end Engine

/-- Every endpoint that is asked for has been dealt with, and every fault has its reason. -/
structure Accounted (service : String) (count : UInt32) (specs : List EndpointSpec)
    (es : List ActiveEndpoint) (faults : List (Fault ε)) : Prop where
  /-- An endpoint that is due is active, or there is a fault for it. -/
  due : ∀ identity, Due specs identity →
    identity ∈ es.map (·.identity) ∨ ∃ fault ∈ faults, fault.endpoint? = some identity
  /-- An active endpoint is due and has the addresses that are wanted, or it could not be deleted. -/
  active : ∀ e ∈ es, (∃ spec, wanted? specs e.identity = some spec ∧ spec.ready = true ∧
      spec.addresses ≠ [] ∧ spec.addresses.Perm e.addresses) ∨
    ∃ source, Fault.deleteTarget service e.identity e.slot source ∈ faults
  /-- Every fault is about an endpoint, and no two are about the same. -/
  about : ∀ fault ∈ faults, ∃ identity, fault.endpoint? = some identity
  once : (faults.map Fault.endpoint?).Nodup
  capacity : ∀ s identity n, Fault.capacity s identity n ∈ faults →
    ∀ slot < count, ∃ e ∈ es, e.slot = slot
  unavailable : ∀ s identity slot, Fault.slotUnavailable s identity slot ∈ faults →
    count ≤ slot ∨ ∃ e ∈ es, e.slot = slot ∧ e.identity ≠ identity

/-- Of the endpoints that are due, as many are active as there are slots, and the others lack one. -/
structure Tallied (service : String) (count : UInt32) (specs : List EndpointSpec)
    (es : List ActiveEndpoint) (faults : List (Fault ε)) : Prop where
  due : ∀ e ∈ es, Due specs e.identity
  distinct : (es.map (·.identity)).Nodup
  length : es.length = min count.toNat (newcomers [] specs).length
  lacking : ∀ identity, Due specs identity → identity ∉ es.map (·.identity) →
    Fault.capacity service identity count ∈ faults

theorem mem_newcomers_identities {active : List ActiveEndpoint} {specs : List EndpointSpec}
    {identity : String} : identity ∈ (newcomers active specs).map (·.identity) ↔
      Due specs identity ∧ identity ∉ active.map (·.identity) := by
  rw [List.mem_map]
  constructor
  · intro hgiven
    obtain ⟨spec, hspec, rfl⟩ := hgiven
    obtain ⟨hwanted, hnew, hready, haddresses⟩ := mem_newcomers.mp hspec
    exact ⟨⟨spec, hwanted, hready, haddresses⟩, hnew⟩
  · intro hgiven
    obtain ⟨⟨spec, hwanted, hready, haddresses⟩, hnew⟩ := hgiven
    obtain rfl := identity_of_wanted? hwanted
    exact ⟨spec, mem_newcomers.mpr ⟨hwanted, hnew, hready, haddresses⟩, rfl⟩

/-- Endpoints that are due count among those that are asked for. -/
theorem length_newcomers {kept : List ActiveEndpoint} {specs : List EndpointSpec}
    (hdistinct : (kept.map (·.identity)).Nodup) (hdue : ∀ e ∈ kept, Due specs e.identity) :
    (newcomers [] specs).length = kept.length + (newcomers kept specs).length := by
  have hperm : ((newcomers [] specs).map (·.identity)).Perm
      (kept.map (·.identity) ++ (newcomers kept specs).map (·.identity)) := by
    refine (List.perm_ext_iff_of_nodup (newcomers_nodup [] specs)
      (newcomers_distinct hdistinct specs)).mpr fun identity => ?_
    rw [mem_newcomers_identities, List.mem_append, mem_newcomers_identities]
    constructor
    · intro hgiven
      by_cases hmem : identity ∈ kept.map (·.identity)
      · exact .inl hmem
      · exact .inr ⟨hgiven.1, hmem⟩
    · intro hgiven
      refine ⟨?_, List.not_mem_nil⟩
      rcases hgiven with hmem | hnew
      · obtain ⟨e, he, rfl⟩ := List.mem_map.mp hmem
        exact hdue e he
      · exact hnew.1
  simpa using hperm.length_eq

/-- There are no more endpoints than slots. -/
theorem Seated.length_le {count : UInt32} {es : List ActiveEndpoint} (h : Seated count es) :
    es.length ≤ count.toNat := by
  have hnodup : (es.map (·.slot.toNat)).Nodup := by
    have hslots := h.slots.map (f := UInt32.toNat) fun _ _ => UInt32.toNat_inj.mp
    rwa [List.map_map] at hslots
  have hsub : es.map (·.slot.toNat) ⊆ List.range count.toNat := by
    intro n hn
    obtain ⟨e, he, rfl⟩ := List.mem_map.mp hn
    exact List.mem_range.mpr (UInt32.lt_iff_toNat_lt.mp (h.slot_lt e he))
  simpa using (List.subperm_of_subset hnodup hsub).length_le

theorem length_le_of_full {count : UInt32} {es : List ActiveEndpoint}
    (hfull : ∀ slot < count, ∃ e ∈ es, e.slot = slot) : count.toNat ≤ es.length := by
  have hsub : List.range count.toNat ⊆ es.map (·.slot.toNat) := by
    intro n hn
    have hlt : n < count.toNat := List.mem_range.mp hn
    have hcount : count.toNat < UInt32.size := count.toNat_lt
    have hn : (UInt32.ofNat n).toNat = n := UInt32.toNat_ofNat_of_lt' (by omega)
    obtain ⟨e, he, hslot⟩ := hfull (UInt32.ofNat n) (UInt32.lt_iff_toNat_lt.mpr (by rwa [hn]))
    exact List.mem_map.mpr ⟨e, he, by rw [hslot, hn]⟩
  simpa using (List.subperm_of_subset List.nodup_range hsub).length_le

section Converge

variable (engine : Engine σ H ε) (service : String) (handle : H) (previous : List ActiveEndpoint)
  (specs : List EndpointSpec) (s : σ)

/-- Active endpoints and faults of the second pass are about different endpoints. -/
theorem activate_nodup {kept : List ActiveEndpoint} (hkept : (kept.map (·.identity)).Nodup) :
    let left := (activate engine service handle previous kept (newcomers kept specs) s).1
    (left.1.map (fun e => some e.identity) ++ left.2.map Fault.endpoint?).Nodup := by
  have hperm := activate_perm engine service handle previous kept (newcomers kept specs) s
  refine hperm.nodup_iff.mpr ?_
  have hsome := (newcomers_distinct hkept specs).map (f := some) fun _ _ => Option.some.inj
  rwa [List.map_append, List.map_map, List.map_map] at hsome

/-- An endpoint that is due is active after the second pass, or there is a fault for it. -/
theorem activate_due (kept : List ActiveEndpoint) {identity : String} (hdue : Due specs identity) :
    let left := (activate engine service handle previous kept (newcomers kept specs) s).1
    identity ∈ left.1.map (·.identity) ∨ ∃ fault ∈ left.2, fault.endpoint? = some identity := by
  by_cases hheld : identity ∈ kept.map (·.identity)
  · exact .inl (List.map_subset _ (activate_subset engine service handle previous kept _ s) hheld)
  · obtain ⟨spec, hspec, rfl⟩ := List.mem_map.mp (mem_newcomers_identities.mpr ⟨hdue, hheld⟩)
    have hdealt :=
      (activate_perm engine service handle previous kept (newcomers kept specs) s).mem_iff.mpr
        (List.mem_append_right _ (List.mem_map_of_mem hspec))
    rcases List.mem_append.mp hdealt with hactive | hfault
    · obtain ⟨e, he, heq⟩ := List.mem_map.mp hactive
      exact .inl (List.mem_map.mpr ⟨e, he, Option.some.inj heq⟩)
    · obtain ⟨fault, hfault, heq⟩ := List.mem_map.mp hfault
      exact .inr ⟨fault, hfault, heq⟩

/-- Every fault of the second pass is about an endpoint. -/
theorem activate_about (kept : List ActiveEndpoint) :
    ∀ fault ∈ (activate engine service handle previous kept specs s).1.2,
      ∃ identity, fault.endpoint? = some identity := by
  intro fault hfault
  have hnamed := (activate_perm engine service handle previous kept specs s).mem_iff.mp
    (List.mem_append_right _ (List.mem_map_of_mem hfault))
  rcases List.mem_append.mp hnamed with hnamed | hnamed
  · obtain ⟨e, -, heq⟩ := List.mem_map.mp hnamed
    exact ⟨e.identity, heq.symm⟩
  · obtain ⟨spec, -, heq⟩ := List.mem_map.mp hnamed
    exact ⟨spec.identity, heq.symm⟩

/-- What is active after the second pass was active before, or it has been asked for. -/
theorem of_mem_activate (kept : List ActiveEndpoint) :
    ∀ e ∈ (activate engine service handle previous kept specs s).1.1,
      e ∈ kept ∨ ∃ spec ∈ specs, spec.identity = e.identity ∧ spec.addresses = e.addresses := by
  intro e he
  obtain ⟨added, heq, hsub⟩ := activate_extends engine service handle previous kept specs s
  rw [heq] at he
  exact (List.mem_append.mp he).imp_right (exists_asked hsub)

variable {previous}

theorem converge_accounted (h : Seated (engine.slots handle) previous) :
    let left := (converge engine service handle previous specs s).1
    Accounted service (engine.slots handle) specs left.1 left.2 := by
  have hsublist := release_sublist engine service handle specs previous s
  obtain ⟨hkept, hreleased, hnames⟩ := release_faults engine service handle specs previous s
  rw [converge_eq]
  dsimp only
  generalize release engine service handle specs previous s = released at *
  obtain ⟨⟨kept, faults⟩, t⟩ := released
  dsimp only at hsublist hkept hreleased hnames ⊢
  have hdistinct : (kept.map (·.identity)).Nodup := (hsublist.map _).nodup h.identities
  have hdealt (identity : String) (hdue : Due specs identity) :=
    activate_due engine service handle previous specs t kept hdue
  have habout := activate_about engine service handle previous (newcomers kept specs) t kept
  have hnodup := activate_nodup engine service handle previous specs t hdistinct
  have hreasoned := activate_reasoned engine service handle previous kept (newcomers kept specs) t
  have hsubset := activate_subset engine service handle previous kept (newcomers kept specs) t
  have hmem := of_mem_activate engine service handle previous (newcomers kept specs) t kept
  generalize activate engine service handle previous kept (newcomers kept specs) t = left at *
  obtain ⟨⟨es, later⟩, u⟩ := left
  dsimp only at hdealt habout hnodup hreasoned hsubset hmem ⊢
  obtain ⟨-, honce, hapart⟩ := List.nodup_append.mp hnodup
  -- A fault about slots is one of the second pass.
  have hlater {fault : Fault ε} (hfault : fault ∈ faults ++ later)
      (hother : ∀ identity slot source, fault ≠ .deleteTarget service identity slot source) :
      fault ∈ later := by
    refine (List.mem_append.mp hfault).resolve_left fun hfirst => ?_
    obtain ⟨identity, slot, source, heq⟩ := hreleased fault hfirst
    exact hother identity slot source heq
  refine ⟨fun identity hdue => ?_, fun e he => ?_, fun fault hfault => ?_, ?_,
    fun n identity m hfault slot hslot => ?_, fun n identity slot hfault => ?_⟩
  · exact (hdealt identity hdue).imp_right fun hgiven =>
      have ⟨fault, hfault, hnamed⟩ := hgiven
      ⟨fault, List.mem_append_right _ hfault, hnamed⟩
  · rcases hmem e he with hheld | ⟨spec, hspec, hidentity, haddresses⟩
    · rcases hkept e hheld with hstays | ⟨source, hfault⟩
      · exact .inl (wanted_of_staysPut (h.addresses e (hsublist.subset hheld)) hstays)
      · exact .inr ⟨source, List.mem_append_left _ hfault⟩
    · obtain ⟨hwanted, -, hready, hreachable⟩ := mem_newcomers.mp hspec
      rw [hidentity] at hwanted
      exact .inl ⟨spec, hwanted, hready, hreachable, by rw [haddresses]⟩
  · rcases List.mem_append.mp hfault with hfirst | hsecond
    · obtain ⟨identity, slot, source, rfl⟩ := hreleased fault hfirst
      exact ⟨identity, rfl⟩
    · exact habout fault hsecond
  · rw [List.map_append, List.nodup_append]
    refine ⟨hnames.nodup ?_, honce, fun i hi j hj => ?_⟩
    · have hsome := hdistinct.map (f := some) fun _ _ => Option.some.inj
      rwa [List.map_map] at hsome
    · exact hapart i (List.map_subset _ hsubset (hnames.subset hi)) j hj
  · have hreason := hreasoned _ (hlater hfault nofun)
    exact List.mem_map.mp (hreason.2.2 slot hslot)
  · have hsecond := hlater hfault nofun
    refine (hreasoned _ hsecond).2.imp_right fun hheld => ?_
    obtain ⟨e, he, hslot⟩ := List.mem_map.mp hheld
    refine ⟨e, he, hslot, fun hsame => ?_⟩
    exact hapart (some e.identity) (List.mem_map_of_mem he) (some identity)
      (List.mem_map_of_mem (f := Fault.endpoint?) hsecond) (congrArg some hsame)

/-- If the engine does what it is asked and any slot will do, slots are all that may be lacking. -/
theorem converge_tallied (h : Seated (engine.slots handle) previous)
    (hquiet : Quiet (converge engine service handle previous specs s).1.2)
    (hany : ∀ spec ∈ newcomers [] specs, spec.slot = none) :
    let left := (converge engine service handle previous specs s).1
    Tallied service (engine.slots handle) specs left.1 left.2 := by
  have haccounted := converge_accounted engine service handle specs s h
  have hseated := converge_seated engine service handle specs s h
  rw [converge_eq] at hquiet haccounted hseated ⊢
  dsimp only at hquiet haccounted hseated ⊢
  have hreleased := release_quiet engine service handle specs previous (s := s)
    fun fault hfault => hquiet fault (List.mem_append_left _ hfault)
  generalize release engine service handle specs previous s = released at *
  obtain ⟨⟨kept, faults⟩, t⟩ := released
  obtain ⟨rfl, rfl⟩ := Prod.mk.inj hreleased
  dsimp only at hquiet haccounted hseated ⊢
  rw [List.nil_append] at hquiet haccounted ⊢
  have hdue (e : ActiveEndpoint) (he : e ∈ previous.filter (staysPut specs)) :
      Due specs e.identity :=
    due_of_staysPut (h.addresses e (List.mem_of_mem_filter he)) (List.mem_filter.mp he).2
  have hcount := length_newcomers ((List.filter_sublist.map _).nodup h.identities) hdue
  have hnone : ∀ spec ∈ newcomers (previous.filter (staysPut specs)) specs, spec.slot = none := by
    intro spec hspec
    obtain ⟨hwanted, -, hready, haddresses⟩ := mem_newcomers.mp hspec
    exact hany spec (mem_newcomers.mpr ⟨hwanted, List.not_mem_nil, hready, haddresses⟩)
  have hlength := activate_length engine service handle previous (previous.filter (staysPut specs))
    (newcomers (previous.filter (staysPut specs)) specs) t
  have hcapacity := activate_capacity engine service handle previous
    (previous.filter (staysPut specs)) hnone hquiet
  generalize activate engine service handle previous (previous.filter (staysPut specs))
    (newcomers (previous.filter (staysPut specs)) specs) t = left at *
  obtain ⟨⟨es, later⟩, u⟩ := left
  dsimp only at haccounted hseated hlength hcapacity ⊢
  refine ⟨fun e he => ?_, hseated.identities, ?_, fun identity hwanted hlacks => ?_⟩
  · rcases haccounted.active e he with ⟨spec, hwanted, hready, haddresses, -⟩ | ⟨source, hfault⟩
    · exact ⟨spec, hwanted, hready, haddresses⟩
    · obtain ⟨identity, heq⟩ := hcapacity _ hfault
      cases heq
  · have hle := hseated.length_le
    cases later with
    | nil =>
      rw [List.length_nil] at hlength
      omega
    | cons fault rest =>
      obtain ⟨identity, rfl⟩ := hcapacity fault List.mem_cons_self
      have hfull := length_le_of_full (haccounted.capacity _ _ _ List.mem_cons_self)
      rw [List.length_cons] at hlength
      omega
  · obtain ⟨fault, hfault, hnamed⟩ := (haccounted.due identity hwanted).resolve_left hlacks
    obtain ⟨other, rfl⟩ := hcapacity fault hfault
    obtain rfl : other = identity := Option.some.inj hnamed
    exact hfault

end Converge

/-- Whatever is on record and whatever the engine does, when the endpoints of a service on record are
set: every endpoint that is due is active or at fault, every active endpoint is due as it is or could
not be deleted, and an endpoint is at fault once. Slots are lacking only if all are held, and a slot is
refused only if the service has none such or another endpoint holds it. So if the engine does not fail
and any slot will do, as many endpoints are active as there are slots, and the others lack one. -/
theorem set_endpoints_accounted (engine : Engine σ H ε) (s : σ) (turns : List (Turn σ)) (now : σ)
    (service : String) (specs : List EndpointSpec) :
    let r : Roster H σ := { afterTurns engine s turns with engine := now }
    let answer := setEndpoints engine service specs r
    let faults := Report.leaves answer.1
    match r.services[service]? with
    | none => answer = (.error (.one (.unknownService service)), r)
    | some handle => ∃ es, answer.2.endpoints[service]? = some es ∧
        Accounted service (engine.slots handle) specs es faults ∧
        (Quiet faults → (∀ spec ∈ newcomers [] specs, spec.slot = none) →
          Tallied service (engine.slots handle) specs es faults) := by
  intro r answer faults
  have hconsistent : Consistent engine r := (afterTurns_consistent engine s turns).withEngine now
  have hanswer : answer = _ := setEndpoints_eq engine service specs r
  cases hservice : r.services[service]? with
  | none =>
    rw [hservice] at hanswer
    exact hanswer
  | some handle =>
    have hmem : service ∈ r.endpoints :=
      (hconsistent.endpoints service).mpr (mem_of_getElem? hservice)
    obtain ⟨previous, hprevious⟩ := exists_of_mem hmem
    have hseated := hconsistent.seated service handle previous hservice hprevious
    rw [hservice, hprevious] at hanswer
    have hfaults : faults = (converge engine service handle previous specs r.engine).1.2 := by
      dsimp only [faults]
      rw [hanswer, Report.leaves_ofFaults]
    refine ⟨(converge engine service handle previous specs r.engine).1.1, ?_, ?_, ?_⟩
    · rw [hanswer]
      exact Std.ExtTreeMap.getElem?_insert_self
    · rw [hfaults]
      exact converge_accounted engine service handle specs r.engine hseated
    · rw [hfaults]
      exact converge_tallied engine service handle specs r.engine hseated

end Roster
end VipSteering
