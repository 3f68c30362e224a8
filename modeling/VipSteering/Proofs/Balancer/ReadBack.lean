import VipSteering.Proofs.Balancer.Routine

namespace VipSteering

open Host

namespace Wildcard

open Text

/-- One zero or more, perhaps with a plus. -/
def Zeros (s : List Char) : Prop :=
  ∃ zeros : List Char, zeros ≠ [] ∧ (∀ c ∈ zeros, c = '0') ∧ (s = zeros ∨ s = '+' :: zeros)

/-- What is behind the first slash is zero, with blanks around it or without. -/
def ZeroMask (cidr : String) : Prop :=
  ∃ net mask : List Char, cidr.toList = net ++ '/' :: mask ∧ '/' ∉ net ∧ Zeros (trimChars mask)

/-- Only zeros make zero. -/
theorem ofDigitChars_eq_zero {s : List Char} (h : ∀ c ∈ s, c.isDigit = true) :
    Nat.ofDigitChars 10 s 0 = 0 ↔ ∀ c ∈ s, c = '0' := by
  induction s with
  | nil => exact iff_of_true rfl nofun
  | cons c rest ih =>
    rw [List.forall_mem_cons] at h ⊢
    obtain ⟨hc, hrest⟩ := h
    rw [Nat.ofDigitChars_cons, ← ih hrest, Nat.mul_zero, Nat.zero_add]
    have hlow : '0'.toNat ≤ c.toNat := (Char.isDigit_iff_toNat.mp hc).1
    constructor
    · intro hzero
      have hle := le_ofDigitChars rest (c.toNat - '0'.toNat)
      obtain rfl : c = '0' := Char.toNat_inj.mp (by omega)
      exact ⟨rfl, hzero⟩
    · rintro ⟨rfl, hzero⟩
      exact hzero

theorem numeral_zero {s : List Char} : Numeral s 0 ↔ Zeros s := by
  constructor
  · rintro ⟨digits, hs, hne, hdigits, hvalue⟩
    exact ⟨digits, hne, (ofDigitChars_eq_zero hdigits).mp hvalue, hs⟩
  · rintro ⟨zeros, hne, hzeros, hs⟩
    have hdigits : ∀ c ∈ zeros, c.isDigit = true := fun c hc => by rw [hzeros c hc]; rfl
    exact ⟨zeros, hs, hne, hdigits, (ofDigitChars_eq_zero hdigits).mpr hzeros⟩

theorem hasZeroMask_iff (cidr : String) : hasZeroMask cidr = true ↔ ZeroMask cidr := by
  rw [hasZeroMask, cut]
  cases hchars : cutChars '/' cidr.toList with
  | none =>
    refine iff_of_false Bool.false_ne_true ?_
    rintro ⟨net, mask, hcidr, hnet, -⟩
    rw [cutChars_eq_some.mpr ⟨hcidr, hnet⟩] at hchars
    cases hchars
  | some pair =>
    obtain ⟨net, mask⟩ := pair
    have hread : ZeroMask cidr ↔ readNatChars 256 (trimChars mask) = .ok 0 := by
      rw [readNatChars_eq_ok (by decide), numeral_zero, and_iff_left (by decide)]
      constructor
      · rintro ⟨net', mask', hcidr, hnet, hzeros⟩
        rw [cutChars_eq_some.mpr ⟨hcidr, hnet⟩] at hchars
        obtain ⟨-, rfl⟩ := Prod.mk.inj (Option.some.inj hchars)
        exact hzeros
      · intro hzeros
        obtain ⟨hcidr, hnet⟩ := cutChars_eq_some.mp hchars
        exact ⟨net, mask, hcidr, hnet, hzeros⟩
    rw [hread]
    simp only [Option.map_some, readNat, trim, String.toList_ofList]
    cases readNatChars 256 (trimChars mask) with
    | error fault => simp
    | ok n => simp

instance (cidr : String) : Decidable (ZeroMask cidr) :=
  decidable_of_iff (hasZeroMask cidr = true) (hasZeroMask_iff cidr)

end Wildcard

/-- None of the listed selectors is empty or has a comma. -/
def Flow.IsClean (f : Flow) : Prop :=
  ∀ entry ∈ f.selectors.sourceCidrs ++ f.selectors.destinationCidrs ++ f.selectors.sourcePorts ++
    f.selectors.destinationPorts ++ f.selectors.byteMatches, entry ≠ "" ∧ ',' ∉ entry.toList

instance (f : Flow) : Decidable f.IsClean :=
  inferInstanceAs (Decidable (∀ entry ∈ f.selectors.sourceCidrs ++ f.selectors.destinationCidrs ++
    f.selectors.sourcePorts ++ f.selectors.destinationPorts ++ f.selectors.byteMatches, _ ∧ _))

/-- Port ranges are dropped if one of them is that of all ports. -/
def namedPorts (ports : List String) : List String :=
  if ∃ range ∈ ports, Text.trim range = "0-65535" then [] else ports

/-- Sources are dropped if there are some and each of them is the whole of a family. -/
def namedSources (cidrs : List String) : List String :=
  if cidrs ≠ [] ∧ ∀ cidr ∈ cidrs, Wildcard.ZeroMask cidr then [] else cidrs

/-- A flow of a service that has been set, as a balancer is told of it. -/
def Flow.programmed (service : String) (f : Flow) : ListedFlow where
  flow := ⟨f.name, { f.selectors with
    sourceCidrs := namedSources f.selectors.sourceCidrs
    sourcePorts := namedPorts f.selectors.sourcePorts
    destinationPorts := namedPorts f.selectors.destinationPorts }⟩
  service := service
  matched := 0

section Programmed

open Host.Maglev

/-- Clean selectors are dropped if they select everything, and read as they are if not. -/
theorem narrowed_clean {selectsAll : List String → Bool} {items : List String} {P : Prop}
    [Decidable P] (hall : selectsAll items = true ↔ P)
    (h : ∀ item ∈ items, item ≠ "" ∧ ',' ∉ item.toList) :
    narrowed selectsAll items = if P then [] else items := by
  rw [narrowed, listed_clean h]
  exact if_congr hall rfl rfl

theorem isAnyCidrList_iff (cidrs : List String) :
    Wildcard.isAnyCidrList cidrs = true ↔
      cidrs ≠ [] ∧ ∀ cidr ∈ cidrs, Wildcard.ZeroMask cidr := by
  simp only [Wildcard.isAnyCidrList, Bool.and_eq_true, Bool.not_eq_true', List.isEmpty_eq_false_iff,
    List.all_eq_true, Wildcard.hasZeroMask_iff]

theorem isAnyPortList_iff (ports : List String) :
    Wildcard.isAnyPortList ports = true ↔ ∃ range ∈ ports, Text.trim range = "0-65535" :=
  List.any_eq_true.trans (exists_congr fun _ => and_congr_right fun _ => decide_eq_true_iff)

/-- What the program makes of a flow is read as the flow was set. -/
theorem ofEntry_entryOf (service : String) {f : Flow} (h : f.IsClean) :
    ListedFlow.ofEntry f.name (entryOf service f) = f.programmed service := by
  have hclean (items : List String) (hsub : ∀ item ∈ items, item ∈ f.selectors.sourceCidrs ++
      f.selectors.destinationCidrs ++ f.selectors.sourcePorts ++ f.selectors.destinationPorts ++
        f.selectors.byteMatches) : ∀ item ∈ items, item ≠ "" ∧ ',' ∉ item.toList :=
    fun item hitem => h item (hsub item hitem)
  have hsources := narrowed_clean (isAnyCidrList_iff _)
    (hclean f.selectors.sourceCidrs (by simp +contextual))
  have hdestinations := listed_clean (hclean f.selectors.destinationCidrs (by simp +contextual))
  have hsourcePorts := narrowed_clean (isAnyPortList_iff _)
    (hclean f.selectors.sourcePorts (by simp +contextual))
  have hdestinationPorts := narrowed_clean (isAnyPortList_iff _)
    (hclean f.selectors.destinationPorts (by simp +contextual))
  have hmatches := listed_clean (hclean f.selectors.byteMatches (by simp +contextual))
  rw [ListedFlow.ofEntry, entryOf, Flow.programmed]
  simp only [namedSources, namedPorts, hsources, hdestinations, hsourcePorts, hdestinationPorts, hmatches,
    ListedFlow.filterMap_text]

end Programmed

namespace Balancer

/-- The flows of a listing come in the order of their names, each name once. -/
def InOrder (flows : List ListedFlow) : Prop :=
  flows.Pairwise fun f g => compare f.flow.name g.flow.name = .lt

theorem heldFlows_inOrder (flows : Std.ExtTreeMap String FlowEntry) : InOrder (heldFlows flows) :=
  List.pairwise_map.mpr Std.ExtTreeMap.ordered_keys_toList

/-- Setting a flow replaces the one of its name. -/
theorem mem_heldFlows_insert {flows : Std.ExtTreeMap String FlowEntry} {name : String}
    {e : FlowEntry} {g : ListedFlow} : g ∈ heldFlows (flows.insert name e) ↔
      g = ListedFlow.ofEntry name e ∨ g ∈ heldFlows flows ∧ g.flow.name ≠ name := by
  rw [mem_heldFlows, mem_heldFlows]
  constructor
  · rintro ⟨key, entry, hget, rfl⟩
    rcases of_getElem?_insert hget with ⟨rfl, rfl⟩ | ⟨hne, hget⟩
    · exact .inl rfl
    · exact .inr ⟨⟨key, entry, hget, rfl⟩, hne⟩
  · rintro (rfl | ⟨⟨key, entry, hget, rfl⟩, hne⟩)
    · exact ⟨name, e, Std.ExtTreeMap.getElem?_insert_self, rfl⟩
    · exact ⟨key, entry, (getElem?_insert_of_ne (Ne.symm hne) e).trans hget, rfl⟩

/-- The command sets or deletes a flow. -/
inductive AltersFlow (c : Command) : Prop where
  | set (program service : String) (flow : Flow) (heq : c = flow.setCommand program service)
  | delete (program name : String) (heq : c = Flow.deleteCommand program name)

/-- What such commands make of no flows at all can be read. -/
theorem readable_of_reaches {h₀ h : Host} (hempty : h₀.hashing.flows = ∅)
    (hreach : Reaches AltersFlow h₀ h) : AllReadable h.hashing.flows := by
  refine hreach.keeps (P := fun h : Host => AllReadable h.hashing.flows) (fun c s hc hs => ?_)
    (show AllReadable h₀.hashing.flows from hempty ▸ AllReadable.empty)
  rcases Host.run_cases c s with heq | ⟨output, he⟩
  · rw [heq]
    exact hs
  rcases (execute_hashing he).2 with hsame | ⟨request, -, hparse, hperform⟩
  · rw [hsame]
    exact hs
  cases hc with
  | set program service flow heq =>
    rw [heq, Maglev.parse_setCommand] at hparse
    obtain rfl := Except.ok.inj hparse
    have hreadable : (Maglev.Request.setFlow flow.name (Maglev.entryOf service flow)).IsReadable :=
      ListedFlow.isReadable_entryOf service flow
    exact fun {_ _} hget => ReadableContents.perform hreadable hs hperform hget
  | delete program name heq =>
    rw [heq, Maglev.parse_flowDelete] at hparse
    obtain rfl := Except.ok.inj hparse
    have hreadable : (Maglev.Request.deleteFlow name).IsReadable := trivial
    exact fun {_ _} hget => ReadableContents.perform hreadable hs hperform hget

/-- On a host whose flows have been set and deleted by commands, a flow that is set is listed as it
was set, but for selectors that select everything, and all other flows are listed as before. -/
theorem set_flow_listed {program : String} (hp : Text.endsWith "nfqlb" program = true)
    {h₀ h : Host} (hempty : h₀.hashing.flows = ∅) (hreach : Reaches AltersFlow h₀ h)
    (service : String) {f : Flow} (hclean : f.IsClean)
    (hset : ¬ h.Refuses (f.setCommand program service))
    (hlist : ¬ h.Refuses (Flow.listCommand program)) :
    let left := (Shell.run (f.setCommand program service) h).2
    ∃ before after : List ListedFlow,
      (listFlows program h).1 = .ok before ∧ (listFlows program left).1 = .ok after ∧
      InOrder before ∧ InOrder after ∧
      ∀ g : ListedFlow, g ∈ after ↔
        g = f.programmed service ∨ g ∈ before ∧ g.flow.name ≠ f.name := by
  intro left
  have hreadable : AllReadable h.hashing.flows := readable_of_reaches hempty hreach
  have hrun := run_maglev_eq hp (Maglev.parse_setCommand program service f) h
  rw [if_neg hset] at hrun
  have hleft : left = { h.record (f.setCommand program service) with
      hashing := { h.hashing with
        flows := h.hashing.flows.insert f.name (Maglev.entryOf service f) } } :=
    congrArg Prod.snd hrun
  have hflows : left.hashing.flows =
      h.hashing.flows.insert f.name (Maglev.entryOf service f) := by
    rw [hleft]
  have hlist' : ¬ left.Refuses (Flow.listCommand program) := by
    rw [hleft]
    exact hlist
  have hafter := listFlows_eq hp left (hflows ▸ hreadable.insert service f)
  have hbefore := listFlows_eq hp h hreadable
  rw [if_neg hlist'] at hafter
  rw [if_neg hlist] at hbefore
  refine ⟨_, _, congrArg Prod.fst hbefore, congrArg Prod.fst hafter, heldFlows_inOrder _,
    heldFlows_inOrder _, fun g => ?_⟩
  rw [hflows, mem_heldFlows_insert, ofEntry_entryOf service hclean]

/-- A flow whose texts look like options. Its sources and one of its port ranges select everything. -/
def awkwardFlow : Flow where
  name := "--name=web \"a\""
  selectors :=
    { sourceCidrs := ["0.0.0.0/0", "::/ +00"], destinationCidrs := ["10.0.0.1/32"],
      sourcePorts := ["80", " 0-65535"], destinationPorts := ["443"], protocols := [.udp, .tcp],
      priority := -7, byteMatches := ["tcp[2:2] = 'x'--target=svc-b"] }

/-- What is listed of it. -/
def awkwardListed : ListedFlow where
  flow := { awkwardFlow with selectors :=
    { awkwardFlow.selectors with sourceCidrs := [], sourcePorts := [] } }
  service := "svc=a b"
  matched := 0

/-- The flow is set where another one, which stays, and one of its own name have been. -/
theorem awkwardFlow_listed :
    let earlier : Flow := { awkwardFlow with name := "dns" }
    let h := (Shell.run ({ earlier with name := awkwardFlow.name }.setCommand "nfqlb" "svc-b")
      (Shell.run (earlier.setCommand "nfqlb" "svc-b") ({ } : Host)).2).2
    Text.endsWith "nfqlb" "nfqlb" = true ∧ Reaches AltersFlow { } h ∧ awkwardFlow.IsClean ∧
      ¬ h.Refuses (awkwardFlow.setCommand "nfqlb" "svc=a b") ∧
      ¬ h.Refuses (Flow.listCommand "nfqlb") ∧
      let left := (Shell.run (awkwardFlow.setCommand "nfqlb" "svc=a b") h).2
      ∃ before after : List ListedFlow,
        (listFlows "nfqlb" h).1 = .ok before ∧ (listFlows "nfqlb" left).1 = .ok after ∧
        ∀ g : ListedFlow, g ∈ after ↔
          g = awkwardListed ∨ g ∈ before ∧ g.flow.name ≠ awkwardFlow.name := by
  intro earlier h
  have hreach : Reaches AltersFlow { } h :=
    (Reaches.run (.set "nfqlb" "svc-b" earlier rfl) _).step (.set "nfqlb" "svc-b" _ rfl)
  have hclean : awkwardFlow.IsClean := by decide
  have hset : ¬ h.Refuses (awkwardFlow.setCommand "nfqlb" "svc=a b") := by decide
  have hlist : ¬ h.Refuses (Flow.listCommand "nfqlb") := by decide
  obtain ⟨before, after, hbefore, hafter, -, -, hmem⟩ :=
    set_flow_listed (by decide) rfl hreach "svc=a b" hclean hset hlist
  have hprogrammed : awkwardFlow.programmed "svc=a b" = awkwardListed := by decide
  rw [hprogrammed] at hmem
  exact ⟨by decide, hreach, hclean, hset, hlist, before, after, hbefore, hafter, hmem⟩

end Balancer
end VipSteering
