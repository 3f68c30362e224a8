import VipSteering.Balancer.Flow
import VipSteering.Proofs.Host.Maglev
import VipSteering.Proofs.Json.Record

namespace VipSteering

open Host

namespace Json

theorem list?_protocols (ps : List Protocol) :
    list? Protocol.ofJson? (ofStrings (ps.map Protocol.text)) = some ps := by
  rw [ofStrings, List.map_map]
  exact list?_map (ofString ∘ Protocol.text) (fun p => by cases p <;> rfl) ps

end Json

namespace ListedFlow

/-- A flow that the program holds, as a balancer reads it. -/
def ofEntry (name : String) (e : FlowEntry) : ListedFlow where
  flow := ⟨name, e.sources, e.destinations, e.sourcePorts, e.destinationPorts,
    e.protocols.filterMap Protocol.ofText?, e.priority, e.byteMatches⟩
  service := e.target
  matched := 0

/-- A balancer reads only protocols that it knows. -/
def IsReadable (e : FlowEntry) : Prop := ∃ ps : List Protocol, e.protocols = ps.map Protocol.text

theorem isReadable_entryOf (service : String) (f : Flow) :
    IsReadable (Maglev.entryOf service f) := ⟨f.selectors.protocols, rfl⟩

theorem filterMap_text (ps : List Protocol) :
    (ps.map Protocol.text).filterMap Protocol.ofText? = ps := by
  have htext : Protocol.ofText? ∘ Protocol.text = some := by
    funext p
    cases p <;> rfl
  rw [List.filterMap_map, htext, List.filterMap_some]

/-- Of what a flow is listed with, only the protocols may be unknown to a balancer. -/
theorem ofJson?_flowJson_eq (name : String) (e : FlowEntry) :
    ofJson? (Maglev.flowJson name e) =
      (Json.list? Protocol.ofJson? (.ofStrings e.protocols)).map fun protocols =>
        { ofEntry name e with flow := ⟨name, { (ofEntry name e).flow.selectors with protocols }⟩ } := by
  have hfields : (Maglev.flowJson name e).fields? ["Name", "user_ref", "matches_count", "srcs",
      "dests", "sports", "dports", "protocols", "priority", "match"] =
      some [("Name", .ofString name), ("dests", .ofStrings e.destinations),
        ("dports", .ofStrings e.destinationPorts), ("match", .ofStrings e.byteMatches),
        ("matches_count", .ofNat 0), ("priority", .ofInt e.priority.toInt),
        ("protocols", .ofStrings e.protocols), ("sports", .ofStrings e.sourcePorts),
        ("srcs", .ofStrings e.sources), ("user_ref", .ofString e.target)] := rfl
  have hcount : Json.uint64? (.ofNat 0) = some 0 := by
    rw [Json.uint64?, Json.nat?_ofNat (by decide) (Nat.le_refl _)]
    rfl
  rw [ofJson?, hfields]
  simp [Json.Fields.required, Json.Fields.withDefault, List.lookup_cons, hcount,
    Json.strings?_ofStrings, Json.int32?_ofInt]
  cases Json.list? Protocol.ofJson? (.ofStrings e.protocols) <;> rfl

theorem ofJson?_flowJson (name : String) {e : FlowEntry} (h : IsReadable e) :
    ofJson? (Maglev.flowJson name e) = some (ofEntry name e) := by
  obtain ⟨ps, hps⟩ := h
  have hprotocols : Json.list? Protocol.ofJson? (.ofStrings e.protocols) =
      some (e.protocols.filterMap Protocol.ofText?) := by
    rw [hps, Json.list?_protocols, filterMap_text]
  rw [ofJson?_flowJson_eq, hprotocols]
  rfl

theorem plain_flowJson (name : String) (e : FlowEntry) : (Maglev.flowJson name e).Plain := by
  simp [Maglev.flowJson]

theorem readAll?_print (flows : List (String × FlowEntry)) :
    readAll? (Json.array (flows.map fun (name, e) => Maglev.flowJson name e)).print =
      flows.mapM fun p => ofJson? (Maglev.flowJson p.1 p.2) := by
  have hplain : (Json.array (flows.map fun (name, e) => Maglev.flowJson name e)).Plain := by
    rw [Json.plain_array]
    intro j hj
    obtain ⟨⟨name, e⟩, -, rfl⟩ := List.mem_map.mp hj
    exact plain_flowJson name e
  have hsome (items : List Json) : (Json.array items).print ≠ "" := by
    intro heq
    have := congrArg String.toList heq
    rw [Json.print, String.toList_ofList, Json.chars] at this
    cases this
  rw [readAll?, Json.trim_print_array]
  simp only [if_neg (hsome _), Json.parse?_print hplain]
  exact List.mapM_map

/-- No text is left out, and no flow. -/
theorem readAll?_listing {flows : List (String × FlowEntry)}
    (h : ∀ p ∈ flows, IsReadable p.2) :
    readAll? (Json.array (flows.map fun (name, e) => Maglev.flowJson name e)).print =
      some (flows.map fun (name, e) => ofEntry name e) := by
  rw [readAll?_print]
  exact Text.mapM_eq_map fun p hp => ofJson?_flowJson p.1 (h p hp)

/-- What is read from a listing are flows that are listed, under their names and for their
services. -/
theorem mem_of_readAll?_listing {flows : List (String × FlowEntry)} {read : List ListedFlow}
    (h : readAll? (Json.array (flows.map fun (name, e) => Maglev.flowJson name e)).print =
      some read) {f : ListedFlow} (hf : f ∈ read) :
    ∃ p ∈ flows, f.flow.name = p.1 ∧ f.service = p.2.target := by
  rw [readAll?_print] at h
  induction flows generalizing read with
  | nil =>
    obtain rfl := Option.some.inj h
    cases hf
  | cons p rest ih =>
    rw [List.mapM_cons, ofJson?_flowJson_eq] at h
    cases hps : Json.list? Protocol.ofJson? (.ofStrings p.2.protocols) with
    | none =>
      rw [hps] at h
      cases h
    | some ps =>
      cases hrest : rest.mapM fun p => ofJson? (Maglev.flowJson p.1 p.2) with
      | none =>
        rw [hps, hrest] at h
        cases h
      | some others =>
        rw [hps, hrest] at h
        obtain rfl := Option.some.inj h
        rcases List.mem_cons.mp hf with rfl | hf
        · exact ⟨p, List.mem_cons_self, rfl, rfl⟩
        · obtain ⟨q, hq, hsame⟩ := ih hrest hf
          exact ⟨q, List.mem_cons_of_mem _ hq, hsame⟩

end ListedFlow

end VipSteering
