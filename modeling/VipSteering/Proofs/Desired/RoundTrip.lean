import Mathlib.Tactic.MkIffOfInductiveProp
import VipSteering.Desired.Spec
import VipSteering.Proofs.Json.Record
import VipSteering.Proofs.Net.AddressText

namespace VipSteering

open Json

/-- What is written is read back, and a text is read as what its document says, after which it is
written and read again without a change. -/
structure RoundTrips {α : Type} (toJson : α → Json) (parse? : String → Option α)
    (Reads : Json → α → Prop) : Prop where
  back : ∀ a, parse? (toJson a).print = some a
  written : ∀ a, Json.parse? (toJson a).print = some (toJson a) ∧ Reads (toJson a) a
  accepted : ∀ text a, parse? text = some a ↔ ∃ j, Json.parse? text = some j ∧ Reads j a
  again : ∀ text a, parse? text = some a → parse? (toJson a).print = some a

theorem roundTrips_of {α : Type} {toJson : α → Json} {ofJson? : Json → Option α}
    {Reads : Json → α → Prop} (hplain : ∀ a, (toJson a).Plain)
    (hread : ∀ j a, ofJson? j = some a ↔ Reads j a) (hwrite : ∀ a, Reads (toJson a) a) :
    RoundTrips toJson (fun text => (Json.parse? text).bind ofJson?) Reads := by
  have hprint (a : α) : Json.parse? (toJson a).print = some (toJson a) := parse?_print (hplain a)
  have hback (a : α) : (Json.parse? (toJson a).print).bind ofJson? = some a := by
    rw [hprint, Option.bind_some]
    exact (hread _ a).mpr (hwrite a)
  refine ⟨hback, fun a => ⟨hprint a, hwrite a⟩, fun text a => ?_, fun text a _ => hback a⟩
  rw [Option.bind_eq_some_iff]
  exact exists_congr fun j => and_congr_right' (hread j a)

namespace ServiceSpec

def fieldNames : List String := ["name", "max_endpoints"]

/-- The document is read as the service. -/
@[mk_iff]
structure Reads (j : Json) (s : ServiceSpec) : Prop where
  record : j.IsRecord fieldNames
  name : Gives (j.field? fieldNames "name") text? s.name
  maxEndpoints : GivesOr (j.field? fieldNames "max_endpoints") 100 uint32? s.maxEndpoints

theorem ofJson?_iff (j : Json) (s : ServiceSpec) : ofJson? j = some s ↔ Reads j s := by
  rw [reads_iff]
  refine fields?_bind_eq_some fun fields hlookup => ?_
  simp only [Option.bind_eq_bind, Option.bind_eq_some_iff,
    required_eq_some (hlookup "name" (by decide)),
    withDefault_eq_some (hlookup "max_endpoints" (by decide))]
  constructor
  · rintro ⟨name, hname, count, hcount, heq⟩
    cases heq
    exact ⟨hname, hcount⟩
  · rintro ⟨hname, hcount⟩
    exact ⟨_, hname, _, hcount, rfl⟩

theorem reads_toJson (s : ServiceSpec) : Reads s.toJson s where
  record := isRecord_record fieldNames (show fieldNames.Nodup by decide)
  name := by
    rw [toJson, field?_record]
    exact gives_some.mpr rfl
  maxEndpoints := by
    rw [toJson, field?_record]
    exact givesOr_some.mpr (uint32?_ofNat s.maxEndpoints)

theorem plain_toJson (s : ServiceSpec) : s.toJson.Plain := by
  simp [toJson]

end ServiceSpec

namespace EndpointSpec

def fieldNames : List String := ["identity", "addresses", "ready", "slot"]

/-- The document is read as the endpoint. Its slot may be absent or null. -/
@[mk_iff]
structure Reads (j : Json) (e : EndpointSpec) : Prop where
  record : j.IsRecord fieldNames
  identity : Gives (j.field? fieldNames "identity") text? e.identity
  addresses : Gives (j.field? fieldNames "addresses") (list? Address.ofJson?) e.addresses
  ready : GivesOr (j.field? fieldNames "ready") false bool? e.ready
  slot : GivesOr (j.field? fieldNames "slot") none (option? uint32?) e.slot

theorem ofJson?_iff (j : Json) (e : EndpointSpec) : ofJson? j = some e ↔ Reads j e := by
  rw [reads_iff]
  refine fields?_bind_eq_some fun fields hlookup => ?_
  simp only [Option.bind_eq_bind, Option.bind_eq_some_iff,
    required_eq_some (hlookup "identity" (by decide)),
    required_eq_some (hlookup "addresses" (by decide)),
    withDefault_eq_some (hlookup "ready" (by decide)),
    withDefault_eq_some (hlookup "slot" (by decide))]
  constructor
  · rintro ⟨identity, hidentity, addresses, haddresses, ready, hready, slot, hslot, heq⟩
    cases heq
    exact ⟨hidentity, haddresses, hready, hslot⟩
  · rintro ⟨hidentity, haddresses, hready, hslot⟩
    exact ⟨_, hidentity, _, haddresses, _, hready, _, hslot, rfl⟩

theorem reads_toJson (e : EndpointSpec) : Reads e.toJson e := by
  obtain ⟨identity, addresses, ready, slot⟩ := e
  have haddresses : list? Address.ofJson? (.array (addresses.map Address.toJson)) =
      some addresses :=
    list?_map Address.toJson (fun a => Address.parse?_text a) addresses
  cases slot with
  | none =>
    refine ⟨isRecord_record fieldNames (show (fieldNames.take 3).Nodup by decide), ?_, ?_, ?_, ?_⟩
    · exact gives_some.mpr rfl
    · exact gives_some.mpr haddresses
    · exact givesOr_some.mpr rfl
    · exact .inl ⟨rfl, rfl⟩
  | some slot =>
    refine ⟨isRecord_record fieldNames (show fieldNames.Nodup by decide), ?_, ?_, ?_, ?_⟩
    · exact gives_some.mpr rfl
    · exact gives_some.mpr haddresses
    · exact givesOr_some.mpr rfl
    · refine givesOr_some.mpr ?_
      change (uint32? (ofNat slot.toNat)).map some = _
      rw [uint32?_ofNat]
      rfl

theorem plain_toJson (e : EndpointSpec) : e.toJson.Plain := by
  obtain ⟨identity, addresses, ready, slot⟩ := e
  have hready : (Json.bool ready).Plain := trivial
  cases slot <;> simp [toJson, Address.toJson, hready]

end EndpointSpec

namespace Protocol

/-- The item names the protocol in lower case or in upper case: as a text, or as the only member of
an object, which holds nothing. -/
inductive Names (p : Protocol) : Json → Prop
  | text (s : String) (spelled : s = p.text ∨ s = p.text.toUpper) : Names p (.ofString s)
  | member (s : String) (spelled : s = p.text ∨ s = p.text.toUpper) :
      Names p (.record [(s, .null)])

theorem toUpper_text (p : Protocol) : p.text.toUpper = match p with
    | .tcp => "TCP"
    | .udp => "UDP"
    | .sctp => "SCTP" := by
  change p.text.map Char.toUpper = _
  rw [← String.toList_inj, String.toList_map]
  cases p <;> decide

theorem toLower_text (p : Protocol) : p.text.toLower = p.text := by
  change p.text.map Char.toLower = _
  rw [← String.toList_inj, String.toList_map]
  cases p <;> decide

theorem ofText?_iff (s : String) (p : Protocol) :
    ofText? s = some p ↔ s = p.text ∨ s = p.text.toUpper := by
  rw [toUpper_text]
  constructor
  · intro h
    rw [ofText?] at h
    split at h
    · cases h
      assumption
    split at h
    · cases h
      assumption
    split at h
    · cases h
      assumption
    · cases h
  · rintro (rfl | rfl)
    · cases p <;> decide
    · cases p <;> decide

theorem ofJson?_iff (j : Json) (p : Protocol) : ofJson? j = some p ↔ p.Names j := by
  constructor
  · intro h
    rw [ofJson?.eq_def] at h
    split at h
    · exact .text _ ((ofText?_iff _ p).mp h)
    · exact .member _ ((ofText?_iff _ p).mp h)
    · cases h
  · intro h
    cases h with
    | text s spelled => exact (ofText?_iff s p).mpr spelled
    | member s spelled => exact (ofText?_iff s p).mpr spelled

end Protocol

namespace FlowSpec

def fieldNames : List String :=
  ["name", "source_cidrs", "destination_cidrs", "source_port_ranges", "destination_port_ranges",
    "protocols", "priority", "byte_matches", "service"]

/-- The document is read as the flow. -/
@[mk_iff]
structure Reads (j : Json) (f : FlowSpec) : Prop where
  record : j.IsRecord fieldNames
  name : Gives (j.field? fieldNames "name") text? f.name
  sourceCidrs :
    GivesOr (j.field? fieldNames "source_cidrs") [] strings? f.selectors.sourceCidrs
  destinationCidrs :
    GivesOr (j.field? fieldNames "destination_cidrs") [] strings? f.selectors.destinationCidrs
  sourcePorts :
    GivesOr (j.field? fieldNames "source_port_ranges") [] strings? f.selectors.sourcePorts
  destinationPorts :
    GivesOr (j.field? fieldNames "destination_port_ranges") [] strings? f.selectors.destinationPorts
  protocols : ∃ items, j.field? fieldNames "protocols" = some (.array items) ∧
    List.Forall₂ (fun item p => Protocol.Names p item) items f.selectors.protocols
  priority : GivesOr (j.field? fieldNames "priority") 0 int32? f.selectors.priority
  byteMatches : GivesOr (j.field? fieldNames "byte_matches") [] strings? f.selectors.byteMatches
  service : Gives (j.field? fieldNames "service") text? f.service

theorem gives_protocols (value : Option Json) (ps : List Protocol) :
    Gives value (list? Protocol.ofJson?) ps ↔ ∃ items, value = some (.array items) ∧
      List.Forall₂ (fun item p => Protocol.Names p item) items ps := by
  simp only [Gives, list?_eq_some, Protocol.ofJson?_iff]
  constructor
  · rintro ⟨_, hvalue, items, rfl, hitems⟩
    exact ⟨items, hvalue, hitems⟩
  · rintro ⟨items, hvalue, hitems⟩
    exact ⟨_, hvalue, items, rfl, hitems⟩

theorem ofJson?_iff (j : Json) (f : FlowSpec) : ofJson? j = some f ↔ Reads j f := by
  rw [reads_iff, ← gives_protocols]
  refine fields?_bind_eq_some fun fields hlookup => ?_
  simp only [Option.bind_eq_bind, Option.bind_eq_some_iff,
    required_eq_some (hlookup "name" (by decide)),
    withDefault_eq_some (hlookup "source_cidrs" (by decide)),
    withDefault_eq_some (hlookup "destination_cidrs" (by decide)),
    withDefault_eq_some (hlookup "source_port_ranges" (by decide)),
    withDefault_eq_some (hlookup "destination_port_ranges" (by decide)),
    required_eq_some (hlookup "protocols" (by decide)),
    withDefault_eq_some (hlookup "priority" (by decide)),
    withDefault_eq_some (hlookup "byte_matches" (by decide)),
    required_eq_some (hlookup "service" (by decide))]
  constructor
  · rintro ⟨name, h₁, sourceCidrs, h₂, destinationCidrs, h₃, sourcePorts, h₄, destinationPorts, h₅,
      protocols, h₆, priority, h₇, byteMatches, h₈, service, h₉, heq⟩
    cases heq
    exact ⟨h₁, h₂, h₃, h₄, h₅, h₆, h₇, h₈, h₉⟩
  · rintro ⟨h₁, h₂, h₃, h₄, h₅, h₆, h₇, h₈, h₉⟩
    exact ⟨_, h₁, _, h₂, _, h₃, _, h₄, _, h₅, _, h₆, _, h₇, _, h₈, _, h₉, rfl⟩

theorem reads_toJson (f : FlowSpec) : Reads f.toJson f where
  record := isRecord_record fieldNames (show fieldNames.Nodup by decide)
  name := gives_some.mpr rfl
  sourceCidrs := givesOr_some.mpr (strings?_ofStrings _)
  destinationCidrs := givesOr_some.mpr (strings?_ofStrings _)
  sourcePorts := givesOr_some.mpr (strings?_ofStrings _)
  destinationPorts := givesOr_some.mpr (strings?_ofStrings _)
  protocols := by
    refine ⟨_, rfl, ?_⟩
    rw [List.forall₂_map_left_iff]
    exact List.forall₂_same.mpr fun p _ => .text p.text (.inl rfl)
  priority := givesOr_some.mpr (int32?_ofInt _)
  byteMatches := givesOr_some.mpr (strings?_ofStrings _)
  service := gives_some.mpr rfl

theorem plain_toJson (f : FlowSpec) : f.toJson.Plain := by
  simp [toJson, Protocol.toJson]

theorem field?_protocols (f : FlowSpec) : f.toJson.field? fieldNames "protocols" =
    some (.ofStrings (f.selectors.protocols.map Protocol.text)) := by
  rw [ofStrings, List.map_map]
  rfl

end FlowSpec

/-- Whatever the service, the endpoint or the flow is, what is written is read back as it was. A text
is accepted exactly if its document is read field by field, with what stands for fields that are
absent, and what has been read is then written and read again without a change. Protocols are read in
either case and written in lower case. -/
theorem specs_round_trip :
    RoundTrips ServiceSpec.toJson ServiceSpec.parse? ServiceSpec.Reads ∧
    RoundTrips EndpointSpec.toJson EndpointSpec.parse? EndpointSpec.Reads ∧
    RoundTrips FlowSpec.toJson FlowSpec.parse? FlowSpec.Reads ∧
    ∀ f : FlowSpec, f.toJson.field? FlowSpec.fieldNames "protocols" =
      some (.ofStrings (f.selectors.protocols.map fun p => p.text.toLower)) := by
  refine ⟨roundTrips_of ServiceSpec.plain_toJson ServiceSpec.ofJson?_iff ServiceSpec.reads_toJson,
    roundTrips_of EndpointSpec.plain_toJson EndpointSpec.ofJson?_iff EndpointSpec.reads_toJson,
    roundTrips_of FlowSpec.plain_toJson FlowSpec.ofJson?_iff FlowSpec.reads_toJson, fun f => ?_⟩
  simp only [Protocol.toLower_text]
  exact f.field?_protocols

example : ServiceSpec.parse? "\x7b\"name\":\"svc-a\"\x7d" = some ⟨"svc-a", 100⟩ := by decide

end VipSteering
