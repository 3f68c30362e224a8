import VipSteering.Proofs.Balancer.Identified
import VipSteering.Proofs.Balancer.Refusals

namespace VipSteering.Balancer

/-- A service that is registered now and was not before has a lease that had not been issued, and a
program that sets segments up. -/
structure Grows {σ : Type} (program : String) (b b' : Balancer σ) : Prop where
  issued_le : b.issued ≤ b'.issued
  registered : ∀ {n : String} {k : Lease}, b'.registered[n]? = some k →
    b.registered[n]? = some k ∨ b.issued ≤ k.number ∧ Text.endsWith "nfqlb" program = true

namespace Grows

variable {σ : Type} {program : String} {b b' b'' : Balancer σ}

theorem trans (h : Grows program b b') (k : Grows program b' b'') : Grows program b b'' := by
  refine ⟨h.issued_le.trans k.issued_le, fun hn => ?_⟩
  rcases k.registered hn with hn | ⟨hnew, hp⟩
  · exact h.registered hn
  · exact .inr ⟨h.issued_le.trans hnew, hp⟩

/-- Nothing is registered anew. -/
theorem of_kept (hissued : b'.issued = b.issued)
    (hreg : ∀ {n : String} {k : Lease}, b'.registered[n]? = some k → b.registered[n]? = some k) :
    Grows program b b' :=
  ⟨hissued.ge, fun hn => .inl (hreg hn)⟩

theorem host (program : String) (b : Balancer σ) (host : σ) : Grows program b { b with host } :=
  of_kept rfl id

theorem refl (program : String) (b : Balancer σ) : Grows program b b := host program b b.host

theorem confined {l : Lease} (h : Confined l b b') : Grows program b b' :=
  of_kept h.issued fun hn => by rwa [h.registered] at hn

/-- A lease that is held stays the only one of its number. -/
theorem knows (h : Grows program b b') {l : Lease} (hl : Knows b l) : Knows b' l := by
  refine ⟨hl.number_lt.trans_le h.issued_le, fun {n k} hn hnumber => ?_⟩
  rcases h.registered hn with hn | ⟨hnew, -⟩
  · exact hl.unique hn hnumber
  · have := hl.number_lt
    omega

end Grows

/-- The books are sound, and services are registered only with a program that sets segments up. -/
structure SoundBooks {σ : Type} (settings : Settings) (b : Balancer σ) : Prop where
  sound : Sound settings.firstMark b
  program : ∀ {n : String} {l : Lease}, b.registered[n]? = some l →
    Text.endsWith "nfqlb" settings.program = true

namespace SoundBooks

variable {σ : Type} {settings : Settings} {b b' : Balancer σ}

theorem empty (settings : Settings) (host : σ) : SoundBooks settings ({ host } : Balancer σ) :=
  ⟨.empty _ host, fun hn => by simp at hn⟩

theorem grows (h : SoundBooks settings b) (hs : Sound settings.firstMark b')
    (hg : Grows settings.program b b') : SoundBooks settings b' := by
  refine ⟨hs, fun hn => ?_⟩
  rcases hg.registered hn with hn | ⟨-, hp⟩
  · exact h.program hn
  · exact hp

theorem host (h : SoundBooks settings b) {τ : Type} (host : τ) :
    SoundBooks settings ({ b with host } : Balancer τ) :=
  ⟨h.sound.host host, h.program⟩

end SoundBooks

/-- What is left keeps the books sound, and no lease is issued twice. -/
structure Follows {σ : Type} (settings : Settings) (b b' : Balancer σ) : Prop where
  sound : Sound settings.firstMark b'
  grows : Grows settings.program b b'

namespace Follows

variable {σ : Type} {settings : Settings} {b b' b'' : Balancer σ}

theorem trans (h : Follows settings b b') (k : Follows settings b' b'') : Follows settings b b'' :=
  ⟨k.sound, h.grows.trans k.grows⟩

theorem host (hb : Sound settings.firstMark b) (host : σ) :
    Follows settings b { b with host } :=
  ⟨hb.host host, .host _ b host⟩

end Follows

/-- Whether a segment is set up tells whether the program is one for segments. -/
class InitTellsProgram (σ : Type) [Shell σ] : Prop where
  endsWith_of_init : ∀ {program name : String} {slots : UInt32} {s : σ} {output : String},
    (Shell.run (initCommand program name slots) s).1 = .ok output →
      Text.endsWith "nfqlb" program = true

instance : InitTellsProgram Host := ⟨Balancer.endsWith_of_init⟩

instance {fates : Fates} : InitTellsProgram (Flaky fates) :=
  ⟨fun hok => Balancer.endsWith_of_init (Flaky.run_ok _ _ hok).2⟩

section Operations

variable {σ : Type} [Shell σ] [InitTellsProgram σ] {settings : Settings} {b : Balancer σ}

theorem addService_grows (settings : Settings) (name : String) (slots : UInt32)
    (b : Balancer σ) : Grows settings.program b (addService settings name slots b).2 := by
  rw [addService_eq]
  split
  · exact .refl _ b
  split
  · exact .refl _ b
  split
  · exact .host _ b _
  · rename_i block _ _ output host hran
    have hp := InitTellsProgram.endsWith_of_init (congrArg Prod.fst hran)
    refine ⟨Nat.le_succ b.issued, fun {n k} hn => ?_⟩
    rcases of_getElem?_insert hn with ⟨-, rfl⟩ | ⟨-, hn⟩
    · exact .inr ⟨Nat.le_refl _, hp⟩
    · exact .inl hn

omit [InitTellsProgram σ] in
/-- The lease that is handed out is the one that the service is registered under. -/
theorem addService_registered {name : String} {slots : UInt32} {l : Lease}
    (hok : (addService settings name slots b).1 = .ok l) :
    (addService settings name slots b).2.registered[name]? = some l := by
  rw [addService_eq] at hok ⊢
  cases hn : b.registered[name]? with
  | some k =>
    rw [hn] at hok
    obtain rfl : k = l := Except.ok.inj hok
    exact hn
  | none =>
    rw [hn] at hok
    dsimp only at hok ⊢
    split at hok
    · cases hok
    split at hok
    · cases hok
    · cases hok
      exact Std.ExtTreeMap.getElem?_insert_self

omit [InitTellsProgram σ] in
theorem deleteService_grows (settings : Settings) (name : String) (b : Balancer σ) :
    Grows settings.program b (deleteService settings name b).2 := by
  cases hn : b.registered[name]? with
  | none =>
    rw [deleteService_absent settings hn]
    exact .of_kept rfl fun hk => (of_getElem?_erase hk).2
  | some l =>
    rcases deleteService_cases settings hn with ⟨_, left, he, hr⟩ | ⟨left, he, hr⟩
    · rw [he]
      exact .confined hr.toConfined
    · rw [he]
      exact (Grows.confined hr.toConfined).trans (.of_kept rfl fun hk => (of_getElem?_erase hk).2)

theorem addService_follows (hb : Sound settings.firstMark b) (name : String) (slots : UInt32) :
    Follows settings b (addService settings name slots b).2 :=
  ⟨addService_sound hb name slots, addService_grows settings name slots b⟩

omit [InitTellsProgram σ] in
theorem deleteService_follows (hb : Sound settings.firstMark b) (name : String) :
    Follows settings b (deleteService settings name b).2 :=
  ⟨deleteService_sound settings hb name, deleteService_grows settings name b⟩

omit [InitTellsProgram σ] in
theorem addTarget_follows (hb : Sound settings.firstMark b) {l : Lease} (hl : Knows b l)
    (addresses : List Address) (slot : UInt32) :
    Follows settings b (addTarget settings.program l addresses slot b).2 :=
  ⟨addTarget_sound settings.program hb hl addresses slot,
    .confined (addTarget_confined settings.program l addresses slot b)⟩

omit [InitTellsProgram σ] in
theorem deleteTarget_follows (hb : Sound settings.firstMark b) (l : Lease) (slot : UInt32) :
    Follows settings b (deleteTarget settings.program l slot b).2 :=
  ⟨deleteTarget_sound settings.program l hb slot,
    .confined (deleteTarget_releases settings.program l slot b).toConfined⟩

theorem perform_follows (hb : Sound settings.firstMark b) (op : Operation) :
    Follows settings b (op.perform settings b) := by
  have hkept := Follows.host hb b.host
  cases op with
  | addService name slots => exact addService_follows hb name slots
  | deleteService name => exact deleteService_follows hb name
  | addFlow name flow =>
    exact Operation.withLease_keeps hkept fun l _ => .host hb _
  | deleteFlow name flow =>
    exact Operation.withLease_keeps hkept fun l _ => .host hb _
  | addTarget name addresses slot =>
    exact Operation.withLease_keeps hkept fun l hl =>
      addTarget_follows hb (hb.knows hl) addresses slot
  | deleteTarget name addresses slot =>
    exact Operation.withLease_keeps hkept fun l _ => deleteTarget_follows hb l slot
  | heal =>
    obtain ⟨host, heq⟩ := heal_eq b
    change Follows settings b (Balancer.heal b).2
    rw [heq]
    exact .host hb host

end Operations

end VipSteering.Balancer
