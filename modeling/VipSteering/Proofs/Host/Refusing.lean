import VipSteering.Proofs.Command.Reaches
import VipSteering.Proofs.Host.Basic

namespace VipSteering.Host

variable {h : Host} {c : Command}

/-- Does the host refuse the command? -/
def Refuses (h : Host) (c : Command) : Prop := h.isFaulty c.line = true

instance (h : Host) (c : Command) : Decidable (h.Refuses c) :=
  inferInstanceAs (Decidable (h.isFaulty c.line = true))

/-- A host on which nothing fails refuses nothing. -/
theorem not_refuses (hf : h.faults = []) (c : Command) : ¬ h.Refuses c := by
  rw [Refuses, isFaulty, hf]
  exact Bool.false_ne_true

/-- What is done to a host from outside: from now on it refuses commands that contain a text, or it
refuses none. -/
inductive Disturbance where
  | failOn (pattern : String)
  | clear

def Disturbance.apply : Disturbance → Host → Host
  | failOn pattern => (·.failOn pattern)
  | clear => clearFaults

theorem Disturbance.apply_frame (d : Disturbance) (h : Host) :
    ∃ faults, d.apply h = { h with faults } := by
  cases d with
  | failOn pattern => exact ⟨h.faults ++ [pattern], rfl⟩
  | clear => exact ⟨[], rfl⟩

theorem run_refused (hr : h.Refuses c) :
    Shell.run c h = (.error (failure c injected), h.record c) := by
  change Host.run c h = _
  rw [Host.run]
  exact if_pos hr

theorem run_accepted (hr : ¬ h.Refuses c) : Shell.run c h = match (h.record c).execute c with
    | .error output => (.error (failure c output), h.record c)
    | .ok (output, host) => (.ok output, host) := by
  have haccepted : (h.record c).isFaulty c.line = false := Bool.eq_false_iff.mpr hr
  change Host.run c h = _
  rw [Host.run]
  simp only [haccepted]
  cases (h.record c).execute c <;> rfl

/-- A command that fails leaves everything as it was. -/
theorem run_error {cause : Command.Failure} (he : (Shell.run c h).1 = .error cause) :
    (Shell.run c h).2 = h.record c := by
  by_cases hr : h.Refuses c
  · rw [run_refused hr]
  · rw [run_accepted hr] at he ⊢
    cases hx : (h.record c).execute c with
    | error output => rfl
    | ok answer => rw [hx] at he; cases he

/-- What a host refuses is not for want of something to delete. -/
theorem deleted_injected (c : Command) :
    Outcome.deleted (.error (failure c injected)) = .error (failure c injected) := by
  refine deleted_refused ?_
  change Command.Failure.absenceMarks.any (Text.occursIn · injected) = false
  decide

theorem run_maglev_eq {r : Maglev.Request} (hp : Text.endsWith "nfqlb" c.program = true)
    (hr : Maglev.parse c.args = .ok r) (h : Host) :
    Shell.run c h = if h.Refuses c then (.error (failure c injected), h.record c)
      else match Maglev.perform h.hashing r with
        | .error output => (.error (failure c output), h.record c)
        | .ok (output, hashing) => (.ok output, { h.record c with hashing }) := by
  split
  · rename_i href
    exact run_refused href
  · rename_i hacc
    have hip : c.program ≠ "ip" := by intro heq; rw [heq] at hp; exact absurd hp (by decide)
    have hnft : c.program ≠ "nft" := by intro heq; rw [heq] at hp; exact absurd hp (by decide)
    rw [run_accepted hacc, execute, if_neg hip, if_neg hnft, if_pos hp, Maglev.execute, hr]
    simp only [record]
    cases Maglev.perform h.hashing r <;> rfl

theorem run_ip_eq {json : Bool} {r : Ip.Request} (hp : c.program = "ip")
    (hr : Ip.parse c.args = .ok (json, r)) (h : Host) :
    Shell.run c h = if h.Refuses c then (.error (failure c injected), h.record c)
      else match Ip.perform json h.routing r with
        | .error output => (.error (failure c output), h.record c)
        | .ok (output, routing) => (.ok output, { h.record c with routing }) := by
  split
  · rename_i href
    exact run_refused href
  · rename_i hacc
    rw [run_accepted hacc, execute, if_pos hp, Ip.execute, hr]
    simp only [record]
    cases Ip.perform json h.routing r <;> rfl

theorem run_nft_eq (hp : c.program = "nft") (h : Host) :
    Shell.run c h = if h.Refuses c then (.error (failure c injected), h.record c)
      else match Nft.execute c.args c.input h.tables with
        | .error output => (.error (failure c output), h.record c)
        | .ok (output, tables) => (.ok output, { h.record c with tables }) := by
  split
  · rename_i href
    exact run_refused href
  · rename_i hacc
    have hip : c.program ≠ "ip" := by rw [hp]; decide
    rw [run_accepted hacc, execute, if_neg hip, if_pos hp]
    simp only [record]
    cases Nft.execute c.args c.input h.tables <;> rfl

theorem run_nft_accepted (hr : ¬ h.Refuses c) (hp : c.program = "nft") :
    ∃ journal, Shell.run c h = match Nft.execute c.args c.input h.tables with
      | .error output => (.error (failure c output), { h with journal })
      | .ok (output, tables) => (.ok output, { h with tables, journal }) :=
  ⟨(h.record c).journal, by rw [run_nft_eq hp, if_neg hr]; rfl⟩

/-- Flows, virtual addresses and what is refused are the same. -/
structure Alike (h h' : Host) : Prop where
  faults : h'.faults = h.faults
  tables : h'.tables = h.tables
  flows : h'.hashing.flows = h.hashing.flows

namespace Alike

variable {h' h'' : Host}

theorem refl (h : Host) : Alike h h := ⟨rfl, rfl, rfl⟩

theorem trans (h₁ : Alike h h') (h₂ : Alike h' h'') : Alike h h'' :=
  ⟨h₂.faults.trans h₁.faults, h₂.tables.trans h₁.tables, h₂.flows.trans h₁.flows⟩

theorem record (h : Host) (c : Command) : Alike h (h.record c) := ⟨rfl, rfl, rfl⟩

end Alike

/-- The request is about a segment. -/
def Maglev.Request.IsSegmental : Maglev.Request → Prop
  | .init _ | .delete _ | .activate .. | .deactivate .. => True
  | .setFlow .. | .deleteFlow _ | .listFlows => False

theorem Maglev.perform_segmental {hashing hashing' : Hashing} {r : Maglev.Request} {output : String}
    (hr : r.IsSegmental) (he : Maglev.perform hashing r = .ok (output, hashing')) :
    hashing'.flows = hashing.flows := by
  cases r with
  | init segment =>
    cases he
    rfl
  | delete segment =>
    simp only [Maglev.perform] at he
    split at he
    · cases he
      rfl
    · cases he
  | activate segment slot mark =>
    simp only [Maglev.perform] at he
    split at he
    · cases he
    · cases he
      rfl
  | deactivate segment slot =>
    simp only [Maglev.perform] at he
    split at he
    · cases he
    · cases he
      rfl
  | setFlow name flow => cases hr
  | deleteFlow name => cases hr
  | listFlows => cases hr

theorem run_segmental {r : Maglev.Request} (hp : Text.endsWith "nfqlb" c.program = true)
    (hparse : Maglev.parse c.args = .ok r) (hr : r.IsSegmental) (h : Host) :
    Alike h (Shell.run c h).2 := by
  rw [run_maglev_eq hp hparse]
  split
  · exact .record h c
  · cases hx : Maglev.perform h.hashing r with
    | error output => exact .record h c
    | ok answer => exact ⟨rfl, rfl, Maglev.perform_segmental hr hx⟩

theorem run_ip_frame (hp : c.program = "ip") (h : Host) :
    ∃ routing journal, (Shell.run c h).2 = { h with routing, journal } := by
  by_cases hr : h.Refuses c
  · exact ⟨h.routing, _, by rw [run_refused hr]; rfl⟩
  · rw [run_accepted hr, execute, if_pos hp]
    cases Ip.execute c.args (h.record c).routing with
    | error _ => exact ⟨h.routing, _, rfl⟩
    | ok answer => exact ⟨answer.2, _, rfl⟩

theorem run_maglev_frame {r : Maglev.Request} (hp : Text.endsWith "nfqlb" c.program = true)
    (hr : Maglev.parse c.args = .ok r) (h : Host) :
    ∃ hashing journal, (Shell.run c h).2 = { h with hashing, journal } := by
  rw [run_maglev_eq hp hr]
  split
  · exact ⟨h.hashing, _, rfl⟩
  cases Maglev.perform h.hashing r with
  | error _ => exact ⟨h.hashing, _, rfl⟩
  | ok answer => exact ⟨answer.2, _, rfl⟩

theorem run_nft_frame (hp : c.program = "nft") (h : Host) :
    ∃ tables journal, (Shell.run c h).2 = { h with tables, journal } := by
  have hip : c.program ≠ "ip" := by rw [hp]; decide
  by_cases hr : h.Refuses c
  · exact ⟨h.tables, _, by rw [run_refused hr]; rfl⟩
  · rw [run_accepted hr, execute, if_neg hip, if_pos hp]
    cases Nft.execute c.args c.input (h.record c).tables with
    | error _ => exact ⟨h.tables, _, rfl⟩
    | ok answer => exact ⟨answer.2, _, rfl⟩

section Only

variable {α : Type} {task : StateM Host α}

theorem only_ip_frame (ht : Only (·.program = "ip") task) (h : Host) :
    ∃ routing journal, (task h).2 = { h with routing, journal } := by
  refine (ht h).keeps (P := fun h' => ∃ routing journal, h' = { h with routing, journal })
    (fun c h' hc hgiven => ?_) ⟨h.routing, h.journal, rfl⟩
  obtain ⟨routing, journal, rfl⟩ := hgiven
  obtain ⟨routing, journal, heq⟩ := run_ip_frame hc { h with routing, journal }
  exact ⟨routing, journal, heq⟩

theorem only_nft_frame (ht : Only (·.program = "nft") task) (h : Host) :
    ∃ tables journal, (task h).2 = { h with tables, journal } := by
  refine (ht h).keeps (P := fun h' => ∃ tables journal, h' = { h with tables, journal })
    (fun c h' hc hgiven => ?_) ⟨h.tables, h.journal, rfl⟩
  obtain ⟨tables, journal, rfl⟩ := hgiven
  obtain ⟨tables, journal, heq⟩ := run_nft_frame hc { h with tables, journal }
  exact ⟨tables, journal, heq⟩

theorem only_ip_alike (ht : Only (·.program = "ip") task) (h : Host) : Alike h (task h).2 := by
  obtain ⟨routing, journal, heq⟩ := only_ip_frame ht h
  rw [heq]
  exact ⟨rfl, rfl, rfl⟩

end Only

end VipSteering.Host
