import VipSteering.Host.Basic
import VipSteering.Proofs.Net.AddressText

namespace VipSteering.Host

@[simp] theorem number_toString (n : UInt32) : number (toString n) = .ok n := by
  rw [number, Text.readUInt32_toString]

@[simp] theorem address_text (a : Address) : address a.text = .ok a := by
  rw [address, Address.parse?_text]

/-- What fails for another reason than that nothing is there does not count as deleted. -/
theorem deleted_refused {cause : Command.Failure} (h : cause.isAbsence = false) :
    Outcome.deleted (.error cause) = .error cause := by
  rw [Outcome.deleted, h]
  rfl

variable {h : Host} {c : Command}

theorem run_healthy (hf : h.faults = []) (c : Command) :
    Shell.run c h = match (h.record c).execute c with
      | .error output => (.error (failure c output), h.record c)
      | .ok (output, host) => (.ok output, host) := by
  have hfault : (h.record c).isFaulty c.line = false := by
    rw [isFaulty, record, hf]
    rfl
  change Host.run c h = _
  rw [Host.run]
  simp only [hfault]
  cases (h.record c).execute c <;> rfl

theorem run_ip {json : Bool} {r : Ip.Request} (hf : h.faults = []) (hp : c.program = "ip")
    (hr : Ip.parse c.args = .ok (json, r)) :
    ∃ journal, Shell.run c h = match Ip.perform json h.routing r with
      | .error output => (.error (failure c output), { h with journal })
      | .ok (output, routing) => (.ok output, { h with routing, journal }) := by
  refine ⟨(h.record c).journal, ?_⟩
  rw [run_healthy hf, execute, if_pos hp, Ip.execute, hr]
  simp only [record]
  cases Ip.perform json h.routing r <;> rfl

theorem run_nft (hf : h.faults = []) (hp : c.program = "nft") :
    ∃ journal, Shell.run c h = match Nft.execute c.args c.input h.tables with
      | .error output => (.error (failure c output), { h with journal })
      | .ok (output, tables) => (.ok output, { h with tables, journal }) := by
  refine ⟨(h.record c).journal, ?_⟩
  have hip : c.program ≠ "ip" := by rw [hp]; decide
  rw [run_healthy hf, execute, if_neg hip, if_pos hp]
  simp only [record]
  cases Nft.execute c.args c.input h.tables <;> rfl

theorem run_maglev {r : Maglev.Request} (hf : h.faults = [])
    (hp : Text.endsWith "nfqlb" c.program = true) (hr : Maglev.parse c.args = .ok r) :
    ∃ journal, Shell.run c h = match Maglev.perform h.hashing r with
      | .error output => (.error (failure c output), { h with journal })
      | .ok (output, hashing) => (.ok output, { h with hashing, journal }) := by
  refine ⟨(h.record c).journal, ?_⟩
  have hip : c.program ≠ "ip" := by intro heq; rw [heq] at hp; exact absurd hp (by decide)
  have hnft : c.program ≠ "nft" := by intro heq; rw [heq] at hp; exact absurd hp (by decide)
  rw [run_healthy hf, execute, if_neg hip, if_neg hnft, if_pos hp, Maglev.execute, hr]
  simp only [record]
  cases Maglev.perform h.hashing r <;> rfl

section Execute

variable {h' : Host} {output : String}

/-- A command that is carried out alters one of the stores, and its program says what it makes
of it. -/
theorem execute_cases (he : h.execute c = .ok (output, h')) :
    (∃ routing, c.program = "ip" ∧ Ip.execute c.args h.routing = .ok (output, routing) ∧
      h' = { h with routing }) ∨
    (∃ tables, c.program = "nft" ∧ Nft.execute c.args c.input h.tables = .ok (output, tables) ∧
      h' = { h with tables }) ∨
    ∃ hashing, Text.endsWith "nfqlb" c.program = true ∧
      Maglev.execute c.args h.hashing = .ok (output, hashing) ∧ h' = { h with hashing } := by
  rw [execute] at he
  split at he
  · rename_i hp
    cases hip : Ip.execute c.args h.routing with
    | error _ => rw [hip] at he; cases he
    | ok answer =>
      rw [hip] at he
      cases he
      exact .inl ⟨answer.2, hp, rfl, rfl⟩
  split at he
  · rename_i hp
    cases hnft : Nft.execute c.args c.input h.tables with
    | error _ => rw [hnft] at he; cases he
    | ok answer =>
      rw [hnft] at he
      cases he
      exact .inr (.inl ⟨answer.2, hp, rfl, rfl⟩)
  split at he
  · rename_i hp
    cases hmaglev : Maglev.execute c.args h.hashing with
    | error _ => rw [hmaglev] at he; cases he
    | ok answer =>
      rw [hmaglev] at he
      cases he
      exact .inr (.inr ⟨answer.2, hp, rfl, rfl⟩)
  · cases he

/-- What carrying a command out does to the hash tables, a request to their program does. -/
theorem execute_hashing (he : h.execute c = .ok (output, h')) : h'.journal = h.journal ∧
    (h'.hashing = h.hashing ∨ ∃ request, Text.endsWith "nfqlb" c.program = true ∧
      Maglev.parse c.args = .ok request ∧
        Maglev.perform h.hashing request = .ok (output, h'.hashing)) := by
  rcases execute_cases he with ⟨_, -, -, rfl⟩ | ⟨_, -, -, rfl⟩ | ⟨hashing, hp, hexecute, rfl⟩
  · exact ⟨rfl, .inl rfl⟩
  · exact ⟨rfl, .inl rfl⟩
  · rw [Maglev.execute] at hexecute
    split at hexecute
    · cases hexecute
    · rename_i request hparse
      exact ⟨rfl, .inr ⟨request, hp, hparse, hexecute⟩⟩

theorem execute_faults (he : h.execute c = .ok (output, h')) : h'.faults = h.faults := by
  rcases execute_cases he with ⟨_, -, -, rfl⟩ | ⟨_, -, -, rfl⟩ | ⟨_, -, -, rfl⟩
  · rfl
  · rfl
  · rfl

/-- Only a request to `ip` alters rules and routes. -/
theorem execute_routing (he : h.execute c = .ok (output, h')) : h'.routing = h.routing ∨
    ∃ json request, c.program = "ip" ∧ Ip.parse c.args = .ok (json, request) ∧
      Ip.perform json h.routing request = .ok (output, h'.routing) := by
  rcases execute_cases he with ⟨routing, hp, hexecute, rfl⟩ | ⟨_, -, -, rfl⟩ | ⟨_, -, -, rfl⟩
  · rw [Ip.execute] at hexecute
    split at hexecute
    · cases hexecute
    · rename_i json request hparse
      exact .inr ⟨json, request, hp, hparse, hexecute⟩
  · exact .inl rfl
  · exact .inl rfl

/-- Only `nft` alters the sets of virtual addresses. -/
theorem execute_tables (he : h.execute c = .ok (output, h')) : h'.tables = h.tables ∨
    c.program = "nft" ∧ Nft.execute c.args c.input h.tables = .ok (output, h'.tables) := by
  rcases execute_cases he with ⟨_, -, -, rfl⟩ | ⟨_, hp, hexecute, rfl⟩ | ⟨_, -, -, rfl⟩
  · exact .inl rfl
  · exact .inr ⟨hp, hexecute⟩
  · exact .inl rfl

/-- A request to `ip` that is carried out has been done. -/
theorem execute_ip {json : Bool} {request : Ip.Request} (hp : c.program = "ip")
    (hparse : Ip.parse c.args = .ok (json, request)) (he : h.execute c = .ok (output, h')) :
    Ip.perform json h.routing request = .ok (output, h'.routing) := by
  rw [execute, if_pos hp, Ip.execute, hparse] at he
  simp only at he
  cases hperform : Ip.perform json h.routing request with
  | error _ =>
    rw [hperform] at he
    cases he
  | ok answer =>
    rw [hperform] at he
    cases he
    rfl

theorem execute_nft (hp : c.program = "nft") (he : h.execute c = .ok (output, h')) :
    Nft.execute c.args c.input h.tables = .ok (output, h'.tables) := by
  have hip : c.program ≠ "ip" := by rw [hp]; decide
  rw [execute, if_neg hip, if_pos hp] at he
  cases hexecute : Nft.execute c.args c.input h.tables with
  | error _ =>
    rw [hexecute] at he
    cases he
  | ok answer =>
    rw [hexecute] at he
    cases he
    rfl

/-- A command that succeeds has been carried out. -/
theorem execute_of_run (hok : (Shell.run c h).1 = .ok output) :
    (h.record c).execute c = .ok (output, (Shell.run c h).2) := by
  change (Host.run c h).1 = .ok output at hok
  change _ = Except.ok (output, (Host.run c h).2)
  rw [Host.run] at hok ⊢
  split at hok
  · cases hok
  rename_i haccepted
  simp only [if_neg haccepted]
  split at hok
  · cases hok
  · rename_i heq
    cases hok
    exact heq

/-- A command is carried out, or it is only put down in the journal. -/
theorem run_cases (c : Command) (h : Host) : (Shell.run c h).2 = h.record c ∨
    ∃ output, (h.record c).execute c = .ok (output, (Shell.run c h).2) := by
  change (Host.run c h).2 = _ ∨ ∃ output, _ = Except.ok (output, (Host.run c h).2)
  rw [Host.run]
  split
  · exact .inl rfl
  · split
    · exact .inl rfl
    · rename_i output host heq
      exact .inr ⟨output, heq⟩

theorem run_journal (c : Command) (h : Host) : (Shell.run c h).2.journal = c :: h.journal := by
  rcases run_cases c h with heq | ⟨output, he⟩
  · rw [heq]
    rfl
  · exact (execute_hashing he).1

end Execute

end VipSteering.Host
