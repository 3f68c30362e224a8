import VipSteering.Balancer.Basic
import VipSteering.Proofs.Report
import VipSteering.Roster.Basic

namespace VipSteering

variable {S α β ε ε' : Type}

@[simp] theorem mapError_ok (f : ε → ε') (a : α) :
    (Except.ok a : Except ε α).mapError f = .ok a := rfl

@[simp] theorem mapError_error (f : ε → ε') (fault : ε) :
    (Except.error fault : Except ε α).mapError f = .error (f fault) := rfl

theorem mapError_eq_ok {f : ε → ε'} {result : Except ε α} {a : α} :
    result.mapError f = .ok a ↔ result = .ok a := by
  cases result <;> simp

theorem mapError_eq_error {f : ε → ε'} {result : Except ε α} {fault : ε'} :
    result.mapError f = .error fault ↔ ∃ cause, result = .error cause ∧ f cause = fault := by
  cases result <;> simp

theorem bind_eq_ok {x : Except ε α} {f : α → Except ε β} {b : β} (h : x >>= f = .ok b) :
    ∃ a, x = .ok a ∧ f a = .ok b := by
  cases x with
  | error fault => cases h
  | ok a => exact ⟨a, rfl, h⟩

namespace Task

@[simp] theorem pure_apply (a : α) (s : S) : (pure a : StateM S α) s = (a, s) := rfl

@[simp] theorem bind_apply (x : StateM S α) (f : α → StateM S β) (s : S) :
    (x >>= f) s = f (x s).1 (x s).2 := rfl

@[simp] theorem map_apply (f : α → β) (x : StateM S α) (s : S) :
    (f <$> x) s = (f (x s).1, (x s).2) := rfl

@[simp] theorem discard_apply (x : StateM S α) (s : S) :
    (discard x : StateM S PUnit) s = (⟨⟩, (x s).2) := rfl

@[simp] theorem get_apply (s : S) : (get : StateM S S) s = (s, s) := rfl

@[simp] theorem modify_apply (f : S → S) (s : S) : (modify f : StateM S PUnit) s = (⟨⟩, f s) := rfl

@[simp] theorem modifyGet_apply (f : S → α × S) (s : S) :
    (modifyGet f : StateM S α) s = f s := rfl

@[simp] theorem forM_nil (task : α → StateM S PUnit) (s : S) :
    ([].forM task : StateM S PUnit) s = (⟨⟩, s) := rfl

@[simp] theorem forM_cons (task : α → StateM S PUnit) (a : α) (rest : List α) (s : S) :
    ((a :: rest).forM task : StateM S PUnit) s = rest.forM task (task a s).2 := rfl

theorem forM_append (task : α → StateM S PUnit) (items rest : List α) (s : S) :
    ((items ++ rest).forM task : StateM S PUnit) s = rest.forM task (items.forM task s).2 := by
  induction items generalizing s with
  | nil => rfl
  | cons a items ih => exact ih _

theorem forM_map (task : β → StateM S PUnit) (f : α → β) (items : List α) (s : S) :
    ((items.map f).forM task : StateM S PUnit) s = items.forM (fun a => task (f a)) s := by
  induction items generalizing s with
  | nil => rfl
  | cons a items ih => exact ih _

/-- What each item keeps, the list keeps. -/
theorem forM_keeps {P : S → Prop} {task : α → StateM S PUnit} {items : List α}
    (h : ∀ a ∈ items, ∀ s, P s → P (task a s).2) {s : S} (hs : P s) :
    P (items.forM task s).2 := by
  induction items generalizing s with
  | nil => exact hs
  | cons a rest ih =>
    simp only [List.mem_cons, forall_eq_or_imp] at h
    exact ih h.2 (h.1 s hs)

end Task

@[simp] theorem attemptAll_nil (task : α → StateM S (Except ε Unit)) (s : S) :
    attemptAll task [] s = ([], s) := rfl

@[simp] theorem attemptAll_cons (task : α → StateM S (Except ε Unit)) (a : α) (rest : List α)
    (s : S) :
    attemptAll task (a :: rest) s =
      ((match (task a s).1 with
        | .ok () => (attemptAll task rest (task a s).2).1
        | .error fault => fault :: (attemptAll task rest (task a s).2).1),
        (attemptAll task rest (task a s).2).2) := by
  rw [attemptAll]
  simp only [Task.bind_apply]
  cases (task a s).1 <;> rfl

theorem attemptAll_cons_eq_nil {task : α → StateM S (Except ε Unit)} {a : α} {rest : List α} {s : S} :
    (attemptAll task (a :: rest) s).1 = [] ↔
      (task a s).1 = .ok () ∧ (attemptAll task rest (task a s).2).1 = [] := by
  rw [attemptAll_cons]
  cases (task a s).1 <;> simp

theorem mem_attemptAll_cons {task : α → StateM S (Except ε Unit)} {a : α}
    {rest : List α} {s : S} {fault : ε} : fault ∈ (attemptAll task (a :: rest) s).1 ↔
      (task a s).1 = .error fault ∨ fault ∈ (attemptAll task rest (task a s).2).1 := by
  rw [attemptAll_cons]
  cases (task a s).1 with
  | ok _ => simp
  | error other => simp [eq_comm]

/-- A fault that is kept is that of an item, when its turn came. -/
theorem exists_of_mem_attemptAll {task : α → StateM S (Except ε Unit)} {items : List α} {s : S}
    {fault : ε} (h : fault ∈ (attemptAll task items s).1) :
    ∃ a ∈ items, ∃ s', (task a s').1 = .error fault := by
  induction items generalizing s with
  | nil => cases h
  | cons a rest ih =>
    rcases mem_attemptAll_cons.mp h with hfirst | hlater
    · exact ⟨a, List.mem_cons_self, s, hfirst⟩
    · obtain ⟨b, hb, hfault⟩ := ih hlater
      exact ⟨b, List.mem_cons_of_mem a hb, hfault⟩

theorem attemptAll_append (task : α → StateM S (Except ε Unit)) (items rest : List α) (s : S) :
    (attemptAll task (items ++ rest) s).2 = (attemptAll task rest (attemptAll task items s).2).2 := by
  induction items generalizing s with
  | nil => rfl
  | cons a items ih =>
    rw [List.cons_append, attemptAll_cons, attemptAll_cons]
    exact ih _

/-- What each item keeps, the list keeps. -/
theorem attemptAll_keeps {P : S → Prop} {task : α → StateM S (Except ε Unit)} {items : List α}
    (h : ∀ a ∈ items, ∀ s, P s → P (task a s).2) {s : S} (hs : P s) :
    P (attemptAll task items s).2 := by
  induction items generalizing s with
  | nil => exact hs
  | cons a rest ih =>
    simp only [List.mem_cons, forall_eq_or_imp] at h
    rw [attemptAll_cons]
    exact ih h.2 (h.1 s hs)

/-- What comes of each item, depending on its success, composes to what comes of the list. -/
theorem attemptAll_composes {I : S → Prop} {R : List α → Prop → S → S → Prop}
    {task : α → StateM S (Except ε Unit)} (hkeep : ∀ a s, I s → I (task a s).2)
    (hnil : ∀ s, R [] True s s) (hone : ∀ a s, I s → R [a] ((task a s).1 = .ok ()) s (task a s).2)
    (htrans : ∀ items rest p q s s' s'', R items p s s' → R rest q s' s'' →
      R (items ++ rest) (p ∧ q) s s'') (items : List α) {s : S} (hs : I s) :
    R items ((attemptAll task items s).1 = []) s (attemptAll task items s).2 := by
  induction items generalizing s with
  | nil => simpa using hnil s
  | cons a rest ih =>
    rw [attemptAll_cons_eq_nil, attemptAll_cons]
    exact htrans [a] rest _ _ _ _ _ (hone a s hs) (ih (hkeep a s hs))

/-- If no fault is met, every item of the list has been successful in its turn. -/
theorem attemptAll_succeeds {I : S → Prop} {task : α → StateM S (Except ε Unit)} {items : List α}
    (hkeep : ∀ a ∈ items, ∀ s, I s → I (task a s).2) {s : S} (hs : I s)
    (hnil : (attemptAll task items s).1 = []) :
    ∀ a ∈ items, ∃ s', I s' ∧ (task a s').1 = .ok () := by
  induction items generalizing s with
  | nil => simp
  | cons a rest ih =>
    simp only [List.mem_cons, forall_eq_or_imp] at hkeep ⊢
    obtain ⟨hres, hrest⟩ := attemptAll_cons_eq_nil.mp hnil
    exact ⟨⟨s, hs, hres⟩, ih hkeep.2 (hkeep.1 s hs) hrest⟩

/-- If no item can fail, no fault is met. -/
theorem attemptAll_eq_nil {I : S → Prop} {task : α → StateM S (Except ε Unit)} {items : List α}
    (hok : ∀ a ∈ items, ∀ s, I s → (task a s).1 = .ok () ∧ I (task a s).2) {s : S} (hs : I s) :
    (attemptAll task items s).1 = [] := by
  induction items generalizing s with
  | nil => rfl
  | cons a rest ih =>
    simp only [List.mem_cons, forall_eq_or_imp] at hok
    obtain ⟨hdone, hkept⟩ := hok.1 s hs
    exact attemptAll_cons_eq_nil.mpr ⟨hdone, ih hok.2 hkept⟩

/-- Suppose that an item which matters brings about a property, and that one which does not is no
matter for the others either. If no fault is met, the property holds after the last item exactly if
it held before the first or one of them mattered. -/
theorem attemptAll_iff {I P : S → Prop} {T : α → S → Prop} {task : α → StateM S (Except ε Unit)}
    {items : List α} (hkeep : ∀ a ∈ items, ∀ s, I s → I (task a s).2)
    (hdone : ∀ a ∈ items, ∀ s, I s → (task a s).1 = .ok () → T a s → P (task a s).2)
    (hidle : ∀ a ∈ items, ∀ s, I s → (task a s).1 = .ok () → ¬ T a s →
      (P (task a s).2 ↔ P s) ∧ ∀ b, T b (task a s).2 ↔ T b s) {s : S} (hs : I s)
    (hnil : (attemptAll task items s).1 = []) :
    P (attemptAll task items s).2 ↔ P s ∨ ∃ a ∈ items, T a s := by
  induction items generalizing s with
  | nil => simp
  | cons a rest ih =>
    simp only [List.mem_cons, forall_eq_or_imp] at hkeep hdone hidle
    obtain ⟨hres, hrest⟩ := attemptAll_cons_eq_nil.mp hnil
    rw [attemptAll_cons]
    refine (ih hkeep.2 hdone.2 hidle.2 (hkeep.1 s hs) hrest).trans ?_
    by_cases hmatters : T a s
    · exact iff_of_true (.inl (hdone.1 s hs hres hmatters)) (.inr ⟨a, List.mem_cons_self, hmatters⟩)
    · obtain ⟨hsame, hothers⟩ := hidle.1 s hs hres hmatters
      simp only [hsame, hothers, List.mem_cons, exists_eq_or_imp, hmatters, false_or]

/-- Suppose that an item that can be removed takes away its own entry, and that no item takes away
others. Then the list takes away just the entries of its items that can be removed. -/
theorem attemptAll_removes [DecidableEq α] {I : S → Prop} {C : α → Prop}
    [DecidablePred C] {R : S → α → Option β} {task : α → StateM S (Except ε Unit)}
    (hkeep : ∀ a s, I s → I (task a s).2)
    (hone : ∀ a s b, I s → R (task a s).2 b = if b = a ∧ C b then none else R s b)
    (items : List α) {s : S} (hs : I s) (b : α) :
    R (attemptAll task items s).2 b = if b ∈ items ∧ C b then none else R s b := by
  induction items generalizing s with
  | nil => simp
  | cons a rest ih =>
    rw [attemptAll_cons, ih (hkeep a s hs), hone a s b hs]
    by_cases hb : b = a
    · subst hb
      by_cases hcan : C b
      · simp [hcan]
      · simp [hcan]
    · simp [hb]

@[simp] theorem Balancer.onHost_apply {σ : Type} (task : StateM σ α) (b : Balancer σ) :
    Balancer.onHost task b = ((task b.host).1, { b with host := (task b.host).2 }) := rfl

@[simp] theorem Roster.onEngine_apply {H σ : Type} (task : StateM σ α) (r : Roster H σ) :
    Roster.onEngine task r = ((task r.engine).1, { r with engine := (task r.engine).2 }) := rfl

end VipSteering
