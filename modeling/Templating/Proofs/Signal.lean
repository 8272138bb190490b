import Templating.Signal

/-!
# How a flag hears of a token

`Signals.Tells s t f`: as long as `t` has not fired, `f` listens to it, and once `t` has fired, `f`
is raised. Subscribing brings this about, and it stays whatever happens to tokens and flags, as
long as nobody lowers `f`.
-/

namespace Templating.Signals

/-- The flag `f` is told of the token `t`: it listens to it, or is raised when it has fired. -/
structure Tells (s : Signals) (t : Token) (f : Flag) : Prop where
  raised : s.hasFired t = true → s.isRaised f = true
  listens : s.hasFired t = false → (t, f) ∈ s.listeners

/-! ## Raising -/

@[simp] theorem hasFired_raise (s : Signals) (f : Flag) (t : Token) :
    (s.raise f).hasFired t = s.hasFired t := by
  unfold raise
  split <;> rfl

@[simp] theorem listeners_raise (s : Signals) (f : Flag) : (s.raise f).listeners = s.listeners := by
  unfold raise
  split <;> rfl

theorem isRaised_raise (s : Signals) (f g : Flag) :
    (s.raise f).isRaised g = true ↔ g = f ∨ s.isRaised g = true := by
  unfold raise
  split
  · next h =>
    refine ⟨Or.inr, ?_⟩
    rintro (rfl | hg)
    · exact h
    · exact hg
  · simp [isRaised]

theorem isRaised_foldl_raise (fs : List Flag) (s : Signals) (g : Flag) :
    (fs.foldl raise s).isRaised g = true ↔ g ∈ fs ∨ s.isRaised g = true := by
  induction fs generalizing s with
  | nil => simp
  | cons f fs ih =>
    rw [List.foldl_cons, ih, isRaised_raise, List.mem_cons]
    grind

/-! ## Firing -/

theorem hasFired_fire (s : Signals) (t u : Token) :
    (s.fire t).hasFired u = true ↔ u = t ∨ s.hasFired u = true := by
  unfold fire
  by_cases ht : s.hasFired t = true
  · simp only [ht, if_true]
    refine ⟨Or.inr, ?_⟩
    rintro (rfl | hu)
    · exact ht
    · exact hu
  · have hmem : t ∉ s.fired := by simpa [hasFired] using ht
    simp [hasFired, hmem]

theorem hasFired_fire_of_ne (s : Signals) {t u : Token} (h : u ≠ t) :
    (s.fire t).hasFired u = s.hasFired u := by
  rw [Bool.eq_iff_iff, hasFired_fire]
  exact or_iff_right h

theorem isRaised_fire (s : Signals) (t : Token) (g : Flag) :
    (s.fire t).isRaised g = true ↔ (t, g) ∈ s.listeners ∨ s.isRaised g = true := by
  change ((s.listenersOf t).foldl raise s).isRaised g = true ↔ _
  rw [isRaised_foldl_raise]
  have hmem : g ∈ s.listenersOf t ↔ (t, g) ∈ s.listeners := by
    unfold listenersOf
    simp only [List.mem_map, List.mem_filter, beq_iff_eq, Prod.exists, exists_eq_right]
  rw [hmem]

theorem mem_listeners_fire (s : Signals) (t u : Token) (g : Flag) :
    (u, g) ∈ (s.fire t).listeners ↔ u ≠ t ∧ (u, g) ∈ s.listeners := by
  simp [fire, List.mem_filter, and_comm]

@[simp] theorem hasFired_subscribe (s : Signals) (t : Token) (f : Flag) (u : Token) :
    (s.subscribe t f).hasFired u = s.hasFired u := by
  unfold subscribe
  split
  · exact hasFired_raise s f u
  · split <;> rfl

theorem hasFired_foldl_subscribe (tokens : List Token) (f : Flag) (s : Signals) (u : Token) :
    (tokens.foldl (fun s t => s.subscribe t f) s).hasFired u = s.hasFired u := by
  induction tokens generalizing s with
  | nil => rfl
  | cons t tokens ih => rw [List.foldl_cons, ih, hasFired_subscribe]

/-! ## Being told -/

namespace Tells

variable {s : Signals} {t : Token} {f : Flag}

theorem fire (h : s.Tells t f) (u : Token) : (s.fire u).Tells t f := by
  by_cases hne : t = u
  · subst hne
    constructor
    · intro _
      rw [isRaised_fire]
      cases hfired : s.hasFired t with
      | true => exact .inr (h.raised hfired)
      | false => exact .inl (h.listens hfired)
    · intro hnot
      have hfired := (hasFired_fire s t t).2 (.inl rfl)
      rw [hnot] at hfired
      cases hfired
  · constructor
    · intro hfired
      rw [hasFired_fire_of_ne s hne] at hfired
      exact (isRaised_fire s u f).2 (.inr (h.raised hfired))
    · intro hnot
      rw [hasFired_fire_of_ne s hne] at hnot
      exact (mem_listeners_fire s u t f).2 ⟨hne, h.listens hnot⟩

theorem raise (h : s.Tells t f) (g : Flag) : (s.raise g).Tells t f where
  raised hfired := by
    rw [hasFired_raise] at hfired
    exact (isRaised_raise s g f).2 (.inr (h.raised hfired))
  listens hnot := by
    rw [hasFired_raise] at hnot
    rw [listeners_raise]
    exact h.listens hnot

theorem subscribe (h : s.Tells t f) (u : Token) (g : Flag) : (s.subscribe u g).Tells t f := by
  unfold Signals.subscribe
  split
  · exact h.raise g
  · split
    · exact h
    · exact ⟨h.raised, fun hnot => List.mem_cons_of_mem _ (h.listens hnot)⟩

theorem of_subscribe (s : Signals) (t : Token) (f : Flag) : (s.subscribe t f).Tells t f := by
  unfold Signals.subscribe
  split
  · next hfired =>
    refine ⟨fun _ => (isRaised_raise s f f).2 (.inl rfl), fun hnot => ?_⟩
    rw [hasFired_raise, hfired] at hnot
    cases hnot
  · next hnot =>
    refine ⟨fun hfired => absurd ?_ hnot, ?_⟩
    · split at hfired <;> exact hfired
    · intro _
      split
      · next hmem => simpa using hmem
      · exact List.mem_cons_self

theorem foldl_subscribe (h : s.Tells t f) (tokens : List Token) (g : Flag) :
    (tokens.foldl (fun s t => s.subscribe t g) s).Tells t f := by
  induction tokens generalizing s with
  | nil => exact h
  | cons u tokens ih => exact ih (h.subscribe u g)

theorem of_foldl_subscribe (s : Signals) (tokens : List Token) (f : Flag) :
    ∀ t ∈ tokens, (tokens.foldl (fun s t => s.subscribe t f) s).Tells t f := by
  induction tokens generalizing s with
  | nil => intro t ht; cases ht
  | cons u tokens ih =>
    intro t ht
    rcases List.mem_cons.1 ht with rfl | ht
    · exact (of_subscribe s t f).foldl_subscribe tokens f
    · exact ih (s.subscribe u f) t ht

/-- Lowering another flag does not matter. -/
theorem lower_of_ne (h : s.Tells t f) {g : Flag} (hne : f ≠ g) : (s.lower g).Tells t f where
  raised hfired := by
    have := h.raised hfired
    simp only [isRaised, lower, List.contains_iff_mem, List.mem_filter] at this ⊢
    exact ⟨this, by simpa using hne⟩
  listens := h.listens

end Tells

/-- What becomes of the signals when anything happens to them, except that a flag is lowered. -/
inductive Leads : Signals → Signals → Prop
  | refl (s : Signals) : Leads s s
  | fire {s s' : Signals} (t : Token) : Leads s s' → Leads s (s'.fire t)
  | issueToken {s s' : Signals} : Leads s s' → Leads s s'.issueToken.2
  | issueFlag {s s' : Signals} : Leads s s' → Leads s s'.issueFlag.2
  | subscribe {s s' : Signals} (t : Token) (f : Flag) : Leads s s' → Leads s (s'.subscribe t f)

theorem Leads.tells {s s' : Signals} (h : s.Leads s') {t : Token} {f : Flag} (ht : s.Tells t f) :
    s'.Tells t f := by
  induction h with
  | refl => exact ht
  | fire u _ ih => exact ih.fire u
  | issueToken _ ih => exact ⟨ih.raised, ih.listens⟩
  | issueFlag _ ih => exact ⟨ih.raised, ih.listens⟩
  | subscribe u g _ ih => exact ih.subscribe u g

theorem Leads.trans {s s' s'' : Signals} (h : s.Leads s') (h' : s'.Leads s'') : s.Leads s'' := by
  induction h' with
  | refl => exact h
  | fire t _ ih => exact ih.fire t
  | issueToken _ ih => exact ih.issueToken
  | issueFlag _ ih => exact ih.issueFlag
  | subscribe t f _ ih => exact ih.subscribe t f

/-- A token that has fired stays so. -/
theorem Leads.hasFired {s s' : Signals} (h : s.Leads s') {t : Token} (ht : s.hasFired t = true) :
    s'.hasFired t = true := by
  induction h with
  | refl => exact ht
  | fire u _ ih => exact (hasFired_fire _ u t).2 (.inr ih)
  | issueToken _ ih => exact ih
  | issueFlag _ ih => exact ih
  | subscribe u g _ ih =>
    rw [hasFired_subscribe]
    exact ih

theorem leads_foldl_fire (tokens : List Token) (s : Signals) : s.Leads (tokens.foldl fire s) := by
  induction tokens generalizing s with
  | nil => exact .refl s
  | cons t tokens ih => exact (Leads.fire t (.refl s)).trans (ih (s.fire t))

theorem hasFired_foldl_fire (tokens : List Token) (s : Signals) (t : Token) :
    (tokens.foldl fire s).hasFired t = true ↔ t ∈ tokens ∨ s.hasFired t = true := by
  induction tokens generalizing s with
  | nil => simp
  | cons u tokens ih =>
    rw [List.foldl_cons, ih, hasFired_fire, List.mem_cons]
    grind

theorem issued_foldl_raise (flags : List Flag) (s : Signals) :
    (flags.foldl raise s).issued = s.issued := by
  induction flags generalizing s with
  | nil => rfl
  | cons f flags ih =>
    rw [List.foldl_cons, ih]
    unfold raise
    split <;> rfl

theorem issued_foldl_fire (tokens : List Token) (s : Signals) :
    (tokens.foldl fire s).issued = s.issued := by
  induction tokens generalizing s with
  | nil => rfl
  | cons t tokens ih =>
    rw [List.foldl_cons, ih]
    exact issued_foldl_raise _ _

end Templating.Signals
