import Templating.Proofs.Cache.Commons
import Templating.Proofs.Signal

/-!
# Watchful caches

A read purges only when the cache's hint is due or its flag is raised. That this misses nothing is
an invariant of runs: a cache is `Watchful` when its hint is not later than the deadline of any
entry, and its flag is told of every token that an entry holds. So when a read skips the purge,
every stored entry is live (`isLive_of_not_mayBeDue`), and a purge would have changed nothing
(`Commons.get_eq_getAfterPurge`).

Other caches matter too, since they share the signals: a purge lowers a flag, and this must be the
flag of no other cache.
-/

namespace Templating

namespace Cache

variable {V C : Type}

/-- The hint is not late, the flag is told of every token, and nothing was read in the future. -/
structure Watchful (c : Cache V C) (now : Instant) (signals : Signals) : Prop where
  hinted : ∀ key slot deadline, c.entries.get? key = some slot →
    slot.deadline? c.epoch = some deadline → ∃ hint, c.hint = some hint ∧ hint ≤ c.millis deadline
  told : ∀ key slot, c.entries.get? key = some slot →
    ∀ t ∈ slot.options.tokens, signals.Tells t c.flag
  touched : ∀ key slot, c.entries.get? key = some slot → slot.touched ≤ c.millis now

theorem millis_mono (c : Cache V C) {a b : Instant} (h : a ≤ b) : c.millis a ≤ c.millis b :=
  Nat.div_le_div_right (Nat.sub_le_sub_right h _)

theorem lt_of_millis_lt (c : Cache V C) {a b : Instant} (h : c.millis a < c.millis b) : a < b :=
  Nat.lt_of_not_le fun hle => Nat.not_le.2 h (c.millis_mono hle)

theorem hintFor_le (c : Cache V C) (deadline : Instant) : c.hintFor deadline ≤ c.millis deadline :=
  Nat.min_le_left ..

section Earlier

variable {a b : Option Nat} {n : Nat}

theorem earlier_le_left (h : a = some n) : ∃ k, earlier a b = some k ∧ k ≤ n := by
  subst h
  cases b with
  | none => exact ⟨n, rfl, Nat.le_refl n⟩
  | some m => exact ⟨min n m, rfl, Nat.min_le_left ..⟩

theorem earlier_le_right (h : b = some n) : ∃ k, earlier a b = some k ∧ k ≤ n := by
  subst h
  cases a with
  | none => exact ⟨n, rfl, Nat.le_refl n⟩
  | some m => exact ⟨min m n, rfl, Nat.min_le_right ..⟩

end Earlier

theorem foldl_earlier_le_start {α : Type} (f : α → Option Nat) (rows : List α) {a : Option Nat}
    {n : Nat} (h : a = some n) :
    ∃ k, rows.foldl (fun m row => earlier m (f row)) a = some k ∧ k ≤ n := by
  induction rows generalizing a n with
  | nil => exact ⟨n, h, Nat.le_refl n⟩
  | cons row rows ih =>
    obtain ⟨k, hk, hkn⟩ := earlier_le_left (b := f row) h
    obtain ⟨k', hk', hkk⟩ := ih hk
    exact ⟨k', hk', Nat.le_trans hkk hkn⟩

theorem foldl_earlier_le {α : Type} (f : α → Option Nat) {rows : List α} (a : Option Nat) {row : α}
    (hrow : row ∈ rows) {n : Nat} (h : f row = some n) :
    ∃ k, rows.foldl (fun m row => earlier m (f row)) a = some k ∧ k ≤ n := by
  induction rows generalizing a with
  | nil => cases hrow
  | cons first rows ih =>
    rcases List.mem_cons.1 hrow with rfl | hrow
    · obtain ⟨k, hk, hkn⟩ := earlier_le_right (a := a) h
      obtain ⟨k', hk', hkk⟩ := foldl_earlier_le_start f rows hk
      exact ⟨k', hk', Nat.le_trans hkk hkn⟩
    · exact ih (earlier a (f first)) hrow

/-- The first deadline is not after the deadline of any stored entry. -/
theorem nextDeadline_le {c : Cache V C} {key : String} {slot : Slot V C}
    (hget : c.entries.get? key = some slot) {deadline : Instant}
    (hd : slot.deadline? c.epoch = some deadline) : ∃ d, c.nextDeadline = some d ∧ d ≤ deadline :=
  have hrow : (key, slot) ∈ c.entries.rows := Table.mem_rows_of_get? hget
  foldl_earlier_le (fun row : String × Slot V C => row.2.deadline? c.epoch) none hrow hd

namespace Watchful

variable {c : Cache V C} {now : Instant} {signals : Signals}

/-- **A purge that is skipped would find nothing**: no entry is expired, and none holds a token
that has fired. -/
theorem isLive_of_not_mayBeDue (h : c.Watchful now signals)
    (hdue : c.mayBeDue now signals = false) {key : String} {slot : Slot V C}
    (hget : c.entries.get? key = some slot) : slot.isLive c.epoch now signals = true := by
  unfold mayBeDue at hdue
  obtain ⟨hhint, hflag⟩ := Bool.or_eq_false_iff.1 hdue
  have hexpired : slot.isExpired c.epoch now = false := by
    unfold Slot.isExpired
    cases hd : slot.deadline? c.epoch with
    | none => rfl
    | some deadline =>
      obtain ⟨hint, hsome, hle⟩ := h.hinted key slot deadline hget hd
      have hlt : c.millis now < hint := by simpa [hsome] using hhint
      have := c.lt_of_millis_lt (Nat.lt_of_lt_of_le hlt hle)
      simpa using this
  have hfired : slot.hasFired signals = false := by
    unfold Slot.hasFired
    rw [List.any_eq_false]
    intro t ht hfired
    have := (h.told key slot hget t ht).raised hfired
    rw [hflag] at this
    cases this
  simp [Slot.isLive, hexpired, hfired]

/-- Time may pass, and the signals may change, as long as the flag stays told. -/
theorem later (h : c.Watchful now signals) {now' : Instant} {signals' : Signals} (hle : now ≤ now')
    (htells : ∀ t, signals.Tells t c.flag → signals'.Tells t c.flag) :
    c.Watchful now' signals' where
  hinted := h.hinted
  told key slot hget t ht := htells t (h.told key slot hget t ht)
  touched key slot hget := Nat.le_trans (h.touched key slot hget) (c.millis_mono hle)

/-- A cache that has lost entries watches the others as before. -/
theorem of_loses (h : c.Watchful now signals) {rest : Cache V C} {gone : List (Evicted V C)}
    (hl : Loses c gone rest) : rest.Watchful now signals where
  hinted key slot deadline hget hd := by
    rw [hl.epoch] at hd
    simp only [millis, hl.hint, hl.epoch]
    exact h.hinted key slot deadline (hl.kept key slot hget) hd
  told key slot hget := by
    rw [hl.flag]
    exact h.told key slot (hl.kept key slot hget)
  touched key slot hget := by
    simp only [millis, hl.epoch]
    exact h.touched key slot (hl.kept key slot hget)

theorem cleared (h : c.Watchful now signals) (hc : c.Linked) (key : String) :
    (c.cleared key).1.Watchful now signals := by
  cases hd : c.detach key with
  | none =>
    rw [cleared_of_none hd]
    exact h
  | some d =>
    rw [cleared_of_some hd]
    exact h.of_loses (loses_detach hc.toConsistent hd .expired)

theorem link (h : c.Watchful now signals) (key : String) (value : V) (options : Options C) :
    (c.link now key value options).Watchful now
      (options.tokens.foldl (fun s t => s.subscribe t c.flag) signals) where
  hinted other slot deadline hget hd := by
    rcases get?_of_get?_link hget with ⟨-, rfl⟩ | ⟨-, hget⟩
    · obtain ⟨hint, hhint, hle⟩ := earlier_le_right (a := c.hint) (n := c.hintFor deadline)
        (b := (Slot.deadline? ⟨value, options, c.millis now⟩ c.epoch).map c.hintFor)
        (congrArg (Option.map c.hintFor) hd)
      exact ⟨hint, hhint, Nat.le_trans hle (c.hintFor_le deadline)⟩
    · obtain ⟨hint, hhint, hle⟩ := h.hinted other slot deadline hget hd
      obtain ⟨hint', hhint', hle'⟩ := earlier_le_left
        (b := (Slot.deadline? ⟨value, options, c.millis now⟩ c.epoch).map c.hintFor) hhint
      exact ⟨hint', hhint', Nat.le_trans hle' hle⟩
  told other slot hget t ht := by
    rcases get?_of_get?_link hget with ⟨-, rfl⟩ | ⟨-, hget⟩
    · exact Signals.Tells.of_foldl_subscribe signals options.tokens c.flag t ht
    · exact (h.told other slot hget t ht).foldl_subscribe options.tokens c.flag
  touched other slot hget := by
    rcases get?_of_get?_link hget with ⟨-, rfl⟩ | ⟨-, hget⟩
    · exact Nat.le_refl _
    · exact h.touched other slot hget

theorem place (h : c.Watchful now signals) (hc : c.Linked) (key : String) (value : V)
    (options : Options C) :
    (c.place now signals key value options).cache.Watchful now
      (c.place now signals key value options).signals := by
  unfold Cache.place
  simp only
  split
  · exact h.cleared hc key
  · exact (h.cleared hc key).link key value options

/-- After a sweep the hint is the first deadline of what is left, and the tokens of what is left
have not fired, so that the flag can be lowered. -/
theorem sweep (h : c.Watchful now signals) (hc : c.Linked) :
    (c.sweep now (signals.lower c.flag)).1.Watchful now (signals.lower c.flag) := by
  have hl := loses_evictEach hc (c.doomed now (signals.lower c.flag))
  refine ⟨?_, ?_, fun key slot hget => (h.of_loses hl).touched key slot hget⟩
  · intro key slot deadline hget hd
    obtain ⟨d, hnext, hle⟩ := nextDeadline_le hget hd
    refine ⟨_, congrArg (Option.map _) hnext, ?_⟩
    exact Nat.le_trans (hintFor_le _ d) (millis_mono _ hle)
  · intro key slot hget t ht
    have hlive := isLive_of_sweep hc now (signals.lower c.flag) hget
    have hnot : signals.hasFired t = false := by
      unfold Slot.isLive Slot.hasFired at hlive
      simp only [Bool.and_eq_true, Bool.not_eq_true', List.any_eq_false] at hlive
      exact Bool.eq_false_iff.2 (hlive.2 t ht)
    have htold := (h.of_loses hl).told key slot hget t ht
    refine ⟨fun hfired => ?_, htold.listens⟩
    have : signals.hasFired t = true := hfired
    rw [hnot] at this
    cases this

theorem touch (h : c.Watchful now signals) (key : String) :
    (c.touch now key).Watchful now signals where
  hinted other slot deadline hget hd := by
    obtain ⟨old, hold, -, hoptions, htouched⟩ := get?_of_get?_touch hget
    have hgrows : old.touched ≤ slot.touched := by
      rcases htouched with htouched | htouched
      · exact Nat.le_of_eq htouched.symm
      · rw [htouched]
        exact h.touched other old hold
    -- A deadline that slides can only have moved on.
    have hdeadline : ∃ d, old.deadline? c.epoch = some d ∧ d ≤ deadline := by
      change slot.deadline? c.epoch = some deadline at hd
      unfold Slot.deadline? at hd ⊢
      rw [← hoptions]
      cases hexp : slot.options.expiration with
      | never => simp [hexp] at hd
      | absolute instant =>
        rw [hexp] at hd
        exact ⟨deadline, hd, Nat.le_refl _⟩
      | sliding window =>
        simp only [hexp, Option.some.injEq] at hd ⊢
        refine ⟨_, rfl, ?_⟩
        subst hd
        exact Nat.add_le_add_right
          (Nat.add_le_add_left (Nat.mul_le_mul_right 1000000 hgrows) c.epoch) window
    obtain ⟨d, hd, hle⟩ := hdeadline
    obtain ⟨hint, hhint, hle'⟩ := h.hinted other old d hold hd
    exact ⟨hint, hhint, Nat.le_trans hle' (c.millis_mono hle)⟩
  told other slot hget := by
    obtain ⟨old, hold, -, hoptions, -⟩ := get?_of_get?_touch hget
    rw [hoptions]
    exact h.told other old hold
  touched other slot hget := by
    obtain ⟨old, hold, -, -, htouched⟩ := get?_of_get?_touch hget
    rcases htouched with htouched | htouched
    · rw [htouched]
      exact h.touched other old hold
    · exact Nat.le_of_eq htouched

theorem dropAll (c : Cache V C) (now : Instant) (signals : Signals) :
    c.dropAll.Watchful now signals :=
  ⟨fun _ _ _ h => (by cases h), fun _ _ h => (by cases h), fun _ _ h => (by cases h)⟩

end Watchful

end Cache

end Templating
