import Templating.Proofs.Cache.Latest

/-!
# When an entry was used last

An entry is used when it is put in, by a request or by a hook, and when a read finds it.
`Commons.lastUse` reads off a run when this was last the case for a key, from what was put in and
what reads have answered. The mark that an entry keeps is the millisecond of its last use
(`Commons.marked_run`): to look for an entry, to purge and to read other entries leaves it alone.
-/

namespace Templating

/-! ## Uses -/

namespace Cache.Request

variable {V C W : Type}

/-- The key that a request reads. -/
def read? : Cache.Request V C → Option String
  | get key | look key => some key
  | _ => none

/-- What a read answers. -/
def answer? (m : Moment V C W) (s : Session V C W) : Cache.Request V C → Option V
  | get key => (Session.get m key s).1
  | look key => (Session.look m key s).1
  | _ => none

/-- The request is a read that finds an entry under the key. -/
def hits (m : Moment V C W) (s : Session V C W) (key : String) (r : Cache.Request V C) : Bool :=
  r.read? == some key && (r.answer? m s).isSome

end Cache.Request

/-- The last use of a key, when some entries were put in now. -/
def lastPut {V : Type} (now : Instant) (key : String) (used : Option Instant)
    (log : List (String × V)) : Option Instant :=
  if log.any fun row => row.1 == key then some now else used

theorem lastPut_append {V : Type} (now : Instant) (key : String) (used : Option Instant)
    (log log' : List (String × V)) :
    lastPut now key used (log' ++ log) = lastPut now key (lastPut now key used log) log' := by
  unfold lastPut
  rw [List.any_append]
  cases log'.any fun row => row.1 == key <;> rfl

theorem lastPut_of_ne {V : Type} (now : Instant) {key other : String} (used : Option Instant)
    {value : V} {stored : Bool} (h : other ≠ key) :
    lastPut now key used (if stored then [(other, value)] else []) = used := by
  cases stored <;> simp [lastPut, h]

namespace Commons

variable {ι V C W : Type} [DecidableEq ι]

/-- The move reads an entry under the key. -/
def moveHits (decide : Decisions V C W) (i : ι) (key : String) (σ : Commons ι V C W) :
    Move ι V C W → Bool
  | .perform j r => if j = i then r.hits (σ.moment decide) (σ.session j) key else false
  | _ => false

/-- The last use of a key, after a move. -/
def moveUse (decide : Decisions V C W) (i : ι) (key : String) (σ : Commons ι V C W)
    (used : Option Instant) (move : Move ι V C W) : Option Instant :=
  if σ.moveHits decide i key move then some σ.now
  else lastPut σ.now key used (σ.moveLog decide i move)

/-- When an entry was last put in under a key, or read there, after a run. -/
def lastUse (decide : Decisions V C W) (i : ι) (key : String) (σ : Commons ι V C W)
    (used : Option Instant) : List (Move ι V C W) → Option Instant
  | [] => used
  | move :: moves =>
    (σ.step decide move).lastUse decide i key (σ.moveUse decide i key used move) moves

theorem moveUse_advance (decide : Decisions V C W) (i : ι) (key : String) (σ : Commons ι V C W)
    (used : Option Instant) (d : Duration) :
    σ.moveUse decide i key used (.advance d) = used :=
  rfl

theorem lastUse_append (decide : Decisions V C W) (i : ι) (key : String) (σ : Commons ι V C W)
    (used : Option Instant) (before after : List (Move ι V C W)) :
    σ.lastUse decide i key used (before ++ after) =
      (σ.run decide before).lastUse decide i key (σ.lastUse decide i key used before) after := by
  induction before generalizing σ used with
  | nil => rfl
  | cons move before ih => exact ih _ _

theorem now_le_step (decide : Decisions V C W) (σ : Commons ι V C W) (move : Move ι V C W) :
    σ.now ≤ (σ.step decide move).now := by
  cases move with
  | advance d => exact Nat.le_add_right σ.now d
  | attend =>
    simp only [step]
    split <;> exact Nat.le_refl _
  | perform | begin | fire | issueToken | change => exact Nat.le_refl _

/-- A use in a run is no earlier and no later than the run. -/
theorem lastUse_within (decide : Decisions V C W) (i : ι) (key : String) {σ : Commons ι V C W}
    {first : Instant} {used : Option Instant} (hfirst : first ≤ σ.now)
    (hused : ∀ u ∈ used, first ≤ u ∧ u ≤ σ.now) (moves : List (Move ι V C W)) :
    ∀ u ∈ σ.lastUse decide i key used moves, first ≤ u ∧ u ≤ (σ.run decide moves).now := by
  induction moves generalizing σ used with
  | nil => exact hused
  | cons move moves ih =>
    have hstep := now_le_step decide σ move
    refine ih (Nat.le_trans hfirst hstep) fun u hu => ?_
    unfold moveUse lastPut at hu
    split at hu
    · cases hu
      exact ⟨hfirst, hstep⟩
    · split at hu
      · cases hu
        exact ⟨hfirst, hstep⟩
      · exact ⟨(hused u hu).1, Nat.le_trans (hused u hu).2 hstep⟩

end Commons

/-! ## Marks -/

/-- The mark of the entry under a key, if there is one, is the millisecond of its last use. -/
def Cache.MarkedAt {V C : Type} (c : Cache V C) (key : String) (used : Option Instant) : Prop :=
  ∀ slot, c.entries.get? key = some slot → used.map c.millis = some slot.touched

namespace Cache

variable {V C : Type} {c : Cache V C} {key : String} {used : Option Instant}

theorem MarkedAt.of_kept (h : c.MarkedAt key used) {rest : Cache V C}
    (hepoch : rest.epoch = c.epoch)
    (hkept : ∀ slot, rest.entries.get? key = some slot → c.entries.get? key = some slot) :
    rest.MarkedAt key used := by
  intro slot hget
  rw [show rest.millis = c.millis from funext fun _ => by rw [millis, millis, hepoch]]
  exact h slot (hkept slot hget)

theorem MarkedAt.place (h : c.MarkedAt key used) (hc : c.Linked) (now : Instant) (signals : Signals)
    (other : String) (value : V) (options : Options C) :
    (c.place now signals other value options).cache.MarkedAt key (lastPut now key used
      (if (c.place now signals other value options).stored then [(other, value)] else [])) := by
  have hmillis : (c.place now signals other value options).cache.millis = c.millis :=
    funext fun _ => by rw [millis, millis, epoch_place hc]
  intro slot hget
  rw [hmillis]
  rcases get?_place hc other now signals value options hget with
    ⟨rfl, rfl, hstored, -⟩ | ⟨hne, hold⟩
  · simp [lastPut, hstored]
  · rw [lastPut_of_ne now used (Ne.symm hne)]
    exact h slot hold

/-- A read of an entry marks it, and no other. -/
theorem MarkedAt.touch (h : c.MarkedAt key used) (now : Instant) (other : String) :
    (c.touch now other).MarkedAt key (if other = key then some now else used) := by
  intro slot hget
  rw [get?_touch] at hget
  by_cases hkey : other = key
  · subst hkey
    rw [if_pos rfl] at hget ⊢
    obtain ⟨old, -, rfl⟩ := Option.map_eq_some_iff.1 hget
    rfl
  · rw [if_neg (Ne.symm hkey)] at hget
    rw [if_neg hkey]
    exact h slot hget

/-- What is put in is marked with the present. -/
theorem recorded_marked {V C : Type} (now : Instant) (key : String) (used : Option Instant) :
    Cache.Recorded now fun (c : Cache V C) log =>
      c.Linked ∧ c.MarkedAt key (lastPut now key used log) where
  place c log signals other value options h := by
    refine ⟨h.1.place other now signals value options, ?_⟩
    rw [lastPut_append]
    exact h.2.place h.1 now signals other value options
  detach _ _ _ _ h hd :=
    have hloses := loses_detach h.1.toConsistent hd .expired
    ⟨h.1.detach hd, h.2.of_kept hloses.epoch fun slot => hloses.kept key slot⟩
  sweep c _ signals h :=
    ⟨h.1.sweep now signals, h.2.of_kept (loses_evictEach h.1 (c.doomed now signals)).epoch
      fun _ => kept_of_sweep h.1 now signals⟩
  dropAll c _ _ := ⟨.dropAll c, fun _ hget => nomatch hget⟩

/-- Where nothing was put in yet, the last use is the one before. -/
theorem MarkedAt.start (h : c.MarkedAt key used) (hc : c.Linked) (now : Instant) :
    c.Linked ∧ c.MarkedAt key (lastPut now key used ([] : List (String × V))) :=
  ⟨hc, h⟩

end Cache

/-! ## Requests and runs -/

namespace Session

variable {V C W : Type} {m : Moment V C W} {s : Session V C W} {key : String}
  {used : Option Instant}

theorem marked_look (h : s.cache.MarkedAt key used) (hc : s.cache.Linked) (other : String) :
    (look m other s).2.cache.MarkedAt key
      (if (Cache.Request.look other).hits m s key then some m.now
        else lastPut m.now key used (log m (s.lookSteps m other))) := by
  simp only [Cache.Request.hits, Cache.Request.read?, Cache.Request.answer?, look, lookSteps]
  cases hget : s.cache.entries.get? other with
  | none => simpa [log, lastPut] using h
  | some slot =>
    by_cases hlive : slot.isLive s.cache.epoch m.now s.scene.signals = true
    · simpa [hlive, log, lastPut] using h.touch m.now other
    · simpa [hlive] using
        ((Cache.recorded_marked m.now key used).purge (m := m) (h.start hc m.now)).2

/-- **A request marks what it uses.** -/
theorem marked_perform (h : s.cache.MarkedAt key used) (hc : s.cache.Linked)
    (r : Cache.Request V C) :
    (r.perform m s).cache.MarkedAt key
      (if r.hits m s key then some m.now else lastPut m.now key used (r.log m s)) := by
  have k : Cache.Recorded m.now fun (c : Cache V C) log =>
      c.Linked ∧ c.MarkedAt key (lastPut m.now key used log) := Cache.recorded_marked m.now key used
  have hother (hget : ∀ key, r ≠ .get key) (hlook : ∀ key, r ≠ .look key) :=
    (k.perform (m := m) (s := s) (h.start hc m.now) hget hlook).2
  cases r with
  | get other =>
    have hmaintained := (k.maintain (m := m) (s := s) (h.start hc m.now)).2
    rw [List.append_nil] at hmaintained
    have hlooked := marked_look (m := m) hmaintained ((kept_linked m).maintain hc) other
    simp only [Cache.Request.log, Cache.Request.allSteps, Cache.Request.ownLog, List.append_nil]
    rw [log_append, lastPut_append]
    exact hlooked
  | look other =>
    simp only [Cache.Request.log, Cache.Request.allSteps, Cache.Request.ownLog, List.append_nil]
    exact marked_look h hc other
  | insert | insertIfAbsent | remove | purge | clear =>
    have hdone := hother (by simp) (by simp)
    rw [List.append_nil] at hdone
    exact hdone

end Session

namespace Commons

variable {ι V C W : Type} [DecidableEq ι]

theorem marked_step (decide : Decisions V C W) (i : ι) {key : String} {σ : Commons ι V C W}
    {used : Option Instant} (h : (σ.caches i).MarkedAt key used) (hc : ∀ j, (σ.caches j).Linked)
    (move : Move ι V C W) :
    ((σ.step decide move).caches i).MarkedAt key (σ.moveUse decide i key used move) := by
  -- Only the cache that a move is about changes.
  have hafter : ∀ (j : ι) (s : Session V C W) (hit : Bool) (new : List (String × V)),
      (j = i → s.cache.MarkedAt key (if hit then some σ.now else lastPut σ.now key used new)) →
      ((σ.after j s).caches i).MarkedAt key (if (if j = i then hit else false) then some σ.now
        else lastPut σ.now key used (if j = i then new else [])) := by
    intro j s hit new hs
    rw [caches_after]
    by_cases hj : j = i
    · rw [if_pos hj.symm, if_pos hj, if_pos hj]
      exact hs hj
    · rw [if_neg (Ne.symm hj), if_neg hj, if_neg hj]
      exact h
  have hmarked := Cache.recorded_marked (V := V) (C := C) σ.now key used
  cases move with
  | perform j r =>
    refine hafter j _ (r.hits (σ.moment decide) (σ.session j) key) _ fun hj => ?_
    subst hj
    exact Session.marked_perform (m := σ.moment decide) h (hc j) r
  | begin j r =>
    have hbegun := hafter j (r.begin (σ.moment decide) (σ.session j)).1 false
      (r.ownLog (σ.moment decide) (σ.session j)) fun hj => by
        subst hj
        have hown := (hmarked.begin (m := σ.moment decide) (s := σ.session j)
          (h.start (hc j) σ.now) r).2
        rwa [List.append_nil] at hown
    rw [ite_self] at hbegun
    exact hbegun
  | attend =>
    rcases htasks : σ.tasks with _ | ⟨⟨j, task⟩, tasks⟩
    · simpa [step, moveUse, moveHits, moveLog, htasks, lastPut] using h
    · have hattended := hafter j ((σ.session j).attend (σ.moment decide) task).1 false
        (Session.Step.log (σ.moment decide) ⟨σ.session j, task⟩) fun hj => by
          subst hj
          have hown := (hmarked.attend (m := σ.moment decide) (s := σ.session j)
            (h.start (hc j) σ.now) task).2
          rwa [List.append_nil] at hown
      rw [ite_self] at hattended
      rw [step_attend decide htasks]
      simp only [moveUse, moveHits, moveLog, htasks]
      exact hattended
  | fire | issueToken | advance | change => exact h

/-- **The mark of an entry is the millisecond of its last use**, at every moment of every run. -/
theorem marked_run (decide : Decisions V C W) (i : ι) {key : String} {σ : Commons ι V C W}
    {used : Option Instant} (h : (σ.caches i).MarkedAt key used) (hc : ∀ j, (σ.caches j).Linked)
    (moves : List (Move ι V C W)) :
    ((σ.run decide moves).caches i).MarkedAt key (σ.lastUse decide i key used moves) := by
  induction moves generalizing σ used with
  | nil => exact h
  | cons move moves ih =>
    exact ih (marked_step decide i h hc move) (linked_step decide σ move hc)

end Commons

end Templating
