import Templating.Proofs.Engine.Likewise

/-!
# Engines that share a cache stay apart

Whatever the engines of a house do, and in whatever order, each is answered as it would be with a
cache of its own, and it makes the same calls (`House.engines_stay_apart`). Beside the house that an
engine shares another is run in which only its own errands are done, at the same times. These do the
same in both houses. An errand of another engine is done only in the shared house, with the purges
that come of it, and this engine cannot tell that from nothing being done.
-/

namespace Templating.House

variable {ι : Type} [DecidableEq ι] {spaces : ι ↪ { k : KeySpace // k.ColonFree }} {i j : ι}
  {σ own : House ι}

variable (spaces) in
/-- The engine cannot tell the house it shares from the one where it is alone. -/
structure Unaware (i : ι) (σ own : House ι) : Prop where
  now : own.now = σ.now
  alike : Alike spaces i σ.now σ.session [] σ.session own.session
  engine : own.engines i = σ.engines i
  resident : ∀ e, σ.engines i = some e → Resident spaces i e
  answers : own.answers i = σ.answers i

omit [DecidableEq ι] in
theorem sound_start (flag : Flag) (epoch now : Instant) (files : ι → List (String × String)) :
    Sound spaces now (start flag epoch now files).session where
  linked := .dropAll { epoch, flag }
  stored _ _ hget := nomatch hget
  pending := nofun
  watchful := .dropAll { epoch, flag } _ _
  silent _ _ hget := nomatch hget
  push _ := rfl
  kept _ := rfl
  unique _ _ _ _ _ hmem := nomatch hmem
  unfired _ _ _ hmem := nomatch hmem
  issued _ _ _ hmem := nomatch hmem
  past _ hfired := nomatch hfired

theorem unaware_start (flag : Flag) (epoch now : Instant) (files : ι → List (String × String)) :
    Unaware spaces i (start flag epoch now files) (start flag epoch now files) where
  now := rfl
  alike := .refl (sound_start ..)
  engine := rfl
  resident _ h := nomatch h
  answers := rfl

namespace Unaware

variable (h : Unaware spaces i σ own)

include h

/-- The engine does an errand in both houses. -/
theorem own_errand (errand : Errand) :
    Unaware spaces i (step spaces σ (.errand i errand)) (step spaces own (.errand i errand)) := by
  obtain ⟨hsame, halike⟩ := same_perform h.resident errand σ.session own.session h.alike
  have hresident : ∀ e, (perform i (spaces i).1 σ.now (σ.engines i) errand σ.session).1.2 = some e →
      Resident spaces i e := resident_perform h.resident errand σ.session
  simp only [step, h.now, h.engine, h.answers, ← hsame]
  refine ⟨rfl, { halike with beside := .refl halike.beside.sound }, ?_, ?_, ?_⟩
  · simp
  · simpa using hresident
  · simp

/-- Another engine does an errand in the shared house. -/
theorem other_errand (hj : i ≠ j) (hresident : ∀ e, σ.engines j = some e → Resident spaces j e)
    (errand : Errand) : Unaware spaces i (step spaces σ (.errand j errand)) own := by
  have hbeside : Beside spaces j σ.now σ.session
      (perform j (spaces j).1 σ.now (σ.engines j) errand σ.session).2 :=
    (same_perform hresident errand _ _ (.refl h.alike.beside.sound)).2.beside
  have hroom := hbeside.rooms i hj
  refine ⟨h.now, ⟨.refl hbeside.sound, h.alike.sound, ?_, ?_, ?_, ?_, nofun⟩, ?_, ?_, ?_⟩
  · exact h.alike.epoch.trans hbeside.epoch.symm
  · exact h.alike.seen.trans (hbeside.others i hj).symm
  · simp only [step, hroom, h.alike.files]
  · simp only [step, hroom, h.alike.calls]
  · simpa [step, hj] using h.engine
  · simpa [step, hj] using h.resident
  · simpa [step, hj] using h.answers

/-- Time passes in both houses. -/
theorem advance (time : Duration) :
    Unaware spaces i (step spaces σ (.advance time)) (step spaces own (.advance time)) := by
  obtain ⟨hsound, hseen⟩ := h.alike.beside.sound.later time
  obtain ⟨hsound', hseen'⟩ := h.alike.sound.later time
  refine ⟨congrArg (· + time) h.now, { h.alike with
    beside := .refl hsound, sound := hsound', seen := ?_, held := nofun }, h.engine, h.resident,
    h.answers⟩
  simp only [step]
  rw [hseen, hseen', h.alike.seen, h.alike.epoch]

end Unaware

/-- **A move** is done in the shared house, and in the other one if it concerns the engine. -/
theorem unaware_step {own : ι → House ι} (h : ∀ i, Unaware spaces i σ (own i)) (move : Move ι) :
    ∀ i, Unaware spaces i (step spaces σ move)
      (if move.concerns i then step spaces (own i) move else own i) := by
  intro i
  cases move with
  | advance time => exact (h i).advance time
  | errand j errand =>
    by_cases hj : j = i
    · subst hj
      simpa [Move.concerns] using (h j).own_errand errand
    · simpa [Move.concerns, hj] using (h i).other_errand (Ne.symm hj) (h j).resident errand

/-- Any moves, one after another. -/
theorem unaware_run {own : ι → House ι} (h : ∀ i, Unaware spaces i σ (own i))
    (moves : List (Move ι)) (i : ι) : Unaware spaces i (run spaces σ moves)
      (run spaces (own i) (moves.filter (Move.concerns i))) := by
  induction moves generalizing σ own with
  | nil => exact h i
  | cons move moves ih =>
    have hrun := ih (unaware_step h move)
    rw [List.filter_cons]
    split
    · next hconcerned =>
      rw [if_pos hconcerned] at hrun
      exact hrun
    · next hspared =>
      rw [if_neg hspared] at hrun
      exact hrun

/-- **Engines that share a cache stay apart**: whatever they do over their own files, in whatever
order, each is answered as in a house where nobody else does anything, so that it has the cache for
itself, and it makes the same calls. -/
theorem engines_stay_apart (spaces : ι ↪ { k : KeySpace // k.ColonFree }) (flag : Flag)
    (epoch now : Instant) (files : ι → List (String × String)) (moves : List (Move ι)) (i : ι) :
    let shared := run spaces (start flag epoch now files) moves
    let own := run spaces (start flag epoch now files) (moves.filter (Move.concerns i))
    shared.answers i = own.answers i ∧
      (shared.session.scene.world i).calls = (own.session.scene.world i).calls := by
  intro shared own
  have h : Unaware spaces i shared own :=
    unaware_run (fun _ => unaware_start flag epoch now files) moves i
  exact ⟨h.answers.symm, h.alike.calls.symm⟩

end Templating.House
