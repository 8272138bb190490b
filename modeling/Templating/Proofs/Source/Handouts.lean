import Templating.Proofs.Source.Hearing

/-!
# What a token in hand says

A store of files in memory is written to, asked for tokens, and relieved of those that were let go
of, in any order (`Memory.Deed`). `Memory.told_iff_changed`: every token is one of its own, a store
that does not push hands out none, and a token that was not let go of has fired if and only if a
file that its path concerns was changed since. A single deed fires what it concerns and takes no
watch from a token in hand (`Memory.Deed.hasFired_iff`, `Memory.Deed.hears`).
-/

namespace Templating.Memory

/-! ## Deeds -/

inductive Deed
  | write (path content : String)
  | remove (path : String)
  | watch (path : String)
  /-- A token is let go of. -/
  | release (t : Token)

namespace Deed

def perform : Deed → Scene Memory → Scene Memory
  | .write path content, scene => (Memory.write path content scene).2
  | .remove path, scene => (Memory.remove path scene).2
  | .watch path, scene => (Memory.watch path scene).2
  | .release t, scene => (Memory.release t scene).2

/-- The path at which a deed changes a file, if it does. To remove what is not there changes
nothing. -/
def change? : Deed → Scene Memory → Option String
  | .write path _, _ => some path
  | .remove path, scene => if (scene.world.files.lookup path).isSome then some path else none
  | .watch _, _ => none
  | .release _, _ => none

/-- The path that a token is asked for. -/
def asks? : Deed → Option String
  | .watch path => some path
  | _ => none

/-- The token that is handed out, and for which path. -/
def handout? : Deed → Scene Memory → Option (String × Token)
  | .watch path, scene => (Memory.watch path scene).1.map (path, ·)
  | _, _ => none

end Deed

def run (scene : Scene Memory) (deeds : List Deed) : Scene Memory :=
  deeds.foldl (fun scene deed => deed.perform scene) scene

/-- The paths at which files are changed, one after the other. -/
def changes (scene : Scene Memory) : List Deed → List String
  | [] => []
  | deed :: rest => (deed.change? scene).toList ++ changes (deed.perform scene) rest

/-- The tokens that are handed out, one after the other. -/
def handouts (scene : Scene Memory) : List Deed → List (String × Token)
  | [] => []
  | deed :: rest => (deed.handout? scene).toList ++ handouts (deed.perform scene) rest

/-- Whether a change at `path` is one of `watched`: the same path, or a folder, written with its
slash, that it is in. -/
def IsWithin (watched path : String) : Prop :=
  path = watched ∨ EndsInSlash watched ∧ watched.toList <+: path.toList

theorem covers_iff_isWithin {watched path : String} :
    covers watched path = true ↔ IsWithin watched path := by
  by_cases h : EndsInSlash watched
  · rw [covers_iff_startsWith h, Text.startsWith_iff]
    exact ⟨fun hprefix => .inr ⟨h, hprefix⟩, fun hwithin =>
      hwithin.elim (fun heq => heq ▸ List.prefix_rfl) And.right⟩
  · rw [covers_iff_eq h]
    exact ⟨fun heq => .inl heq.symm, fun hwithin =>
      hwithin.elim Eq.symm fun hfolder => absurd hfolder.1 h⟩

/-! ## One deed -/

variable {scene : Scene Memory} {path : String} {t : Token}

/-- The tokens of those who watch, and those that have fired, were handed out. -/
structure InOrder (scene : Scene Memory) : Prop extends Unshared scene where
  past : ∀ t, scene.signals.hasFired t = true → t.id < scene.signals.issued

theorem issued_watch (hpush : scene.world.push = true) (path : String) :
    (watch path scene).1 = some ⟨scene.signals.issued⟩ ∧
      (watch path scene).2.signals.issued = scene.signals.issued + 1 := by
  unfold watch
  rw [if_pos hpush]
  exact ⟨rfl, rfl⟩

theorem inOrder_watch (h : InOrder scene) (path : String) : InOrder (watch path scene).2 := by
  refine ⟨(onward_watch path scene).unshared h.toUnshared, fun t ht => ?_⟩
  rw [(undisturbed_watch path scene).fired] at ht
  refine Nat.lt_of_lt_of_le (h.past t ht) ?_
  unfold watch
  split
  · exact Nat.le_succ _
  · exact Nat.le_refl _

theorem hears_release {u : Token} (hne : t ≠ u) (h : Hears scene path t) :
    Hears (release u scene).2 path t := by
  refine h.imp_right fun hw => ?_
  obtain ⟨hw, hkept⟩ := List.mem_filter.1 hw
  refine List.mem_filter.2 ⟨hw, ?_⟩
  change (!(u :: scene.world.orphans).contains t) = true
  simpa [hne] using hkept

namespace Altered

variable {before after : Scene Memory} (h : Altered path before after)

include h

theorem issued : after.signals.issued = before.signals.issued := by
  obtain ⟨files, rfl⟩ := h
  rw [notify_eq]
  exact Signals.issued_foldl_fire ..

/-- A change fires the token in hand if it is within what is watched. -/
theorem hasFired_iff_within (hu : Unshared before) {watched : String}
    (hears : Hears before watched t) :
    after.signals.hasFired t = true ↔ before.signals.hasFired t = true ∨ IsWithin watched path := by
  cases hfired : before.signals.hasFired t with
  | true => exact iff_of_true (h.hasFired_iff.2 (.inl hfired)) (.inl rfl)
  | false =>
    rw [h.hasFired_iff_covers hu hfired hears, covers_iff_isWithin,
      or_iff_right Bool.false_ne_true]

theorem inOrder (ho : InOrder before) : InOrder after where
  toUnshared := h.onward.unshared ho.toUnshared
  past u hu := by
    rw [h.issued]
    rcases h.hasFired_iff.1 hu with hfired | ⟨watched, hw, -⟩
    · exact ho.past u hfired
    · exact ho.issued _ hw

end Altered

namespace Deed

/-- What a deed may do: it changes files at one path and tells those who watch, it does nothing, or
it is about a token and leaves files alone. -/
theorem perform_cases (deed : Deed) (scene : Scene Memory) :
    (∃ path, deed.change? scene = some path ∧ Altered path scene (deed.perform scene)) ∨
      (deed.change? scene = none ∧ deed.perform scene = scene) ∨
      (∃ path, deed = .watch path) ∨ ∃ u, deed = .release u := by
  cases deed with
  | write path content => exact .inl ⟨path, rfl, altered_write path content scene⟩
  | remove path =>
    cases hfile : (scene.world.files.lookup path).isSome with
    | true => exact .inl ⟨path, if_pos hfile, altered_remove hfile⟩
    | false =>
      refine .inr (.inl ⟨if_neg (by rw [hfile]; exact Bool.false_ne_true), ?_⟩)
      simp only [perform, remove_absent hfile]
  | watch path => exact .inr (.inr (.inl ⟨path, rfl⟩))
  | release u => exact .inr (.inr (.inr ⟨u, rfl⟩))

theorem push_perform (deed : Deed) (scene : Scene Memory) :
    (deed.perform scene).world.push = scene.world.push := by
  rcases deed.perform_cases scene with ⟨path, -, haltered⟩ | ⟨-, heq⟩ | ⟨path, rfl⟩ | ⟨u, rfl⟩
  · exact haltered.onward.push
  · rw [heq]
  · exact (onward_watch path scene).push
  · rfl

theorem inOrder (deed : Deed) (h : InOrder scene) : InOrder (deed.perform scene) := by
  rcases deed.perform_cases scene with ⟨path, -, haltered⟩ | ⟨-, heq⟩ | ⟨path, rfl⟩ | ⟨u, rfl⟩
  · exact haltered.inOrder h
  · rwa [heq]
  · exact inOrder_watch h path
  · exact ⟨⟨h.issued, h.path⟩, h.past⟩

/-- No deed but letting go of it takes its watch from a token. -/
theorem hears {deed : Deed} (hkept : deed ≠ .release t) (h : Hears scene path t) :
    Hears (deed.perform scene) path t := by
  rcases deed.perform_cases scene with ⟨other, -, haltered⟩ | ⟨-, heq⟩ | ⟨other, rfl⟩ | ⟨u, rfl⟩
  · exact haltered.onward.hears path t h
  · rwa [heq]
  · exact (onward_watch other scene).hears path t h
  · exact hears_release (fun heq => hkept (heq ▸ rfl)) h

/-- **A deed fires the token in hand** if it changes a file within what is watched. -/
theorem hasFired_iff (deed : Deed) (hu : Unshared scene) (h : Hears scene path t) :
    (deed.perform scene).signals.hasFired t = true ↔ scene.signals.hasFired t = true ∨
      ∃ p ∈ (deed.change? scene).toList, IsWithin path p := by
  rcases deed.perform_cases scene with
    ⟨other, hchange, haltered⟩ | ⟨hchange, heq⟩ | ⟨other, rfl⟩ | ⟨u, rfl⟩
  · rw [haltered.hasFired_iff_within hu h, hchange]
    simp
  · rw [hchange, heq]
    simp
  · change (Memory.watch other scene).2.signals.hasFired t = true ↔ _
    rw [(undisturbed_watch other scene).fired]
    simp [change?]
  · change scene.signals.hasFired t = true ↔ _
    simp [change?]

/-- A token that is handed out is the next one. -/
theorem handout_next {deed : Deed} {w : String × Token} (h : deed.handout? scene = some w) :
    w.2.id = scene.signals.issued ∧ (deed.perform scene).signals.issued = w.2.id + 1 := by
  cases deed with
  | watch path =>
    obtain ⟨u, hu, rfl⟩ := Option.map_eq_some_iff.1 h
    have hpush : scene.world.push = true := by
      by_contra hnot
      rw [watch_of_not_push (Bool.eq_false_iff.2 hnot)] at hu
      cases hu
    obtain ⟨htoken, hissued⟩ := issued_watch hpush path
    rw [hu] at htoken
    cases htoken
    exact ⟨rfl, hissued⟩
  | write | remove | release => cases h

theorem issued_le (deed : Deed) (scene : Scene Memory) :
    scene.signals.issued ≤ (deed.perform scene).signals.issued := by
  rcases deed.perform_cases scene with ⟨path, -, haltered⟩ | ⟨-, heq⟩ | ⟨path, rfl⟩ | ⟨u, rfl⟩
  · exact Nat.le_of_eq haltered.issued.symm
  · rw [heq]
  · unfold perform Memory.watch
    simp only
    split
    · exact Nat.le_succ _
    · exact Nat.le_refl _
  · exact Nat.le_refl _

end Deed

/-! ## Runs -/

theorem run_append (before after : List Deed) :
    run scene (before ++ after) = run (run scene before) after :=
  List.foldl_append

theorem inOrder_run (deeds : List Deed) (h : InOrder scene) : InOrder (run scene deeds) := by
  induction deeds generalizing scene with
  | nil => exact h
  | cons deed deeds ih => exact ih (deed.inOrder h)

/-- A token that stays in hand fires when a file within what is watched is changed, and at no other
time. -/
theorem hasFired_run (deeds : List Deed) (ho : InOrder scene) (h : Hears scene path t)
    (hkept : .release t ∉ deeds) :
    (run scene deeds).signals.hasFired t = true ↔
      scene.signals.hasFired t = true ∨ ∃ p ∈ changes scene deeds, IsWithin path p := by
  induction deeds generalizing scene with
  | nil => simp [run, changes]
  | cons deed deeds ih =>
    obtain ⟨hne, hkept⟩ := List.ne_and_not_mem_of_not_mem_cons hkept
    change (run (deed.perform scene) deeds).signals.hasFired t = true ↔ _
    rw [ih (deed.inOrder ho) (Deed.hears hne.symm h) hkept, deed.hasFired_iff ho.toUnshared h,
      or_assoc]
    simp only [changes, List.mem_append, or_and_right, exists_or]

/-- Tokens are handed out in ascending order of their numbers. -/
theorem issued_handouts (deeds : List Deed) :
    (∀ w ∈ handouts scene deeds, scene.signals.issued ≤ w.2.id) ∧
      ((handouts scene deeds).map Prod.snd).Nodup := by
  induction deeds generalizing scene with
  | nil => exact ⟨nofun, List.nodup_nil⟩
  | cons deed deeds ih =>
    obtain ⟨hlater, hnodup⟩ := @ih (deed.perform scene)
    have hle := deed.issued_le scene
    unfold handouts
    cases hout : deed.handout? scene with
    | none => exact ⟨fun w hw => Nat.le_trans hle (hlater w hw), hnodup⟩
    | some first =>
      obtain ⟨hid, hissued⟩ := Deed.handout_next hout
      refine ⟨fun w hw => ?_, List.nodup_cons.2 ⟨fun hmem => ?_, hnodup⟩⟩
      · rcases List.mem_cons.1 hw with rfl | hw
        · exact Nat.le_of_eq hid.symm
        · exact Nat.le_trans hle (hlater w hw)
      · obtain ⟨w, hw, heq⟩ := List.mem_map.1 hmem
        have hfresh := hlater w hw
        rw [hissued, heq] at hfresh
        exact Nat.lt_irrefl _ hfresh

theorem paths_handouts (deeds : List Deed) :
    (handouts scene deeds).map Prod.fst =
      if scene.world.push then deeds.filterMap Deed.asks? else [] := by
  induction deeds generalizing scene with
  | nil => exact (ite_self _).symm
  | cons deed deeds ih =>
    have hrest := @ih (deed.perform scene)
    rw [deed.push_perform] at hrest
    simp only [handouts, List.map_append, hrest]
    cases hpush : scene.world.push with
    | true =>
      cases deed with
      | watch path => simp [Deed.handout?, Deed.asks?, (issued_watch hpush path).1]
      | write | remove | release => rfl
    | false =>
      cases deed with
      | watch path => simp [Deed.handout?, watch_of_not_push hpush]
      | write | remove | release => rfl

/-- **A token in hand has fired if and only if a file within what it watches was changed** since it
was handed out, no token is handed out twice, and a store that does not push hands out none. -/
theorem told_iff_changed (push : Bool) (deeds : List Deed) :
    let start : Scene Memory := { world := { push } }
    ((handouts start deeds).map Prod.snd).Nodup ∧
      (handouts start deeds).map Prod.fst =
        (if push then deeds.filterMap Deed.asks? else []) ∧
      ∀ before path since t, deeds = before ++ .watch path :: since →
        (watch path (run start before)).1 = some t → .release t ∉ since →
        ((run start deeds).signals.hasFired t = true ↔
          ∃ p ∈ changes (run start (before ++ [.watch path])) since, IsWithin path p) := by
  intro start
  have hstart : InOrder start := ⟨⟨nofun, nofun⟩, nofun⟩
  refine ⟨(issued_handouts deeds).2, paths_handouts deeds, ?_⟩
  rintro before path since t rfl ht hkept
  have ho := inOrder_run before hstart
  have hpush : (run start before).world.push = true := by
    by_contra hnot
    rw [watch_of_not_push (Bool.eq_false_iff.2 hnot)] at ht
    cases ht
  obtain ⟨u, hu, hears⟩ := hears_watch hpush path
  obtain rfl : u = t := Option.some.inj (hu.symm.trans ht)
  -- The token is the next one, and those that have fired were handed out before.
  have hfresh : (watch path (run start before)).2.signals.hasFired u = false := by
    rw [(undisturbed_watch path _).fired, Bool.eq_false_iff]
    intro hfired
    have hlt := ho.past u hfired
    rw [(issued_watch hpush path).1] at hu
    cases hu
    exact Nat.lt_irrefl _ hlt
  have hsplit : run start (before ++ [.watch path]) = (watch path (run start before)).2 :=
    run_append before [.watch path]
  have hrun := hasFired_run since (inOrder_watch ho path) hears hkept
  rw [hfresh, or_iff_right Bool.false_ne_true] at hrun
  rw [hsplit, ← hrun, run_append]
  rfl

/-- A token is handed out when one was let go of and another is still in hand; then files beside it
are changed before its own is. -/
theorem told_iff_changed_pruned :
    let start : Scene Memory := { world := { push := true } }
    let before : List Deed := [.watch "~/a", .watch "~/Views/", .release ⟨0⟩]
    let since : List Deed := [.write "~/Other/c" "", .remove "~/Views/b", .write "~/Views/b" ""]
    let deeds : List Deed := .watch "~/a" :: .watch "~/Views/" :: .release ⟨0⟩ ::
      .watch "~/Views/b" :: since
    (watch "~/Views/b" (run start before)).1 = some ⟨2⟩ ∧ .release ⟨2⟩ ∉ since ∧
      ((run start deeds).signals.hasFired ⟨2⟩ = true ↔
        ∃ p ∈ changes (run start (before ++ [.watch "~/Views/b"])) since,
          IsWithin "~/Views/b" p) := by
  intro start before since deeds
  have htoken : (watch "~/Views/b" (run start before)).1 = some ⟨2⟩ := rfl
  have hkept : .release ⟨2⟩ ∉ since := by simp [since]
  exact ⟨htoken, hkept,
    (told_iff_changed true deeds).2.2 before "~/Views/b" since ⟨2⟩ rfl htoken hkept⟩

end Templating.Memory
