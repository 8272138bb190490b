import Templating.Proofs.Signal
import Templating.Proofs.Source.Listing

/-!
# What a change of a file does

`Memory.Changed q before after` says what a write or a removal at `q` may do to a scene: nothing
happens at other paths, and of those who watch, the tokens of all that the change concerns have
fired, while the others watch on.
-/

namespace Templating

/-! ## What a path covers -/

theorem covers_iff_startsWith {folder path : String} (h : EndsInSlash folder) :
    covers folder path = true ↔ Text.startsWith folder path = true := by
  obtain ⟨stem, hstem⟩ := h
  have hlast : (folder.toList.getLast? == some '/') = true := by
    rw [hstem, List.getLast?_concat]
    rfl
  unfold covers
  rw [hlast, Bool.true_and, Bool.or_eq_true, or_iff_right_iff_imp]
  intro heq
  rw [eq_of_beq heq]
  exact Text.startsWith_iff.2 List.prefix_rfl

/-- A path that is not written as a folder covers itself alone. -/
theorem covers_iff_eq {watched path : String} (h : ¬EndsInSlash watched) :
    covers watched path = true ↔ watched = path := by
  have hlast : (watched.toList.getLast? == some '/') = false := by
    refine Bool.eq_false_iff.2 fun heq => h ?_
    obtain ⟨stem, hstem⟩ := List.getLast?_eq_some_iff.1 (eq_of_beq heq)
    exact ⟨stem, hstem⟩
  unfold covers
  rw [hlast, Bool.false_and, Bool.or_false, beq_iff_eq]

/-- What a path covers starts with it. -/
theorem startsWith_of_covers {watched path : String} (h : covers watched path = true) :
    Text.startsWith watched path = true := by
  rcases Bool.or_eq_true_iff.1 h with heq | hfolder
  · rw [eq_of_beq heq]
    exact Text.startsWith_iff.2 List.prefix_rfl
  · exact (Bool.and_eq_true_iff.1 hfolder).2

theorem Text.startsWith_trans {a b c : String} (hab : Text.startsWith a b = true)
    (hbc : Text.startsWith b c = true) : Text.startsWith a c = true :=
  startsWith_iff.2 ((startsWith_iff.1 hab).trans (startsWith_iff.1 hbc))

/-! ## Changes -/

namespace Memory

theorem attended_of_no_orphans {m : Memory} (h : m.orphans = []) : m.attended = m.watchers := by
  unfold attended
  rw [h]
  exact List.filter_eq_self.2 fun _ _ => rfl

/-- To hand out a token takes nothing from those who still have theirs. -/
theorem attended_watch {scene : Scene Memory} (h : scene.world.push = true) (path : String) :
    (watch path scene).2.world.attended =
      (path, scene.signals.issueToken.1) :: scene.world.attended := by
  unfold watch
  rw [if_pos h]
  exact attended_of_no_orphans rfl

structure Changed (q : String) (before after : Scene Memory) : Prop where
  leads : before.signals.Leads after.signals
  told : ∀ w ∈ before.world.attended, covers w.1 q = true → after.signals.hasFired w.2 = true
  kept : ∀ w ∈ before.world.attended, covers w.1 q = false → w ∈ after.world.attended
  elsewhere : ∀ p, p ≠ q → after.world.files.lookup p = before.world.files.lookup p
  ascending : Sorted.Ascending before.world.files → Sorted.Ascending after.world.files
  push : after.world.push = before.world.push
  journal : after.journal = before.journal
  serial : after.serial = before.serial

theorem notify_eq (q : String) (scene : Scene Memory) :
    (notify q scene).2 =
      { scene with
        signals := ((scene.world.watchers.filter fun w => covers w.1 q).map Prod.snd).foldl
          Signals.fire scene.signals
        world.watchers := scene.world.watchers.filter fun w => !covers w.1 q } := by
  have hpartition : scene.world.watchers.partition (fun w => covers w.1 q) =
      (scene.world.watchers.filter fun w => covers w.1 q,
        scene.world.watchers.filter fun w => !covers w.1 q) :=
    List.partition_eq_filter_filter
  rw [List.foldl_map]
  simp only [notify, modify, modifyGet, MonadStateOf.modifyGet, StateT.modifyGet, pure, hpartition]

theorem attended_notify (q : String) (scene : Scene Memory) :
    (notify q scene).2.world.attended = scene.world.attended.filter fun w => !covers w.1 q := by
  rw [notify_eq]
  exact List.filter_comm ..

/-- To change the files at one path and then to notify is a change. -/
theorem changed_notify {q : String} {scene : Scene Memory} {files : List (String × String)}
    (helsewhere : ∀ p, p ≠ q → files.lookup p = scene.world.files.lookup p)
    (hascending : Sorted.Ascending scene.world.files → Sorted.Ascending files) :
    Changed q scene (notify q { scene with world.files := files }).2 := by
  have hattended := attended_notify q { scene with world.files := files }
  revert hattended
  rw [notify_eq]
  intro hattended
  refine ⟨Signals.leads_foldl_fire .., ?_, ?_, helsewhere, hascending, rfl, rfl, rfl⟩
  · intro w hw hcovers
    refine (Signals.hasFired_foldl_fire ..).2 (.inl (List.mem_map_of_mem ?_))
    exact List.mem_filter.2 ⟨List.mem_of_mem_filter hw, hcovers⟩
  · intro w hw hnot
    rw [hattended]
    exact List.mem_filter.2 ⟨hw, by rw [hnot]; rfl⟩

theorem changed_write (q content : String) (scene : Scene Memory) :
    Changed q scene (write q content scene).2 := by
  refine changed_notify (fun p hne => ?_) fun h => h.put q content
  rw [Sorted.lookup_put, if_neg hne]

theorem lookup_write (q content : String) (scene : Scene Memory) (p : String) :
    (write q content scene).2.world.files.lookup p =
      if p = q then some content else scene.world.files.lookup p :=
  Sorted.lookup_put ..

theorem remove_absent {q : String} {scene : Scene Memory}
    (h : (scene.world.files.lookup q).isSome = false) : remove q scene = (false, scene) := by
  simp only [remove, bind, StateT.bind, get, getThe, MonadStateOf.get, StateT.get, pure, h]
  rfl

theorem remove_present {q : String} {scene : Scene Memory}
    (h : (scene.world.files.lookup q).isSome = true) :
    remove q scene =
      (true, (notify q { scene with
        world.files := scene.world.files.filter fun f => f.1 != q }).2) := by
  simp only [remove, bind, StateT.bind, get, getThe, MonadStateOf.get, StateT.get, pure, h]
  rfl

theorem lookup_filter_ne (files : List (String × String)) (q p : String) :
    (files.filter fun f => f.1 != q).lookup p = if p = q then none else files.lookup p := by
  rw [lookup_filter_key files (fun k => k != q)]
  by_cases h : p = q
  · rw [if_pos h, if_neg (by simpa using h)]
  · rw [if_neg h, if_pos (bne_iff_ne.2 h)]

theorem changed_remove_present {q : String} {scene : Scene Memory}
    (h : (scene.world.files.lookup q).isSome = true) : Changed q scene (remove q scene).2 := by
  rw [remove_present h]
  refine changed_notify (fun p hne => ?_) fun h => h.filter _
  rw [lookup_filter_ne, if_neg hne]

theorem lookup_remove (q : String) (scene : Scene Memory) (p : String) :
    (remove q scene).2.world.files.lookup p =
      if p = q then none else scene.world.files.lookup p := by
  cases hfile : scene.world.files.lookup q with
  | none =>
    rw [remove_absent (by rw [hfile]; rfl)]
    split
    · next heq => rw [heq, hfile]
    · rfl
  | some content =>
    rw [remove_present (by rw [hfile]; rfl), notify_eq]
    exact lookup_filter_ne ..

theorem lookup_of_remove {q : String} {scene : Scene Memory} {p content : String}
    (h : (remove q scene).2.world.files.lookup p = some content) :
    scene.world.files.lookup p = some content := by
  rw [lookup_remove] at h
  split at h
  · cases h
  · exact h

end Memory

end Templating
