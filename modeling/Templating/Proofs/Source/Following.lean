import Templating.Engine.Groups
import Templating.Proofs.Source.Truthful

/-!
# What looking does to a scene

What may become of a scene while an engine looks at the files is said by a relation between the
scene before and the one behind (`Act.Follows`). Events are noted and numbers taken all the time; a
relation that allows for this is a course of scenes (`Scene.Course`). What each call of a source
follows, all follows that is made of calls (`Source.Follows`): putting partials together, taking
digests, and polling.
-/

namespace Templating

variable {W α β : Type}

/-! ## Acts -/

/-- A relation between a scene and later ones that neither events nor numbers disturb. -/
structure Scene.Course (R : Scene W → Scene W → Prop) : Prop where
  refl : ∀ scene, R scene scene
  trans : ∀ a b c, R a b → R b c → R a c
  note : ∀ scene event, R scene (scene.note event)
  takeSerial : ∀ scene, R scene scene.takeSerial.2

theorem Scene.Course.and {R R' : Scene W → Scene W → Prop} (h : Scene.Course R)
    (h' : Scene.Course R') : Scene.Course fun a b => R a b ∧ R' a b where
  refl scene := ⟨h.refl scene, h'.refl scene⟩
  trans a b c hab hbc := ⟨h.trans a b c hab.1 hbc.1, h'.trans a b c hab.2 hbc.2⟩
  note scene event := ⟨h.note scene event, h'.note scene event⟩
  takeSerial scene := ⟨h.takeSerial scene, h'.takeSerial scene⟩

/-- The act leads from a scene to one that is related to it. -/
def Act.Follows (R : Scene W → Scene W → Prop) (act : Act W α) : Prop :=
  ∀ scene, R scene (act scene).2

namespace Act.Follows

variable {R : Scene W → Scene W → Prop} (course : Scene.Course R)

include course

theorem pure (a : α) : Follows R (Pure.pure a : Act W α) := course.refl

theorem bind {act : Act W α} {next : α → Act W β} (h : Follows R act)
    (hnext : ∀ a, Follows R (next a)) : Follows R (act >>= next) :=
  fun scene => course.trans _ _ _ (h scene) (hnext _ _)

theorem note (event : Event) : Follows R (modify fun scene => scene.note event) :=
  fun scene => course.note scene event

theorem filterMapM {act : α → Act W (Option β)} (h : ∀ a, Follows R (act a)) (as : List α) :
    Follows R (as.filterMapM act) := by
  induction as with
  | nil => exact pure course []
  | cons a as ih =>
    rw [List.filterMapM_cons]
    refine bind course (h a) fun b? => ?_
    cases b? with
    | none => exact ih
    | some b => exact bind course ih fun bs => pure course (b :: bs)

theorem foldlM {act : β → α → Act W β} (h : ∀ b a, Follows R (act b a)) (b : β) (as : List α) :
    Follows R (as.foldlM act b) := by
  induction as generalizing b with
  | nil => exact pure course b
  | cons a as ih =>
    rw [List.foldlM_cons]
    exact bind course (h b a) ih

end Act.Follows

/-! ## Sources -/

/-- Each call of the source leads from a scene to one that is related to it. -/
structure Source.Follows (s : Source W) (R : Scene W → Scene W → Prop) : Prop where
  isFile : ∀ path, (s.isFile path).Follows R
  isFolder : ∀ path, (s.isFolder path).Follows R
  list : ∀ path, (s.list path).Follows R
  read : ∀ path, (s.read path).Follows R
  fingerprint : ∀ path, (s.fingerprint path).Follows R
  watch : ∀ path, (s.watch path).Follows R

namespace Source.Follows

variable {s : Source W} {R : Scene W → Scene W → Prop}

theorem mono {R' : Scene W → Scene W → Prop} (h : s.Follows R) (hR : ∀ a b, R a b → R' a b) :
    s.Follows R' where
  isFile path scene := hR _ _ (h.isFile path scene)
  isFolder path scene := hR _ _ (h.isFolder path scene)
  list path scene := hR _ _ (h.list path scene)
  read path scene := hR _ _ (h.read path scene)
  fingerprint path scene := hR _ _ (h.fingerprint path scene)
  watch path scene := hR _ _ (h.watch path scene)

theorem and {R' : Scene W → Scene W → Prop} (h : s.Follows R) (h' : s.Follows R') :
    s.Follows fun a b => R a b ∧ R' a b where
  isFile path scene := ⟨h.isFile path scene, h'.isFile path scene⟩
  isFolder path scene := ⟨h.isFolder path scene, h'.isFolder path scene⟩
  list path scene := ⟨h.list path scene, h'.list path scene⟩
  read path scene := ⟨h.read path scene, h'.read path scene⟩
  fingerprint path scene := ⟨h.fingerprint path scene, h'.fingerprint path scene⟩
  watch path scene := ⟨h.watch path scene, h'.watch path scene⟩

variable (course : Scene.Course R) (k : s.Follows R)

include course k

theorem changeToken? (path : String) : (s.changeToken? path).Follows R := by
  refine Act.Follows.bind course (k.watch path) fun answer => ?_
  cases answer <;> exact .pure course _

theorem scanPartials (extension : String) (folders : List String) :
    (Templating.scanPartials s extension folders).Follows R := by
  induction folders with
  | nil => exact .pure course []
  | cons folder folders ih =>
    refine .bind course (k.isFolder folder) fun isFolder => ?_
    cases isFolder with
    | false =>
      exact .bind course (.pure course []) fun _ => .bind course ih fun _ => .pure course _
    | true =>
      exact .bind course (k.list folder) fun _ => .bind course ih fun _ => .pure course _

theorem add (extension : String) (g : Gathering) (path : String) :
    (Gathering.add s extension g path).Follows R := by
  unfold Gathering.add
  simp only
  split
  · exact .pure course _
  · refine .bind course (changeToken? course k path) fun token =>
      .bind course (k.read path) fun answer => ?_
    cases answer <;> exact .bind course (.note course _) fun _ => .pure course _

theorem gather (extension : String) (site : Template.Library) (folders : List String) :
    (Gathering.gather s extension site folders).Follows R :=
  .bind course (.filterMapM course (changeToken? course k) folders) fun _ =>
    .bind course (scanPartials course k extension folders) fun paths =>
      .foldlM course (add course k extension) _ paths

theorem fingerprints (g : Gathering) : (g.fingerprints s).Follows R := by
  refine .bind course (.filterMapM course (fun path => ?_) _) fun _ => .pure course _
  refine .bind course (k.fingerprint path) fun answer => ?_
  cases answer <;> exact .pure course _

theorem compare (snap : Snapshot) (known ignored : Nat) (paths : List String) :
    (snap.compare s known ignored paths).Follows R := by
  induction paths generalizing known ignored with
  | nil => exact .pure course _
  | cons path paths ih =>
    unfold Snapshot.compare
    split
    · refine .bind course (k.fingerprint path) fun answer => ?_
      cases answer with
      | error _ => exact .pure course _
      | ok current =>
        simp only
        split
        · exact ih _ _
        · exact .pure course _
    · split
      · exact ih _ _
      · exact .pure course _

theorem isUnchanged (snap : Snapshot) (extension : String) :
    (snap.isUnchanged s extension).Follows R :=
  .bind course (scanPartials course k extension _) fun paths =>
    .bind course (compare course k snap 0 0 paths) fun _ => .pure course _

end Source.Follows

theorem Poller.follows_decide {p : Poller W} {R : Scene W → Scene W → Prop}
    (course : Scene.Course R) (h : p.source.Follows R) (now : Instant) (key : String)
    (value : Entry) (reason : Reason) : ((moment now).decide p key value reason).Follows R := by
  cases value with
  | poll snap =>
    cases reason with
    | dependencyChanged => exact .bind course (.note course _) fun _ => .pure course _
    | expired =>
      refine .bind course (h.isUnchanged course snap p.extension) fun same => ?_
      cases same <;> exact .bind course (.note course _) fun _ => .pure course _
  | global | config | compiled | missing => exact .pure course _

/-! ## Courses of scenes -/

/-- The world stays one with `Q`. -/
theorem Scene.course_world (Q : W → Prop) :
    Scene.Course fun a b : Scene W => Q a.world → Q b.world :=
  ⟨fun _ h => h, fun _ _ _ h h' ha => h' (h ha), fun _ _ h => h, fun _ h => h⟩

/-- A source that keeps a property of the world follows it. -/
theorem Source.Keeps.follows {s : Source W} {Q : W → Prop} (k : s.Keeps Q) :
    s.Follows fun a b => Q a.world → Q b.world :=
  ⟨k.isFile, k.isFolder, k.list, k.read, k.fingerprint, k.watch⟩

/-- No flag is lowered. -/
theorem Scene.course_leads : Scene.Course fun a b : Scene W => a.signals.Leads b.signals :=
  ⟨fun _ => .refl _, fun _ _ _ => Signals.Leads.trans, fun _ _ => .refl _, fun _ => .refl _⟩

/-- While the world is one with `Q` it stays so, and no token fires. -/
def Scene.Still (Q : W → Prop) (before after : Scene W) : Prop :=
  Q before.world → Q after.world ∧ after.signals.fired = before.signals.fired

theorem Scene.course_still (Q : W → Prop) : Scene.Course (Scene.Still Q) where
  refl _ h := ⟨h, rfl⟩
  trans _ _ _ h h' ha :=
    have hb := h ha
    have hc := h' hb.1
    ⟨hc.1, hc.2.trans hb.2⟩
  note _ _ h := ⟨h, rfl⟩
  takeSerial _ h := ⟨h, rfl⟩

end Templating
