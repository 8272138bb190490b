import Templating.Proofs.Cache.Standing
import Templating.Proofs.Engine.Plain
import Templating.Proofs.Source.Following

/-!
# Tokens that are handed out

A source hands out a token for every path or for none, and one that it hands out has not fired
before (`Source.Issues`). This may be so in some scenes only, as long as the calls of the source
lead from one of them to another. So the tokens that partials are gathered with have not fired
before, if none fires meanwhile (`Source.Issues.not_mem_gather`).
-/

namespace Templating

variable {W : Type}

/-- In scenes with `S` the source hands out a token for every path or for none, as `push` says, and
one that it hands out has not fired. Its calls lead from such scenes to such scenes. -/
structure Source.Issues (s : Source W) (S : Scene W → Prop) (push : Bool) : Prop where
  steadfast : Session.Steadfast S
  follows : s.Follows fun a b => S a → S b
  pushes : ∀ path scene, S scene → (s.changeToken? path scene).1.isSome = push
  fresh : ∀ path scene t, S scene → (s.changeToken? path scene).1 = some t →
    scene.signals.hasFired t = false

/-- What holds of scenes steadfastly is disturbed neither by events nor by numbers. -/
theorem Session.Steadfast.course {S : Scene W → Prop} (h : Session.Steadfast S) :
    Scene.Course fun a b : Scene W => S a → S b where
  refl _ ha := ha
  trans _ _ _ h h' ha := h' (h ha)
  note scene event := h scene (scene.note event) rfl rfl rfl
  takeSerial scene := h scene scene.takeSerial.2 rfl rfl rfl

/-! ## Tokens of partials -/

namespace Source

section Gather

variable {s : Source W} {R : Scene W → Scene W → Prop} (course : Scene.Course R)
  (h : s.Follows R) {start : Scene W} {V : Token → Prop}
  (hV : ∀ path scene t, R start scene → (s.changeToken? path scene).1 = some t → V t)

include hV in
theorem tokens_add (extension path : String) {g : Gathering} {scene : Scene W}
    (hscene : R start scene) (hg : ∀ t ∈ g.tokens, V t) :
    ∀ t ∈ (Gathering.add s extension g path scene).1.tokens, V t := by
  unfold Gathering.add
  simp only
  split
  · exact hg
  · exact List.forall_mem_append.2
      ⟨hg, fun t ht => hV path scene t hscene (Option.mem_toList.1 ht)⟩

include course h hV

theorem tokens_filterMapM (folders : List String) {scene : Scene W} (hscene : R start scene) :
    ∀ t ∈ (folders.filterMapM s.changeToken? scene).1, V t := by
  induction folders generalizing scene with
  | nil => exact List.forall_mem_nil _
  | cons folder folders ih =>
    have hfirst := hV folder scene
    have hnext := course.trans _ _ _ hscene (h.changeToken? course folder scene)
    rw [List.filterMapM_cons, bind_apply]
    generalize s.changeToken? folder scene = answer at hfirst hnext ⊢
    obtain ⟨_ | t, next⟩ := answer
    · exact ih hnext
    · exact List.forall_mem_cons.2 ⟨hfirst t hscene rfl, ih hnext⟩

/-- **The tokens that partials are gathered with** are answers to calls made meanwhile. -/
theorem tokens_gather (extension : String) (site : Template.Library) (folders : List String) :
    ∀ t ∈ (Gathering.gather s extension site folders start).1.tokens, V t := by
  have hfold : ∀ (paths : List String) (g : Gathering) (scene : Scene W), R start scene →
      (∀ t ∈ g.tokens, V t) →
        ∀ t ∈ (paths.foldlM (Gathering.add s extension) g scene).1.tokens, V t := by
    intro paths
    induction paths with
    | nil => exact fun _ _ _ hg => hg
    | cons path paths ih =>
      intro g scene hscene hg
      rw [List.foldlM_cons, bind_apply]
      exact ih _ _ (course.trans _ _ _ hscene (h.add course extension g path scene))
        (tokens_add hV extension path hscene hg)
  have hwatched := Act.Follows.filterMapM course (h.changeToken? course) folders start
  unfold Gathering.gather
  rw [bind_apply, bind_apply]
  exact hfold _ _ _ (course.trans _ _ _ hwatched (h.scanPartials course extension folders _))
    (tokens_filterMapM course h hV folders (course.refl start))

end Gather

namespace Issues

variable {s : Source W} {S : Scene W → Prop} {push : Bool} {Q : W → Prop} (h : s.Issues S push)
  {scene : Scene W}

include h

theorem not_mem_changeToken? (hS : S scene) {path : String} {t : Token}
    (ht : (s.changeToken? path scene).1 = some t) : t ∉ scene.signals.fired := by
  have hfresh := h.fresh path scene t hS ht
  unfold Signals.hasFired at hfresh
  simpa using hfresh

/-- While no token fires, partials are gathered with tokens that have not fired. -/
theorem not_mem_gather (hstill : s.Follows (Scene.Still Q)) (hS : S scene) (hQ : Q scene.world)
    (extension : String) (site : Template.Library) (folders : List String) :
    ∀ t ∈ (Gathering.gather s extension site folders scene).1.tokens, t ∉ scene.signals.fired := by
  refine tokens_gather (h.steadfast.course.and (Scene.course_still Q)) (h.follows.and hstill)
    (fun path after t hafter ht => ?_) extension site folders
  rw [← (hafter.2 hQ).2]
  exact h.not_mem_changeToken? (hafter.1 hS) ht

end Issues

end Source

end Templating
