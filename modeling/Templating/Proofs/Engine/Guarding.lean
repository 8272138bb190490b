import Mathlib.Logic.Basic
import Templating.Proofs.Cache.Standing
import Templating.Proofs.Engine.Fingerprint
import Templating.Proofs.Engine.Proper

/-!
# Every answer carries its guard

What an engine keeps for a path goes out of date, and nothing but the entry itself can tell when.
Either the entry has a token for the path and lives on while it is used, or it has none and is for a
limited time. A token is worth something only if it was taken before the source was asked, or else
a change in between would go unnoticed.

`Engine.Kept` is what a look-up may keep, with the calls that it makes, each in the scene that the
one before has left, so that anything may fail and anything may change behind any call
(`Engine.lookup_kept`). All that an engine has stored for paths was kept by look-ups in the course
of the run (`Workshop.holds_run_kept`), and so it is guarded (`Workshop.answers_are_guarded`).
-/

namespace Templating

open Work (Answers Takes)

variable {W C : Type}

/-! ## Guards -/

namespace Source

variable (s : Source W)

/-- The scene in which the source is asked whether there is a file, if the token for its path was
taken in `a`. -/
abbrev watched (path : String) (a : Scene W) : Scene W := (s.watch path a).2

/-- The scene in which the file is read then. -/
abbrev found (path : String) (a : Scene W) : Scene W := (s.isFile path (s.watched path a)).2

variable {s} {path : String} {a : Scene W}

theorem changeToken?_scene : (s.changeToken? path a).2 = s.watched path a := by
  unfold changeToken?
  rw [bind_apply]
  cases (s.watch path a).1 <;> rfl

theorem changeToken?_eq_some {token : Token} :
    (s.changeToken? path a).1 = some token ↔ (s.watch path a).1 = .ok (some token) := by
  unfold changeToken?
  rw [bind_apply]
  cases (s.watch path a).1 with
  | error err => exact iff_of_false nofun nofun
  | ok answer => exact (Except.ok.injEq ..).symm ▸ Iff.rfl

end Source

/-- The entry has the token that the source hands out for the path in the scene `a`, and it lives on
while it is used. -/
structure Options.WatchedFrom (options : Options C) (s : Source W) (path : String) (a : Scene W) :
    Prop where
  token : ∃ token, (s.watch path a).1 = .ok (some token) ∧ options.tokens = [token]
  sliding : ∃ time, options.expiration = .sliding time

/-- The entry has no token and expires at `limit` at the latest. -/
structure Options.ExpiresBy (options : Options C) (limit : Instant) : Prop where
  tokens : options.tokens = []
  deadline : ∃ deadline ≤ limit, options.expiration = .absolute deadline

theorem Options.ExpiresBy.mono {options : Options C} {limit limit' : Instant}
    (h : options.ExpiresBy limit) (hle : limit ≤ limit') : options.ExpiresBy limit' := by
  obtain ⟨htokens, deadline, hdeadline, hexpiration⟩ := h
  exact ⟨htokens, deadline, Nat.le_trans hdeadline hle, hexpiration⟩

/-! ## What a look-up keeps -/

namespace Engine

variable {e : Engine W} {now : Instant} {g : Group} {c : GroupConfig} {path : String}
  {a : Scene W} {value : Entry} {options : Options (Poller W)}

/-- What a look-up does before it asks the source, if it asks: it finds nothing, or a template with
a fingerprint that the file does not have any more. -/
def beforeAsking (e : Engine W) (now : Instant) (g : Group) (path : String) :
    Resolving W Unit := do
  match ← Session.get (Poller.moment now) (e.keys.path g path) with
  | some .missing => return
  | some (.compiled template) =>
    match template.fingerprint with
    | none => return
    | some expected =>
      let _ ← e.hasFingerprint path expected
      let _ ← Session.remove (Poller.moment now) (e.keys.path g path)
  | _ => return

/-- What a look-up may keep if it begins to ask in the scene `a`: that there is no file, that the
file cannot be used, or what was compiled. -/
inductive Kept (e : Engine W) (now : Instant) (g : Group) (c : GroupConfig) (path : String)
    (a : Scene W) : Entry → Options (Poller W) → Prop
  | absent (hfile : (e.source.isFile path (e.source.watched path a)).1 = false) :
    Kept e now g c path a .missing (e.guarded now g (e.source.changeToken? path a).1
      e.options.timings.missingSliding e.options.timings.missingRetry)
  | broken (hfile : (e.source.isFile path (e.source.watched path a)).1 = true) :
    Kept e now g c path a .missing
      { expiration := .absolute (now + e.options.timings.compileFailureRetry) }
  | made {text : String} {template : Template.Compiled} {sliding : Duration}
    (hfile : (e.source.isFile path (e.source.watched path a)).1 = true)
    (hread : (e.source.read path (e.source.found path a)).1 = .ok text)
    (hpath : template.path = path) (hrender : c.library.compile path text = .ok template.render)
    (hfingerprint : template.fingerprint.isNone = (e.source.changeToken? path a).1.isSome) :
    Kept e now g c path a (.compiled template) (e.guarded now g (e.source.changeToken? path a).1
      sliding e.options.timings.viewRecheck)

theorem watchedFrom_guarded {token : Token} {sliding recheck : Duration}
    (h : (e.source.changeToken? path a).1 = some token) :
    (e.guarded now g (some token) sliding recheck).WatchedFrom e.source path a :=
  ⟨⟨token, Source.changeToken?_eq_some.1 h, rfl⟩, sliding, rfl⟩

theorem expiresBy_guarded {sliding recheck : Duration} :
    (e.guarded now g none sliding recheck).ExpiresBy (now + recheck) :=
  ⟨rfl, now + recheck, Nat.le_refl _, rfl⟩

/-- **What was compiled** depends on the partials of its group and is guarded in one of two ways. -/
theorem Kept.of_compiled {template : Template.Compiled}
    (h : e.Kept now g c path a (.compiled template) options) :
    template.path = path ∧ options.keys = [e.keys.config g] ∧
      (∃ text, (e.source.read path (e.source.found path a)).1 = .ok text ∧
        c.library.compile path text = .ok template.render) ∧
      Xor (template.fingerprint = none ∧ options.WatchedFrom e.source path a)
        (template.fingerprint.isSome = true ∧
          options.ExpiresBy (now + e.options.timings.viewRecheck)) := by
  cases h with
  | made hfile hread hpath hrender hfingerprint =>
    refine ⟨hpath, rfl, ⟨_, hread, hrender⟩, ?_⟩
    have hone : template.fingerprint = none → ¬template.fingerprint.isSome = true := by
      intro hnone hsome
      rw [hnone] at hsome
      cases hsome
    cases htoken : (e.source.changeToken? path a).1 with
    | some token =>
      rw [htoken, Option.isSome_some, Option.isNone_iff_eq_none] at hfingerprint
      exact .inl ⟨⟨hfingerprint, watchedFrom_guarded htoken⟩, fun h => hone hfingerprint h.1⟩
    | none =>
      rw [htoken, Option.isSome_none, Option.isNone_eq_false_iff] at hfingerprint
      exact .inr ⟨⟨hfingerprint, expiresBy_guarded⟩, fun h => hone h.1 hfingerprint⟩

/-- **A note that there is nothing** is watched from before the source was asked for the file, or it
is for a limited time. -/
theorem Kept.of_missing (h : e.Kept now g c path a .missing options) :
    options.WatchedFrom e.source path a ∧
        (e.source.isFile path (e.source.watched path a)).1 = false ∨
      options.ExpiresBy (now + max e.options.timings.missingRetry
        e.options.timings.compileFailureRetry) := by
  cases h with
  | absent hfile =>
    cases htoken : (e.source.changeToken? path a).1 with
    | some token => exact .inl ⟨watchedFrom_guarded htoken, hfile⟩
    | none =>
      exact .inr (expiresBy_guarded.mono (Nat.add_le_add_left (Nat.le_max_left ..) now))
  | broken hfile =>
    exact .inr ⟨rfl, _, Nat.add_le_add_left (Nat.le_max_right ..) now, rfl⟩

/-! ## Look-ups -/

/-- Two calls are made before anything is read. -/
theorem ask_apply (s : Session Entry (Poller W) W) :
    e.ask now g c path s =
      (if (e.source.isFile path (e.source.watched path s.scene)).1 = true then
        e.compile now g c path (e.source.changeToken? path s.scene).1
      else do
        e.rememberMissing now g path (e.source.changeToken? path s.scene).1
        return none) { s with scene := e.source.found path s.scene } := by
  have htoken : Session.onScene (e.source.changeToken? path) s =
      ((e.source.changeToken? path s.scene).1,
        { s with scene := e.source.watched path s.scene }) := by
    rw [← Source.changeToken?_scene]
    rfl
  unfold ask
  rw [bind_apply, htoken, bind_apply]
  rfl

section Lasting

variable {New : String → Entry → Options (Poller W) → Prop}
  {P : Session Entry (Poller W) W → List (Evicted Entry (Poller W)) → Prop}
  (k : Session.Lasting (Poller.moment now) New P)
  (hscene : ∀ s scene, P s [] → P { s with scene } [])

include k hscene

/-- **To ask** is to make the calls of `Kept` one after the other, and to keep nothing else. -/
theorem takes_ask_kept
    (hnew : ∀ value options, e.Kept now g c path a value options →
      New (e.keys.path g path) value options) :
    Takes (fun s => P s [] ∧ s.scene = a) (P · []) (e.ask now g c path) := by
  rintro s ⟨hs, rfl⟩
  let token := (e.source.changeToken? path s.scene).1
  let ready : Session Entry (Poller W) W := { s with scene := e.source.found path s.scene }
  have hready : P ready [] := hscene s _ hs
  rw [ask_apply]
  cases hfile : (e.source.isFile path (e.source.watched path s.scene)).1 with
  | false =>
    have hmissing : Takes (P · []) (P · []) (e.rememberMissing now g path token) :=
      .bind (k.insert (hnew _ _ (.absent hfile))) fun _ => .pure _
    exact hmissing ready hready
  | true =>
    let answer := (e.source.read path ready.scene).1
    refine takes_compile_of (T := fun s' => P s' [] ∧ s'.scene = ready.scene) (P := (P · []))
      (U := fun answer' s' => answer' = answer ∧ P s' []) ?read
      (fun _ event s' hs' => ⟨hs'.1, k.note s' [] event hs'.2⟩)
      (fun _ s' hs' => ⟨hs'.1, hscene s' _ hs'.2⟩) (fun _ _ hs' => hs'.2) ?broken ?compiled ready
      ⟨hready, rfl⟩
    case read =>
      rintro s' ⟨hs', hsame⟩
      refine ⟨?_, hscene s' _ hs'⟩
      change (e.source.read path s'.scene).1 = answer
      rw [hsame]
    case broken =>
      exact fun _ => .bind (fun s' hs' => k.insert (hnew _ _ (.broken hfile)) s' hs'.2)
        fun _ => .pure _
    case compiled =>
      rintro text template rfl hrender - hfingerprint
      unfold rememberCompiled
      split
      · exact fun _ hs' => hs'.2
      · refine .bind (Q := (P · [])) ?_ fun _ => .pure _
        rintro s' ⟨hread, hs'⟩
        exact k.insert (hnew _ _ (.made hfile hread.symm rfl hrender hfingerprint)) s' hs'

/-- **A look-up** that begins in a session keeps what it may keep, asking where it asks. -/
theorem lookup_kept {s : Session Entry (Poller W) W} (h : P s [])
    (hnew : ∀ value options,
      e.Kept now g c path (e.beforeAsking now g path s).2.scene value options →
        New (e.keys.path g path) value options) :
    P (e.lookup now g c path s).2 [] := by
  have hask : ∀ s', P s' [] → (∀ value options, e.Kept now g c path s'.scene value options →
      New (e.keys.path g path) value options) → P (e.ask now g c path s').2 [] :=
    fun s' hs' hnew' => takes_ask_kept k hscene hnew' s' ⟨hs', rfl⟩
  have hget := k.get (e.keys.path g path) s h
  unfold beforeAsking at hnew
  unfold lookup
  rw [bind_apply] at hnew ⊢
  generalize Session.get (Poller.moment now) (e.keys.path g path) s = r at hget hnew ⊢
  obtain ⟨found, s'⟩ := r
  rcases found with _ | _ | _ | template | _ | _
  case some.missing => exact hget
  case some.compiled =>
    simp only at hnew ⊢
    cases hfingerprint : template.fingerprint with
    | none => exact hget
    | some expected =>
      have hcompared : Takes (P · []) (P · []) (e.hasFingerprint path expected) :=
        takes_hasFingerprint (fun s'' hs'' => hscene s'' _ hs'') expected
      rw [hfingerprint] at hnew
      simp only at hnew ⊢
      rw [bind_apply] at hnew ⊢
      have hs'' := hcompared s' hget
      generalize e.hasFingerprint path expected s' = r at hs'' hnew ⊢
      obtain ⟨same, s''⟩ := r
      cases same with
      | true => exact hs''
      | false => exact hask _ (k.remove _ s'' hs'') hnew
  all_goals exact hask s' hget hnew

end Lasting

end Engine

/-! ## Runs -/

namespace Workshop

/-- Among some visits is a look-up, which begins in `τ`. -/
def LooksUp (σ : Workshop W) (vs : List (Visit W)) (g : Group.Made) (c : GroupConfig)
    (path : String) (τ : Workshop W) : Prop :=
  ∃ before after, vs = before ++ .lookup g c path :: after ∧ τ = σ.visits before

/-- In the course of a run, or of a request after it of which these visits have been made, is a
look-up, which begins in `τ`. -/
def LookedUp (σ : Workshop W) (moves : List (Move W)) (vs : List (Visit W)) (g : Group.Made)
    (c : GroupConfig) (path : String) (τ : Workshop W) : Prop :=
  (σ.run moves).LooksUp vs g c path τ ∨
    ∃ earlier move later parts, moves = earlier ++ move :: later ∧ move.Asks g ∧
      (∀ v ∈ parts, v.PartOf g) ∧ (σ.run earlier).step move = (σ.run earlier).visits parts ∧
        (σ.run earlier).LooksUp parts g c path τ

/-- An answer under a key of the engine was kept by a look-up that began in one of these. -/
def KeptBy (k : KeySpace) (began : Group.Made → GroupConfig → String → Workshop W → Prop)
    (key : String) (value : Entry) (options : Options (Poller W)) : Prop :=
  k.Owns key → (value = .missing ∨ ∃ t, value = .compiled t) →
    ∃ g c path τ, began g c path τ ∧ key = k.path g.1 path ∧
      τ.engine.Kept τ.now g.1 c path
        (τ.engine.beforeAsking τ.now g.1 path τ.session).2.scene value options

variable {k : KeySpace} {began : Group.Made → GroupConfig → String → Workshop W → Prop}

/-- About other entries nothing is said. -/
theorem keptBy_other {key : String} {value : Entry} {options : Options (Poller W)}
    (hmissing : value ≠ .missing) (hcompiled : ∀ t, value ≠ .compiled t) :
    KeptBy k began key value options := by
  rintro - (h | ⟨t, h⟩)
  · exact absurd h hmissing
  · exact absurd h (hcompiled t)

variable (k began) in
theorem lasting_kept (now : Instant) : Session.Lasting (Poller.moment now) (KeptBy k began)
    fun (s : Session Entry (Poller W) W) pending => s.cache.Holds (KeptBy k began) pending := by
  have hlasting := Session.lasting_holds (m := Poller.moment now) (A := KeptBy k began)
    (S := fun _ : Scene W => True) (fun _ _ _ _ _ _ => trivial) (fun _ _ _ _ _ _ => trivial) ?_
  · simpa only [and_true] using hlasting
  · intro x hook scene value options _ _ haction
    obtain ⟨snap, -, -, rfl, -⟩ := Poller.of_reinsert haction
    exact keptBy_other nofun nofun

theorem admits_kept (e : Engine W) (now : Instant) (g : Group.Made) :
    e.Admits now g (KeptBy k began) where
  global := keptBy_other nofun nofun
  config _ _ := keptBy_other nofun nofun
  poll _ _ _ := keptBy_other nofun nofun

/-- The parts of a request keep nothing but what look-ups among them keep. -/
theorem holds_visits_kept {σ : Workshop W} (hkeys : σ.engine.keys = k) {g : Group.Made}
    {vs : List (Visit W)} (hvs : ∀ v ∈ vs, v.PartOf g)
    (hbegan : ∀ c path τ, σ.LooksUp vs g c path τ → began g c path τ)
    (h : σ.session.cache.Holds (KeptBy k began) []) :
    (σ.visits vs).session.cache.Holds (KeptBy k began) [] := by
  induction vs generalizing σ with
  | nil => exact h
  | cons v vs ih =>
    have hlasts := lasting_kept k began σ.now
    have hrest : (σ.visit v).session.cache.Holds (KeptBy k began) [] →
        ((σ.visit v).visits vs).session.cache.Holds (KeptBy k began) [] := by
      refine ih ((σ.engine_visits [v]).symm ▸ hkeys)
        (fun w hw => hvs w (List.mem_cons_of_mem _ hw)) ?_
      rintro c path τ ⟨before, after, rfl, rfl⟩
      exact hbegan c path _ ⟨v :: before, after, rfl, rfl⟩
    apply hrest
    have hv := hvs v List.mem_cons_self
    cases v with
    | config g' =>
      exact Engine.lasting_config hlasts (fun _ _ hs _ => hs) (Scene.course_world fun _ => True)
        (Source.Keeps.trivial σ.engine.source).follows (admits_kept σ.engine σ.now g') _ h
    | lookup g' c path =>
      obtain rfl : g' = g := hv
      refine Engine.lookup_kept hlasts (fun _ _ hs => hs) h fun value options hkept _ _ => ?_
      exact ⟨g', c, path, σ, hbegan c path σ ⟨[], vs, rfl, rfl⟩, by rw [hkeys], hkept⟩
    | cache | change | advance => exact hv.elim

/-- **A move** keeps nothing but what look-ups among its parts keep, if others keep out. -/
theorem holds_step_kept {σ : Workshop W} (hkeys : σ.engine.keys = k) {move : Move W}
    (hmove : move.Within (fun key _ => ¬k.Owns key) fun _ => True)
    (hbegan : ∀ g parts, move.Asks g → (∀ v ∈ parts, v.PartOf g) → σ.step move = σ.visits parts →
      ∀ c path τ, σ.LooksUp parts g c path τ → began g c path τ)
    (h : σ.session.cache.Holds (KeptBy k began) []) :
    (σ.step move).session.cache.Holds (KeptBy k began) [] := by
  have hlasts := lasting_kept k began σ.now
  have hrequest : ∀ g, move.Asks g → (σ.step move).session.cache.Holds (KeptBy k began) [] := by
    intro g hasks
    obtain ⟨parts, hparts, hstep⟩ := σ.step_eq_visits hasks
    rw [hstep]
    exact holds_visits_kept hkeys hparts (hbegan g parts hasks hparts hstep) h
  have hclear : Takes (fun s => s.cache.Holds (KeptBy k began) [])
      (fun s => s.cache.Holds (KeptBy k began) []) (σ.engine.clear σ.now) :=
    .bind (hlasts.remove _) fun _ =>
      .bind (hlasts.insert (keptBy_other nofun nofun)) fun _ => .pure _
  cases move with
  | resolve g name layout => exact hrequest g rfl
  | resolvePartial g name => exact hrequest g rfl
  | resolvePath g path => exact hrequest g rfl
  | config g => exact hrequest g rfl
  | register name source =>
    rcases σ.step_register name source with heq | ⟨site, heq⟩
    · rw [heq]
      exact h
    · rw [heq]
      exact hclear _ h
  | clear => exact hclear _ h
  | cache r =>
    refine hlasts.perform h r ?_
    rintro key value options (rfl | rfl) howns <;> exact absurd howns hmove
  | change scene => exact h
  | advance time => exact h

/-- **All that is stored for paths** was kept by look-ups in the course of the run, or of the
request under way. -/
theorem holds_run_kept {σ : Workshop W} {moves : List (Move W)}
    (hmoves : ∀ move ∈ moves, move.Within (fun key _ => ¬σ.engine.keys.Owns key) fun _ => True)
    {u : Group.Made} {vs : List (Visit W)} (hvs : ∀ v ∈ vs, v.PartOf u)
    (hstart : σ.session.cache.Holds (KeptBy σ.engine.keys (σ.LookedUp moves vs)) []) :
    ((σ.run moves).visits vs).session.cache.Holds
      (KeptBy σ.engine.keys (σ.LookedUp moves vs)) [] := by
  have hkeys : ∀ earlier, (σ.run earlier).engine.keys = σ.engine.keys := fun earlier => by
    obtain ⟨site, hsite⟩ := σ.engine_run earlier
    rw [hsite]
  have hrun : ∀ earlier later, moves = earlier ++ later →
      (σ.run earlier).session.cache.Holds (KeptBy σ.engine.keys (σ.LookedUp moves vs)) [] →
        (σ.run moves).session.cache.Holds (KeptBy σ.engine.keys (σ.LookedUp moves vs)) [] := by
    intro earlier later hsplit hearlier
    induction later generalizing earlier with
    | nil =>
      rw [hsplit, List.append_nil]
      rwa [hsplit, List.append_nil] at hearlier
    | cons move later ih =>
      refine ih (earlier ++ [move]) (by rw [hsplit, List.append_assoc]; rfl) ?_
      have hmove := hmoves move (by rw [hsplit]; exact List.mem_append_right _ List.mem_cons_self)
      have hstep := holds_step_kept (hkeys earlier) hmove
        (fun g parts hasks hparts hstep c path τ hlooks =>
          .inr ⟨earlier, move, later, parts, hsplit, hasks, hparts, hstep, hlooks⟩) hearlier
      unfold run at hstep ⊢
      rwa [List.foldl_append]
  exact holds_visits_kept (hkeys moves) hvs (fun _ _ _ => .inl) (hrun [] moves rfl hstart)

theorem LookedUp.engine {σ τ : Workshop W} {moves : List (Move W)} {vs : List (Visit W)}
    {g : Group.Made} {c : GroupConfig} {path : String} (h : σ.LookedUp moves vs g c path τ) :
    ∃ site, τ.engine = { σ.engine with site } := by
  rcases h with ⟨before, _, -, rfl⟩ | ⟨earlier, _, _, _, -, -, -, -, before, _, -, rfl⟩
  · rw [engine_visits]
    exact σ.engine_run moves
  · rw [engine_visits]
    exact σ.engine_run earlier

/-- **Every answer carries its guard.** A new engine is at work with its source, which may fail at
any call and behind any call may be changed, and others who use the cache keep out of its keys.
Whatever is stored for a path then, between requests or in the middle of one, was put in by a
look-up that began to ask in some scene `a`. A template depends on the partials of its group, and
either it has no fingerprint and the token for its path from `a`, taken before the file was read, or
it has a fingerprint and stays no longer than the time after which views are checked again. A note
that there is nothing has a token from before the source was asked for the file, or it stays no
longer than the times for missing and for broken files. -/
theorem answers_are_guarded {source : Source W} {site : Template.Library} {options : EngineOptions}
    {start : Instant} {s₀ s₁ : Session Entry (Poller W) W} {e : Engine W}
    (hcreate : Engine.create source site options start s₀ = (.ok e, s₁))
    (hlinked : s₀.cache.Linked)
    (hfresh : ∀ key slot, s₀.cache.entries.get? key = some slot → ¬e.keys.Owns key)
    {moves : List (Move W)}
    (hmoves : ∀ move ∈ moves, move.Within (fun key _ => ¬e.keys.Owns key) fun _ => True)
    {u : Group.Made} {vs : List (Visit W)} (hvs : ∀ v ∈ vs, v.PartOf u) :
    let σ : Workshop W := ⟨e, start, s₁⟩
    ∀ key slot, ((σ.run moves).visits vs).session.cache.entries.get? key = some slot →
      e.keys.Owns key → (slot.value = .missing ∨ ∃ t, slot.value = .compiled t) →
        ∃ g c path τ, σ.LookedUp moves vs g c path τ ∧ key = e.keys.path g.1 path ∧
          let a := (e.beforeAsking τ.now g.1 path τ.session).2.scene
          (∀ t, slot.value = .compiled t →
            t.path = path ∧ slot.options.keys = [e.keys.config g.1] ∧
              (∃ text, (source.read path (source.found path a)).1 = .ok text ∧
                c.library.compile path text = .ok t.render) ∧
              Xor (t.fingerprint = none ∧ slot.options.WatchedFrom source path a)
                (t.fingerprint.isSome = true ∧
                  slot.options.ExpiresBy (τ.now + options.timings.viewRecheck))) ∧
          (slot.value = .missing →
            slot.options.WatchedFrom source path a ∧
                (source.isFile path (source.watched path a)).1 = false ∨
              slot.options.ExpiresBy (τ.now +
                max options.timings.missingRetry options.timings.compileFailureRetry)) := by
  intro σ key slot hget howns hanswer
  obtain ⟨⟨keys, rfl⟩, scene, -, rfl⟩ := Engine.create_eq_ok hcreate
  have hstart : σ.session.cache.Holds (KeptBy σ.engine.keys (σ.LookedUp moves vs)) [] := by
    have hensure : Takes (fun s => s.cache.Holds (KeptBy σ.engine.keys (σ.LookedUp moves vs)) [])
        (fun s => s.cache.Holds (KeptBy σ.engine.keys (σ.LookedUp moves vs)) [])
        (σ.engine.ensureGlobal start) :=
      .bind ((lasting_kept _ _ start).insertIfAbsent (keptBy_other nofun nofun)) fun _ => .pure _
    exact hensure { s₀ with scene } ⟨hlinked, fun key slot hget howns =>
      absurd howns (hfresh key slot hget), List.forall_mem_nil _⟩
  have hkept := (holds_run_kept hmoves hvs hstart).stored key slot hget howns hanswer
  obtain ⟨g, c, path, τ, hlooked, hkey, hkept⟩ := hkept
  obtain ⟨site', hengine⟩ := hlooked.engine
  rw [hengine] at hkept
  refine ⟨g, c, path, τ, hlooked, hkey, fun t ht => ?_, fun hmissing => ?_⟩
  · rw [ht] at hkept
    exact hkept.of_compiled
  · rw [hmissing] at hkept
    exact hkept.of_missing

theorem answers_are_guarded_shelved :
    let moves : List (Move (Observed Memory)) :=
      [.config home, .change (raced .isFile), .resolvePath home "~/page.hbs"]
    Engine.create shelver.source {} { keyPrefix := some "p" } 0 bare =
        (.ok shelver, launched.session) ∧
      ∃ slot c τ, (launched.run moves).session.cache.entries.get?
          (shelver.keys.path home.1 "~/page.hbs") = some slot ∧
        slot.value = .compiled (page newer) ∧
        launched.LookedUp moves [] home c "~/page.hbs" τ ∧
        slot.options.keys = [shelver.keys.config home.1] ∧
        slot.options.ExpiresBy (τ.now + shelver.options.timings.viewRecheck) := by
  intro moves
  have hσ : launched.run moves = ⟨shelver, 0, shelved newer⟩ :=
    run_raced (.inl ⟨rfl, rfl⟩) nodes_newer
  have hmoves : ∀ move ∈ moves,
      move.Within (fun key _ => ¬shelver.keys.Owns key) fun _ => True := by
    simp [moves, Move.Within]
  have hfresh : ∀ key slot, bare.cache.entries.get? key = some slot →
      ¬shelver.keys.Owns key := by
    intro _ _ hget
    cases hget
  obtain ⟨slot, hget, hvalue⟩ : ∃ slot, (launched.run moves).session.cache.entries.get?
      (shelver.keys.path home.1 "~/page.hbs") = some slot ∧
        slot.value = .compiled (page newer) := by
    rw [hσ]
    exact ⟨_, rfl, rfl⟩
  obtain ⟨g, c, path, τ, hlooked, hkey, hcompiled, -⟩ := answers_are_guarded create_launched
    (.dropAll bare.cache) hfresh hmoves (u := home) (List.forall_mem_nil _) _ slot hget
    (shelver.keys.owns_path home _) (.inr ⟨_, hvalue⟩)
  obtain ⟨hgroup, rfl⟩ := shelver.keys.path_injective home.2 g.2 hkey
  obtain rfl : home = g := Subtype.ext hgroup
  obtain ⟨-, hkeys, -, hguard⟩ := hcompiled (page newer) hvalue
  refine ⟨create_launched, slot, c, τ, hget, hvalue, hlooked, hkeys, ?_⟩
  rcases hguard with ⟨⟨hnone, -⟩, -⟩ | ⟨⟨-, hlimited⟩, -⟩
  · cases hnone
  · exact hlimited

end Workshop

end Templating
