import Templating.Proofs.Engine.Hanging
import Templating.Proofs.Engine.Proper
import Templating.Proofs.Source.Issuing

/-!
# Where an engine files what it keeps

Under the key of a group's partials stand partials that depend on the global entry, or an answer
for the path `config`, which depends on nothing (`KeySpace.Filed`). A hook is found beside a
snapshot only. And a template is kept with a fingerprint if and only if the source hands out no
token for its path. It is so through every run of an engine (`Workshop.run_filing`).
-/

namespace Templating

open Work (Takes)

/-- What an entry is like, for the key that it stands under. A hook is the poller `p`, and
templates have a fingerprint unless the source pushes changes. -/
structure KeySpace.Filed {W : Type} (k : KeySpace) (p : Poller W) (push : Bool) (key : String)
    (value : Entry) (options : Options (Poller W)) : Prop where
  hook : ∀ hook, options.hook = some hook →
    hook = p ∧ k.Owns key ∧ ∃ snap, value = .poll snap
  config : ∀ g : Group.Made, key = k.config g.1 → options.hook = none ∧
    ((∃ c, value = .config c) ∧ options.keys = [k.global] ∨ ∀ parent ∈ options.keys, parent = key)
  compiled : k.Owns key → ∀ t, value = .compiled t → t.fingerprint.isNone = push

namespace Engine

variable {W : Type} {e : Engine W} {now : Instant} {g : Group.Made} {c : GroupConfig}
  {push : Bool} {S : Scene W → Prop} {key : String} {value : Entry} {options : Options (Poller W)}

/-- How the entries in a cache of the engine are filed. -/
abbrev Filed (e : Engine W) (push : Bool) :
    String → Entry → Options (Poller W) → Prop :=
  e.keys.Filed e.poller push

/-- What others put in under keys of their own. -/
theorem filed_of_not_owns (hkey : ¬e.keys.Owns key) (hhook : options.hook = none) :
    e.Filed push key value options where
  hook _ hsome := nomatch hhook.symm.trans hsome
  config g heq := absurd (heq ▸ e.keys.owns_config g) hkey
  compiled howns := absurd howns hkey

theorem filed_global : e.Filed push e.keys.global .global {} where
  hook := nofun
  config g heq := absurd heq (e.keys.global_ne_config g.1)
  compiled := nofun

theorem filed_poll (g : Group.Made) (serial : Nat) {snap : Snapshot} :
    e.Filed push (KeySpace.poller (e.keys.config g.1) serial) (.poll snap) (e.poller.options now
      (e.keys.config g.1)) := by
  rw [KeySpace.poller_eq_path]
  refine ⟨fun p hp => ⟨(Option.some.inj hp).symm, e.keys.owns_path g _, snap, rfl⟩,
    fun g' heq => ?_, nofun⟩
  exact absurd (e.keys.path_injective g.2 g'.2 heq).2 (KeySpace.pollerPath_ne_config serial)

variable (e now g) in
theorem admits_filed (push : Bool) : e.Admits now g (e.Filed push) where
  global := filed_global
  config value tokens :=
    ⟨nofun, fun _ _ => ⟨rfl, .inl ⟨⟨value, rfl⟩, rfl⟩⟩, nofun⟩
  poll serial snap hkey := by
    rw [hkey]
    exact filed_poll g serial

theorem filed_guarded {path : String} {token : Option Token} {sliding recheck : Duration}
    (hvalue : ∀ t, value = .compiled t → t.fingerprint.isNone = push) :
    e.Filed push (e.keys.path g.1 path) value (e.guarded now g.1 token sliding recheck) where
  hook := nofun
  config g' heq := by
    obtain ⟨hgroup, rfl⟩ := e.keys.path_injective g.2 g'.2 heq
    exact ⟨rfl, .inr fun parent hparent => List.mem_singleton.1 hparent⟩
  compiled _ := hvalue

theorem filed_broken {deadline : Instant} :
    e.Filed push key .missing { expiration := .absolute deadline } where
  hook := nofun
  config _ _ := ⟨rfl, .inr (List.forall_mem_nil _)⟩
  compiled := nofun

/-- What a hook puts back is filed as it was. -/
theorem filed_renewed {x : Evicted Entry (Poller W)} {hook : Poller W} {scene : Scene W}
    (h : e.Filed push x.key x.slot.value x.slot.options) (hhook : x.slot.options.hook = some hook)
    (haction : ((Poller.moment now).decide hook x.key x.slot.value x.reason scene).1 =
      .reinsert value options) : e.Filed push x.key value options := by
  obtain ⟨rfl, howns, -⟩ := h.hook hook hhook
  obtain ⟨snap, -, -, rfl, rfl⟩ := Poller.of_reinsert haction
  refine ⟨fun p hp => ⟨(Option.some.inj hp).symm, howns, snap, rfl⟩, fun g heq => ?_, nofun⟩
  cases (h.config g heq).1.symm.trans hhook

/-! ## Operations -/

/-- Every entry is filed, in a scene with `S`. -/
abbrev Filing (e : Engine W) (push : Bool) (S : Scene W → Prop)
    (s : Session Entry (Poller W) W) (pending : List (Evicted Entry (Poller W))) : Prop :=
  s.cache.Holds (e.Filed push) pending ∧ S s.scene

section Filing

variable (hissues : e.source.Issues S push)

include hissues

variable (now) in
theorem lasting_filing : Session.Lasting (Poller.moment now) (e.Filed push) (e.Filing push S) := by
  refine Session.lasting_holds hissues.steadfast (fun x hook scene hx hhook hS => ?_)
    fun x hook scene value options hx hhook haction => filed_renewed hx hhook haction
  obtain ⟨rfl, -⟩ := hx.hook hook hhook
  exact Poller.follows_decide (p := e.poller) hissues.steadfast.course hissues.follows now x.key
    x.slot.value x.reason scene hS

theorem takes_config_filing : Takes (e.Filing push S · []) (e.Filing push S · [])
    (e.config now g.1) :=
  lasting_config (lasting_filing now hissues) (fun _ _ h hscene => ⟨h.1, hscene h.2⟩)
    hissues.steadfast.course hissues.follows (admits_filed e now g push)

/-- **A look-up** files its answer, with a fingerprint where there was no token to be had. -/
theorem takes_lookup_filing (path : String) : Takes (e.Filing push S · [])
    (e.Filing push S · []) (e.lookup now g.1 c path) := by
  have k := lasting_filing now hissues
  let P : Session Entry (Poller W) W → Prop := (e.Filing push S · [])
  let U : Option Token → Session Entry (Poller W) W → Prop := fun token s =>
    P s ∧ token.isSome = push
  have hact : ∀ {α : Type} {act : Act W α}, act.Follows (fun a b => S a → S b) →
      Takes P P (Session.onScene act : Resolving W α) :=
    fun h s hs => ⟨hs.1, h s.scene hs.2⟩
  have hsure : ∀ {α : Type} {op : Resolving W α} (token : Option Token), Takes P P op →
      Takes (U token) (U token) op := fun token hop s hs => ⟨hop s hs.1, hs.2⟩
  have hmissing : ∀ token, e.Filed push (e.keys.path g.1 path) .missing (e.guarded now g.1 token
      e.options.timings.missingSliding e.options.timings.missingRetry) :=
    fun _ => filed_guarded nofun
  refine takes_lookup (k.get _) (hact (hissues.follows.fingerprint path)) (k.remove _) <|
    takes_ask_of (U := U)
      (fun s hs => ⟨hact (hissues.follows.changeToken? hissues.steadfast.course path) s hs,
        hissues.pushes path s.scene hs.2⟩)
      (fun token => hsure token (hact (hissues.follows.isFile path)))
      (fun token => .bind (fun s hs => k.insert (hmissing token) s hs.1) fun _ => .pure _)
      fun token => takes_compile_of (U := fun _ => U token)
        (hsure token (hact (hissues.follows.read path)))
        (fun _ event => hsure token fun s hs => k.note s [] event hs)
        (fun _ => hsure token (hact (hissues.follows.fingerprint path))) (fun _ _ hs => hs.1)
        (fun _ => .bind (fun s hs => k.insert filed_broken s hs.1) fun _ => .pure _) ?_
  rintro _ template rfl - - htoken
  unfold rememberCompiled
  split
  · exact fun s hs => hs.1
  · refine .bind (fun s hs => k.insert (filed_guarded ?_) s hs.1) fun _ => .pure _
    rintro t ⟨⟩
    exact htoken.trans hs.2

/-- Every operation of the engine leaves all entries filed. -/
theorem keeps_filing : Workshop.Keeps e now (fun _ => True) (e.Filing push S · []) where
  config _ _ := takes_config_filing hissues
  views _ _ name layout :=
    takes_views (R := fun _ => (e.Filing push S · [])) (fun _ hs => hs)
      (takes_config_filing hissues).answers (fun _ path _ => takes_lookup_filing hissues path)
      (fun _ _ hs => hs) name layout
  path _ _ path _ :=
    takes_resolvePath (R := fun _ => (e.Filing push S · [])) (fun _ hs => hs)
      (takes_config_filing hissues).answers fun _ => takes_lookup_filing hissues path
  clear := .bind ((lasting_filing now hissues).remove _) fun _ =>
    .bind ((lasting_filing now hissues).insert filed_global) fun _ => .pure _

end Filing

/-- A new engine has filed what it keeps. -/
theorem filing_create {source : Source W} {site : Template.Library} {options : EngineOptions}
    {epoch : Instant} {flag : Flag} {scene : Scene W} {s : Session Entry (Poller W) W}
    (hcreate : create source site options now ⟨{ epoch, flag }, scene⟩ = (.ok e, s))
    (hissues : source.Issues S push) (hS : S scene) : e.Filing push S s [] := by
  have hensure : ∀ (keys : KeySpace) (scene : Scene W), S scene →
      let e : Engine W := ⟨source, site, options, keys⟩
      e.Filing push S (e.ensureGlobal now ⟨{ epoch, flag }, scene⟩).2 [] := by
    intro keys scene hS e
    exact (Takes.bind ((lasting_filing (e := e) now hissues).insertIfAbsent filed_global)
      fun _ => .pure e.keys.global) _
      ⟨⟨.dropAll { epoch, flag }, nofun, List.forall_mem_nil _⟩, hS⟩
  unfold create at hcreate
  cases hcheck : checkOptions options with
  | error err =>
    rw [hcheck] at hcreate
    cases hcreate
  | ok _ =>
    rw [hcheck] at hcreate
    cases hkeyed : options.keyPrefix with
    | none =>
      rw [hkeyed] at hcreate
      cases hcreate
      exact hensure _ _ (hissues.steadfast.course.takeSerial scene hS)
    | some text =>
      rw [hkeyed] at hcreate
      cases hcreate
      exact hensure _ _ hS

end Engine

namespace Workshop

variable {W : Type} {push : Bool} {S : Scene W → Prop}

/-- Others put in nothing under the keys of an engine and no hooks, and each scene is as `S`
says. -/
def Move.Discreet (k : KeySpace) (S : Scene W → Prop) : Move W → Prop
  | .cache (.insert key _ options) | .cache (.insertIfAbsent key _ options) =>
    ¬k.Owns key ∧ options.hook = none
  | .change scene => S scene
  | _ => True

theorem Move.Discreet.within {move : Move W} {k : KeySpace} (h : move.Discreet k S) :
    move.Within (fun key _ => ¬k.Owns key) fun _ => True := by
  cases move with
  | cache r => cases r <;> first | exact h.1 | trivial
  | _ => trivial

/-- **Through every run** all entries stay filed. -/
theorem run_filing {e : Engine W} {σ : Workshop W} (hissues : e.source.Issues S push)
    (hsite : ∃ site, σ.engine = { e with site }) (h : e.Filing push S σ.session [])
    {moves : List (Move W)} (hmoves : ∀ move ∈ moves, move.Discreet e.keys S) :
    e.Filing push S (σ.run moves).session [] := by
  refine (run_keeps (P := fun _ => (e.Filing push S · []))
    (A := fun move => move.Discreet e.keys S)
    (fun site now => Engine.keeps_filing (e := { e with site }) hissues) (fun _ _ _ => trivial)
    (fun now s r hr hs => ?_) (fun _ _ _ hscene hs => ⟨hs.1, hscene⟩) (fun _ _ _ hs => hs) hsite h
    hmoves).2
  refine (Engine.lasting_filing now hissues).perform hs r ?_
  rintro key value options (rfl | rfl) <;> exact Engine.filed_of_not_owns hr.1 hr.2

end Workshop

end Templating
