import Templating.Proofs.Cache.Latest
import Templating.Proofs.Engine.Hanging

/-!
# Dropping what an engine has cached

To drop what it has cached, an engine takes out its global entry, with all that hangs off it, and
puts in a new one. What is left are the notes that a file is not well formed, which hang off nothing
(`Workshop.hangs_or_broken`). Until its time is over such a note still answers for its path
(`Workshop.note_outlives_clear`); for any other path the source is asked again.
-/

namespace Templating

open Relation
open Session.Steady (Rests)
open Work (Takes)

/-! ## Operations of an engine -/

/-- What a read answers with is stored when it is done. -/
theorem Session.stored_of_get {V C W : Type} {m : Moment V C W} {s : Session V C W} {key : String}
    {value : V} (h : (Session.get m key s).1 = some value) :
    ∃ slot, (Session.get m key s).2.cache.entries.get? key = some slot ∧ slot.value = value := by
  rw [get_eq_look] at h ⊢
  obtain ⟨slot, hslot, hvalue, -, -, hafter⟩ := look_eq_some h
  rw [hafter]
  refine ⟨{ slot with touched := (s.maintain m).cache.millis m.now }, ?_, hvalue⟩
  rw [Cache.get?_touch, if_pos rfl, hslot]
  rfl

/-- An entry without options is put into a free place, and nothing else happens to the cache. -/
theorem Session.insert_free {V C W : Type} (m : Moment V C W) {s : Session V C W} {key : String}
    (hfree : s.cache.entries.get? key = none) (value : V) :
    (Session.insert m key value {} s).2.cache = s.cache.link m.now key value {} := by
  have hd : s.cache.detach key = none := by
    unfold Cache.detach
    rw [hfree]
    rfl
  unfold Session.insert consultAll Cache.place
  rw [Cache.cleared_of_none hd]
  exact congrArg Session.cache (settle_nil ..)

namespace Engine

variable {W : Type} (e : Engine W) (now : Instant)

/-- The latest deadline of a note that was taken by now. -/
abbrev noteLimit : Instant := now + e.options.timings.compileFailureRetry

/-- What holds of the cache of an engine when nothing waits to be asked. -/
abbrev Hangs (grown : String → Prop) : Session Entry (Poller W) W → Prop :=
  Rests (Hung e.keys (e.noteLimit now) grown) fun _ => True

theorem steady_hangs (grown : String → Prop) (hgrown : ∀ key, grown key → e.keys.Owns key) :
    Session.Steady (Poller.moment now)
      (fun c pending key value options => e.keys.Owns key →
        Admitted e.keys (e.noteLimit now) grown c pending key value options)
      (Hung e.keys (e.noteLimit now) grown) (fun _ : W => True) :=
  steady_hung hgrown

variable {e now} {g : Group.Made} {grown : String → Prop}

theorem takes_config_hung :
    Takes (e.Hangs now fun _ => False) (e.Hangs now (· = e.keys.config g.1))
      (e.config now g.1) := by
  have hbefore := e.steady_hangs now (fun _ => False) nofun
  have hafter := e.steady_hangs now (· = e.keys.config g.1) fun key hkey => by
    rw [hkey]
    exact e.keys.owns_config g
  have hne : e.keys.config g.1 ≠ e.keys.global := (e.keys.global_ne_config g.1).symm
  refine takes_config (hbefore.get _) ?hit
    (takes_build (Source.Keeps.trivial e.source) ?global ?config ?poll)
  case hit =>
    intro s found hs hget
    obtain ⟨slot, hslot, hvalue⟩ := Session.stored_of_get hget
    obtain ⟨hhung, -⟩ := hbefore.get _ s hs
    refine ⟨hhung.with_grown ?_, trivial⟩
    rintro _ rfl
    exact hhung.grown_of_transGen (hhung.transGen_of_ne_missing (e.keys.owns_config g) hne hslot
      (by rw [hvalue]; nofun))
  case global =>
    exact .bind (hbefore.insertIfAbsent fun c h _ => .atGlobal id) fun _ => .pure _
  case config =>
    intro found tokens
    refine hafter.insert_of fun c signals h => ?_
    -- What was known of no key is known of the partials once they have been put in.
    have hplaced := hbefore.place c [] signals (e.keys.config g.1) (.config found)
      { keys := [e.keys.global], tokens } h fun _ => .below rfl hne (.inr (.inl rfl)) nofun
    rw [List.append_nil] at hplaced
    refine hplaced.with_grown ?_
    rintro _ rfl slot hget
    rcases Cache.get?_place h.linked _ now signals _ _ hget with ⟨-, rfl, -⟩ | ⟨habsurd, -⟩
    · nofun
    · exact absurd rfl habsurd
  case poll =>
    intro serial snap hkey
    refine hafter.insert fun c h _ => ?_
    have howns : e.keys.Owns snap.configKey := by
      rw [hkey]
      exact e.keys.owns_config g
    have hpoller : KeySpace.poller snap.configKey serial ≠ e.keys.global := by
      rw [hkey, KeySpace.poller_eq_path]
      exact (e.keys.global_ne_path g.1 _).symm
    refine .below rfl hpoller (.inr (.inr ⟨howns, h.grown _ hkey⟩)) ?_
    rintro _ ⟨⟩
    exact ⟨hpoller, ⟨g, hkey⟩, rfl⟩

/-- **A look-up** keeps all entries but notes hanging off the global key, when the partials of its
group do or the path is that of the partials themselves. -/
theorem takes_lookup_hung {c : GroupConfig} {path : String}
    (hgrown : ∀ key, grown key → key = e.keys.config g.1)
    (hparent : path = "config" ∨ grown (e.keys.config g.1))
    (hpath : ¬grown (e.keys.path g.1 path)) :
    Takes (e.Hangs now grown) (e.Hangs now grown) (e.lookup now g.1 c path) := by
  have hsteady := e.steady_hangs now grown fun key hkey => by
    rw [hgrown key hkey]
    exact e.keys.owns_config g
  have hne : e.keys.path g.1 path ≠ e.keys.global := (e.keys.global_ne_path g.1 path).symm
  refine takes_lookup_steady (Source.Keeps.trivial e.source) hsteady ?guarded ?broken
  case guarded =>
    intro cache value token sliding recheck h hvalue _
    refine .below rfl hne ?_ ?_
    · rcases hparent with rfl | hkey
      · exact .inl rfl
      · exact .inr (.inr ⟨e.keys.owns_config g, h.grown _ hkey⟩)
    · rcases hvalue with rfl | ⟨template, -, -, rfl⟩ <;> nofun
  case broken =>
    intro cache h _
    exact ⟨.inr (.inl ⟨rfl, _, Nat.le_refl _, rfl⟩), fun heq => absurd heq hne, nofun,
      fun hkey => absurd hkey hpath, fun _ => .inr nofun⟩

/-- What there is right after the global entry has been dropped: a new one, and notes. -/
structure Cleared (e : Engine W) (now : Instant) (s : Session Entry (Poller W) W) : Prop where
  hangs : e.Hangs now (fun _ => False) s
  global : (s.cache.entries.get? e.keys.global).isSome = true
  notes : ∀ key slot, e.keys.Owns key → key ≠ e.keys.global →
    s.cache.entries.get? key = some slot →
      BrokenNote (e.noteLimit now) slot.value slot.options

/-- The global entry leaves with all that hangs off it. While hooks are asked, none is put back
under its key: that would depend on nothing. -/
theorem takes_remove_global : Takes (e.Hangs now fun _ => False) (e.Hangs now (· = e.keys.global))
    (Session.remove (Poller.moment now) e.keys.global) := by
  have hfirm := e.steady_hangs now (· = e.keys.global) fun key hkey => by
    rw [hkey]
    exact e.keys.owns_global
  refine hfirm.remove_of (fun c h hnone => ?_) fun c d h hd => ?_
  · refine h.with_grown ?_
    rintro _ rfl slot hget
    rw [Cache.detach_eq_none hnone] at hget
    cases hget
  · have hthin := h.thin (.detach h.linked hd)
      (Cache.was_stored_of_detach h.linked.toConsistent hd)
    rw [List.append_nil] at hthin
    refine hthin.with_grown ?_
    rintro _ rfl slot hget
    rw [Cache.get?_detach_self h.linked.toConsistent hd] at hget
    cases hget

theorem takes_clear : Takes (e.Hangs now fun _ => False) (e.Cleared now) (e.clear now) := by
  refine .bind takes_remove_global fun _ => .bind (Q := e.Cleared now) ?_ fun _ => .pure _
  rintro s ⟨h, -⟩
  have hfree : s.cache.entries.get? e.keys.global = none := by
    cases hget : s.cache.entries.get? e.keys.global with
    | none => rfl
    | some slot => exact absurd (h.root slot hget) (h.grown _ rfl slot hget)
  have hnotes : ∀ key slot, e.keys.Owns key → key ≠ e.keys.global →
      s.cache.entries.get? key = some slot →
        BrokenNote (e.noteLimit now) slot.value slot.options := by
    intro key slot howns hne hget
    rcases h.hangs key slot howns hget with heq | hnote | hdep
    · exact absurd heq hne
    · exact hnote
    · have hroot := h.linked.root_stored hdep
      rw [hfree] at hroot
      cases hroot
  have hinserted : (Session.insert (Poller.moment now) e.keys.global .global {} s).2.cache =
      s.cache.link now e.keys.global .global {} := Session.insert_free _ hfree _
  have hfewer : Hung e.keys (e.noteLimit now) (fun _ => False)
      s.cache [] := h.mono (Nat.le_refl _) nofun
  have hlinked : Hung e.keys (e.noteLimit now) (fun _ => False)
      (s.cache.link now e.keys.global .global {}) [] :=
    hfewer.link nofun hfree now nofun fun _ => .atGlobal id
  refine ⟨⟨?_, trivial⟩, ?_, fun key slot howns hne hget => ?_⟩ <;> rw [hinserted] at *
  · exact hlinked
  · rw [Cache.get?_link, if_pos rfl]
    rfl
  · rw [Cache.get?_link, if_neg hne] at hget
    exact hnotes key slot howns hne hget

theorem keeps_hangs (e : Engine W) (now : Instant) :
    Workshop.Keeps e now (fun _ => True) (e.Hangs now fun _ => False) := by
  have hweak : ∀ {grown : String → Prop} s, e.Hangs now grown s → e.Hangs now (fun _ => False) s :=
    fun s hs => ⟨hs.1.mono (Nat.le_refl _) nofun, trivial⟩
  have hlookup : ∀ (g : Group.Made) (c : GroupConfig) path, path ≠ "config" →
      Takes (e.Hangs now (· = e.keys.config g.1)) (e.Hangs now (· = e.keys.config g.1))
        (e.lookup now g.1 c path) := fun g c path hne =>
    takes_lookup_hung (fun _ h => h) (.inr rfl)
      fun heq => hne (e.keys.path_injective g.2 g.2 heq).2
  refine ⟨fun g _ => takes_config_hung.mono (fun _ h => h) hweak, fun g _ name layout => ?_,
    fun g _ path _ => takes_resolvePath (fun _ h => h) takes_config_hung.answers fun c => ?_,
    takes_clear.mono (fun _ h => h) fun _ h => h.hangs⟩
  · exact takes_views (fun _ h => h) takes_config_hung.answers
      (fun c path hrooted => hlookup g c path hrooted.ne_config) (fun _ => hweak) name layout
  · by_cases hpath : path = "config"
    · exact (takes_lookup_hung nofun (.inl hpath) id).mono hweak fun _ h => h
    · exact (hlookup g c path hpath).mono (fun _ h => h) hweak

end Engine

namespace Workshop

variable {W : Type}

/-! ## Look-ups after a clearing -/

/-- Nothing under `key` answers a look-up at `time`: no template, and no note that is not over. -/
def Silent {C : Type} (key : String) (time : Instant) (other : String) (value : Entry)
    (options : Options C) : Prop :=
  other = key → (∀ template, value ≠ .compiled template) ∧
    (value = .missing → ∃ deadline ≤ time, options.expiration = .absolute deadline)

theorem Silent.of_ne {C : Type} {key other : String} {time : Instant} {value : Entry}
    {options : Options C} (h : other ≠ key) : Silent key time other value options :=
  fun heq => absurd heq h

theorem steady_silent (now : Instant) (key : String) (time : Instant) :
    Session.Steady (Poller.moment now) (fun _ _ => Silent key time) (Cache.Holds (Silent key time))
      (fun _ : W => True) := by
  refine Session.steady_holds (fun _ _ _ _ _ _ => trivial) ?_
  intro e hook scene value options _ _ hre
  obtain ⟨snap, -, -, rfl, -⟩ := Poller.of_reinsert hre
  exact fun _ => ⟨nofun, nofun⟩

/-- The visit is no look-up of the path for the group, and others keep off the engine's keys. -/
abbrev Visit.Aside (k : KeySpace) (g : Group.Made) (path : String) : Visit W → Prop :=
  Visit.Within (fun g' path' => ¬(g' = g ∧ path' = path)) (fun key _ => ¬k.Owns key) fun _ => True

/-- Nothing answers a look-up of a path that was not looked up. -/
theorem silent_visits {σ : Workshop W} {g : Group.Made} {path : String} {time : Instant}
    (h : σ.session.cache.Holds (Silent (σ.engine.keys.path g.1 path) time) [])
    {vs : List (Visit W)} (hvs : ∀ v ∈ vs, v.Aside σ.engine.keys g path) :
    (σ.visits vs).session.cache.Holds (Silent (σ.engine.keys.path g.1 path) time) [] := by
  have hsteady := fun now => steady_silent (W := W) now (σ.engine.keys.path g.1 path) time
  refine (visits_hold hsteady ?config ?lookup ?others rfl ⟨h, trivial⟩ hvs).1
  case config =>
    exact fun now g' => Engine.takes_config_holds (hsteady now) (.trivial σ.engine.source)
      (fun _ => ⟨nofun, nofun⟩) (fun _ _ _ => ⟨nofun, nofun⟩) fun _ _ _ => ⟨nofun, nofun⟩
  case lookup =>
    intro now g' c path' haside
    have hne : σ.engine.keys.path g'.1 path' ≠ σ.engine.keys.path g.1 path := fun heq => by
      obtain ⟨hgroup, hpath⟩ := σ.engine.keys.path_injective g'.2 g.2 heq
      exact haside ⟨Subtype.ext hgroup, hpath⟩
    exact Engine.takes_lookup_steady (.trivial σ.engine.source) (hsteady now)
      (fun _ _ _ _ _ _ _ => .of_ne hne) fun _ _ => .of_ne hne
  case others =>
    intro key value options hkey
    exact .of_ne fun heq => hkey (heq ▸ σ.engine.keys.owns_path g path)

/-- Where nothing answers it, a look-up asks the source. -/
theorem lookup_eq_ask {e : Engine W} {now : Instant} {s : Session Entry (Poller W) W}
    {g : Group.Made} {c : GroupConfig} {path : String}
    (h : s.cache.Holds (Silent (e.keys.path g.1 path) now) []) :
    e.lookup now g.1 c path s = e.ask now g.1 c path
      (Session.get (Poller.moment now) (e.keys.path g.1 path) s).2 := by
  have hsteady := steady_silent (W := W) now (e.keys.path g.1 path) now
  have hkept : (s.maintain (Poller.moment now)).cache.Holds _ [] :=
    (hsteady.maintain ⟨h, trivial⟩).1
  have hanswer : ∀ value,
      (Session.get (Poller.moment now) (e.keys.path g.1 path) s).1 = some value →
        (∀ template, value ≠ .compiled template) ∧ value ≠ .missing := by
    intro value hget
    rw [Session.get_eq_look] at hget
    obtain ⟨slot, hslot, rfl, hlive, -, -⟩ := Session.look_eq_some hget
    obtain ⟨hnone, hnote⟩ := hkept.stored _ slot hslot rfl
    refine ⟨hnone, fun hmissing => ?_⟩
    obtain ⟨deadline, hle, hexpires⟩ := hnote hmissing
    have hexpired : slot.isExpired (s.maintain (Poller.moment now)).cache.epoch now = true := by
      simpa [Slot.isExpired, Slot.deadline?, hexpires] using hle
    unfold Slot.isLive at hlive
    rw [show (Poller.moment (W := W) now).now = now from rfl, hexpired] at hlive
    cases hlive
  unfold Engine.lookup
  rw [bind_apply]
  generalize Session.get (Poller.moment now) (e.keys.path g.1 path) s = r at hanswer ⊢
  obtain ⟨_ | value, s'⟩ := r
  · rfl
  · obtain ⟨hnone, hnote⟩ := hanswer value rfl
    cases value with
    | compiled template => exact absurd rfl (hnone template)
    | missing => exact absurd rfl hnote
    | global | config | poll => rfl

/-! ## Runs of an engine -/

/-- The move drops what the engine has cached: it is to clear, or to register a template. -/
def Clears (σ : Workshop W) (move : Move W) : Prop :=
  move = .clear ∨ ∃ name source e', move = .register name source ∧
    (σ.engine.register σ.now name source σ.session).1 = .ok e'

theorem step_of_clears {σ : Workshop W} {move : Move W} (h : σ.Clears move) :
    ∃ site, σ.step move = { σ.step .clear with engine := { σ.engine with site } } := by
  rcases h with rfl | ⟨name, source, e', rfl, hok⟩
  · exact ⟨σ.engine.site, rfl⟩
  · rcases σ.engine.register_cases σ.now name source σ.session with ⟨err, hrefused⟩ | ⟨site, hdone⟩
    · rw [hrefused] at hok
      cases hok
    · exact ⟨site, by simp only [step, act, hdone]⟩

/-- A new engine over a cache in which its keys are free. -/
theorem hangs_create {source : Source W} {site : Template.Library} {options : EngineOptions}
    {now : Instant} {s s' : Session Entry (Poller W) W} {e : Engine W}
    (hcreate : Engine.create source site options now s = (.ok e, s')) (hlinked : s.cache.Linked)
    (hfree : ∀ key, e.keys.Owns key → s.cache.entries.get? key = none) :
    e.Hangs now (fun _ => False) s' ∧ e.options = options := by
  obtain ⟨⟨keys, rfl⟩, scene, -, rfl⟩ := Engine.create_eq_ok hcreate
  refine ⟨?_, rfl⟩
  generalize (⟨source, site, options, keys⟩ : Engine W) = e at hfree ⊢
  have hsteady := e.steady_hangs now (fun _ => False) nofun
  refine (Work.Takes.bind (hsteady.insertIfAbsent fun _ _ _ => .atGlobal id) fun _ =>
    .pure e.keys.global) _ ⟨⟨hlinked, ?_, ?_, ?_, nofun, nofun⟩, trivial⟩
  · intro key slot howns hget
    rw [hfree key howns] at hget
    cases hget
  · intro slot hget
    rw [hfree _ e.keys.owns_global] at hget
    cases hget
  · intro key slot snap howns hget
    rw [hfree key howns] at hget
    cases hget

/-- **A run** of a new engine. -/
theorem run_hangs {source : Source W} {site : Template.Library} {options : EngineOptions}
    {start : Instant} {s₀ s₁ : Session Entry (Poller W) W} {e : Engine W}
    (hcreate : Engine.create source site options start s₀ = (.ok e, s₁))
    (hlinked : s₀.cache.Linked)
    (hfree : ∀ key, e.keys.Owns key → s₀.cache.entries.get? key = none)
    {moves : List (Move W)}
    (hmoves : ∀ move ∈ moves, move.Within (fun key _ => ¬e.keys.Owns key) fun _ => True) :
    let σ := (⟨e, start, s₁⟩ : Workshop W).run moves
    (∃ site, σ.engine = { e with site }) ∧ e.Hangs σ.now (fun _ => False) σ.session := by
  refine run_keeps (P := fun now => e.Hangs now fun _ => False)
    (A := fun move => move.Within (fun key _ => ¬e.keys.Owns key) fun _ => True)
    (fun site now => Engine.keeps_hangs { e with site } now) (fun _ _ _ => trivial) ?cache
    (fun _ _ _ _ h => ⟨h.1, trivial⟩) ?later ⟨e.site, rfl⟩
    (hangs_create hcreate hlinked hfree).1 hmoves
  case cache =>
    intro now s r hr h
    refine (e.steady_hangs now (fun _ => False) nofun).perform h r ?_
    intro key value options hreq c _ howns
    rcases hreq with rfl | rfl <;> exact absurd howns hr
  case later =>
    intro now time s h
    have hlater := Nat.add_le_add_right (Nat.le_add_right now time)
      e.options.timings.compileFailureRetry
    exact ⟨h.1.mono hlater fun _ h => h, trivial⟩

theorem cleared_of_clears {σ : Workshop W} {e : Engine W}
    (hsite : ∃ site, σ.engine = { e with site }) (h : e.Hangs σ.now (fun _ => False) σ.session)
    {move : Move W} (hmove : σ.Clears move) :
    (∃ site, (σ.step move).engine = { e with site }) ∧ e.Cleared σ.now (σ.step move).session := by
  obtain ⟨site, hsite⟩ := hsite
  obtain ⟨site', hstep⟩ := step_of_clears hmove
  have hsession : (σ.step move).session =
      (({ e with site } : Engine W).clear σ.now σ.session).2 := by
    rw [hstep, ← hsite]
    rfl
  have hclear : ({ e with site } : Engine W).Cleared σ.now _ := Engine.takes_clear σ.session h
  rw [hsession]
  exact ⟨⟨site', by rw [hstep, hsite]⟩, hclear.hangs, hclear.global, hclear.notes⟩

/-- What is left after a clearing answers no look-up, but for a note that is not over. -/
theorem lookup_of_cleared {σ : Workshop W} {e : Engine W} {now : Instant}
    (hsite : ∃ site, σ.engine = { e with site }) (h : e.Cleared now σ.session) (g : Group.Made)
    (path : String) (c : GroupConfig) {vs : List (Visit W)} (hvs : ∀ v ∈ vs, v.Aside e.keys g path)
    (hnote : ∀ slot deadline, σ.session.cache.entries.get? (e.keys.path g.1 path) = some slot →
      slot.options.expiration = .absolute deadline → deadline ≤ (σ.visits vs).now) :
    (σ.visits vs).engine.lookup (σ.visits vs).now g.1 c path (σ.visits vs).session =
      (σ.visits vs).engine.ask (σ.visits vs).now g.1 c path
        (Session.get (Poller.moment (σ.visits vs).now) (e.keys.path g.1 path)
          (σ.visits vs).session).2 := by
  have hsilent : σ.session.cache.Holds
      (Silent (e.keys.path g.1 path) (σ.visits vs).now) [] := by
    refine ⟨h.hangs.1.linked, fun other slot hget => ?_, nofun⟩
    rintro rfl
    obtain ⟨hmissing, deadline, -, hoptions⟩ := h.notes _ slot (e.keys.owns_path g path)
      (e.keys.global_ne_path g.1 path).symm hget
    refine ⟨fun template htemplate => ?_, fun _ => ⟨deadline, ?_, by rw [hoptions]⟩⟩
    · rw [hmissing] at htemplate
      cases htemplate
    · exact hnote slot deadline hget (by rw [hoptions])
  have hkeys : σ.engine.keys = e.keys := by
    obtain ⟨site, hsite⟩ := hsite
    rw [hsite]
  rw [← hkeys] at hsilent hvs ⊢
  rw [σ.engine_visits vs]
  exact lookup_eq_ask (silent_visits hsilent hvs)

/-- **Everything but notes hangs off the global key.** After any run of a new engine over any
source, in a cache that others may use under keys of their own, every entry of the engine depends on
the global key, directly or through others, but for the notes that a file is not well formed, which
depend on nothing. So right after the engine has dropped what it has cached there is its global
entry and such notes, and the next look-up of a path asks the source, unless a note stood under its
key and its time is not over. -/
theorem hangs_or_broken {source : Source W} {site : Template.Library} {options : EngineOptions}
    {start : Instant} {s₀ s₁ : Session Entry (Poller W) W} {e : Engine W}
    (hcreate : Engine.create source site options start s₀ = (.ok e, s₁))
    (hlinked : s₀.cache.Linked)
    (hfree : ∀ key, e.keys.Owns key → s₀.cache.entries.get? key = none)
    {moves : List (Move W)}
    (hmoves : ∀ move ∈ moves, move.Within (fun key _ => ¬e.keys.Owns key) fun _ => True) :
    let σ := (⟨e, start, s₁⟩ : Workshop W).run moves
    let limit := σ.now + options.timings.compileFailureRetry
    (∀ key slot, e.keys.Owns key → σ.session.cache.entries.get? key = some slot →
      key = e.keys.global ∨ BrokenNote limit slot.value slot.options ∨
        TransGen σ.session.cache.DependsOn key e.keys.global) ∧
    ∀ move, σ.Clears move →
      let cleared := σ.step move
      (cleared.session.cache.entries.get? e.keys.global).isSome = true ∧
      (∀ key slot, e.keys.Owns key → key ≠ e.keys.global →
        cleared.session.cache.entries.get? key = some slot →
          BrokenNote limit slot.value slot.options) ∧
      ∀ (g : Group.Made) (path : String) (c : GroupConfig) (vs : List (Visit W)),
        (∀ v ∈ vs, v.Aside e.keys g path) →
        let τ := cleared.visits vs
        let key := e.keys.path g.1 path
        (∀ slot deadline, cleared.session.cache.entries.get? key = some slot →
          slot.options.expiration = .absolute deadline → deadline ≤ τ.now) →
        τ.engine.lookup τ.now g.1 c path τ.session =
          τ.engine.ask τ.now g.1 c path (Session.get (Poller.moment τ.now) key τ.session).2 := by
  intro σ limit
  obtain ⟨hsite, hrun⟩ := run_hangs hcreate hlinked hfree hmoves
  obtain ⟨-, rfl⟩ := hangs_create hcreate hlinked hfree
  refine ⟨fun key slot => hrun.1.hangs key slot, fun move hmove => ?_⟩
  intro cleared
  obtain ⟨hengine, hcleared⟩ := cleared_of_clears hsite hrun hmove
  exact ⟨hcleared.global, hcleared.notes, fun g path c vs hvs hnote =>
    lookup_of_cleared hengine hcleared g path c hvs hnote⟩

/-! ## A note that outlives its engine's entries -/

/-- Every call is counted. -/
def counted {α : Type} (a : α) : Act Nat α := fun scene =>
  (a, { scene with world := scene.world + 1 })

/-- A source that has every file, none of which can be read. It counts how often it is asked. -/
def unreadable : Source Nat where
  isFile _ := counted true
  isFolder _ := counted false
  list _ := counted []
  read path := counted (.error (.io path "denied"))
  fingerprint path := counted (.error (.io path "denied"))
  watch _ := counted (.ok (some ⟨0⟩))
  capacity _ := 0

/-- An engine over it. -/
def reader : Engine Nat := ⟨unreadable, {}, { keyPrefix := some "p" }, ⟨"p"⟩⟩

theorem wellNamed_home : (⟨"", "Home"⟩ : Group).WellNamed := ⟨"", "Home", rfl⟩

/-- The group of a controller called Home. -/
def home : Group.Made := ⟨⟨"", "Home"⟩, wellNamed_home⟩

def blank : Session Entry (Poller Nat) Nat := ⟨{ epoch := 0, flag := ⟨1⟩ }, { world := 0 }⟩

def opened : Workshop Nat := ⟨reader, 0, (reader.ensureGlobal 0 blank).2⟩

/-- The partials of the group, of which there are none. -/
def gatheredSlot : Slot Entry (Poller Nat) :=
  ⟨.config ⟨{}, [], []⟩, { keys := ["p:global"], tokens := [⟨0⟩, ⟨0⟩] }, 0⟩

/-- The session when the partials of the group are there. -/
def gathered : Session Entry (Poller Nat) Nat where
  cache := (blank.cache.link 0 "p:global" .global {}).link 0 "p::Home:config"
    gatheredSlot.value gatheredSlot.options
  scene :=
    { signals := { listeners := [(⟨0⟩, ⟨1⟩)] }
      journal := [.built, .stored "p::Home:config", .miss "p::Home:config",
        .miss "p::Home:config", .stored "p:global"]
      world := 4 }

/-- The session when the page was looked up. -/
def noted : Session Entry (Poller Nat) Nat where
  cache := gathered.cache.link 0 "p::Home:~/page.hbs" .missing
    { expiration := .absolute (0 + reader.options.timings.compileFailureRetry) }
  scene :=
    { gathered.scene with
      journal := .stored "p::Home:~/page.hbs" :: .compiled .view false ::
        .miss "p::Home:~/page.hbs" :: gathered.scene.journal
      world := 7 }

/-- The session when the engine's entries were dropped. -/
def dropped : Session Entry (Poller Nat) Nat where
  cache := ((noted.cache.unlink "p:global").unlink "p::Home:config").link 0 "p:global" .global {}
  scene :=
    { noted.scene with
      journal := .stored "p:global" :: .evicted "p::Home:config" .dependency ::
        .evicted "p:global" .removed :: noted.scene.journal }

-- What is computed by well-founded recursion does not unfold: `settle` and `cascade` are rewritten.

theorem config_opened :
    reader.config 0 home.1 opened.session = (⟨{}, [], []⟩, gathered) := by
  have hopened : opened.session = Session.settle (Poller.moment 0)
      ⟨blank.cache.link 0 "p:global" .global {}, { world := 0, journal := [.stored "p:global"] }⟩
      [] := rfl
  have hconfig : reader.config 0 home.1 ⟨blank.cache.link 0 "p:global" .global {},
      { world := 0, journal := [.stored "p:global"] }⟩ = (⟨{}, [], []⟩,
        ((Session.note .built : Resolving Nat Unit) (Session.settle (Poller.moment 0)
          { gathered with
            scene := { gathered.scene with journal := gathered.scene.journal.tail } } [])).2) := rfl
  rw [hopened, Session.settle_nil, hconfig, Session.settle_nil]
  rfl

theorem lookup_gathered (c : GroupConfig) :
    reader.lookup 0 home.1 c "~/page.hbs" gathered = (none, noted) := by
  have hlookup : reader.lookup 0 home.1 c "~/page.hbs" gathered =
      (none, Session.settle (Poller.moment 0) noted []) := rfl
  rw [hlookup, Session.settle_nil]

theorem run_opened :
    opened.run [.resolvePath home "~/page.hbs"] = { opened with session := noted } := by
  have hrun : opened.run [.resolvePath home "~/page.hbs"] =
      { opened with
        session := (reader.lookup 0 home.1 (reader.config 0 home.1 opened.session).1 "~/page.hbs"
          (reader.config 0 home.1 opened.session).2).2 } := rfl
  rw [hrun, config_opened, lookup_gathered]

theorem detach_noted : noted.cache.detach "p:global" =
    some ⟨⟨.global, {}, 0⟩, (noted.cache.unlink "p:global").unlink "p::Home:config",
      [⟨"p::Home:config", gatheredSlot, .dependencyChanged⟩]⟩ := by
  have hdetach : noted.cache.detach "p:global" = some ⟨⟨.global, {}, 0⟩,
      ((noted.cache.unlink "p:global").cascade ["p::Home:config"]).1,
      ((noted.cache.unlink "p:global").cascade ["p::Home:config"]).2⟩ := rfl
  have hcascade : (noted.cache.unlink "p:global").cascade ["p::Home:config"] = _ :=
    Cache.cascade_cons_some (show _ = some gatheredSlot from rfl) []
  have hnil : ((noted.cache.unlink "p:global").unlink "p::Home:config").cascade [] = _ :=
    Cache.cascade.eq_1 _
  rw [hdetach, hcascade]
  change some (Cache.Detached.mk _ (Cache.cascade _ []).1 (_ :: (Cache.cascade _ []).2)) = _
  rw [hnil]

theorem clear_noted : reader.clear 0 noted = ((), dropped) := by
  let left : Session Entry (Poller Nat) Nat :=
    ⟨(noted.cache.unlink "p:global").unlink "p::Home:config",
      noted.scene.note (.evicted "p:global" .removed)⟩
  let asked : Session Entry (Poller Nat) Nat :=
    { left with scene := left.scene.note (.evicted "p::Home:config" .dependency) }
  have hremove : (Session.remove (Poller.moment 0) "p:global" noted).2 = asked := by
    have hsettle : (Session.remove (Poller.moment 0) "p:global" noted).2 =
        left.settle (Poller.moment 0)
          [.consult ⟨"p::Home:config", gatheredSlot, .dependencyChanged⟩] := by
      unfold Session.remove
      rw [detach_noted]
      rfl
    rw [hsettle, Session.settle_cons]
    exact Session.settle_nil ..
  have hinsert : (Session.insert (Poller.moment 0) "p:global" .global {} asked).2 =
      Session.settle (Poller.moment 0) dropped [] := rfl
  unfold Engine.clear
  rw [bind_apply]
  change ((), (Session.insert (Poller.moment 0) "p:global" .global {}
    (Session.remove (Poller.moment 0) "p:global" noted).2).2) = _
  rw [hremove, hinsert, Session.settle_nil]

theorem lookup_dropped (c : GroupConfig) : reader.lookup 0 home.1 c "~/page.hbs" dropped =
    (none, ⟨dropped.cache.touch 0 "p::Home:~/page.hbs",
      dropped.scene.note (.hit "p::Home:~/page.hbs")⟩) := rfl

theorem hangs_or_broken_opened :
    let σ := opened.run [.resolvePath home "~/page.hbs"]
    let cleared := σ.step .clear
    let τ := cleared.visits [.config home]
    Engine.create unreadable {} { keyPrefix := some "p" } 0 blank = (.ok reader, opened.session) ∧
      (cleared.session.cache.entries.get? reader.keys.global).isSome = true ∧
      ∀ c, τ.engine.lookup τ.now home.1 c "~/other.hbs" τ.session =
        τ.engine.ask τ.now home.1 c "~/other.hbs" (Session.get (Poller.moment τ.now)
          (reader.keys.path home.1 "~/other.hbs") τ.session).2 := by
  intro σ cleared τ
  have hcreate : Engine.create unreadable {} { keyPrefix := some "p" } 0 blank =
      (.ok reader, opened.session) := rfl
  have hcleared : cleared.session = dropped := by
    change ((opened.run [.resolvePath home "~/page.hbs"]).step .clear).session = dropped
    rw [run_opened]
    exact congrArg Prod.snd clear_noted
  have hmoves : ∀ move ∈ [(.resolvePath home "~/page.hbs" : Move Nat)],
      move.Within (fun key _ => ¬reader.keys.Owns key) fun _ => True := by
    simp [Move.Within]
  obtain ⟨-, hclears⟩ := hangs_or_broken hcreate (.dropAll blank.cache) (fun _ _ => rfl) hmoves
  obtain ⟨hglobal, -, hask⟩ := hclears .clear (.inl rfl)
  refine ⟨hcreate, hglobal, fun c =>
    hask home "~/other.hbs" c [.config home] (by simp [Visit.Within]) ?_⟩
  intro slot deadline hget
  have hnone : dropped.cache.entries.get? (reader.keys.path home.1 "~/other.hbs") = none := rfl
  change cleared.session.cache.entries.get? _ = _ at hget
  rw [hcleared, hnone] at hget
  cases hget

/-- **The note of a broken file outlives what its engine has cached.** It does not depend on the
global key, it stays when the engine drops what it has cached, and then the path is answered from
it: the source is not asked. -/
theorem note_outlives_clear :
    let σ := opened.run [.resolvePath home "~/page.hbs"]
    let cleared := σ.step .clear
    let key := reader.keys.path home.1 "~/page.hbs"
    σ.engine = reader ∧ reader.keys.Owns key ∧ key ≠ reader.keys.global ∧
      (σ.session.cache.entries.get? key).isSome = true ∧
      ¬TransGen σ.session.cache.DependsOn key reader.keys.global ∧
      (cleared.session.cache.entries.get? key).isSome = true ∧
      ∀ c, (reader.lookup 0 home.1 c "~/page.hbs" cleared.session).1 = none ∧
        (reader.lookup 0 home.1 c "~/page.hbs" cleared.session).2.scene.world =
          cleared.session.scene.world := by
  rw [run_opened]
  intro σ cleared key
  have hcleared : cleared.session = dropped := congrArg Prod.snd clear_noted
  rw [hcleared]
  refine ⟨rfl, reader.keys.owns_path home _, (reader.keys.global_ne_path home.1 _).symm, rfl, ?_,
    rfl, fun c => ?_⟩
  · intro hdep
    obtain ⟨parent, hparent, -⟩ := TransGen.head'_iff.1 hdep
    have hnone : noted.cache.index.parentsOf "p::Home:~/page.hbs" = [] := rfl
    change parent ∈ noted.cache.index.parentsOf "p::Home:~/page.hbs" at hparent
    rw [hnone] at hparent
    cases hparent
  · rw [lookup_dropped]
    exact ⟨rfl, rfl⟩

end Workshop

end Templating
