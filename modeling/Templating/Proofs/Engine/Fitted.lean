import Templating.Proofs.Engine.Fingerprint

/-!
# Templates fit the partials of their group

A template is compiled with the partials of its group as they are at the beginning of a request.
While the request is under way these partials may leave: their tokens fire, their poller finds a
change. That no template outlives the partials that it was compiled with, and none comes to stand
beside others, has two reasons. A template hangs off the key of the partials, so it leaves with
them, and without them it is not stored. And during a request nothing else comes to stand under that
key (`Fitted.known`), as only a build puts partials in, at the beginning.

`Workshop.compiled_with_current` says so for every run over any source, of which no more is known
than which worlds are possible.
-/

namespace Templating

open Session.Steady (Rests)
open Work (Answers Takes)

/-- What an entry is like by itself: its hook leads to possible worlds, and a snapshot does not
stand in the place of partials. -/
structure Proper {W : Type} (k : KeySpace) (possible : W → Prop) (key : String) (value : Entry)
    (options : Options (Poller W)) : Prop where
  hook : ∀ p, options.hook = some p → p.source.Keeps possible
  poll : ∀ snap, value = .poll snap → ∀ g : Group.Made, key ≠ k.config g.1

section Fitted

variable {W : Type} (k : KeySpace) (s : Source W) (possible : W → Prop)
  (known : String → GroupConfig → Prop)

/-- Every template was compiled with the partials that stand under the key of its group. Where
partials are known, nothing else stands. -/
structure Fitted (c : Cache Entry (Poller W)) (pending : List (Evicted Entry (Poller W))) : Prop
    extends Cache.Holds (Proper k possible) c pending where
  fits : ∀ key slot t, k.Owns key → c.entries.get? key = some slot → slot.value = .compiled t →
    ∃ g : Group.Made, key = k.path g.1 t.path ∧ slot.options.keys = [k.config g.1] ∧
      ∀ above, c.entries.get? (k.config g.1) = some above →
        ∃ v, above.value = .config v ∧ t.CompiledWith s possible v.library
  known : ∀ key v slot, known key v → c.entries.get? key = some slot → slot.value = .config v

/-- The entries that an engine may put in. A template that would stand in the place of its group's
partials is refused, as it hangs off itself. -/
structure Fitting (c : Cache Entry (Poller W)) (key : String) (value : Entry)
    (options : Options (Poller W)) : Prop extends Proper k possible key value options where
  fits : ∀ t, k.Owns key → value = .compiled t →
    ∃ g : Group.Made, key = k.path g.1 t.path ∧ options.keys = [k.config g.1] ∧
      (k.config g.1 = key ∨ ∀ above, c.entries.get? (k.config g.1) = some above →
        ∃ v, above.value = .config v ∧ t.CompiledWith s possible v.library)
  known : ∀ v, known key v → value = .config v

variable {k s possible known} {c rest : Cache Entry (Poller W)}
  {pending more : List (Evicted Entry (Poller W))} {key : String} {value : Entry}
  {options : Options (Poller W)}

/-- An entry that is no template is admitted where no partials are known. -/
theorem Fitting.plain (hproper : Proper k possible key value options)
    (hvalue : ∀ t, value ≠ .compiled t) (hknown : ∀ v, ¬known key v) :
    Fitting k s possible known c key value options :=
  ⟨hproper, fun t _ ht => absurd ht (hvalue t), fun v hv => absurd hv (hknown v)⟩

theorem Fitting.thin (h : Fitting k s possible known c key value options)
    (hrest : c.Thinned rest) : Fitting k s possible known rest key value options where
  toProper := h.toProper
  fits t howns ht := by
    obtain ⟨g, hkey, hkeys, habove⟩ := h.fits t howns ht
    refine ⟨g, hkey, hkeys, habove.imp_right fun hfits above hget => ?_⟩
    obtain ⟨old, hold, hvalue, -⟩ := hrest.kept _ above hget
    rw [hvalue]
    exact hfits old hold
  known := h.known

namespace Fitted

theorem forget {e : Evicted Entry (Poller W)} (h : Fitted k s possible known c (e :: pending)) :
    Fitted k s possible known c pending :=
  { h with pending := fun e' he' => h.pending e' (List.mem_cons_of_mem e he') }

/-- More may be known. -/
theorem with_known {known' : String → GroupConfig → Prop}
    (h : Fitted k s possible known c pending)
    (hknown : ∀ key v slot, known' key v → c.entries.get? key = some slot →
      slot.value = .config v) : Fitted k s possible known' c pending :=
  { h with known := hknown }

/-- Entries leave. -/
theorem thin (h : Fitted k s possible known c pending) (hrest : c.Thinned rest)
    (hmore : ∀ e ∈ more, c.entries.get? e.key = some e.slot) :
    Fitted k s possible known rest (more ++ pending) where
  toHolds := h.toHolds.thin hrest hmore
  fits key slot t howns hget ht := by
    obtain ⟨old, hold, hvalue, hoptions⟩ := hrest.kept key slot hget
    obtain ⟨g, hkey, hkeys, hfits⟩ := h.fits key old t howns hold (hvalue.symm.trans ht)
    refine ⟨g, hkey, hoptions ▸ hkeys, fun above habove => ?_⟩
    obtain ⟨above', hold', hvalue', -⟩ := hrest.kept _ above habove
    rw [hvalue']
    exact hfits above' hold'
  known key v slot hknown hget := by
    obtain ⟨old, hold, hvalue, -⟩ := hrest.kept key slot hget
    exact hvalue.trans (h.known key v old hknown hold)

/-- An entry is put in under a key that is free. No stored template hangs off that key. -/
theorem link (h : Fitted k s possible known c pending) (hfree : c.entries.get? key = none)
    (now : Instant)
    (hparents : ∀ parent ∈ options.keys, parent ≠ key ∧ (c.entries.get? parent).isSome = true)
    (hnew : Fitting k s possible known c key value options) :
    Fitted k s possible known (c.link now key value options) pending where
  linked := h.linked.link now value options hfree hparents
  stored other slot hget := by
    rcases Cache.get?_of_get?_link hget with ⟨rfl, rfl⟩ | ⟨-, hget⟩
    · exact hnew.toProper
    · exact h.stored other slot hget
  pending := h.pending
  fits other slot t howns hget ht := by
    rcases Cache.get?_of_get?_link hget with ⟨rfl, rfl⟩ | ⟨-, hbefore⟩
    · obtain ⟨g, hkey, hkeys, habove⟩ := hnew.fits t howns ht
      have hne := (hparents (k.config g.1) (by rw [hkeys]; exact List.mem_singleton_self _)).1
      refine ⟨g, hkey, hkeys, fun above hget => ?_⟩
      rw [Cache.get?_link, if_neg hne] at hget
      exact habove.resolve_left hne above hget
    · obtain ⟨g, hkey, hkeys, hfits⟩ := h.fits other slot t howns hbefore ht
      refine ⟨g, hkey, hkeys, fun above habove => ?_⟩
      have hne : k.config g.1 ≠ key := by
        rintro rfl
        apply h.linked.not_dependsOn_of_none hfree other
        rw [h.linked.recorded other slot hbefore, hkeys]
        exact List.mem_singleton_self _
      rw [Cache.get?_link, if_neg hne] at habove
      exact hfits above habove
  known other v slot hknown hget := by
    rcases Cache.get?_of_get?_link hget with ⟨rfl, rfl⟩ | ⟨-, hget⟩
    · exact hnew.known v hknown
    · exact h.known other v slot hknown hget

/-- An entry is put in. -/
theorem place (h : Fitted k s possible known c pending) (now : Instant) (signals : Signals)
    (hnew : Fitting k s possible known c key value options) :
    Fitted k s possible known (c.place now signals key value options).cache
      ((c.place now signals key value options).evicted ++ pending) := by
  have hthin := Cache.Thinned.cleared h.linked key
  have hcleared := h.thin hthin fun e he => (Cache.was_stored_of_cleared h.linked key e he).1
  exact Cache.place_cases
    (P := fun rest evicted _ => Fitted k s possible known rest (evicted ++ pending)) h.linked now
    signals key value options (fun _ => hcleared) fun hparents hfree =>
      hcleared.link hfree now hparents (hnew.thin hthin)

/-- What is stored under a key of partials hangs under them. -/
theorem current (h : Fitted k s possible known c pending) {slot : Slot Entry (Poller W)}
    {t : Template.Compiled} (howns : k.Owns key) (hget : c.entries.get? key = some slot)
    (hvalue : slot.value = .compiled t) :
    ∃ (g : Group.Made) (above : Slot Entry (Poller W)) (v : GroupConfig),
      key = k.path g.1 t.path ∧ c.DependsOn key (k.config g.1) ∧
        c.entries.get? (k.config g.1) = some above ∧ above.value = .config v ∧
          t.CompiledWith s possible v.library := by
  obtain ⟨g, hkey, hkeys, hfits⟩ := h.fits key slot t howns hget hvalue
  have hdep : c.DependsOn key (k.config g.1) := by
    rw [h.linked.recorded key slot hget, hkeys]
    exact List.mem_singleton_self _
  obtain ⟨above, habove⟩ := Option.isSome_iff_exists.1 (h.linked.parent_stored _ _ hdep)
  obtain ⟨v, hconfig, hwith⟩ := hfits above habove
  exact ⟨g, above, v, hkey, hdep, habove, hconfig, hwith⟩

end Fitted

/-- Partials are known under their own keys only. -/
theorem steady_fitted (now : Instant)
    (hknown : ∀ key v, known key v → ∃ g : Group.Made, key = k.config g.1) :
    Session.Steady (Poller.moment now)
      (fun c _ key value options => Fitting k s possible known c key value options)
      (Fitted k s possible known) possible := by
  refine .of_thin (fun _ _ h => h.linked) (fun _ _ _ h => h.forget)
    (fun _ _ _ _ h hrest hmore => h.thin hrest hmore)
    (fun _ _ signals _ _ _ h hnew => h.place now signals hnew)
    (fun _ e _ hook scene h hhook => Poller.keeps_decide
      ((h.pending e List.mem_cons_self).hook hook hhook) now _ _ _ scene)
    fun c e pending hook scene value options h hhook hre => ?_
  have hproper := h.pending e List.mem_cons_self
  obtain ⟨snap, hvalue, -, rfl, rfl⟩ := Poller.of_reinsert hre
  refine .plain ⟨?_, fun _ _ => hproper.poll snap hvalue⟩ nofun fun v hv => ?_
  · rintro _ ⟨⟩
    exact hproper.hook hook hhook
  · obtain ⟨g, hkey⟩ := hknown e.key v hv
    exact hproper.poll snap hvalue g hkey

end Fitted

/-! ## Operations of an engine -/

namespace Engine

variable {W : Type} {possible : W → Prop} {e : Engine W} {now : Instant} {g : Group.Made}
  {known : String → GroupConfig → Prop}

/-- What holds of a session when nothing waits to be asked. -/
abbrev Fits (e : Engine W) (possible : W → Prop) (known : String → GroupConfig → Prop) :
    Session Entry (Poller W) W → Prop :=
  Rests (Fitted e.keys e.source possible known) possible

/-- Nothing is known. -/
abbrev nothing : String → GroupConfig → Prop := fun _ _ => False

/-- The partials of a group are known, as they are at the beginning of a request. -/
abbrev partialsOf (e : Engine W) (g : Group.Made) (v : GroupConfig) : String → GroupConfig → Prop :=
  fun key v' => key = e.keys.config g.1 ∧ v' = v

theorem steady_fits (e : Engine W) (possible : W → Prop)
    (known : String → GroupConfig → Prop) (now : Instant)
    (hknown : ∀ key v, known key v → ∃ g : Group.Made, key = e.keys.config g.1) :
    Session.Steady (Poller.moment now)
      (fun c _ key value options => Fitting e.keys e.source possible known c key value options)
      (Fitted e.keys e.source possible known) possible :=
  steady_fitted now hknown

theorem takes_ensureGlobal_fits :
    Takes (e.Fits possible nothing) (e.Fits possible nothing) (e.ensureGlobal now) :=
  .bind ((e.steady_fits possible nothing now nofun).insertIfAbsent fun _ _ =>
    .plain ⟨nofun, nofun⟩ nofun fun _ => id) fun _ => .pure _

variable (hsource : e.source.Keeps possible)

include hsource

/-- **A request begins** with partials that are known from then on. -/
theorem answers_config_fits :
    Answers (e.Fits possible nothing) (fun v => e.Fits possible (e.partialsOf g v))
      (e.config now g.1) := by
  have hbefore := e.steady_fits possible nothing now nofun
  have hafter : ∀ v, Session.Steady (Poller.moment now)
      (fun c _ key value options =>
        Fitting e.keys e.source possible (e.partialsOf g v) c key value options)
      (Fitted e.keys e.source possible (e.partialsOf g v)) possible :=
    fun v => e.steady_fits possible (e.partialsOf g v) now fun _ _ hkey => ⟨g, hkey.1⟩
  refine answers_config (hbefore.get _) ?hit
    (answers_build (B := fun _ => e.Fits possible nothing)
      (C := fun found _ => e.Fits possible (e.partialsOf g found.config))
      (D := fun found _ => e.Fits possible (e.partialsOf g found.config))
      takes_ensureGlobal_fits (takes_onScene (hsource.gather _ _ _)).answers ?config
      (fun found _ => (takes_onScene (hsource.fingerprints found)).answers) ?poll
      (fun _ _ _ _ h => h) fun _ => takes_note _)
  case hit =>
    intro s v hs hget
    obtain ⟨slot, hslot, hvalue⟩ := Session.stored_of_get hget
    obtain ⟨hfitted, hpossible⟩ := hbefore.get _ s hs
    refine ⟨hfitted.with_known ?_, hpossible⟩
    rintro _ _ slot' ⟨rfl, rfl⟩ hget'
    rw [hslot] at hget'
    cases hget'
    exact hvalue
  case config =>
    intro found
    refine ((hafter found.config).insert_of fun c signals h => ?_).answers
    have hplaced := hbefore.place c [] signals (e.keys.config g.1) (.config found.config)
      { keys := [e.keys.global], tokens := found.tokens } h
      (.plain ⟨nofun, nofun⟩ nofun fun _ => id)
    rw [List.append_nil] at hplaced
    refine hplaced.with_known ?_
    rintro _ _ slot ⟨rfl, rfl⟩ hget
    rcases Cache.get?_place h.linked _ now signals _ _ hget with ⟨-, rfl, -⟩ | ⟨habsurd, -⟩
    · rfl
    · exact absurd rfl habsurd
  case poll =>
    intro found fingerprints
    refine .bind (takes_onScene .takeSerial) fun serial =>
      .bind ((hafter found.config).insert fun c h => ?_) fun _ => .pure _
    have hpath := e.keys.poller_eq_path g.1 serial
    refine .plain ⟨?_, fun _ _ g' heq => ?_⟩ nofun ?_
    · rintro _ ⟨⟩
      exact hsource
    · exact KeySpace.pollerPath_ne_config serial
        (e.keys.path_injective g.2 g'.2 (hpath.symm.trans heq)).2
    · rintro v ⟨hkey, -⟩
      exact KeySpace.pollerPath_ne_config serial
        (e.keys.path_injective g.2 g.2 (hpath.symm.trans hkey)).2

/-- A look-up keeps templates fitting when it is done with the partials that are known. -/
theorem takes_lookup_fits {c : GroupConfig} {path : String} (hpath : path ≠ "config") :
    Takes (e.Fits possible (e.partialsOf g c)) (e.Fits possible (e.partialsOf g c))
      (e.lookup now g.1 c path) := by
  have hsteady := e.steady_fits possible (e.partialsOf g c) now fun _ _ hkey => ⟨g, hkey.1⟩
  have hne : ∀ v, ¬e.partialsOf g c (e.keys.path g.1 path) v :=
    fun v hv => hpath (e.keys.path_injective g.2 g.2 hv.1).2
  refine takes_lookup_steady hsource hsteady ?_ fun _ _ => .plain ⟨nofun, nofun⟩ nofun hne
  rintro cache value token sliding recheck h (rfl | ⟨template, rfl, hwith, rfl⟩)
  · exact .plain ⟨nofun, nofun⟩ nofun hne
  · refine ⟨⟨nofun, nofun⟩, ?_, fun v hv => absurd hv (hne v)⟩
    rintro _ - ⟨⟩
    exact ⟨g, rfl, rfl, .inr fun above habove => ⟨c, h.known _ c above ⟨rfl, rfl⟩ habove, hwith⟩⟩

/-- So does a look-up of the path of the partials: it may take them out, but a template is not
stored in their place. -/
theorem takes_lookup_config_fits {c : GroupConfig} :
    Takes (e.Fits possible nothing) (e.Fits possible nothing) (e.lookup now g.1 c "config") := by
  have hsteady := e.steady_fits possible nothing now nofun
  refine takes_lookup_steady hsource hsteady ?_ fun _ _ =>
    .plain ⟨nofun, nofun⟩ nofun fun _ => id
  rintro cache value token sliding recheck h (rfl | ⟨template, hpath, hwith, rfl⟩)
  · exact .plain ⟨nofun, nofun⟩ nofun fun _ => id
  · refine ⟨⟨nofun, nofun⟩, ?_, nofun⟩
    rintro _ - ⟨⟩
    exact ⟨g, by rw [hpath], rfl, .inl rfl⟩

theorem keeps_fits (now : Instant) :
    Workshop.Keeps e now (fun _ => True) (e.Fits possible nothing) := by
  have hweak : ∀ {known} s, e.Fits possible known s → e.Fits possible nothing s :=
    fun s hs => ⟨hs.1.with_known nofun, hs.2⟩
  have hsteady := e.steady_fits possible nothing now nofun
  refine ⟨fun g _ => (answers_config_fits hsource).takes fun _ => hweak,
    fun g _ name layout => takes_views (fun _ h => h) (answers_config_fits hsource)
      (fun c path hrooted => takes_lookup_fits hsource hrooted.ne_config) (fun _ => hweak) name
      layout,
    fun g _ path _ => takes_resolvePath (fun _ h => h) (answers_config_fits hsource) fun c => ?_,
    .bind (hsteady.remove _) fun _ =>
      .bind (hsteady.insert fun _ _ => .plain ⟨nofun, nofun⟩ nofun fun _ => id) fun _ => .pure _⟩
  by_cases hpath : path = "config"
  · subst hpath
    exact (takes_lookup_config_fits hsource).mono hweak fun _ h => h
  · exact (takes_lookup_fits hsource hpath).mono (fun _ h => h) hweak

end Engine

/-! ## Runs -/

namespace Workshop

variable {W : Type}

/-- **Every template was compiled with the partials that stand beside it.** After any run of a new
engine over any source, whose calls may fail and may change any file, in a cache that others may use
under keys of their own: a stored template hangs off the partials of its group, and it is what these
very partials make of a text that the source has read for its path. -/
theorem compiled_with_current {source : Source W} {site : Template.Library}
    {options : EngineOptions} {start : Instant} {s₀ s₁ : Session Entry (Poller W) W} {e : Engine W}
    {possible : W → Prop} (hsource : source.Keeps possible)
    (hcreate : Engine.create source site options start s₀ = (.ok e, s₁))
    (hlinked : s₀.cache.Linked)
    (hfree : ∀ key, e.keys.Owns key → s₀.cache.entries.get? key = none)
    (hhooks : ∀ key slot p, s₀.cache.entries.get? key = some slot → slot.options.hook = some p →
      p.source.Keeps possible)
    (hpossible : possible s₀.scene.world) {moves : List (Move W)}
    (hmoves : ∀ move ∈ moves, move.Within (fun key options => ¬e.keys.Owns key ∧
      ∀ p, options.hook = some p → p.source.Keeps possible) possible) :
    let cache := ((⟨e, start, s₁⟩ : Workshop W).run moves).session.cache
    ∀ key slot t, e.keys.Owns key → cache.entries.get? key = some slot → slot.value = .compiled t →
      ∃ (g : Group.Made) (above : Slot Entry (Poller W)) (v : GroupConfig),
        key = e.keys.path g.1 t.path ∧ cache.DependsOn key (e.keys.config g.1) ∧
          cache.entries.get? (e.keys.config g.1) = some above ∧ above.value = .config v ∧
            t.CompiledWith source possible v.library := by
  obtain ⟨⟨keys, rfl⟩, scene, hworld, rfl⟩ := Engine.create_eq_ok hcreate
  intro cache key slot t howns hget hvalue
  have hkeeps : ∀ site', ({ (⟨source, site, options, keys⟩ : Engine W) with
      site := site' } : Engine W).source.Keeps possible := fun _ => hsource
  have hstart : Engine.Fits ⟨source, site, options, keys⟩ possible Engine.nothing
      { s₀ with scene } := by
    refine ⟨⟨⟨hlinked, fun key slot hget => ⟨fun p => hhooks key slot p hget, ?_⟩, nofun⟩, ?_,
      nofun⟩, hworld.symm ▸ hpossible⟩
    · rintro snap - g rfl
      rw [hfree _ (keys.owns_config g)] at hget
      cases hget
    · intro key slot t howns hget
      rw [hfree key howns] at hget
      cases hget
  obtain ⟨-, hrun⟩ := run_keeps (σ := ⟨⟨source, site, options, keys⟩, start, _⟩)
    (P := fun _ => Engine.Fits ⟨source, site, options, keys⟩ possible Engine.nothing)
    (A := fun move => move.Within (fun key options => ¬keys.Owns key ∧
        ∀ p, options.hook = some p → p.source.Keeps possible) possible)
    (fun site' now => Engine.keeps_fits (hkeeps site') now) (fun _ _ _ => trivial)
    (fun now s r hr hs => (Engine.steady_fits _ possible Engine.nothing now nofun).perform hs r
      fun key value options hreq c _ => by
        have hothers : ¬keys.Owns key ∧ ∀ p, options.hook = some p → p.source.Keeps possible := by
          rcases hreq with rfl | rfl <;> exact hr
        exact ⟨⟨hothers.2, fun _ _ g heq => hothers.1 (heq ▸ keys.owns_config g)⟩,
          fun t howns => absurd howns hothers.1, nofun⟩)
    (fun _ _ _ hscene hs => ⟨hs.1, hscene⟩) (fun _ _ _ hs => hs) ⟨site, rfl⟩
    (Engine.takes_ensureGlobal_fits _ hstart) hmoves
  exact hrun.1.current howns hget hvalue

/-- A page that changes right behind the call that reads it was still compiled with the partials
that its group has. -/
theorem compiled_with_current_shelved :
    let σ := launched.run [.config home, .change (raced .read), .resolvePath home "~/page.hbs"]
    Engine.create shelver.source {} { keyPrefix := some "p" } 0 bare =
        (.ok shelver, launched.session) ∧
      ∃ slot, σ.session.cache.entries.get? (shelver.keys.path home.1 "~/page.hbs") = some slot ∧
        slot.value = .compiled (page older) ∧
        ∃ (g : Group.Made) (above : Slot Entry (Poller (Observed Memory))) (v : GroupConfig),
          shelver.keys.path home.1 "~/page.hbs" = shelver.keys.path g.1 (page older).path ∧
            σ.session.cache.entries.get? (shelver.keys.config g.1) = some above ∧
              above.value = .config v ∧
                (page older).CompiledWith shelver.source (fun _ => True) v.library := by
  intro σ
  have hσ : σ.session.cache = (shelved older).cache :=
    congrArg (fun τ : Workshop _ => τ.session.cache) (run_raced (.inr ⟨rfl, rfl⟩) nodes_older)
  have hmoves : ∀ move ∈ [.config home, .change (raced .read), .resolvePath home "~/page.hbs"],
      Move.Within (fun key options => ¬shelver.keys.Owns key ∧
        ∀ p : Poller (Observed Memory), options.hook = some p →
          p.source.Keeps fun _ => True) (fun _ => True) move := by
    simp [Move.Within]
  have hget : σ.session.cache.entries.get? (shelver.keys.path home.1 "~/page.hbs") =
      some ⟨.compiled (page older),
        shelver.guarded 0 home.1 none 0 shelver.options.timings.viewRecheck, 0⟩ := by
    rw [hσ]
    rfl
  have hhooks : ∀ key slot (p : Poller (Observed Memory)), bare.cache.entries.get? key = some slot →
      slot.options.hook = some p → p.source.Keeps fun _ => True := by
    rintro key slot p ⟨⟩
  obtain ⟨g, above, v, hkey, -, habove, hvalue, hwith⟩ := compiled_with_current
    (.trivial shelver.source) create_launched (.dropAll bare.cache) (fun _ _ => rfl) hhooks trivial
    hmoves _ _ _ (shelver.keys.owns_path home "~/page.hbs") hget rfl
  exact ⟨create_launched, _, hget, rfl, g, above, v, hkey, habove, hvalue, hwith⟩

end Workshop

end Templating
