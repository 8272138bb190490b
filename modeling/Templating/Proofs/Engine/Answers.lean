import Templating.Proofs.Engine.Work

/-!
# Answers about one path

In the middle of an operation for a group the engine has the group's partials `c` in hand. `Ready`
is what holds then: the session is sound, nothing else is stored for the group's partials, and, if
the past is `Settled`, they are as the files say, and so are the notes of what is missing. From
there on a look-up answers what the files say (`lookup_ready`).
-/

namespace Templating

namespace Ledger

variable (H : Ledger)

/-- Long enough has passed: since the last failure to compile where changes are signalled, and
since the last change where they are not. -/
def Settled : Prop :=
  (H.push = true → ∀ t ∈ H.failures, t + H.engine.options.timings.compileFailureRetry ≤ H.now) ∧
    (H.push = false → ∀ t, H.changed = some t → t + H.span ≤ H.now)

/-- The notes of what is missing are right or do not count. -/
def NotesRight (s : EngineSession) : Prop :=
  ∀ g : Group, g.WellNamed → ∀ path slot,
    s.cache.entries.get? (H.engine.keys.path g path) = some slot → slot.value = .missing →
      slot.hasFired s.scene.signals = true ∨ Plain.Absent s.scene.world.files path ∨
        ∃ deadline, slot.options.expiration = .absolute deadline ∧ deadline ≤ H.now

/-- What holds from the start of an operation on. -/
structure Begun (s : EngineSession) : Prop where
  sound : H.Sound strict s []
  counted : H.counted ≤ viewFailures s.scene.journal
  notes : H.Settled → H.NotesRight s

structure Ready (g : Group) (c : GroupConfig) (s : EngineSession) : Prop extends H.Begun s where
  current : ∀ w, s.cache.valueAt (H.engine.keys.config g) = some w → w = .config c
  right : H.Settled → c = Plain.config H.engine s.scene.world.files g

variable {H} {exempt : String → Prop} {s s' : EngineSession} {tasks : List EngineTask} {g : Group}
  {c : GroupConfig}

theorem Sound.isMissing {path : String} {slot : EngineSlot} (h : H.Sound exempt s tasks)
    (hg : g.WellNamed) (hget : s.cache.entries.get? (H.engine.keys.path g path) = some slot)
    (hvalue : slot.value = .missing) : H.Excused s.scene path slot := by
  cases h.fits _ slot hget with
  | missing g' path' hg' hkey hval hhook hexcused =>
    obtain ⟨rfl, rfl⟩ := H.engine.keys.path_injective hg hg' hkey
    exact hexcused
  | global hkey hval => rw [hval] at hvalue; cases hvalue
  | config g v hg hkey hval => rw [hval] at hvalue; cases hvalue
  | compiled g t source hg hkey hval => rw [hval] at hvalue; cases hvalue
  | poll g serial snap armed hg hpush hkey hval => rw [hval] at hvalue; cases hvalue

/-- At the start of an operation the notes are right, if the past is settled. -/
theorem Sound.notesRight (h : H.Sound exempt s tasks)
    (hcounted : H.counted = viewFailures s.scene.journal) (hsettled : H.Settled) :
    H.NotesRight s := by
  intro g hg path slot hget hvalue
  rcases h.isMissing hg hget hvalue with hfired | ⟨t, -, -, habsent⟩ |
      ⟨deadline, hexp, -, hwhen, hfailed⟩
  · exact .inl hfired
  · exact .inr (.inl habsent)
  · cases hpush : H.push with
    | true =>
      obtain ⟨t, ht, rfl⟩ := hfailed hpush
      rcases ht with ht | ⟨-, hlt⟩
      · exact .inr (.inr ⟨_, hexp, hsettled.1 hpush t ht⟩)
      · exact absurd hlt (by rw [hcounted]; exact Nat.lt_irrefl _)
    | false =>
      rcases hwhen with habsent | ⟨t, ht, hle⟩
      · exact .inr (.inl habsent)
      · exact .inr (.inr ⟨_, hexp, Nat.le_trans hle (hsettled.2 hpush t ht)⟩)

theorem NotesRight.gains {new : String → Entry → Options (Poller Memory) → Prop}
    (h : H.NotesRight s) (hgains : Gains new s s')
    (hnew : ∀ g : Group, g.WellNamed → ∀ path o,
      new (H.engine.keys.path g path) .missing o → Plain.Absent s.scene.world.files path) :
    H.NotesRight s' := by
  intro g hg path slot' hget hvalue
  rw [hgains.calm.files]
  rcases hgains.entries _ slot' hget with ⟨slot, hold, hval, hoptions⟩ | ⟨snap, hpoll⟩ | hin
  · rw [hasFired_congr hgains.calm hoptions, hoptions]
    exact h g hg path slot hold (hval.symm.trans hvalue)
  · rw [hvalue] at hpoll
    cases hpoll
  · rw [hvalue] at hin
    exact .inr (.inl (hnew g hg path slot'.options hin))

/-- What stands under the key of partials is no poller. -/
theorem Gains.valueAt_config {new : String → Entry → Options (Poller Memory) → Prop}
    (hgains : Gains new s s') (hs' : H.Sound exempt s' tasks) (hg : g.WellNamed) {w : Entry}
    (hw : s'.cache.valueAt (H.engine.keys.config g) = some w) :
    s.cache.valueAt (H.engine.keys.config g) = some w ∨
      ∃ o, new (H.engine.keys.config g) w o := by
  obtain ⟨slot', hget, rfl⟩ := Cache.valueAt_eq_some.1 hw
  rcases hgains.entries _ slot' hget with ⟨slot, hold, hval, -⟩ | ⟨snap, hpoll⟩ | hin
  · exact .inl (Cache.valueAt_eq_some.2 ⟨slot, hold, hval.symm⟩)
  · refine absurd hpoll (hs'.not_poll (fun _ g' serial hg' => ?_) slot' snap hget)
    exact Sound.config_ne_poller H hg hg' serial
  · exact .inr ⟨slot'.options, hin⟩

theorem Begun.gains {new : String → Entry → Options (Poller Memory) → Prop} (h : H.Begun s)
    (hworks : Sound.Works H strict new s s')
    (hnotes : ∀ g : Group, g.WellNamed → ∀ path o,
      new (H.engine.keys.path g path) .missing o → Plain.Absent s.scene.world.files path) :
    H.Begun s' where
  sound := hworks.sound
  counted := Nat.le_trans h.counted (viewFailures_mono hworks.gains.calm.journal)
  notes hsettled := (h.notes hsettled).gains hworks.gains hnotes

theorem Begun.wanes (h : H.Begun s) (hworks : Sound.Works H strict (fun _ _ _ => False) s s') :
    H.Begun s' :=
  h.gains hworks fun _ _ _ _ hin => hin.elim

theorem Begun.undisturbed (h : H.Begun s) {scene : Scene Memory}
    (hu : Memory.Undisturbed s.scene scene) : H.Begun { s with scene } :=
  h.wanes ⟨h.sound.undisturbed hu, .scene s hu.toCalm⟩

/-- The engine stays ready when nothing comes in but true notes and templates. -/
theorem Ready.gains {new : String → Entry → Options (Poller Memory) → Prop} (h : H.Ready g c s)
    (hg : g.WellNamed) (hworks : Sound.Works H strict new s s')
    (hconfig : ∀ w o, ¬new (H.engine.keys.config g) w o)
    (hnotes : ∀ g : Group, g.WellNamed → ∀ path o,
      new (H.engine.keys.path g path) .missing o → Plain.Absent s.scene.world.files path) :
    H.Ready g c s' where
  toBegun := h.toBegun.gains hworks hnotes
  current w hw := by
    rcases Gains.valueAt_config hworks.gains hworks.sound hg hw with hold | ⟨o, hin⟩
    · exact h.current w hold
    · exact absurd hin (hconfig w o)
  right hsettled := by
    rw [hworks.gains.calm.files]
    exact h.right hsettled

theorem Ready.wanes (h : H.Ready g c s) (hg : g.WellNamed)
    (hworks : Sound.Works H strict (fun _ _ _ => False) s s') : H.Ready g c s' :=
  h.gains hg hworks (fun _ _ hin => hin) fun _ _ _ _ hin => hin.elim

theorem Ready.undisturbed (h : H.Ready g c s) (hg : g.WellNamed) {scene : Scene Memory}
    (hu : Memory.Undisturbed s.scene scene) : H.Ready g c { s with scene } :=
  h.wanes hg ⟨h.sound.undisturbed hu, .scene s hu.toCalm⟩

/-! ## What a path answers -/

theorem toOption_compile {library library' : Template.Library} {path source : String} :
    (library.compile path source).toOption = none →
      (library'.compile path source).toOption = none := by
  unfold Template.Library.compile
  cases Template.Node.ofSource? source with
  | none => exact fun _ => rfl
  | some nodes => exact fun h => (by cases h)

/-- Whether there is a template at a path does not depend on the library. -/
theorem absent_of_template {push : Bool} {files : List (String × String)}
    {library : Template.Library} {path : String}
    (h : Plain.template push files library path = none) : Plain.Absent files path := by
  intro push' library'
  unfold Plain.template at h ⊢
  cases hfile : files.lookup path with
  | none => rfl
  | some source =>
    rw [hfile] at h
    exact Option.map_eq_none_iff.2 (toOption_compile (Option.map_eq_none_iff.1 h))

/-- What a request about one path brings about. -/
structure Answered (H : Ledger) (g : Group) (c : GroupConfig) (path : String) (s : EngineSession)
    (r : Option Template.Compiled × EngineSession) : Prop where
  sound : H.Sound strict r.2 []
  calm : Memory.Calm s.scene r.2.scene
  ready : path ≠ "config" → H.Ready g c r.2
  answer : H.Settled → r.1 = Plain.template H.push s.scene.world.files c.library path

/-- The path is not that of a poller. -/
def Spared (H : Ledger) (path : String) : Prop :=
  H.push = false → ∀ serial, path ≠ KeySpace.pollerPath serial

theorem Spared.key {path : String} (h : H.Spared path) (hg : g.WellNamed) :
    H.push = false → ∀ (g' : Group) (serial : Nat), g'.WellNamed →
      H.engine.keys.path g path ≠ H.engine.keys.path g' (KeySpace.pollerPath serial) :=
  fun hpush _ serial hg' heq => h hpush serial (H.engine.keys.path_injective hg hg' heq).2

/-- **An answer is kept**: a template, or a note that there is none. -/
theorem Ready.keep (h : H.Ready g c s) (hg : g.WellNamed) {path : String} (hpath : H.Spared path)
    {value : Entry} {options : Options (Poller Memory)} (hvalue : ∀ v, value ≠ .config v)
    (habsent : value = .missing → Plain.Absent s.scene.world.files path)
    (hfits : (s.cache.cleared (H.engine.keys.path g path)).1.refuses s.scene.signals
        (H.engine.keys.path g path) options = false →
      H.Fits s.scene ((s.cache.cleared (H.engine.keys.path g path)).1.link H.now
        (H.engine.keys.path g path) value options).valueAt (H.engine.keys.path g path)
        ⟨value, options, (s.cache.cleared (H.engine.keys.path g path)).1.millis H.now⟩)
    {answer : Option Template.Compiled}
    (hanswer : answer = Plain.template H.push s.scene.world.files c.library path) :
    H.Answered g c path s (answer, (Session.insert (Poller.moment H.now)
      (H.engine.keys.path g path) value options s).2) := by
  obtain ⟨⟨hsound, hgains⟩, -⟩ := h.sound.inserted (hpath.key hg) value options hfits
  have hstrict : H.Sound strict (Session.insert (Poller.moment H.now)
      (H.engine.keys.path g path) value options s).2 [] :=
    hsound.exempting fun k v hk _ => by
      rcases hk with hk | ⟨-, -, v', hv'⟩
      · exact hk.elim
      · exact absurd hv' (hvalue v')
  refine ⟨hstrict, hgains.calm, fun hne => h.gains hg ⟨hstrict, hgains⟩ ?_ ?_, fun _ => hanswer⟩
  · rintro w o ⟨hkey, -⟩
    exact hne (H.engine.keys.path_injective hg hg hkey).2.symm
  · rintro g' hg' path' o ⟨hkey, hmissing, -⟩
    rw [(H.engine.keys.path_injective hg' hg hkey).2]
    exact habsent hmissing.symm

/-- Where changes are signalled the token tells of the path, and elsewhere there is none. -/
structure Told (H : Ledger) (path : String) (token : Option Token) (scene : Scene Memory) :
    Prop where
  watched : H.push = true → ∃ t, token = some t ∧ (path, t) ∈ scene.world.attended
  silent : H.push = false → token = none

theorem Told.mono {path : String} {token : Option Token} {scene scene' : Scene Memory}
    (h : H.Told path token scene) (hcalm : Memory.Calm scene scene') :
    H.Told path token scene' where
  watched hpush := by
    obtain ⟨t, ht, hw⟩ := h.watched hpush
    exact ⟨t, ht, hcalm.watchers _ hw⟩
  silent := h.silent

theorem Ready.keepMissing (h : H.Ready g c s) (hg : g.WellNamed) {path : String}
    (hpath : H.Spared path) {token : Option Token} (htoken : H.Told path token s.scene)
    (hfile : s.scene.world.files.lookup path = none) :
    H.Answered g c path s (none, (H.engine.rememberMissing H.now g path token s).2) := by
  have habsent : Plain.Absent s.scene.world.files path := by
    intro push library
    rw [Plain.template, hfile]
    rfl
  refine h.keep hg hpath (fun _ hv => (by cases hv)) (fun _ => habsent) (fun _ => ?_)
    (habsent _ _).symm
  refine .missing g path hg rfl rfl rfl ?_
  cases hpush : H.push with
  | true =>
    obtain ⟨t, rfl, hw⟩ := htoken.watched hpush
    exact .inr (.inl ⟨t, List.mem_singleton_self t, hw, habsent⟩)
  | false =>
    have hnone := htoken.silent hpush
    subst hnone
    refine .inr (.inr ⟨_, rfl, ?_, .inl habsent, ?_⟩)
    · exact Nat.add_le_add_left (Nat.le_trans (Nat.le_max_left _ _) (Nat.le_max_right _ _)) _
    · intro hp
      rw [hpush] at hp
      cases hp

theorem Ready.keepBroken (h : H.Ready g c s) (hg : g.WellNamed) {path : String}
    (hpath : H.Spared path)
    (hnone : Plain.template H.push s.scene.world.files c.library path = none)
    (hfailed : H.counted < viewFailures s.scene.journal) :
    H.Answered g c path s (none, (H.engine.rememberBroken H.now g path s).2) := by
  have habsent := absent_of_template hnone
  refine h.keep hg hpath (fun _ hv => (by cases hv)) (fun _ => habsent) (fun _ => ?_) hnone.symm
  refine .missing g path hg rfl rfl rfl (.inr (.inr ⟨_, rfl, ?_, .inl habsent, ?_⟩))
  · exact Nat.add_le_add_left (Nat.le_trans (Nat.le_max_right _ _) (Nat.le_max_right _ _)) _
  · intro _
    exact ⟨H.now, .inr ⟨rfl, hfailed⟩, rfl⟩

theorem Ready.keepCompiled (h : H.Ready g c s) (hg : g.WellNamed) {t : Template.Compiled}
    (hpath : H.Spared t.path) {token : Option Token} (htoken : H.Told t.path token s.scene)
    {source : String} (hfile : s.scene.world.files.lookup t.path = some source)
    (hmade : Plain.compile H.push c.library t.path source = some t) :
    H.Answered g c t.path s (some t, (H.engine.rememberCompiled H.now g token t s).2) := by
  have htemplate : some t = Plain.template H.push s.scene.world.files c.library t.path := by
    rw [Plain.template, hfile]
    exact hmade.symm
  unfold Engine.rememberCompiled
  cases H.engine.options.viewsSliding with
  | none => exact ⟨h.sound, .refl _, fun _ => h, fun _ => htemplate⟩
  | some sliding =>
    refine h.keep hg hpath (fun _ hv => (by cases hv)) (fun hv => (by cases hv)) (fun hvalid => ?_)
      htemplate
    refine .compiled g t source hg rfl rfl rfl rfl ?_
      (h.sound.contents t.path source hfile) fun hpush => .inr ⟨hfile, ?_⟩
    · -- The template hangs off the partials in hand, or it is refused.
      intro w hw
      have hne : H.engine.keys.config g ≠ H.engine.keys.path g t.path :=
        ((Cache.not_refuses hvalid).1 _ (List.mem_singleton_self _)).1
      rw [Sound.valueAt_link, if_neg hne] at hw
      obtain ⟨slot, hget, hval⟩ := Cache.valueAt_eq_some.1 hw
      have hkept := (Cache.kept_of_cleared h.sound.linked _ hget).2
      exact ⟨c, h.current w (Cache.valueAt_eq_some.2 ⟨slot, hkept, hval⟩), hmade⟩
    · obtain ⟨t', rfl, hw⟩ := htoken.watched hpush
      exact ⟨t', List.mem_singleton_self t', hw⟩

theorem Answered.after {path : String} {u : EngineSession}
    {r : Option Template.Compiled × EngineSession} (h : H.Answered g c path u r)
    (hcalm : Memory.Calm s.scene u.scene) : H.Answered g c path s r where
  sound := h.sound
  calm := hcalm.trans h.calm
  ready := h.ready
  answer hsettled := by
    rw [← hcalm.files]
    exact h.answer hsettled

theorem note_apply (e : Event) (s : EngineSession) :
    Session.note e s = ((), { s with scene := s.scene.note e }) := rfl

theorem Ready.compile (h : H.Ready g c s) (hg : g.WellNamed) {path : String}
    (hpath : H.Spared path) {token : Option Token} (htoken : H.Told path token s.scene)
    {source : String} (hfile : s.scene.world.files.lookup path = some source) :
    H.Answered g c path s (H.engine.compile H.now g c path token s) := by
  simp only [Engine.compile, bind_apply, Session.onScene, H.source, read_source, Memory.read, hfile]
  have hnoted : ∀ succeeded, H.Ready g c
      { s with scene := s.scene.note (.compiled .view succeeded) } := fun succeeded =>
    h.undisturbed hg (.note s.scene _)
  cases hrender : (c.library.compile path source).toOption with
  | none =>
    have hnone : Plain.template H.push s.scene.world.files c.library path = none := by
      simp only [Plain.template, hfile, Option.bind_some, Plain.compile, hrender, Option.map_none]
    have hfailed : H.counted < viewFailures (s.scene.note (.compiled .view false)).journal := by
      have hcount : viewFailures (s.scene.note (.compiled .view false)).journal =
          viewFailures s.scene.journal + 1 := List.count_cons_self
      have hbefore := h.counted
      omega
    exact ((hnoted false).keepBroken hg hpath hnone hfailed).after (.note s.scene _)
  | some render =>
    have hkept : ∀ fingerprint, (if H.push then none else some (Memory.digest source)) =
        fingerprint → ∀ layout, (Template.Declaration.scan source).name? = layout →
          H.Answered g c path { s with scene := s.scene.note (.compiled .view true) }
            (some ⟨path, render, fingerprint, layout⟩, (H.engine.rememberCompiled H.now g token
              ⟨path, render, fingerprint, layout⟩
              { s with scene := s.scene.note (.compiled .view true) }).2) := by
      rintro fingerprint rfl layout rfl
      refine (hnoted true).keepCompiled (t := ⟨path, render, _, _⟩) hg hpath
        (htoken.mono (.note s.scene _)) hfile ?_
      simp only [Plain.compile, hrender, Option.map_some]
    refine Answered.after (u := { s with scene := s.scene.note (.compiled .view true) }) ?_
      (.note s.scene _)
    cases hpush : H.push with
    | true =>
      obtain ⟨t, rfl, -⟩ := htoken.watched hpush
      exact hkept none (by rw [hpush, if_pos rfl]) _ rfl
    | false =>
      have hnone := htoken.silent hpush
      subst hnone
      have hread : (s.scene.note (.compiled .view true)).world.read path = .ok source := by
        have hlookup : (s.scene.note (.compiled .view true)).world.files.lookup path =
            some source := hfile
        rw [Memory.read, hlookup]
      simp only [note_apply, Option.map_some, Option.isSome_some, Option.isSome_none,
        Bool.false_eq_true, if_false, bind_apply, Session.onScene, fingerprint_source, hread,
        Except.map]
      exact hkept _ (by rw [hpush, if_neg Bool.false_ne_true]) _ rfl

theorem Sound.told (h : H.Sound exempt s tasks) (path : String) :
    H.Told path (Memory.watch path s.scene).1 (Memory.watch path s.scene).2 where
  watched hpush := Memory.watch_of_push (h.push.trans hpush) path
  silent hpush := by rw [Memory.watch_of_not_push (h.push.trans hpush)]

theorem Ready.ask (h : H.Ready g c s) (hg : g.WellNamed) {path : String} (hpath : H.Spared path) :
    H.Answered g c path s (H.engine.ask H.now g c path s) := by
  have hwatch := Memory.undisturbed_watch path s.scene
  have hready := h.undisturbed hg hwatch
  have htold := h.sound.told path
  refine Answered.after (u := { s with scene := (Memory.watch path s.scene).2 }) ?_ hwatch.toCalm
  unfold Engine.ask
  rw [H.source]
  change H.Answered g c path _ ((if ((Memory.watch path s.scene).2.world.files.lookup path).isSome
    then H.engine.compile H.now g c path (Memory.watch path s.scene).1
    else do
      H.engine.rememberMissing H.now g path (Memory.watch path s.scene).1
      return none) { s with scene := (Memory.watch path s.scene).2 })
  cases hfile : (Memory.watch path s.scene).2.world.files.lookup path with
  | none =>
    rw [if_neg (by rw [Option.isSome_none]; exact Bool.false_ne_true)]
    exact hready.keepMissing hg hpath htold hfile
  | some source =>
    rw [if_pos Option.isSome_some]
    exact hready.compile hg hpath htold hfile

/-! ## Asking the cache first -/

/-- A live entry for a path says what the files say. -/
theorem Ready.missing (h : H.Ready g c s) (hg : g.WellNamed) (hlive : AllLive H.now s)
    {path : String} {slot : EngineSlot}
    (hget : s.cache.entries.get? (H.engine.keys.path g path) = some slot)
    (hvalue : slot.value = .missing) (hsettled : H.Settled) :
    Plain.Absent s.scene.world.files path := by
  obtain ⟨hnotExpired, hnotFired⟩ := hlive.neither hget
  rcases h.notes hsettled g hg path slot hget hvalue with hfired | habsent | ⟨deadline, hexp, hle⟩
  · rw [hnotFired] at hfired
    cases hfired
  · exact habsent
  · have hexpired : slot.isExpired s.cache.epoch H.now = true := by
      rw [Slot.isExpired, Slot.deadline?, hexp]
      exact decide_eq_true hle
    rw [hnotExpired] at hexpired
    cases hexpired

theorem Ready.compiled (h : H.Ready g c s) (hg : g.WellNamed) {path : String} {slot : EngineSlot}
    {t : Template.Compiled} (hget : s.cache.entries.get? (H.engine.keys.path g path) = some slot)
    (hvalue : slot.value = .compiled t) :
    ∃ source, source ∈ H.contents ∧ Plain.compile H.push c.library path source = some t ∧
      (H.push = true → slot.hasFired s.scene.signals = true ∨
        s.scene.world.files.lookup path = some source) := by
  cases h.sound.fits _ slot hget with
  | compiled g' t' source hg' hkey hval hhook hkeys hmade hsource hcurrent =>
    rw [hval] at hvalue
    cases hvalue
    obtain ⟨rfl, rfl⟩ := H.engine.keys.path_injective hg hg' hkey
    -- What a stored entry depends on is stored: the partials in hand.
    have hparent := h.sound.linked.parent_stored _ _
      ((h.sound.linked.recorded _ slot hget (H.engine.keys.config g)).2
        (by rw [hkeys]; exact List.mem_singleton_self _))
    obtain ⟨parent, hparent⟩ := Option.isSome_iff_exists.1 hparent
    have hstored := Cache.valueAt_eq_some.2 ⟨parent, hparent, rfl⟩
    have hc := h.current _ hstored
    obtain ⟨v, hv, hmade⟩ := hmade _ hstored
    rw [hc] at hv
    cases hv
    exact ⟨source, hsource, hmade, fun hpush => (hcurrent hpush).imp_right And.left⟩
  | global hkey hval => rw [hval] at hvalue; cases hvalue
  | config g v hg hkey hval => rw [hval] at hvalue; cases hvalue
  | missing g path hg hkey hval => rw [hval] at hvalue; cases hvalue
  | poll g serial snap armed hg hpush hkey hval => rw [hval] at hvalue; cases hvalue

theorem hasFingerprint_eq (H : Ledger) (path expected : String) (s : EngineSession) :
    H.engine.hasFingerprint path expected s =
      ((s.scene.world.files.lookup path).any fun source => Memory.digest source == expected,
        s) := by
  unfold Engine.hasFingerprint
  rw [H.source, bind_apply]
  have hread : Session.onScene (Memory.source.fingerprint path) s =
      ((s.scene.world.read path).map Memory.digest, s) := rfl
  rw [hread, Memory.read]
  cases s.scene.world.files.lookup path <;> rfl

/-- Where changes are signalled, a live template is what the file makes. -/
theorem Ready.current_of_live (h : H.Ready g c s) (hg : g.WellNamed) (hlive : AllLive H.now s)
    {path : String} {slot : EngineSlot} {t : Template.Compiled}
    (hget : s.cache.entries.get? (H.engine.keys.path g path) = some slot)
    (hvalue : slot.value = .compiled t) (hpush : H.push = true) :
    Plain.template H.push s.scene.world.files c.library path = some t := by
  obtain ⟨source, -, hmade, hcurrent⟩ := h.compiled hg hget hvalue
  have hfile : s.scene.world.files.lookup path = some source := by
    apply (hcurrent hpush).resolve_left
    intro hfired
    rw [(hlive.neither hget).2] at hfired
    cases hfired
  rw [Plain.template, hfile]
  exact hmade

/-- **A kept template is checked**: it is still right when the file has its fingerprint, and
otherwise it is dropped and the file asked for. -/
theorem Ready.recheck (h : H.Ready g c s) (hg : g.WellNamed) {path : String} (hpath : H.Spared path)
    {t : Template.Compiled} {source : String} (hsource : source ∈ H.contents)
    (hmade : Plain.compile H.push c.library path source = some t) (hpush : H.push = false) :
    H.Answered g c path s ((do
      if ← H.engine.hasFingerprint path (Memory.digest source) then return some t
      else
        let _ ← Session.remove (Poller.moment H.now) (H.engine.keys.path g path)
        H.engine.ask H.now g c path : Resolving Memory (Option Template.Compiled)) s) := by
  rw [bind_apply, hasFingerprint_eq]
  split
  · next hsame =>
    obtain ⟨current, hfile, hdigest⟩ := (Option.any_eq_true _ _).1 hsame
    have hcontents := h.sound.contents path current hfile
    rw [H.distinct hpush hcontents hsource (beq_iff_eq.1 hdigest)] at hfile
    refine ⟨h.sound, .refl s.scene, fun _ => h, fun _ => ?_⟩
    rw [Plain.template, hfile]
    exact hmade.symm
  · obtain ⟨hremoved, -⟩ := h.sound.removed (hpath.key hg)
    exact ((h.wanes hg hremoved).ask hg hpath).after hremoved.gains.calm

/-- **A look-up** answers what the files say, if the past is settled. -/
theorem Ready.lookup (h : H.Ready g c s) (hg : g.WellNamed) {path : String}
    (hpath : H.Spared path) :
    H.Answered g c path s (H.engine.lookup H.now g c path s) := by
  obtain ⟨hmaintained, hlive⟩ := h.sound.maintained
  obtain ⟨hworks, hwanes, hanswer⟩ := h.sound.got (H.engine.keys.path g path)
  have hbefore := h.wanes hg hmaintained
  have hafter := h.wanes hg hworks
  unfold Engine.lookup
  rw [bind_apply, hanswer]
  have hasked := (hafter.ask hg hpath).after hworks.gains.calm
  cases hvalue : (s.maintain (Poller.moment H.now)).cache.valueAt (H.engine.keys.path g path) with
  | none => exact hasked
  | some value =>
    obtain ⟨slot, hget, rfl⟩ := Cache.valueAt_eq_some.1 hvalue
    cases hkind : slot.value with
    | global => exact hasked
    | config v => exact hasked
    | poll snap => exact hasked
    | missing =>
      refine ⟨hworks.sound, hworks.gains.calm, fun _ => hafter, fun hsettled => ?_⟩
      have habsent := hbefore.missing hg hlive hget hkind hsettled
      rw [hmaintained.gains.calm.files] at habsent
      exact (habsent _ _).symm
    | compiled t =>
      obtain ⟨source, hsource, hmade, -⟩ := hbefore.compiled hg hget hkind
      have hsigned : t.fingerprint = if H.push then none else some (Memory.digest source) := by
        obtain ⟨render, -, rfl⟩ := Option.map_eq_some_iff.1 hmade
        rfl
      simp only
      cases hpush : H.push with
      | true =>
        rw [hsigned, hpush, if_pos rfl]
        refine ⟨hworks.sound, hworks.gains.calm, fun _ => hafter, fun _ => ?_⟩
        rw [← hmaintained.gains.calm.files]
        exact (hbefore.current_of_live hg hlive hget hkind hpush).symm
      | false =>
        rw [hsigned, hpush, if_neg Bool.false_ne_true]
        exact (hafter.recheck hg hpath hsource hmade hpush).after hworks.gains.calm

end Ledger

end Templating
