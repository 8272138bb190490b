import Templating.Proofs.Engine.Sound

/-!
# Sound sessions at work

The operations on a session, with all that the hooks of pollers ask for, keep it sound. `Gains` says
what may have come into the cache meanwhile: pollers that were put back, and what was asked for.
-/

namespace Templating

/-- Of what is stored, only pollers and what `new` allows has come in. -/
structure Gains (new : String → Entry → Options (Poller Memory) → Prop) (s s' : EngineSession) :
    Prop where
  epoch : s'.cache.epoch = s.cache.epoch
  calm : Memory.Calm s.scene s'.scene
  entries : ∀ key slot', s'.cache.entries.get? key = some slot' →
    (∃ slot, s.cache.entries.get? key = some slot ∧ slot'.value = slot.value ∧
      slot'.options = slot.options) ∨
    (∃ snap, slot'.value = .poll snap) ∨ new key slot'.value slot'.options

/-- Nothing has come in but pollers. -/
abbrev Wanes : EngineSession → EngineSession → Prop := Gains fun _ _ _ => False

/-- Every stored entry is live. -/
def AllLive (now : Instant) (s : EngineSession) : Prop :=
  ∀ key slot, s.cache.entries.get? key = some slot →
    slot.isLive s.cache.epoch now s.scene.signals = true

namespace Gains

variable {new : String → Entry → Options (Poller Memory) → Prop} {s s' s'' : EngineSession}

theorem refl (s : EngineSession) : Wanes s s :=
  ⟨rfl, .refl s.scene, fun _ slot hget => .inl ⟨slot, hget, rfl, rfl⟩⟩

theorem trans {new' : String → Entry → Options (Poller Memory) → Prop} (h : Gains new s s')
    (h' : Gains new' s' s'') :
    Gains (fun key value options => new key value options ∨ new' key value options) s s'' where
  epoch := h'.epoch.trans h.epoch
  calm := h.calm.trans h'.calm
  entries key slot'' hget := by
    rcases h'.entries key slot'' hget with ⟨slot', hget', hvalue, hoptions⟩ | hpoll | hnew
    · rw [hvalue, hoptions]
      rcases h.entries key slot' hget' with hold | hpoll | hnew
      · exact .inl hold
      · exact .inr (.inl hpoll)
      · exact .inr (.inr (.inl hnew))
    · exact .inr (.inl hpoll)
    · exact .inr (.inr (.inr hnew))

theorem mono {new' : String → Entry → Options (Poller Memory) → Prop} (h : Gains new s s')
    (hnew : ∀ key value options, new key value options → new' key value options) :
    Gains new' s s' :=
  ⟨h.epoch, h.calm, fun key slot hget => (h.entries key slot hget).imp_right
    (Or.imp_right (hnew key slot.value slot.options))⟩

theorem wane (h : Gains new s s') (h' : Wanes s' s'') : Gains new s s'' :=
  (h.trans h').mono fun _ _ _ hnew => hnew.resolve_right id

theorem after_wane (h : Wanes s s') (h' : Gains new s' s'') : Gains new s s'' :=
  (h.trans h').mono fun _ _ _ hnew => hnew.resolve_left id

theorem of_poll {key : String} {snap : Snapshot} {options : Options (Poller Memory)}
    (h : Gains (fun k v o => k = key ∧ v = .poll snap ∧ o = options) s s') : Wanes s s' :=
  ⟨h.epoch, h.calm, fun k slot hget =>
    (h.entries k slot hget).imp_right fun hnew => .inl (hnew.elim id fun ⟨_, hvalue, _⟩ =>
      ⟨snap, hvalue⟩)⟩

theorem scene (s : EngineSession) {scene : Scene Memory} (hcalm : Memory.Calm s.scene scene) :
    Wanes s { s with scene } :=
  ⟨rfl, hcalm, fun _ slot hget => .inl ⟨slot, hget, rfl, rfl⟩⟩

theorem note (s : EngineSession) (e : Event) : Wanes s { s with scene := s.scene.note e } :=
  scene s (.note s.scene e)

theorem of_kept {cache : EngineCache} (hepoch : cache.epoch = s.cache.epoch)
    (hkept : ∀ key slot, cache.entries.get? key = some slot →
      s.cache.entries.get? key = some slot) : Wanes s { s with cache } :=
  ⟨hepoch, .refl s.scene, fun key slot hget => .inl ⟨slot, hkept key slot hget, rfl, rfl⟩⟩

end Gains

namespace AllLive

theorem neither {now : Instant} {s : EngineSession} (h : AllLive now s) {key : String}
    {slot : EngineSlot} (hget : s.cache.entries.get? key = some slot) :
    slot.isExpired s.cache.epoch now = false ∧ slot.hasFired s.scene.signals = false := by
  have hlive := h key slot hget
  rwa [Slot.isLive, Bool.and_eq_true, Bool.not_eq_true', Bool.not_eq_true'] at hlive

theorem of_wanes {now : Instant} {s : EngineSession} (h : AllLive now s)
    {cache : EngineCache} {scene : Scene Memory} (hepoch : cache.epoch = s.cache.epoch)
    (hcalm : Memory.Calm s.scene scene)
    (hkept : ∀ key slot, cache.entries.get? key = some slot →
      s.cache.entries.get? key = some slot) : AllLive now ⟨cache, scene⟩ := by
  intro key slot hget
  have hlive := h key slot (hkept key slot hget)
  have hfired : slot.hasFired scene.signals = slot.hasFired s.scene.signals :=
    Ledger.hasFired_congr hcalm rfl
  unfold Slot.isLive at hlive ⊢
  rwa [hepoch, hfired]

end AllLive

/-! ## Putting an entry in -/

theorem Timings.poll_pos (t : Timings) : 0 < t.poll := by
  have hone : 1 ≤ max 1 t.pollMs := Nat.le_max_left ..
  unfold poll Duration.ofMillis
  exact Nat.mul_pos hone (Nat.succ_pos 999999)

/-- A poller that was just armed is not due. -/
theorem isLive_armed (p : Poller Memory) (hp : 0 < p.interval) (now : Instant) (configKey : String)
    (value : Entry) (touched : Nat) (epoch : Instant) (signals : Signals) :
    (Slot.mk value (p.options now configKey) touched).isLive epoch now signals = true := by
  have hlater : ¬now + p.interval ≤ now := Nat.not_le.2 (Nat.lt_add_of_pos_right hp)
  unfold Slot.isLive Slot.isExpired Slot.hasFired
  simp only [Poller.options, Slot.deadline?, Option.any_some, hlater, decide_false, List.any_nil,
    Bool.not_false, Bool.and_self]

theorem isExpired_armed {p : Poller Memory} {armed now : Instant} {configKey : String}
    {slot : EngineSlot} (hoptions : slot.options = p.options armed configKey)
    (h : armed + p.interval ≤ now) (epoch : Instant) : slot.isExpired epoch now = true := by
  unfold Slot.isExpired Slot.deadline?
  rw [hoptions]
  simp only [Poller.options, Option.any_some]
  exact decide_eq_true h

/-- What a poller decides when its interval is over. -/
theorem Ledger.check_expired (H : Ledger) (snap : Snapshot) (scene : Scene Memory)
    (h : Sorted.Ascending scene.world.files) :
    H.engine.poller.check H.now snap .expired scene =
      if (snap.isUnchanged Memory.source H.engine.options.extension scene).1 then
        (.reinsert (.poll snap) (H.engine.poller.options H.now snap.configKey),
          scene.note (.polled .rearmed))
      else (.remove [snap.configKey], scene.note (.polled .changed)) := by
  have hscene := snap.isUnchanged_source H.engine.options.extension h
  simp only [Poller.check, Engine.poller, H.source, bind_apply]
  split
  · rw [bind_apply, hscene]
    rfl
  · rw [bind_apply, hscene]
    rfl

/-- A poller has what it guards removed, unless its interval is over and the folders are as it
remembers them: then it asks to be put back. -/
theorem Ledger.decide_poll (H : Ledger) {value : Entry} {snap : Snapshot}
    (hvalue : value = .poll snap) (key : String) (reason : Reason) (scene : Scene Memory)
    (h : Sorted.Ascending scene.world.files) :
    (∃ outcome, (Poller.moment H.now).decide H.engine.poller key value reason scene =
      (.remove [snap.configKey], scene.note (.polled outcome))) ∨
    reason = .expired ∧
      (snap.isUnchanged Memory.source H.engine.options.extension scene).1 = true ∧
      (Poller.moment H.now).decide H.engine.poller key value reason scene =
        (.reinsert (.poll snap) (H.engine.poller.options H.now snap.configKey),
          scene.note (.polled .rearmed)) := by
  subst hvalue
  cases reason with
  | dependencyChanged => exact .inl ⟨.released, rfl⟩
  | expired =>
    have hcheck := H.check_expired snap scene h
    cases hsame : (snap.isUnchanged Memory.source H.engine.options.extension scene).1 with
    | false =>
      rw [hsame, if_neg Bool.false_ne_true] at hcheck
      exact .inl ⟨.changed, hcheck⟩
    | true =>
      rw [hsame, if_pos rfl] at hcheck
      exact .inr ⟨rfl, rfl, hcheck⟩

namespace Ledger.Sound

variable {H : Ledger} {exempt exempt₁ exempt' : String → Prop} {s : EngineSession}
  {tasks : List EngineTask}

theorem noteIf (h : H.Sound exempt s tasks) (condition : Bool) (e : Event) :
    H.Sound exempt { s with scene := s.scene.noteIf condition e } tasks := by
  unfold Scene.noteIf
  split
  · exact h.note e
  · exact h

/-- **An insertion.** The entry that was under the key leaves first. -/
theorem place (h : H.Sound exempt s tasks) (key : String) (value : Entry)
    (options : Options (Poller Memory)) (hexempt : ∀ k, exempt k → exempt₁ k)
    (hlost : ∀ slot snap, s.cache.entries.get? key = some slot → slot.value = .poll snap →
      exempt₁ snap.configKey)
    (hfits : (s.cache.cleared key).1.refuses s.scene.signals key options = false →
      H.Fits s.scene ((s.cache.cleared key).1.link H.now key value options).valueAt key
        ⟨value, options, (s.cache.cleared key).1.millis H.now⟩)
    (hwaits : tasks = [] ∨ ∀ g : Group, g.WellNamed → H.engine.keys.config g ≠ key)
    (hends : ∀ k, exempt₁ k → exempt' k ∨ ∃ snap, value = .poll snap ∧ snap.configKey = k)
    (hvalue : (s.cache.cleared key).1.refuses s.scene.signals key options = false →
      ∀ v, value = .config v → exempt' key)
    (hrefused : (s.cache.cleared key).1.refuses s.scene.signals key options = true →
      ∀ k v, exempt₁ k → (s.cache.cleared key).1.valueAt k = some (.config v) → exempt' k) :
    H.Sound exempt' (s.commit key (s.cache.place H.now s.scene.signals key value options))
      ((s.cache.place H.now s.scene.signals key value options).evicted.map .consult ++ tasks) := by
  have hcleared := h.cleared key hexempt hlost
  have hwaits' : (∀ e, .consult e ∈ (s.cache.cleared key).2.1.map Session.Task.consult ++ tasks →
        e.reason ≠ .expired) ∨
      ∀ g : Group, g.WellNamed → H.engine.keys.config g ≠ key := by
    apply hwaits.imp_left
    intro hnil e he
    subst hnil
    rw [List.append_nil] at he
    obtain ⟨e', he', heq⟩ := List.mem_map.1 he
    cases heq
    rw [(Cache.was_stored_of_cleared h.linked key e he').2]
    exact fun hr => (by cases hr)
  unfold Session.commit Cache.place
  simp only
  cases hrefuses : (s.cache.cleared key).1.refuses s.scene.signals key options with
  | true =>
    simp only [if_true]
    refine ((hcleared.exempting fun k v hk hget => ?_).noteIf _ _).noteIf _ _
    exact .inl (hrefused hrefuses k v hk hget)
  | false =>
    simp only [Bool.false_eq_true, if_false]
    have hfree := Cache.get?_cleared_self h.linked key
    have hlinked :=
      hcleared.link hfree hrefuses (hfits hrefuses) hwaits' hends (hvalue hrefuses)
    exact (hlinked.noteIf _ _).noteIf _ _

theorem calm_place (s : EngineSession) (now : Instant) (key : String) (value : Entry)
    (options : Options (Poller Memory)) :
    Memory.Calm s.scene
      (s.commit key (s.cache.place now s.scene.signals key value options)).scene := by
  have hnoteIf : ∀ (scene : Scene Memory) (b : Bool) (e : Event),
      Memory.Calm scene (scene.noteIf b e) := by
    intro scene b e
    unfold Scene.noteIf
    split
    · exact .note scene e
    · exact .refl scene
  have hsignals : Memory.Calm s.scene { s.scene with
      signals := (s.cache.place now s.scene.signals key value options).signals } := by
    refine ⟨rfl, rfl, fun _ hw => hw, fun t => ?_, List.suffix_refl _⟩
    unfold Cache.place
    simp only
    split
    · rfl
    · exact Signals.hasFired_foldl_subscribe ..
  exact hsignals.trans ((hnoteIf _ _ _).trans (hnoteIf _ _ _))

theorem gains_place (h : H.Sound exempt s tasks) (key : String) (value : Entry)
    (options : Options (Poller Memory)) :
    Gains (fun k v o => k = key ∧ v = value ∧ o = options) s
      (s.commit key (s.cache.place H.now s.scene.signals key value options)) := by
  refine ⟨Cache.epoch_place h.linked .., calm_place s H.now key value options,
    fun k slot hget => ?_⟩
  rcases Cache.get?_place h.linked key _ _ value options hget with ⟨hk, rfl, -⟩ | ⟨-, hold⟩
  · exact .inr (.inr ⟨hk, rfl, rfl⟩)
  · exact .inl ⟨slot, hold, rfl, rfl⟩

/-! ## One task -/

variable (H) in
/-- The present of the engine. -/
abbrev moment : Moment Entry (Poller Memory) Memory := Poller.moment H.now

/-- What attending to a task brings about. -/
structure Attended (H : Ledger) (exempt : String → Prop) (tasks : List EngineTask)
    (s : EngineSession) (after : EngineSession × List EngineTask) : Prop where
  sound : H.Sound exempt after.1 (after.2 ++ tasks)
  wanes : Wanes s after.1
  live : AllLive H.now s → AllLive H.now after.1

theorem config_ne_poller (H : Ledger) {g g' : Group} (hg : g.WellNamed) (hg' : g'.WellNamed)
    (serial : Nat) :
    H.engine.keys.config g ≠ H.engine.keys.path g' (KeySpace.pollerPath serial) := fun heq =>
  KeySpace.pollerPath_ne_config serial (H.engine.keys.path_injective hg hg' heq).2.symm

theorem attended_remove {key : String} (h : H.Sound exempt s (.remove key :: tasks)) :
    Attended H exempt tasks s (s.attend (Poller.moment H.now) (.remove key)) := by
  cases hd : s.cache.detach key with
  | none =>
    rw [Session.attend_absent hd]
    refine ⟨h.forget (fun _ hk => hk) (fun e snap heq => (by cases heq)) fun k v heq hk => ?_,
      .refl s, id⟩
    cases heq
    rw [Cache.valueAt, Cache.detach_eq_none hd] at hk
    cases hk
  | some d =>
    rw [Session.attend_stored hd]
    have hloses := Cache.loses_detach h.linked.toConsistent hd .expired
    obtain ⟨g, hg, hkey⟩ := h.removes key List.mem_cons_self
    refine ⟨?_, (Gains.of_kept hloses.epoch hloses.kept).wane (.note _ _),
      fun hlive => hlive.of_wanes hloses.epoch (.note s.scene _) hloses.kept⟩
    -- The key is exempt while it is being removed; it is gone afterwards.
    have hidle : H.Sound (fun k => exempt k ∨ k = key) s tasks := by
      refine h.forget (fun _ hk => .inl hk) (fun e snap heq => (by cases heq)) fun k v heq _ => ?_
      cases heq
      exact .inr rfl
    have hdetached := hidle.detach hd fun slot snap hget hvalue => by
      obtain ⟨g', serial, -, hg', -, hpath, -⟩ := (h.fits key slot hget).of_poll hvalue
      rw [hkey] at hpath
      exact config_ne_poller H hg hg' serial hpath
    have hnone := Cache.get?_detach_self h.linked.toConsistent hd
    apply (hdetached.note (.evicted key .removed)).exempting
    intro k v hk hget
    rcases hk with hk | rfl
    · exact .inl hk
    · rw [Cache.valueAt, hnone] at hget
      cases hget

/-- A poller that gives up leaves the removal of what it guarded behind. -/
theorem give_up {e : Evicted Entry (Poller Memory)} {snap : Snapshot} {g : Group}
    (h : H.Sound exempt s (.consult e :: tasks)) (hvalue : e.slot.value = .poll snap)
    (hg : g.WellNamed) (hsnap : snap.configKey = H.engine.keys.config g) :
    H.Sound exempt s (.remove snap.configKey :: tasks) where
  push := h.push
  linked := h.linked
  watchful := h.watchful
  ascending := h.ascending
  contents := h.contents
  fits := h.fits
  waits e' he' := by
    rcases List.mem_cons.1 he' with heq | hmem
    · cases heq
    · exact h.waits e' (List.mem_cons_of_mem _ hmem)
  removes key hkey := by
    rcases List.mem_cons.1 hkey with heq | hmem
    · cases heq
      exact ⟨g, hg, hsnap⟩
    · exact h.removes key (List.mem_cons_of_mem _ hmem)
  guarded hpush k v hk hnot := by
    by_cases hkey : snap.configKey = k
    · rw [← hkey]
      exact .removed List.mem_cons_self
    · have hheld : Held s.cache tasks k := by
        refine (h.guarded hpush k v hk hnot).of_cons (fun e' snap' heq hval => ?_)
          fun heq => (by cases heq)
        cases heq
        rw [hvalue] at hval
        cases hval
        exact hkey
      exact hheld.mono (fun _ hmem => List.mem_cons_of_mem _ hmem) .stored

/-- A poller is put in for partials that are exempt until then. -/
theorem place_poller {g : Group} {serial : Nat} {key : String} {snap : Snapshot}
    (h : H.Sound (fun k => exempt k ∨ k = H.engine.keys.config g) s tasks) (hg : g.WellNamed)
    (hpush : H.push = false) (hkey : key = H.engine.keys.path g (KeySpace.pollerPath serial))
    (hsnap : snap.configKey = H.engine.keys.config g)
    (hguards : ∀ w, s.cache.valueAt (H.engine.keys.config g) = some w →
      ∃ v, w = .config v ∧ H.Guards s.scene g snap H.now v) :
    H.Sound exempt
      (s.commit key (s.cache.place H.now s.scene.signals key (.poll snap)
        (H.engine.poller.options H.now snap.configKey)))
      ((s.cache.place H.now s.scene.signals key (.poll snap)
        (H.engine.poller.options H.now snap.configKey)).evicted.map .consult ++ tasks) := by
  have hne : ∀ g : Group, g.WellNamed → H.engine.keys.config g ≠ key := fun g' hg' heq =>
    config_ne_poller H hg' hg serial (heq.trans hkey)
  refine h.place key (.poll snap) _ (fun _ hk => hk) ?_
    ?_ (.inr hne) ?_ (fun _ v hv => (by cases hv)) ?_
  · -- A poller that is stored under the key is one of the same group.
    intro slot snap' hget hval
    obtain ⟨g', serial', -, hg', -, hkey', -, hsnap', -⟩ := (h.fits key slot hget).of_poll hval
    have hsameGroup := (H.engine.keys.path_injective hg hg' (hkey.symm.trans hkey')).1
    right
    rw [hsnap', hsameGroup]
  · intro _
    refine .poll g serial snap H.now hg hpush hkey rfl ?_ hsnap (Nat.le_refl _) ?_
    · rw [armedAt, ← hsnap]
    · intro w hw
      rw [valueAt_link, if_neg (hne g hg)] at hw
      obtain ⟨slot, hget, hval⟩ := Cache.valueAt_eq_some.1 hw
      have hget' := (Cache.kept_of_cleared h.linked key hget).2
      exact hguards w (Cache.valueAt_eq_some.2 ⟨slot, hget', hval⟩)
  · intro k hk
    rcases hk with hk | hk
    · exact .inl hk
    · exact .inr ⟨snap, rfl, hsnap.trans hk.symm⟩
  · intro hrefuses k v hk hget
    rcases hk with hk | rfl
    · exact hk
    · -- It is refused only when what it guards is gone.
      exfalso
      obtain ⟨slot, hgetc, -⟩ := Cache.valueAt_eq_some.1 hget
      rw [Cache.refuses, Bool.or_eq_true] at hrefuses
      rcases hrefuses with hany | hany
      · obtain ⟨parent, hparent, hbad⟩ := List.any_eq_true.1 hany
        have hstored :
            (s.cache.cleared key).1.entries.contains (H.engine.keys.config g) = true := by
          rw [Table.contains_eq, hgetc]
          rfl
        rw [List.mem_singleton.1 hparent, hsnap, hstored, Bool.not_true, Bool.or_false,
          beq_iff_eq] at hbad
        exact hne g hg hbad
      · simp [Poller.options] at hany

/-- **A poller is put back** when it has found the folders as they were: what it guards is as the
files say now. -/
theorem rearm {e : Evicted Entry (Poller Memory)} {snap : Snapshot}
    (h : H.Sound exempt s (.consult e :: tasks)) (hvalue : e.slot.value = .poll snap)
    (hexpired : e.reason = .expired) (scene : Scene Memory)
    (hfiles : scene.world.files = s.scene.world.files)
    (hsame : (snap.isUnchanged Memory.source H.engine.options.extension scene).1 = true) :
    H.Sound exempt
      (s.commit e.key (s.cache.place H.now s.scene.signals e.key (.poll snap)
        (H.engine.poller.options H.now snap.configKey)))
      ((s.cache.place H.now s.scene.signals e.key (.poll snap)
        (H.engine.poller.options H.now snap.configKey)).evicted.map .consult ++ tasks) := by
  obtain ⟨g, serial, armed, hg, hpush, hkey, -, hsnap, -, hguards⟩ :=
    ((h.waits e List.mem_cons_self).2 hexpired).of_poll hvalue
  -- While it is being put back, what the poller guards is exempt.
  have hidle : H.Sound (fun k => exempt k ∨ k = H.engine.keys.config g) s tasks := by
    refine h.forget (fun _ hk => .inl hk) ?_ fun _ _ heq => (by cases heq)
    intro e' snap' heq hval
    cases heq
    rw [hvalue] at hval
    cases hval
    exact .inr hsnap
  apply hidle.place_poller hg hpush hkey hsnap
  intro w hw
  obtain ⟨v, heq, files₀, hascending, hcontents, hv, hsnapshot, -⟩ := hguards w hw
  refine ⟨v, heq, files₀, hascending, hcontents, hv, hsnapshot, .inl ?_⟩
  rw [hsnapshot] at hsame
  have hgather := Plain.gather_of_isUnchanged hascending (hfiles ▸ h.ascending)
    (FolderNames.endsInSlash_partialFolders _ g) (FolderNames.nodup_partialFolders _ hg)
    hcontents (hfiles ▸ h.contents) (H.distinct hpush) _ _ _ hsame
  rw [hfiles] at hgather
  rw [hv, Plain.config, Plain.config, hgather]

theorem live_place (h : H.Sound exempt s tasks) (hlive : AllLive H.now s) (key : String)
    {value : Entry} {options : Options (Poller Memory)}
    (hnew : (Slot.mk value options (s.cache.millis H.now)).isLive s.cache.epoch H.now
      s.scene.signals = true) :
    AllLive H.now (s.commit key (s.cache.place H.now s.scene.signals key value options)) := by
  intro k slot hget
  have hfired := Ledger.hasFired_congr (calm_place s H.now key value options) (Eq.refl slot.options)
  have hold : slot.isLive s.cache.epoch H.now s.scene.signals = true := by
    rcases Cache.get?_place h.linked key _ _ value options hget with ⟨-, rfl, -⟩ | ⟨-, hold⟩
    · exact hnew
    · exact hlive k slot hold
  unfold Slot.isLive at hold ⊢
  rw [hfired]
  change (!slot.isExpired (s.cache.place H.now s.scene.signals key value options).cache.epoch
    H.now && _) = true
  rwa [Cache.epoch_place h.linked]

theorem attended_consult {e : Evicted Entry (Poller Memory)}
    (h : H.Sound exempt s (.consult e :: tasks)) :
    Attended H exempt tasks s (s.attend (Poller.moment H.now) (.consult e)) := by
  have hnoted := h.note (.evicted e.key e.reason.cause)
  cases hhook : e.slot.options.hook with
  | none =>
    rw [Session.attend_silent hhook]
    refine ⟨hnoted.forget (fun _ hk => hk) (fun e' snap heq hval => ?_)
      fun _ _ heq => (by cases heq), .note s _,
      fun hlive => hlive.of_wanes rfl (.note s.scene _) fun _ _ hget => hget⟩
    -- An entry without a hook is no poller's.
    cases heq
    obtain ⟨g, _, armed, -, -, -, hoptions, -⟩ := (h.waits e List.mem_cons_self).1.of_poll hval
    rw [hoptions] at hhook
    cases hhook
  | some hook =>
    have hwaits := h.waits e List.mem_cons_self
    obtain ⟨snap, hvalue⟩ := hwaits.1.of_hook (by rw [hhook]; exact fun hn => (by cases hn))
    obtain ⟨g, serial, armed, hg, hpush, hkey, hoptions, hsnap, -⟩ := hwaits.1.of_poll hvalue
    have hpoller : hook = H.engine.poller := by
      rw [hoptions] at hhook
      exact (Option.some.inj hhook).symm
    subst hpoller
    have hasked := hnoted.note (.consulted e.key e.reason)
    have hcalm : Memory.Calm s.scene (s.asking e) := (Memory.Calm.note _ _).trans (.note _ _)
    rcases H.decide_poll hvalue e.key e.reason (s.asking e) h.ascending with
      ⟨outcome, hdecide⟩ | ⟨hreason, hsame, hdecide⟩
    · rw [Session.attend_removal hhook hdecide]
      have hscene := hcalm.trans (.note _ (.polled outcome))
      exact ⟨(hasked.note (.polled outcome)).give_up hvalue hg hsnap, .scene s hscene,
        fun hlive => hlive.of_wanes rfl hscene fun _ _ hget => hget⟩
    · rw [Session.attend_reinsertion hhook hdecide]
      have hready := hasked.note (.polled .rearmed)
      have hscene := hcalm.trans (.note _ (.polled .rearmed))
      refine ⟨hready.rearm hvalue hreason (s.asking e) rfl hsame, ?_, ?_⟩
      · exact (Gains.scene s hscene).wane (hready.gains_place e.key _ _).of_poll
      · intro hlive
        refine hready.live_place (hlive.of_wanes rfl hscene fun _ _ hget => hget) e.key ?_
        exact isLive_armed H.engine.poller H.engine.options.timings.poll_pos H.now snap.configKey
          _ _ _ _

theorem attended {task : EngineTask} (h : H.Sound exempt s (task :: tasks)) :
    Attended H exempt tasks s (s.attend (Poller.moment H.now) task) := by
  cases task with
  | consult e => exact h.attended_consult
  | remove key => exact h.attended_remove

/-! ## Operations -/

/-- What an operation brings about: `new` says what may have come in. -/
structure Works (H : Ledger) (exempt : String → Prop)
    (new : String → Entry → Options (Poller Memory) → Prop) (s s' : EngineSession) : Prop where
  sound : H.Sound exempt s' []
  gains : Gains new s s'

theorem settled (h : H.Sound exempt s tasks) :
    Works H exempt (fun _ _ _ => False) s (s.settle (Poller.moment H.now) tasks) ∧
      (AllLive H.now s → AllLive H.now (s.settle (Poller.moment H.now) tasks)) := by
  have hall := Session.settle_induction (m := Poller.moment H.now)
    (motive := fun s' tasks' => H.Sound exempt s' tasks' ∧ Wanes s s' ∧
      (AllLive H.now s → AllLive H.now s'))
    (fun s' task tasks' ⟨hsound, hwanes, hlive⟩ =>
      have hattended := hsound.attended
      ⟨hattended.sound, hwanes.wane hattended.wanes, fun hs => hattended.live (hlive hs)⟩)
    s tasks ⟨h, .refl s, id⟩
  exact ⟨⟨hall.1, hall.2.1⟩, hall.2.2⟩

/-- After a purge every stored entry is live. -/
theorem purged (h : H.Sound exempt s []) :
    Works H exempt (fun _ _ _ => False) s (Session.purge (Poller.moment H.now) s).2 ∧
      AllLive H.now (Session.purge (Poller.moment H.now) s).2 := by
  have hswept := h.swept (Poller.moment H.now).decide
  rw [List.append_nil] at hswept
  obtain ⟨hworks, hlive⟩ := hswept.settled
  have hepoch : (s.cache.sweep H.now (s.scene.signals.lower s.cache.flag)).1.epoch =
      s.cache.epoch := (Cache.loses_evictEach h.linked _).epoch
  have hwanes : Wanes s (s.swept (Poller.moment H.now)) :=
    ⟨hepoch, ⟨rfl, rfl, fun _ hw => hw, fun _ => rfl, List.suffix_refl _⟩, fun key slot hget =>
      .inl ⟨slot, Cache.kept_of_sweep h.linked _ _ hget, rfl, rfl⟩⟩
  refine ⟨⟨hworks.sound, hwanes.wane hworks.gains⟩, hlive ?_⟩
  intro key slot hget
  have hslot := Cache.isLive_of_sweep h.linked H.now (s.scene.signals.lower s.cache.flag) hget
  change slot.isLive (s.cache.sweep H.now (s.scene.signals.lower s.cache.flag)).1.epoch H.now _ = _
  rwa [hepoch]

theorem maintained (h : H.Sound exempt s []) :
    Works H exempt (fun _ _ _ => False) s (s.maintain (Poller.moment H.now)) ∧
      AllLive H.now (s.maintain (Poller.moment H.now)) := by
  unfold Session.maintain
  cases hdue : s.cache.mayBeDue (Poller.moment (W := Memory) H.now).now s.scene.signals with
  | true => exact h.purged
  | false => exact ⟨⟨h, .refl s⟩, fun _ _ hget => h.watchful.isLive_of_not_mayBeDue hdue hget⟩

/-- **A read** answers what is stored after a purge, where every entry is live. -/
theorem got (h : H.Sound exempt s []) (key : String) :
    Works H exempt (fun _ _ _ => False) s (Session.get (Poller.moment H.now) key s).2 ∧
      Wanes (s.maintain (Poller.moment H.now)) (Session.get (Poller.moment H.now) key s).2 ∧
      (Session.get (Poller.moment H.now) key s).1 =
        (s.maintain (Poller.moment H.now)).cache.valueAt key := by
  obtain ⟨⟨hsound, hgains⟩, hlive⟩ := h.maintained
  rw [Session.get_eq_look]
  generalize s.maintain (Poller.moment H.now) = s₁ at hsound hgains hlive
  unfold Session.look Cache.valueAt
  cases hget : s₁.cache.entries.get? key with
  | none => exact ⟨⟨hsound.note _, hgains.wane (.note s₁ _)⟩, .note s₁ _, rfl⟩
  | some slot =>
    have hslot : slot.isLive s₁.cache.epoch (Poller.moment (W := Memory) H.now).now
      s₁.scene.signals = true := hlive key slot hget
    simp only [hslot, if_true]
    have hread : Wanes s₁ ⟨s₁.cache.touch H.now key, s₁.scene.note (.hit key)⟩ := by
      refine ⟨rfl, .note s₁.scene _, ?_⟩
      intro k slot' hget'
      obtain ⟨old, hold, hvalue, hoptions, -⟩ := Cache.get?_of_get?_touch hget'
      exact .inl ⟨old, hold, hvalue, hoptions⟩
    exact ⟨⟨(hsound.touch key).note _, hgains.wane hread⟩, hread, rfl⟩

theorem not_poll (h : H.Sound exempt s tasks) {key : String}
    (hkey : H.push = false → ∀ (g : Group) (serial : Nat), g.WellNamed →
      key ≠ H.engine.keys.path g (KeySpace.pollerPath serial)) :
    ∀ slot snap, s.cache.entries.get? key = some slot → slot.value ≠ .poll snap := by
  intro slot snap hget hvalue
  obtain ⟨g, serial, -, hg, hpush, hpath, -⟩ := (h.fits key slot hget).of_poll hvalue
  exact hkey hpush g serial hg hpath

theorem removed (h : H.Sound exempt s []) {key : String}
    (hkey : H.push = false → ∀ (g : Group) (serial : Nat), g.WellNamed →
      key ≠ H.engine.keys.path g (KeySpace.pollerPath serial)) :
    Works H exempt (fun _ _ _ => False) s (Session.remove (Poller.moment H.now) key s).2 ∧
      (Session.remove (Poller.moment H.now) key s).2.cache.entries.get? key = none := by
  unfold Session.remove
  cases hd : s.cache.detach key with
  | none => exact ⟨⟨h, .refl s⟩, Cache.detach_eq_none hd⟩
  | some d =>
    have hloses := Cache.loses_detach h.linked.toConsistent hd .expired
    have hdetached := (h.detach hd (h.not_poll hkey)).note (.evicted key .removed)
    rw [List.append_nil] at hdetached
    obtain ⟨⟨hsound, hgains⟩, -⟩ := hdetached.settled
    refine ⟨⟨hsound, ((Gains.of_kept hloses.epoch hloses.kept).wane (.note _ _)).wane hgains⟩, ?_⟩
    cases hget : ((Session.mk d.cache (s.scene.note (.evicted key .removed))).consultAll
        (Poller.moment H.now) d.evicted).cache.entries.get? key with
    | none => rfl
    | some slot =>
      -- Nothing but a poller can have come back, and this is no poller's key.
      rcases hgains.entries key slot hget with ⟨old, hold, -⟩ | ⟨snap, hvalue⟩ | hnew
      · rw [Cache.get?_detach_self h.linked.toConsistent hd] at hold
        cases hold
      · exact absurd hvalue (hsound.not_poll hkey slot snap hget)
      · exact hnew.elim

/-- The partials that an insertion stores are exempt, until a poller is set beside them. -/
theorem inserted (h : H.Sound exempt s []) {key : String}
    (hkey : H.push = false → ∀ (g : Group) (serial : Nat), g.WellNamed →
      key ≠ H.engine.keys.path g (KeySpace.pollerPath serial)) (value : Entry)
    (options : Options (Poller Memory))
    (hfits : (s.cache.cleared key).1.refuses s.scene.signals key options = false →
      H.Fits s.scene ((s.cache.cleared key).1.link H.now key value options).valueAt key
        ⟨value, options, (s.cache.cleared key).1.millis H.now⟩) :
    Works H (fun k => exempt k ∨
        (Session.insert (Poller.moment H.now) key value options s).1 = true ∧ k = key ∧
          ∃ v, value = .config v)
      (fun k v o => k = key ∧ v = value ∧ o = options) s
      (Session.insert (Poller.moment H.now) key value options s).2 ∧
    ∀ w, (Session.insert (Poller.moment H.now) key value options s).2.cache.valueAt key = some w →
      w = value ∨ ∃ snap, w = .poll snap := by
  have hstored : (Session.insert (Poller.moment H.now) key value options s).1 =
      !(s.cache.cleared key).1.refuses s.scene.signals key options := by
    change (s.cache.place H.now s.scene.signals key value options).stored = _
    unfold Cache.place
    simp only
    split
    · next hr => rw [hr]; rfl
    · next hr => rw [Bool.eq_false_iff.2 hr]; rfl
  rw [hstored]
  have hlost : ∀ slot snap, s.cache.entries.get? key = some slot → slot.value = .poll snap →
      exempt snap.configKey :=
    fun slot snap hget hvalue => absurd hvalue (h.not_poll hkey slot snap hget)
  have hplaced : H.Sound (fun k => exempt k ∨
      (!(s.cache.cleared key).1.refuses s.scene.signals key options) = true ∧ k = key ∧
        ∃ v, value = .config v) _ _ :=
    h.place key value options (fun _ hk => hk) hlost hfits (.inl rfl) (fun k hk => .inl (.inl hk))
      (fun hvalid v hv => .inr ⟨by rw [hvalid]; rfl, rfl, v, hv⟩) (fun _ k v hk _ => .inl hk)
  rw [List.append_nil] at hplaced
  obtain ⟨⟨hsound, hgains⟩, -⟩ := hplaced.settled
  refine ⟨⟨hsound, (h.gains_place key value options).wane hgains⟩, ?_⟩
  intro w hw
  obtain ⟨slot, hget, rfl⟩ := Cache.valueAt_eq_some.1 hw
  rcases hgains.entries key slot hget with ⟨old, hold, hvalue, -⟩ | hpoll | hnew
  · left
    rw [hvalue]
    rcases Cache.get?_place h.linked key _ _ value options hold with ⟨-, rfl, -⟩ | ⟨hne, -⟩
    · rfl
    · exact absurd rfl hne
  · exact .inr hpoll
  · exact hnew.elim

/-- An empty cache. -/
theorem empty (c : EngineCache) {scene : Scene Memory} (hpush : scene.world.push = H.push)
    (hascending : Sorted.Ascending scene.world.files)
    (hcontents : ContentsIn H.contents scene.world.files) :
    H.Sound exempt ⟨c.dropAll, scene⟩ [] :=
  ⟨hpush, .dropAll c, .dropAll c H.now scene.signals, hascending, hcontents,
    fun _ _ hget => (by cases hget), fun _ he => (by cases he), fun _ hk => (by cases hk),
    fun _ _ _ hk _ => (by cases hk)⟩

theorem dropped (h : H.Sound exempt s []) : H.Sound exempt (Session.clear s).2 [] :=
  (empty s.cache h.push h.ascending h.contents).note (.cleared s.cache.size)

end Ledger.Sound

end Templating
