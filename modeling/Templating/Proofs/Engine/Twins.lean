import Templating.Proofs.Engine.Rooming

/-!
# What one engine cannot tell apart

Two sessions are `Alike` to an engine when its outlook, its files and the calls to them are the
same. The tokens that it has in hand may be others, but then they are watched at the same paths.
`Work.Twins` says what two operations make of two sessions and how their answers go together, with
rules that follow the way in which operations are put together. The operations on a cache and on a
room, done in two such sessions, leave two sessions that are alike again.
-/

namespace Templating

/-! ## Two operations on two sessions -/

/-- From two sessions with `P` the operations come to answers and sessions with `R`. -/
def Work.Twins {V C W α β : Type} (P : Session V C W → Session V C W → Prop) (op : Work V C W α)
    (op' : Work V C W β) (R : α → β → Session V C W → Session V C W → Prop) : Prop :=
  ∀ s s', P s s' → R (op s).1 (op' s').1 (op s).2 (op' s').2

namespace Work.Twins

variable {V C W α β γ δ : Type} {P : Session V C W → Session V C W → Prop} {op : Work V C W α}
  {op' : Work V C W β} {R : α → β → Session V C W → Session V C W → Prop}

theorem bind {next : α → Work V C W γ} {next' : β → Work V C W δ}
    {R' : γ → δ → Session V C W → Session V C W → Prop} (h : Twins P op op' R)
    (hnext : ∀ a b, Twins (R a b) (next a) (next' b) R') :
    Twins P (op >>= next) (op' >>= next') R' :=
  fun s s' hs => hnext _ _ _ _ (h s s' hs)

theorem foldlM {next : α → γ → Work V C W α} {next' : β → γ → Work V C W β}
    (h : ∀ a b c, Twins (R a b) (next a c) (next' b c) R) (cs : List γ) (a : α) (b : β) :
    Twins (R a b) (cs.foldlM next a) (cs.foldlM next' b) R := by
  induction cs generalizing a b with
  | nil => exact fun _ _ hs => hs
  | cons c cs ih =>
    rw [List.foldlM_cons, List.foldlM_cons]
    exact (h a b c).bind ih

end Work.Twins

namespace Session

variable {V C W α β : Type}

theorem onScene_pure (a : α) : (onScene (pure a) : Work V C W α) = pure a := rfl

theorem onScene_bind (act : Act W α) (next : α → Act W β) :
    (onScene (act >>= next) : Work V C W β) = onScene act >>= fun a => onScene (next a) := rfl

theorem onScene_foldlM (act : β → α → Act W β) (as : List α) (b : β) :
    (onScene (as.foldlM act b) : Work V C W β) = as.foldlM (fun b a => onScene (act b a)) b := by
  induction as generalizing b with
  | nil => rfl
  | cons a as ih =>
    rw [List.foldlM_cons, List.foldlM_cons, onScene_bind]
    exact congrArg (onScene (act b a) >>= ·) (funext ih)

end Session

namespace House

open Work (Twins)

variable {ι : Type} {spaces : ι ↪ { k : KeySpace // k.ColonFree }} {i : ι} {now : Instant}
  {before s s' t t' : Common ι} {held : List (Token × Token)}

theorem Beside.refl (h : Sound spaces now s) : Beside spaces i now s s :=
  ⟨h, rfl, fun _ _ => rfl, fun _ _ => rfl⟩

theorem Beside.trans {u : Common ι} (h : Beside spaces i now s t) (h' : Beside spaces i now t u) :
    Beside spaces i now s u :=
  ⟨h'.sound, h'.epoch.trans h.epoch, fun j hj => (h'.rooms j hj).trans (h.rooms j hj),
    fun j hj => (h'.others j hj).trans (h.others j hj)⟩

/-! ## Sessions that are alike -/

variable (spaces) in
/-- The engine cannot tell the sessions apart, with these tokens in hand, those of either session.
The first session came about from `before`, with the other engines looking on. -/
structure Alike (i : ι) (now : Instant) (before : Common ι) (held : List (Token × Token))
    (s s' : Common ι) : Prop where
  beside : Beside spaces i now before s
  sound : Sound spaces now s'
  epoch : s'.cache.epoch = s.cache.epoch
  seen : House.seen spaces s' now i = House.seen spaces s now i
  files : (s'.scene.world i).memory.files = (s.scene.world i).memory.files
  calls : (s'.scene.world i).calls = (s.scene.world i).calls
  held : ∀ pair ∈ held, ∃ path, (path, pair.1) ∈ watching s.scene.world i ∧
    (path, pair.2) ∈ watching s'.scene.world i

variable (spaces) in
/-- The operations give the same answer. What was in hand before may be let go of. -/
abbrev Same (i : ι) (now : Instant) (before : Common ι) (held kept : List (Token × Token))
    {α : Type} (op op' : Resolving (Rooms ι) α) : Prop :=
  Twins (Alike spaces i now before held) op op'
    fun a a' s s' => a = a' ∧ Alike spaces i now before kept s s'

namespace Alike

theorem refl (h : Sound spaces now s) : Alike spaces i now s [] s s :=
  ⟨.refl h, h, rfl, rfl, rfl, rfl, nofun⟩

variable (h : Alike spaces i now before held s s')

include h

theorem forget : Alike spaces i now before [] s s' := { h with held := nofun }

theorem millis : s'.cache.millis now = s.cache.millis now := by
  unfold Cache.millis
  rw [h.epoch]

/-- The tokens in hand stand for the same paths. -/
theorem marks : (held.map Prod.snd).map (mark (watching s'.scene.world i)) =
    (held.map Prod.fst).map (mark (watching s.scene.world i)) := by
  rw [List.map_map, List.map_map]
  refine List.map_congr_left fun pair hpair => ?_
  obtain ⟨path, hpath, hpath'⟩ := h.held pair hpair
  exact (h.sound.mark_eq_some_iff.2 hpath').trans (h.beside.sound.mark_eq_some_iff.2 hpath).symm

/-- The cache was used in both sessions. -/
theorem of_cache (ht : Beside spaces i now s t) (hworld : t.scene.world = s.scene.world)
    (ht' : Beside spaces i now s' t') (hworld' : t'.scene.world = s'.scene.world)
    (hseen : House.seen spaces t' now i = House.seen spaces t now i) :
    Alike spaces i now before held t t' where
  beside := h.beside.trans ht
  sound := ht'.sound
  epoch := ht'.epoch.trans (h.epoch.trans ht.epoch.symm)
  seen := hseen
  files := by
    rw [hworld, hworld']
    exact h.files
  calls := by
    rw [hworld, hworld']
    exact h.calls
  held := by
    rw [hworld, hworld']
    exact h.held

end Alike

namespace Same

variable {α β γ : Type} {kept : List (Token × Token)} {op op' : Resolving (Rooms ι) α}

theorem pure (a : α) : Same spaces i now before held [] (Pure.pure a) (Pure.pure a) :=
  fun _ _ h => ⟨rfl, h.forget⟩

theorem bind {next : α → Resolving (Rooms ι) β} {next' : α → Resolving (Rooms ι) γ}
    {R : β → γ → Common ι → Common ι → Prop} (h : Same spaces i now before held kept op op')
    (hnext : ∀ a, Twins (Alike spaces i now before kept) (next a) (next' a) R) :
    Twins (Alike spaces i now before held) (op >>= next) (op' >>= next') R := by
  refine Twins.bind h fun a a' => ?_
  rintro t t' ⟨rfl, ht⟩
  exact hnext a t t' ht

end Same

/-! ## Using the cache -/

section Cache

variable {key : String}

theorem same_get (hkey : zone spaces i key) : Same spaces i now before held held
    (Session.get (Poller.moment now) key) (Session.get (Poller.moment now) key) := by
  intro s s' h
  obtain ⟨ht, hworld, hseen, hanswer⟩ := h.beside.sound.get hkey
  obtain ⟨ht', hworld', hseen', hanswer'⟩ := h.sound.get hkey
  refine ⟨Option.ext fun value => ?_, h.of_cache ht hworld ht' hworld' ?_⟩
  · rw [hanswer, hanswer', h.seen]
  · rw [hseen, hseen', h.seen, h.millis]

theorem twins_remove (hkey : zone spaces i key) : Twins (Alike spaces i now before held)
    (Session.remove (Poller.moment now) key) (Session.remove (Poller.moment now) key)
    fun _ _ => Alike spaces i now before held := by
  intro s s' h
  obtain ⟨ht, hworld, hseen⟩ := h.beside.sound.remove hkey
  obtain ⟨ht', hworld', hseen'⟩ := h.sound.remove hkey
  refine h.of_cache ht hworld ht' hworld' ?_
  rw [hseen, hseen', h.seen]

/-- An entry is put in that holds the tokens in hand. -/
theorem twins_insert (hkey : zone spaces i key) (value : Entry) {keys : List String}
    {expiration : Expiration} (hkeys : ∀ parent ∈ keys, zone spaces i parent)
    (hroot : key = (spaces i).1.global → keys = [] ∧ held = [] ∧ expiration = .never) :
    Twins (Alike spaces i now before held)
      (Session.insert (Poller.moment now) key value
        { keys, tokens := held.map Prod.fst, expiration })
      (Session.insert (Poller.moment now) key value
        { keys, tokens := held.map Prod.snd, expiration })
      fun _ _ => Alike spaces i now before [] := by
  intro s s' h
  have hwatched : ∀ t ∈ held.map Prod.fst, ∃ path, (path, t) ∈ watching s.scene.world i := by
    intro t ht
    obtain ⟨pair, hpair, rfl⟩ := List.mem_map.1 ht
    exact (h.held pair hpair).imp fun _ => And.left
  have hwatched' : ∀ t ∈ held.map Prod.snd, ∃ path, (path, t) ∈ watching s'.scene.world i := by
    intro t ht
    obtain ⟨pair, hpair, rfl⟩ := List.mem_map.1 ht
    exact (h.held pair hpair).imp fun _ => And.right
  obtain ⟨ht, hworld, hseen⟩ := h.beside.sound.insert hkey value
    { keys, tokens := held.map Prod.fst, expiration } rfl hkeys
    (fun heq => by obtain ⟨rfl, rfl, rfl⟩ := hroot heq; rfl) hwatched
  obtain ⟨ht', hworld', hseen'⟩ := h.sound.insert hkey value
    { keys, tokens := held.map Prod.snd, expiration } rfl hkeys
    (fun heq => by obtain ⟨rfl, rfl, rfl⟩ := hroot heq; rfl) hwatched'
  refine h.forget.of_cache ht hworld ht' hworld' ?_
  rw [hseen, hseen', h.seen, h.epoch]
  unfold Slot.sight
  simp only [h.marks, h.millis]

/-- The entry that all others hang off is put in where it is not there. -/
theorem twins_insertIfAbsent (value : Entry) : Twins (Alike spaces i now before [])
    (Session.insertIfAbsent (Poller.moment now) (spaces i).1.global value {})
    (Session.insertIfAbsent (Poller.moment now) (spaces i).1.global value {})
    fun _ _ => Alike spaces i now before [] := by
  intro s s' h
  have hsame : s.contains (Poller.moment now) (spaces i).1.global =
      s'.contains (Poller.moment now) (spaces i).1.global := by
    rw [Bool.eq_iff_iff, h.beside.sound.contains_global, h.sound.contains_global, h.seen]
  unfold Session.insertIfAbsent
  rw [← hsame]
  split
  · exact h
  · exact twins_insert (spaces i).1.owns_global value (List.forall_mem_nil _)
      (fun _ => ⟨rfl, rfl, rfl⟩) s s' h

end Cache

/-! ## Working in the scene -/

/-- What is noted in the journal is not seen. -/
theorem same_note (e : Event) : Same spaces i now before held held (Session.note e)
    (Session.note e) := by
  have hnoted : ∀ {s : Common ι}, Sound spaces now s →
      Beside spaces i now s { s with scene := s.scene.note e } := fun h =>
    ⟨h.of_scene (h.toOrderly.congr (fun _ => rfl) (fun _ => rfl) rfl rfl rfl) (.refl _)
      fun _ _ _ hp => .inr hp, rfl, fun _ _ => rfl, fun _ _ => rfl⟩
  exact fun s s' h => ⟨rfl, h.of_cache (hnoted h.beside.sound) rfl (hnoted h.sound) rfl h.seen⟩

section Rooms

variable [DecidableEq ι] {path : String}

/-- A call that asks for files, which is told by the files. -/
theorem same_call {α : Type} {act : Act (Rooms ι) α} {kind : Call}
    (answer : List (String × String) → α)
    (hact : ∀ scene, act scene = (answer (scene.world i).memory.files, noted i kind path scene)) :
    Same spaces i now before held held (Session.onScene act) (Session.onScene act) := by
  intro s s' h
  obtain ⟨ht, hseen, hwatching⟩ := h.beside.sound.noted i kind path
  obtain ⟨ht', hseen', hwatching'⟩ := h.sound.noted i kind path
  simp only [Session.onScene, hact]
  refine ⟨congrArg answer h.files.symm, h.beside.trans ht, ht'.sound, h.epoch, ?_, ?_, ?_, ?_⟩
  · rw [hseen, hseen', h.seen]
  · simpa [noted] using h.files
  · simpa [noted] using h.calls
  · rw [hwatching, hwatching']
    exact h.held

/-- A token is asked for, and is in hand in what follows. -/
theorem twins_watch_bind {α : Type} {next next' : Option Token → Resolving (Rooms ι) α}
    {R : α → α → Common ι → Common ι → Prop}
    (hnext : ∀ t t', Twins (Alike spaces i now before (held ++ [(t, t')])) (next (some t))
      (next' (some t')) R) :
    Twins (Alike spaces i now before held)
      (Session.onScene ((source i).changeToken? path) >>= next)
      (Session.onScene ((source i).changeToken? path) >>= next') R := by
  intro s s' h
  obtain ⟨ht, hseen⟩ := h.beside.sound.watched i path
  obtain ⟨ht', hseen'⟩ := h.sound.watched i path
  simp only [bind_apply, Session.onScene, source_changeToken? _ _ _ (h.beside.sound.push i),
    source_changeToken? _ _ _ (h.sound.push i)]
  refine hnext _ _ _ _ ⟨h.beside.trans ht, ht'.sound, h.epoch, ?_, ?_, ?_, fun pair hpair => ?_⟩
  · rw [hseen, hseen', h.seen]
  · simpa [watched] using h.files
  · simpa [watched] using h.calls
  · have hmem := h.beside.sound.toOrderly.mem_watched i i path
    have hmem' := h.sound.toOrderly.mem_watched i i path
    rcases List.mem_append.1 hpair with hold | hnew
    · obtain ⟨p, hp, hp'⟩ := h.held pair hold
      exact ⟨p, (hmem _ _).2 (.inr hp), (hmem' _ _).2 (.inr hp')⟩
    · rw [List.mem_singleton.1 hnew]
      exact ⟨path, (hmem _ _).2 (.inl ⟨rfl, rfl, rfl⟩), (hmem' _ _).2 (.inl ⟨rfl, rfl, rfl⟩)⟩

/-- Files change in the room. -/
theorem Alike.changed (h : Alike spaces i now before [] s s') (path : String)
    (files : List (String × String)) : Alike spaces i now before []
      { s with scene := House.changed i path files s.scene }
      { s' with scene := House.changed i path files s'.scene } := by
  obtain ⟨ht, hseen⟩ := h.beside.sound.changed i path files
  obtain ⟨ht', hseen'⟩ := h.sound.changed i path files
  refine ⟨h.beside.trans ht, ht'.sound, h.epoch, ?_, ?_, ?_, nofun⟩
  · rw [hseen, hseen', h.seen]
  · simp [House.changed]
  · simpa [House.changed] using h.calls

end Rooms

end House

end Templating
