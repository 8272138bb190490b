import Templating.Proofs.Cache.Standing
import Templating.Proofs.Engine.Hanging
import Templating.Proofs.Engine.Proper

/-!
# What an engine's entries depend on

An entry of an engine depends on one key at most. For the partials of a group that is the global
key, and for what is kept under a path it is the key of its group's partials (`KeySpace.Under`). As
long as others who use the cache keep their entries apart (`KeySpace.Foreign`), it stays so through
every run (`Workshop.run_moored`). So whatever a path may be, nothing depends on what is kept under
it, unless it is the word `config`: then it has the key of the partials.
-/

namespace Templating

open Work (Takes)

namespace KeySpace

/-! ## Keys -/

/-- An entry under this key may depend on that one. -/
inductive Under (k : KeySpace) : (key parent : String) → Prop
  | partials (g : Group.Made) : Under k (k.config g.1) k.global
  | path (g : Group.Made) (p : String) : Under k (k.path g.1 p) (k.config g.1)
  | apart {key parent : String} (hkey : ¬k.Owns key) (hparent : ¬k.Owns parent) :
    Under k key parent

namespace Under

variable {k : KeySpace} {g : Group.Made} {p key parent : String}

theorem of_config (h : k.Under key (k.config g.1)) : ∃ p, key = k.path g.1 p := by
  generalize hparent : k.config g.1 = parent at h
  cases h with
  | partials => exact absurd hparent.symm (k.global_ne_config g.1)
  | path g' p =>
    obtain ⟨hgroup, -⟩ := k.path_injective g.2 g'.2 hparent
    exact ⟨p, by rw [hgroup]⟩
  | apart _ hparent' => exact absurd (hparent ▸ k.owns_config g) hparent'

/-- Only what has the key of partials may be depended on. -/
theorem eq_config (h : k.Under key (k.path g.1 p)) : p = "config" := by
  generalize hparent : k.path g.1 p = parent at h
  cases h with
  | partials => exact absurd hparent.symm (k.global_ne_path g.1 p)
  | path g' _ => exact (k.path_injective g.2 g'.2 hparent).2
  | apart _ hparent' => exact absurd (hparent ▸ k.owns_path g p) hparent'

/-- What is kept under a path may depend on the partials of its group. -/
theorem of_path (h : k.Under (k.path g.1 p) parent) (hp : p ≠ "config") :
    parent = k.config g.1 := by
  generalize hkey : k.path g.1 p = key at h
  cases h with
  | partials g' => exact absurd (k.path_injective g.2 g'.2 hkey).2 hp
  | path g' _ => rw [(k.path_injective g.2 g'.2 hkey).1]
  | apart hkey' => exact absurd (hkey ▸ k.owns_path g p) hkey'

end Under

/-! ## Entries -/

variable {C : Type} (k : KeySpace) {key : String} {value : Entry} {options : Options C}

/-- The entry is not the engine's and has nothing to do with its entries. -/
structure Foreign (key : String) (value : Entry) (options : Options C) : Prop where
  key : ¬k.Owns key
  keys : ∀ parent ∈ options.keys, ¬k.Owns parent
  poll : ∀ snap, value = .poll snap → ¬k.Owns snap.configKey

/-- The entry depends on what it may depend on, and so it will when a snapshot is put back. What has
the key of partials and is none depends on nothing but itself. -/
structure Moored (key : String) (value : Entry) (options : Options C) : Prop where
  keys : ∀ parent ∈ options.keys, k.Under key parent
  single : k.Owns key → options.keys.length ≤ 1
  config : ∀ g : Group.Made, key = k.config g.1 →
    (∃ c, value = .config c) ∨ ∀ parent ∈ options.keys, parent = key
  poll : ∀ snap, value = .poll snap →
    k.Under key snap.configKey ∧ ∀ g : Group.Made, key ≠ k.config g.1

variable {k}

theorem Foreign.moored (h : k.Foreign key value options) : k.Moored key value options where
  keys parent hparent := .apart h.key (h.keys parent hparent)
  single howns := absurd howns h.key
  config g heq := absurd (heq ▸ k.owns_config g) h.key
  poll snap hsnap :=
    ⟨.apart h.key (h.poll snap hsnap), fun g heq => h.key (heq ▸ k.owns_config g)⟩

end KeySpace

/-! ## Operations -/

namespace Engine

variable {W : Type} {e : Engine W} {now : Instant} {g : Group.Made} {key : String} {value : Entry}
  {options : Options (Poller W)}

/-- Every entry is moored, and none was read in the future. -/
abbrev Moors (e : Engine W) (now : Instant) (s : Session Entry (Poller W) W)
    (pending : List (Evicted Entry (Poller W))) : Prop :=
  s.cache.Holds e.keys.Moored pending ∧ s.cache.Linked ∧ s.cache.Timely now

theorem moored_global : e.keys.Moored e.keys.global .global ({} : Options (Poller W)) where
  keys := nofun
  single _ := Nat.zero_le 1
  config _ _ := .inr nofun
  poll := nofun

theorem moored_poll (serial : Nat) {snap : Snapshot} (h : snap.configKey = e.keys.config g.1) :
    e.keys.Moored (KeySpace.poller snap.configKey serial) (.poll snap)
      (e.poller.options now snap.configKey) := by
  rw [h, KeySpace.poller_eq_path]
  have hne : ∀ g' : Group.Made, e.keys.path g.1 (KeySpace.pollerPath serial) ≠
      e.keys.config g'.1 := fun g' heq =>
    KeySpace.pollerPath_ne_config serial (e.keys.path_injective g.2 g'.2 heq).2
  refine ⟨List.forall_mem_singleton.2 (.path g _), fun _ => Nat.le_refl 1,
    fun g' heq => absurd heq (hne g'), ?_⟩
  rintro _ ⟨⟩
  rw [h]
  exact ⟨.path g _, hne⟩

variable (e now g) in
theorem admits_moored : e.Admits now g e.keys.Moored where
  global := moored_global
  config value _ :=
    ⟨List.forall_mem_singleton.2 (.partials g), fun _ => Nat.le_refl 1,
      fun _ _ => .inl ⟨value, rfl⟩, nofun⟩
  poll serial _ hkey := moored_poll serial hkey

theorem moored_guarded {path : String} {token : Option Token} {sliding recheck : Duration}
    (hvalue : value = .missing ∨ ∃ t, value = .compiled t) :
    e.keys.Moored (e.keys.path g.1 path) value (e.guarded now g.1 token sliding recheck) where
  keys := List.forall_mem_singleton.2 (.path g path)
  single _ := Nat.le_refl 1
  config g' heq := by
    obtain ⟨hgroup, rfl⟩ := e.keys.path_injective g.2 g'.2 heq
    exact .inr (List.forall_mem_singleton.2 rfl)
  poll snap hsnap := by
    rcases hvalue with rfl | ⟨t, rfl⟩ <;> cases hsnap

theorem moored_broken {deadline : Instant} : e.keys.Moored key .missing
    ({ expiration := .absolute deadline } : Options (Poller W)) where
  keys := nofun
  single _ := Nat.zero_le 1
  config _ _ := .inr nofun
  poll := nofun

variable (e now) in
/-- What a hook puts back is moored as it was. -/
theorem lasting_moored :
    Session.Lasting (Poller.moment now) e.keys.Moored (e.Moors now) := by
  have hholds : Session.Lasting (Poller.moment now) e.keys.Moored
      fun (s : Session Entry (Poller W) W) pending => s.cache.Holds e.keys.Moored pending := by
    have k := Session.lasting_holds (m := Poller.moment now) (A := e.keys.Moored)
      (S := fun _ : Scene W => True) (fun _ _ _ _ _ _ => trivial) (fun _ _ _ _ _ _ => trivial) ?_
    · simpa only [and_true] using k
    · intro x hook scene value options h _ haction
      obtain ⟨snap, hvalue, -, rfl, rfl⟩ := Poller.of_reinsert haction
      obtain ⟨hunder, hne⟩ := h.poll snap hvalue
      refine ⟨List.forall_mem_singleton.2 hunder, fun _ => Nat.le_refl 1,
        fun g heq => absurd heq (hne g), ?_⟩
      rintro _ ⟨⟩
      exact ⟨hunder, hne⟩
  have k := hholds.and (Session.lasting_timely (Poller.moment now))
  simp only [and_true] at k
  exact k

theorem keeps_moored (e : Engine W) (now : Instant) :
    Workshop.Keeps e now (fun _ => True) (e.Moors now · []) :=
  lasting_keeps (lasting_moored e now) (fun _ _ h _ => h) (Scene.course_world fun _ => True)
    (Source.Keeps.trivial e.source).follows moored_global (admits_moored e now)
    (fun _ _ _ _ _ _ hvalue => moored_guarded hvalue) fun _ _ => moored_broken

end Engine

/-! ## Runs -/

namespace Workshop

variable {W : Type}

/-- Others put in nothing but entries that have nothing to do with those of the engine. -/
def Move.Foreign (k : KeySpace) : Move W → Prop
  | .cache (.insert key value options) | .cache (.insertIfAbsent key value options) =>
    k.Foreign key value options
  | _ => True

theorem Move.Foreign.within {k : KeySpace} {move : Move W} (h : move.Foreign k) :
    move.Within (fun key _ => ¬k.Owns key) fun _ => True := by
  cases move with
  | cache r => cases r <;> first | exact h.key | trivial
  | _ => trivial

/-- **Through every run** of an engine the entries stay moored. -/
theorem run_moored {e : Engine W} {σ : Workshop W} (hsite : ∃ site, σ.engine = { e with site })
    (h : e.Moors σ.now σ.session []) {moves : List (Move W)}
    (hmoves : ∀ move ∈ moves, move.Foreign e.keys) :
    e.Moors (σ.run moves).now (σ.run moves).session [] := by
  refine (run_keeps (P := fun now => (e.Moors now · [])) (A := fun move => move.Foreign e.keys)
    (fun site now => Engine.keeps_moored { e with site } now) (fun _ _ _ => trivial)
    (fun now s r hr hs => ?_) (fun _ _ _ _ hs => hs)
    (fun now time _ hs => ⟨hs.1, hs.2.1, hs.2.2.later (Nat.le_add_right now time)⟩) hsite h
    hmoves).2
  refine (Engine.lasting_moored e now).perform hs r ?_
  rintro key value options (rfl | rfl) <;> exact hr.moored

end Workshop

end Templating
