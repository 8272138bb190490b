import Templating.Proofs.Cache.Upheld

/-!
# Properties that hold on terms

`Session.Kept` is for properties that survive whatever is put into a cache. A property that depends
on what is put in is **steady** (`Session.Steady`): it is kept by everything that only takes entries
out, and by each insertion that is admitted, those of hooks among them. It speaks of the cache and
of the entries that wait to be asked, beside a property of the world around that hooks keep. So it
is upheld (`Session.Steady.upheld`), whatever else is left to do.
-/

namespace Templating

namespace Session

variable {V C W : Type}

/-- `I` is kept by all that happens to a cache, as long as what is put in is admitted by `New`, and
the hooks put in nothing else and keep `Q`. -/
structure Steady (m : Moment V C W)
    (New : Cache V C → List (Evicted V C) → String → V → Options C → Prop)
    (I : Cache V C → List (Evicted V C) → Prop) (Q : W → Prop) : Prop where
  forget : ∀ c e pending, I c (e :: pending) → I c pending
  place : ∀ c pending signals key value options, I c pending →
    New c pending key value options →
      I (c.place m.now signals key value options).cache
        ((c.place m.now signals key value options).evicted ++ pending)
  detach : ∀ c pending key d, I c pending → c.detach key = some d →
    I d.cache (d.evicted ++ pending)
  sweep : ∀ c signals, I c [] → I (c.sweep m.now signals).1 (c.sweep m.now signals).2
  touch : ∀ c key, I c [] → I (c.touch m.now key) []
  dropAll : ∀ c, I c [] → I c.dropAll []
  decide : ∀ c e pending hook (scene : Scene W), I c (e :: pending) →
    e.slot.options.hook = some hook → Q scene.world →
      Q (m.decide hook e.key e.slot.value e.reason scene).2.world
  renew : ∀ c e pending hook (scene : Scene W) value options, I c (e :: pending) →
    e.slot.options.hook = some hook →
      (m.decide hook e.key e.slot.value e.reason scene).1 = .reinsert value options →
        New c pending e.key value options

namespace Steady

variable {m : Moment V C W}
  {New : Cache V C → List (Evicted V C) → String → V → Options C → Prop}
  {I : Cache V C → List (Evicted V C) → Prop} {Q : W → Prop} (k : Steady m New I Q)
  {s : Session V C W}

/-- The property of a session in which nothing waits. -/
abbrev Rests (I : Cache V C → List (Evicted V C) → Prop) (Q : W → Prop) (s : Session V C W) :
    Prop :=
  I s.cache [] ∧ Q s.scene.world

include k

/-- What is steady is upheld. -/
theorem upheld : Upheld m (fun c tasks => I c (waitingEntries tasks)) Q where
  silent c e _ h _ := k.forget c e _ h
  released c e _ _ _ _ h _ _ := by
    rw [waitingEntries_removes]
    exact k.forget c e _ h
  renewed c e _ hook scene signals value options h hhook haction := by
    rw [waitingEntries_consults]
    exact k.place _ _ _ _ _ _ (k.forget c e _ h)
      (k.renew c e _ hook scene value options h hhook haction)
  absent _ _ _ h _ := h
  detached c key d _ h hd := by
    rw [waitingEntries_consults]
    exact k.detach c _ key d h hd
  decide c e _ hook scene h := k.decide c e _ hook scene h
  sweep c signals h := by
    rw [waitingEntries_map_consult]
    exact k.sweep c signals h
  touch := k.touch
  dropAll := k.dropAll

/-! ## Requests -/

theorem purge : Work.Takes (Rests I Q) (Rests I Q) (Session.purge m) := k.upheld.purge

theorem maintain (h : Rests I Q s) : Rests I Q (s.maintain m) := k.upheld.maintain h

theorem look (key : String) : Work.Takes (Rests I Q) (Rests I Q) (Session.look m key) :=
  k.upheld.look key

theorem get (key : String) : Work.Takes (Rests I Q) (Rests I Q) (Session.get m key) :=
  k.upheld.get key

/-- An insertion may bring the property about. -/
theorem insert_of {I₀ : Cache V C → List (Evicted V C) → Prop} {key : String} {value : V}
    {options : Options C}
    (hplace : ∀ c signals, I₀ c [] → I (c.place m.now signals key value options).cache
      (c.place m.now signals key value options).evicted) :
    Work.Takes (Rests I₀ Q) (Rests I Q) (Session.insert m key value options) := by
  refine Work.Answers.takes (Settles.insert (J := fun _ c tasks => I c (waitingEntries tasks))
    (P := fun c => I₀ c []) (fun _ => k.upheld.toSettles) fun c signals h => ?_) fun _ _ h => h
  intro p
  rw [waitingEntries_map_consult]
  exact hplace c signals h

theorem insert {key : String} {value : V} {options : Options C}
    (hnew : ∀ c, I c [] → New c [] key value options) :
    Work.Takes (Rests I Q) (Rests I Q) (Session.insert m key value options) := by
  refine k.insert_of fun c signals h => ?_
  have hplaced := k.place _ _ signals key value options h (hnew c h)
  rwa [List.append_nil] at hplaced

theorem insertIfAbsent {key : String} {value : V} {options : Options C}
    (hnew : ∀ c, I c [] → New c [] key value options) :
    Work.Takes (Rests I Q) (Rests I Q) (Session.insertIfAbsent m key value options) := by
  intro s h
  unfold Session.insertIfAbsent
  split
  · exact h
  · exact k.insert hnew s h

/-- So may a removal. -/
theorem remove_of {I₀ : Cache V C → List (Evicted V C) → Prop} {key : String}
    (habsent : ∀ c, I₀ c [] → c.detach key = none → I c [])
    (hdetach : ∀ c d, I₀ c [] → c.detach key = some d → I d.cache d.evicted) :
    Work.Takes (Rests I₀ Q) (Rests I Q) (Session.remove m key) := by
  intro s h
  unfold Session.remove
  cases hd : s.cache.detach key with
  | none => exact ⟨habsent _ h.1 hd, h.2⟩
  | some d =>
    refine k.upheld.settle (s := ⟨d.cache, s.scene.note (.evicted key .removed)⟩) ?_ h.2
    rw [waitingEntries_map_consult]
    exact hdetach _ d h.1 hd

theorem remove (key : String) : Work.Takes (Rests I Q) (Rests I Q) (Session.remove m key) :=
  k.upheld.toSettles.remove fun _ h => h

theorem clear : Work.Takes (Rests I Q) (Rests I Q) Session.clear := k.upheld.clear

/-- A request keeps what is steady, if the entry that it puts in is admitted. -/
theorem perform (h : Rests I Q s) (r : Cache.Request V C)
    (hnew : ∀ key value options, r = .insert key value options ∨
      r = .insertIfAbsent key value options → ∀ c, I c [] → New c [] key value options) :
    Rests I Q (r.perform m s) := by
  cases r with
  | insert key value options => exact k.insert (hnew key value options (.inl rfl)) s h
  | insertIfAbsent key value options =>
    exact k.insertIfAbsent (hnew key value options (.inr rfl)) s h
  | get key => exact k.get key s h
  | look key => exact k.look key s h
  | remove key => exact k.remove key s h
  | purge => exact k.purge s h
  | clear => exact k.clear s h

end Steady

end Session

/-! ## Thinned caches -/

namespace Cache

open Relation

variable {V C : Type} {c rest : Cache V C} {key root : String}

/-- `rest` is what is left of a cache. Entries may have been read meanwhile. -/
structure Thinned (c rest : Cache V C) : Prop where
  linked : rest.Linked
  kept : ∀ key slot, rest.entries.get? key = some slot →
    ∃ old, c.entries.get? key = some old ∧ slot.value = old.value ∧ slot.options = old.options

namespace Thinned

theorem of_kept (hlinked : rest.Linked)
    (hkept : ∀ key slot, rest.entries.get? key = some slot → c.entries.get? key = some slot) :
    c.Thinned rest :=
  ⟨hlinked, fun key slot hget => ⟨slot, hkept key slot hget, rfl, rfl⟩⟩

theorem cleared (h : c.Linked) (key : String) : c.Thinned (c.cleared key).1 :=
  .of_kept (h.cleared key) fun _ _ hget => (kept_of_cleared h key hget).2

theorem detach (h : c.Linked) {d : Detached V C} (hd : c.detach key = some d) :
    c.Thinned d.cache :=
  .of_kept (h.detach hd) (loses_detach h.toConsistent hd .expired).kept

theorem sweep (h : c.Linked) (now : Instant) (signals : Signals) :
    c.Thinned (c.sweep now signals).1 :=
  .of_kept (h.sweep now signals) fun _ _ => kept_of_sweep h now signals

theorem touch (h : c.Linked) (now : Instant) (key : String) : c.Thinned (c.touch now key) := by
  refine ⟨h.touch now key, fun other slot hget => ?_⟩
  obtain ⟨old, hold, hvalue, hoptions, -⟩ := get?_of_get?_touch hget
  exact ⟨old, hold, hvalue, hoptions⟩

theorem dropAll (c : Cache V C) : c.Thinned c.dropAll := ⟨.dropAll c, fun _ _ h => (nomatch h)⟩

/-- What a stored entry depends on, directly or through others, it depended on before. -/
theorem transGen (h : c.Thinned rest) (hc : c.Consistent)
    (hkey : (rest.entries.get? key).isSome = true) (hdep : TransGen c.DependsOn key root) :
    TransGen rest.DependsOn key root := by
  have hstep : ∀ {child parent}, (rest.entries.get? child).isSome = true →
      c.DependsOn child parent → rest.DependsOn child parent := by
    intro child parent hstored hd
    obtain ⟨slot, hslot⟩ := Option.isSome_iff_exists.1 hstored
    obtain ⟨old, hold, -, hoptions⟩ := h.kept child slot hslot
    rw [h.linked.recorded child slot hslot, hoptions]
    exact (hc.recorded child old hold parent).1 hd
  induction hdep using TransGen.head_induction_on with
  | single hd => exact .single (hstep hkey hd)
  | head hd _ ih =>
    have hd := hstep hkey hd
    exact .head hd (ih (h.linked.parent_stored _ _ hd))

end Thinned

/-- **To put an entry in** is to clear its place, and then to find it refused or to link it. -/
theorem place_cases {P : Cache V C → List (Evicted V C) → Bool → Prop} (h : c.Linked)
    (now : Instant) (signals : Signals) (key : String) (value : V) (options : Options C)
    (hrefused : (c.cleared key).1.refuses signals key options = true →
      P (c.cleared key).1 (c.cleared key).2.1 false)
    (hlinked : (∀ parent ∈ options.keys,
        parent ≠ key ∧ ((c.cleared key).1.entries.get? parent).isSome = true) →
      (c.cleared key).1.entries.get? key = none →
        P ((c.cleared key).1.link now key value options) (c.cleared key).2.1 true) :
    let p := c.place now signals key value options
    P p.cache p.evicted p.stored := by
  unfold place
  simp only
  split
  · next hrefuses => exact hrefused hrefuses
  · next hrefuses =>
    exact hlinked (not_refuses (by simpa using hrefuses)).1 (get?_cleared_self h key)

theorem Linked.root_stored (h : c.Linked) (hdep : TransGen c.DependsOn key root) :
    (c.entries.get? root).isSome = true := by
  cases hdep with
  | single hd => exact h.parent_stored _ _ hd
  | tail _ hd => exact h.parent_stored _ _ hd

theorem Consistent.keys_of_transGen (h : c.Consistent) {slot : Slot V C}
    (hget : c.entries.get? key = some slot) (hdep : TransGen c.DependsOn key root) :
    ∃ parent ∈ slot.options.keys, parent = root ∨ TransGen c.DependsOn parent root := by
  obtain ⟨parent, hd, hrest⟩ := TransGen.head'_iff.1 hdep
  refine ⟨parent, (h.recorded key slot hget parent).1 hd, ?_⟩
  exact (reflTransGen_iff_eq_or_transGen.1 hrest).imp_left Eq.symm

/-- What depended on something before an entry was put in under a free key still does. -/
theorem transGen_link (h : c.Consistent) (hfree : c.entries.get? key = none) (now : Instant)
    (value : V) (options : Options C) {child : String} (hdep : TransGen c.DependsOn child root) :
    TransGen (c.link now key value options).DependsOn child root := by
  refine TransGen.mono (fun child parent hd => ?_) _ _ hdep
  rw [dependsOn_link now value options h hfree, if_neg]
  · exact hd
  · rintro rfl
    have hstored := h.stored_of_dependsOn hd
    rw [hfree] at hstored
    cases hstored

/-- An entry under `key`, if there is one, depends on something. -/
def Grown (c : Cache V C) (key : String) : Prop :=
  ∀ slot, c.entries.get? key = some slot → slot.options.keys ≠ []

theorem Grown.thinned (h : c.Grown key) (hrest : c.Thinned rest) : rest.Grown key := by
  intro slot hget
  obtain ⟨old, hold, -, hoptions⟩ := hrest.kept key slot hget
  rw [hoptions]
  exact h old hold

end Cache

/-- What is kept when entries leave, and when one is put in, is steady. -/
theorem Session.Steady.of_thin {V C W : Type} {m : Moment V C W}
    {New : Cache V C → List (Evicted V C) → String → V → Options C → Prop}
    {I : Cache V C → List (Evicted V C) → Prop} {Q : W → Prop}
    (linked : ∀ c pending, I c pending → c.Linked)
    (forget : ∀ c e pending, I c (e :: pending) → I c pending)
    (thin : ∀ c rest pending more, I c pending → c.Thinned rest →
      (∀ e ∈ more, c.entries.get? e.key = some e.slot) → I rest (more ++ pending))
    (place : ∀ c pending signals key value options, I c pending →
      New c pending key value options →
        I (c.place m.now signals key value options).cache
          ((c.place m.now signals key value options).evicted ++ pending))
    (decide : ∀ c e pending hook (scene : Scene W), I c (e :: pending) →
      e.slot.options.hook = some hook → Q scene.world →
        Q (m.decide hook e.key e.slot.value e.reason scene).2.world)
    (renew : ∀ c e pending hook (scene : Scene W) value options, I c (e :: pending) →
      e.slot.options.hook = some hook →
        (m.decide hook e.key e.slot.value e.reason scene).1 = .reinsert value options →
          New c pending e.key value options) :
    Session.Steady m New I Q where
  forget
  place
  detach c pending key d h hd :=
    have hlinked := linked c pending h
    thin c d.cache pending d.evicted h (.detach hlinked hd)
      (Cache.was_stored_of_detach hlinked.toConsistent hd)
  sweep c signals h := by
    have hlinked := linked c [] h
    have hswept := thin c _ [] _ h (.sweep hlinked m.now signals)
      (Cache.loses_evictEach hlinked (c.doomed m.now signals)).was_stored
    rwa [List.append_nil] at hswept
  touch c key h :=
    thin c _ [] [] h (.touch (linked c [] h) m.now key) fun _ he => nomatch he
  dropAll c h := thin c _ [] [] h (.dropAll c) fun _ he => nomatch he
  decide
  renew

/-! ## What every entry is like -/

/-- The cache is linked, and every entry that is stored or waits to be asked is as `A` says. -/
structure Cache.Holds {V C : Type} (A : String → V → Options C → Prop) (c : Cache V C)
    (pending : List (Evicted V C)) : Prop where
  linked : c.Linked
  stored : ∀ key slot, c.entries.get? key = some slot → A key slot.value slot.options
  pending : ∀ e ∈ pending, A e.key e.slot.value e.slot.options

namespace Cache.Holds

variable {V C : Type} {A : String → V → Options C → Prop} {c : Cache V C}
  {pending : List (Evicted V C)}

/-- An entry may be let go. -/
theorem forget {e : Evicted V C} (h : c.Holds A (e :: pending)) : c.Holds A pending :=
  ⟨h.linked, h.stored, fun e' he' => h.pending e' (List.mem_cons_of_mem e he')⟩

/-- What leaves was as `A` says, and what stays is. -/
theorem thin (h : c.Holds A pending) {rest : Cache V C} {more : List (Evicted V C)}
    (hrest : c.Thinned rest) (hmore : ∀ e ∈ more, c.entries.get? e.key = some e.slot) :
    rest.Holds A (more ++ pending) where
  linked := hrest.linked
  stored key slot hget := by
    obtain ⟨old, hold, hvalue, hoptions⟩ := hrest.kept key slot hget
    rw [hvalue, hoptions]
    exact h.stored key old hold
  pending e he := by
    rcases List.mem_append.1 he with he | he
    · exact h.stored e.key e.slot (hmore e he)
    · exact h.pending e he

theorem place (h : c.Holds A pending) (now : Instant) (signals : Signals) {key : String}
    {value : V} {options : Options C} (hnew : A key value options) :
    (c.place now signals key value options).cache.Holds A
      ((c.place now signals key value options).evicted ++ pending) where
  linked := h.linked.place key now signals value options
  stored other slot hget := by
    rcases get?_place h.linked key now signals value options hget with ⟨rfl, rfl, -, -⟩ | ⟨-, hold⟩
    · exact hnew
    · exact h.stored other slot hold
  pending e he := by
    rcases List.mem_append.1 he with he | he
    · exact h.stored e.key e.slot
        (was_stored_of_place h.linked key now signals value options e he).1
    · exact h.pending e he

end Cache.Holds

/-- What every entry is like is steady, when hooks put back nothing else. -/
theorem Session.steady_holds {V C W : Type} {m : Moment V C W}
    {A : String → V → Options C → Prop} {Q : W → Prop}
    (hdecide : ∀ (e : Evicted V C) hook (scene : Scene W), A e.key e.slot.value e.slot.options →
      e.slot.options.hook = some hook → Q scene.world →
        Q (m.decide hook e.key e.slot.value e.reason scene).2.world)
    (hrenew : ∀ (e : Evicted V C) hook (scene : Scene W) value options,
      A e.key e.slot.value e.slot.options → e.slot.options.hook = some hook →
        (m.decide hook e.key e.slot.value e.reason scene).1 = .reinsert value options →
          A e.key value options) :
    Session.Steady m (fun _ _ => A) (Cache.Holds A) Q :=
  .of_thin (fun _ _ h => h.linked)
    (fun _ _ _ h => h.forget)
    (fun _ _ _ _ h hrest hmore => h.thin hrest hmore)
    (fun _ _ signals _ _ _ h hnew => h.place m.now signals hnew)
    (fun _ e _ hook scene h => hdecide e hook scene (h.pending e List.mem_cons_self))
    fun _ e _ hook scene value options h =>
      hrenew e hook scene value options (h.pending e List.mem_cons_self)

end Templating
