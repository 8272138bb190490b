import Mathlib.Data.Finset.Card
import Mathlib.Data.List.Perm.Subperm
import Mathlib.Data.Nat.Choose.Sum
import Templating.Proofs.Cache.Steps

/-!
# How often hooks are asked

To take entries out parts the keys of a cache into those that stay and those that leave
(`perm_cascade`, `perm_detach`, `perm_sweep`). So the keys that are stored and the keys whose
entries wait to be asked are all different, and they stay so, since a step brings no new key into
play (`Session.inPlay_attend`). Hence an entry that is put back comes into a free place, where it
displaces nothing.

With `k` keys in play of which `w` wait, at most `w + k.choose 2` hooks are still to be asked: when
one is, a key less waits, and when a removal makes others wait, a key goes out of play for good.
-/

namespace Templating

/-! ## Keys that stay and keys that leave -/

namespace Table

variable {α : Type}

theorem keys_erase (t : Table α) (key : String) :
    (t.erase key).keys = t.keys.filter (· != key) := by
  unfold keys erase
  rw [List.filter_map]
  rfl

theorem mem_keys_iff (t : Table α) (key : String) : key ∈ t.keys ↔ (t.get? key).isSome = true := by
  rw [← not_iff_not, Bool.not_eq_true, Option.isSome_eq_false_iff, Option.isNone_iff_eq_none]
  exact lookup_eq_none.symm

/-- A stored key and the keys that stay without it. -/
theorem perm_erase {t : Table α} (h : t.Distinct) {key : String}
    (hstored : (t.get? key).isSome = true) : (key :: (t.erase key).keys).Perm t.keys := by
  rw [keys_erase, ← List.Nodup.erase_eq_filter h]
  exact (List.perm_cons_erase ((t.mem_keys_iff key).2 hstored)).symm

theorem filter_keys_of_none {t : Table α} {key : String} (h : t.get? key = none) :
    t.keys.filter (· != key) = t.keys := by
  rw [List.filter_eq_self]
  intro other hother
  have hstored := (t.mem_keys_iff other).1 hother
  simp only [bne_iff_ne]
  rintro rfl
  rw [h] at hstored
  cases hstored

theorem keys_put_of_none {t : Table α} {key : String} (h : t.get? key = none) (value : α) :
    (t.put key value).keys = key :: t.keys := by
  refine congrArg (key :: ·) ?_
  exact (t.keys_erase key).trans (filter_keys_of_none h)

end Table

namespace Cache

variable {V C : Type}

theorem perm_cascade {c : Cache V C} (pending : List String) (h : c.Consistent) :
    ((c.cascade pending).2.map Evicted.key ++ (c.cascade pending).1.keys).Perm c.keys := by
  refine cascade_induction (motive := fun c _ rest gone =>
    (gone.map Evicted.key ++ rest.keys).Perm c.keys) ?nil ?absent ?present c pending h
  case nil => exact fun c _ => .refl c.keys
  case absent => exact fun _ _ _ _ _ _ _ ih => ih
  case present =>
    intro c child pending slot rest gone hc hslot ih
    exact (ih.cons child).trans (Table.perm_erase hc.distinct (by rw [hslot]; rfl))

theorem perm_detach {c : Cache V C} {key : String} {d : Detached V C} (h : c.Consistent)
    (hd : c.detach key = some d) :
    (key :: (d.evicted.map Evicted.key ++ d.cache.keys)).Perm c.keys := by
  obtain ⟨hslot, hcache, hevicted⟩ := detach_eq_some hd
  rw [hcache, hevicted]
  exact ((perm_cascade _ (h.unlink key)).cons key).trans
    (Table.perm_erase h.distinct (by rw [hslot]; rfl))

theorem perm_evictEach {c : Cache V C} (h : c.Linked) (doomed : List (String × Reason)) :
    ((c.evictEach doomed).2.map Evicted.key ++ (c.evictEach doomed).1.keys).Perm c.keys := by
  induction doomed generalizing c with
  | nil => exact .refl c.keys
  | cons row doomed ih =>
    obtain ⟨key, reason⟩ := row
    cases hd : c.detach key with
    | none =>
      rw [evictEach_cons_none hd]
      exact ih h
    | some d =>
      rw [evictEach_cons_some hd, List.map_append, List.map_cons, List.append_assoc,
        List.cons_append]
      refine (List.perm_middle).trans (((List.Perm.append_left _ ?_).cons key).trans
        (perm_detach h.toConsistent hd))
      exact ih (h.detach hd)

theorem perm_sweep {c : Cache V C} (h : c.Linked) (now : Instant) (signals : Signals) :
    ((c.sweep now signals).2.map Evicted.key ++ (c.sweep now signals).1.keys).Perm c.keys :=
  perm_evictEach h (c.doomed now signals)

/-- To clear a place parts the other keys into those that stay and those that leave. -/
theorem perm_cleared {c : Cache V C} (h : c.Linked) (key : String) :
    ((c.cleared key).2.1.map Evicted.key ++ (c.cleared key).1.keys).Perm
      (c.keys.filter (· != key)) := by
  cases hd : c.detach key with
  | none =>
    rw [cleared_of_none hd]
    exact .of_eq (Table.filter_keys_of_none (detach_eq_none hd)).symm
  | some d =>
    rw [cleared_of_some hd]
    have hperm := (perm_detach h.toConsistent hd).trans
      (Table.perm_erase h.distinct (by rw [(detach_eq_some hd).1]; rfl)).symm
    rw [Table.keys_erase] at hperm
    exact hperm.cons_inv

/-! ## Insertions into a free place -/

section Place

variable {c : Cache V C} (now : Instant) (signals : Signals) (key : String) (value : V)
  (options : Options C)

/-- What comes into a free place displaces nothing. -/
theorem place_of_none (h : c.entries.get? key = none) :
    (c.place now signals key value options).replaced = false ∧
      (c.place now signals key value options).evicted = [] := by
  have hd : c.detach key = none := by
    unfold detach
    rw [h]
    rfl
  unfold place
  rw [cleared_of_none hd]
  simp only
  split <;> exact ⟨rfl, rfl⟩

/-- An insertion leaves what the clearing of its place leaves, with its own key or without. -/
theorem keys_place (h : c.Linked) :
    (c.place now signals key value options).evicted = (c.cleared key).2.1 ∧
      ((c.place now signals key value options).cache.keys = (c.cleared key).1.keys ∨
        (c.place now signals key value options).cache.keys = key :: (c.cleared key).1.keys) := by
  unfold place
  simp only
  split
  · exact ⟨rfl, .inl rfl⟩
  · exact ⟨rfl, .inr (Table.keys_put_of_none (get?_cleared_self h key) _)⟩

/-- The keys that are stored after an insertion and those that left with it are none but the keys
that were stored before and its own. -/
theorem subperm_place (h : c.Linked) :
    ((c.place now signals key value options).evicted.map Evicted.key ++
      (c.place now signals key value options).cache.keys).Subperm
        (key :: c.keys.filter (· != key)) := by
  have hcleared := perm_cleared h key
  obtain ⟨hevicted, hkeys | hkeys⟩ := keys_place now signals key value options h
  · rw [hevicted, hkeys]
    exact hcleared.subperm.trans (List.sublist_cons_self ..).subperm
  · rw [hevicted, hkeys]
    exact (List.perm_middle.trans (hcleared.cons key)).subperm

end Place

end Cache

/-! ## Keys in play -/

namespace Session

variable {V C W : Type}

/-- The keys that wait or are stored. -/
def inPlay (s : Session V C W) (tasks : List (Task V C)) : List String :=
  (waitingEntries tasks).map Evicted.key ++ s.cache.keys

theorem length_inPlay (s : Session V C W) (tasks : List (Task V C)) :
    (s.inPlay tasks).length = s.cache.size + waiting tasks := by
  unfold inPlay
  rw [List.length_append, List.length_map, length_waitingEntries, Nat.add_comm]
  exact congrArg (· + waiting tasks) (List.length_map ..)

theorem inPlay_consults (s : Session V C W) (evicted : List (Evicted V C))
    (tasks : List (Task V C)) :
    (s.inPlay (evicted.map .consult ++ tasks)).Perm
      ((waitingEntries tasks).map Evicted.key ++ (evicted.map Evicted.key ++ s.cache.keys)) := by
  unfold inPlay
  rw [waitingEntries_consults, List.map_append, List.append_assoc]
  exact List.perm_append_comm_assoc ..

/-- The cache is linked, and all keys in play are different. -/
structure Apart (s : Session V C W) (tasks : List (Task V C)) : Prop where
  linked : s.cache.Linked
  nodup : (s.inPlay tasks).Nodup

/-- A step brings no new key into play. -/
theorem inPlay_attend (m : Moment V C W) {s : Session V C W} (h : s.cache.Linked)
    (task : Task V C) (tasks : List (Task V C)) :
    ((s.attend m task).1.inPlay ((s.attend m task).2 ++ tasks)).Subperm
      (s.inPlay (task :: tasks)) := by
  cases task with
  | consult e =>
    cases hr : s.reinsertion? m e with
    | none =>
      obtain ⟨also, hattend⟩ := attend_of_no_reinsertion hr
      rw [hattend]
      unfold inPlay
      rw [waitingEntries_removes]
      exact (List.sublist_cons_self ..).subperm
    | some p =>
      obtain ⟨value, options⟩ := p
      have hplace := (Cache.subperm_place m.now (s.answered m e).signals e.key value options
        h).trans (List.filter_sublist.cons_cons e.key).subperm
      rw [attend_of_reinsertion hr]
      exact ((inPlay_consults ..).subperm.trans
        ((List.subperm_append_left _).2 hplace)).trans List.perm_middle.subperm
  | remove key =>
    cases hd : s.cache.detach key with
    | none =>
      rw [attend_absent hd]
      exact .refl _
    | some d =>
      have hdetach := (List.sublist_cons_self ..).subperm.trans
        (Cache.perm_detach h.toConsistent hd).subperm
      rw [attend_stored hd]
      exact (inPlay_consults ..).subperm.trans
        ((List.subperm_append_left _).2 hdetach)

theorem nodup_of_subperm {l l' : List String} (h : l.Subperm l') (hnodup : l'.Nodup) : l.Nodup := by
  obtain ⟨k, hperm, hsub⟩ := h
  exact hperm.nodup_iff.1 (hnodup.sublist hsub)

namespace Apart

variable {m : Moment V C W} {s : Session V C W} {tasks : List (Task V C)}

theorem attend {task : Task V C} (h : s.Apart (task :: tasks)) :
    (s.attend m task).1.Apart ((s.attend m task).2 ++ tasks) where
  linked := (kept_linked m).attend h.linked task
  nodup := nodup_of_subperm (inPlay_attend m h.linked task tasks) h.nodup

/-- What waits to be asked is not stored. -/
theorem get?_eq_none {e : Evicted V C} (h : s.Apart (.consult e :: tasks)) :
    s.cache.entries.get? e.key = none := by
  obtain ⟨-, -, hdisjoint⟩ := List.nodup_append.1 h.nodup
  rw [← Option.not_isSome_iff_eq_none, ← Table.mem_keys_iff]
  intro hmem
  exact hdisjoint e.key List.mem_cons_self e.key hmem rfl

end Apart

/-! ## Patience -/

/-- Whether a hook is asked in a step. -/
def Step.asks (step : Step V C W) : Bool :=
  match step.task with
  | .consult e => e.slot.options.hook.isSome
  | .remove _ => false

/-- How many hooks can at most be asked until all is settled. -/
def patience (s : Session V C W) (tasks : List (Task V C)) : Nat :=
  waiting tasks + (s.cache.size + waiting tasks).choose 2

theorem choose_two_succ (k : Nat) : (k + 1).choose 2 = k + k.choose 2 := by
  rw [Nat.choose_succ_succ' k 1, Nat.choose_one_right]

theorem patience_le {s : Session V C W} {tasks : List (Task V C)} {n : Nat}
    (h : s.cache.size + waiting tasks ≤ n) : s.patience tasks ≤ n * (n + 1) / 2 := by
  have hchoose := Nat.choose_le_choose 2 h
  calc s.patience tasks ≤ n + n.choose 2 := by unfold patience; omega
    _ = (n + 1).choose 2 := (choose_two_succ n).symm
    _ = n * (n + 1) / 2 := by rw [Nat.choose_two_right, Nat.add_sub_cancel, Nat.mul_comm]

/-- To ask a hook takes one from the patience that is left. -/
theorem patience_attend (m : Moment V C W) {s : Session V C W} {task : Task V C}
    {tasks : List (Task V C)} (h : s.Apart (task :: tasks)) :
    (Step.asks ⟨s, task⟩).toNat + (s.attend m task).1.patience ((s.attend m task).2 ++ tasks) ≤
      s.patience (task :: tasks) := by
  unfold patience
  cases task with
  | consult e =>
    have hasks := Bool.toNat_le (Step.asks ⟨s, .consult e⟩)
    have hkeys : (s.attend m (.consult e)).1.cache.size +
        waiting ((s.attend m (.consult e)).2 ++ tasks) ≤ s.cache.size + (waiting tasks + 1) := by
      have hle := (inPlay_attend m h.linked (.consult e) tasks).length_le
      rwa [length_inPlay, length_inPlay] at hle
    have hwaiting : waiting ((s.attend m (.consult e)).2 ++ tasks) = waiting tasks := by
      cases hr : s.reinsertion? m e with
      | none =>
        obtain ⟨also, hattend⟩ := attend_of_no_reinsertion hr
        rw [hattend, waiting_removes]
      | some p =>
        rw [attend_of_reinsertion hr, (Cache.place_of_none _ _ _ _ _ h.get?_eq_none).2]
        rfl
    have hchoose := Nat.choose_le_choose 2 hkeys
    rw [hwaiting] at hchoose ⊢
    simp only [waiting]
    omega
  | remove key =>
    cases hd : s.cache.detach key with
    | none =>
      rw [attend_absent hd]
      exact Nat.le_of_eq (Nat.zero_add _)
    | some d =>
      -- The key that is removed pays for those that now wait, of which there are fewer than keys.
      have hlt := Cache.size_detach_lt hd
      have hchoose := Nat.choose_le_choose 2
        (show d.cache.size + (d.evicted.length + waiting tasks) + 1 ≤
          s.cache.size + waiting tasks by omega)
      rw [choose_two_succ] at hchoose
      rw [attend_stored hd, waiting_consults]
      simp only [waiting, Step.asks, Bool.toNat_false]
      omega

end Session

namespace Cache.Request

variable {V C W : Type}

/-- The keys that are stored when a request starts, counting a key that it inserts. -/
def keysAtStart (s : Session V C W) : Cache.Request V C → Finset String
  | insert key _ _ | insertIfAbsent key _ _ => Insert.insert key s.cache.keys.toFinset
  | get _ | look _ | remove _ | purge | clear => s.cache.keys.toFinset

/-- A request begins with no other keys than those at its start. -/
theorem subperm_begin (m : Moment V C W) {s : Session V C W} (h : s.cache.Linked)
    (r : Cache.Request V C) :
    ((r.begin m s).2.map Evicted.key ++ (r.begin m s).1.cache.keys).Subperm
      (r.keysAtStart s).toList := by
  have hdistinct : s.cache.keys.Nodup := h.distinct
  have hstored : s.cache.keys.Subperm (s.cache.keys.toFinset).toList :=
    hdistinct.subperm fun key hmem => by simpa using hmem
  have hinserted : ∀ key : String, (key :: s.cache.keys.filter (· != key)).Subperm
      (Insert.insert key s.cache.keys.toFinset).toList := by
    intro key
    refine List.Nodup.subperm (List.nodup_cons.2 ⟨by simp, hdistinct.filter _⟩) ?_
    intro other hmem
    rcases List.mem_cons.1 hmem with rfl | hmem
    · simp
    · simp [(List.mem_filter.1 hmem).1]
  cases r with
  | insert key value options =>
    exact (subperm_place m.now s.scene.signals key value options h).trans (hinserted key)
  | insertIfAbsent key value options =>
    simp only [begin]
    split
    · exact hdistinct.subperm fun other hmem =>
        Finset.mem_toList.2 (Finset.mem_insert_of_mem (List.mem_toFinset.2 hmem))
    · exact (subperm_place m.now s.scene.signals key value options h).trans (hinserted key)
  | get | look | purge => exact (perm_sweep h m.now _).subperm.trans hstored
  | remove key =>
    simp only [begin]
    cases hd : s.cache.detach key with
    | none => exact hstored
    | some d =>
      exact ((List.sublist_cons_self ..).subperm.trans
        (perm_detach h.toConsistent hd).subperm).trans hstored
  | clear => exact List.nil_subperm

theorem apart_begin (m : Moment V C W) {s : Session V C W} (h : s.cache.Linked)
    (r : Cache.Request V C) :
    (r.begin m s).1.Apart ((r.begin m s).2.map .consult) ∧
      (r.begin m s).1.cache.size + Session.waiting ((r.begin m s).2.map .consult) ≤
        (r.keysAtStart s).card := by
  have hsub := subperm_begin m h r
  have hinPlay : ((r.begin m s).1.inPlay ((r.begin m s).2.map .consult)).Subperm
      (r.keysAtStart s).toList := by
    have hperm := (r.begin m s).1.inPlay_consults (r.begin m s).2 []
    rw [List.append_nil] at hperm
    exact hperm.subperm.trans hsub
  refine ⟨⟨(Session.kept_linked m).begin h r,
    Session.nodup_of_subperm hinPlay (Finset.nodup_toList _)⟩, ?_⟩
  rw [← Session.length_inPlay, ← Finset.length_toList]
  exact hinPlay.length_le

end Cache.Request

/-! ## Every request ends, after a bounded number of hooks -/

namespace Commons

variable {ι V C W : Type} [DecidableEq ι]

/-- **Every request ends, whatever hooks decide**, at any moment of any run, and none of its tasks
is left. Where `n` keys are stored when it starts, counting one that it inserts, it asks at most
`n * (n + 1) / 2` hooks. An entry that a hook puts back always finds its place free: it displaces
no entry, and nothing leaves because of it. -/
theorem asks_le (decide : Decisions V C W) (flags : ι ↪ Flag) (epochs : ι → Instant)
    (now : Instant) (scene : Scene W) (moves : List (Move ι V C W)) (i : ι)
    (r : Cache.Request V C) (hget : ∀ key, r ≠ .get key) (hlook : ∀ key, r ≠ .look key) :
    let σ := (start flags epochs now scene).run decide moves
    let m := σ.moment decide
    let steps := r.steps m (σ.session i)
    let ended := σ.run decide (.begin i r :: List.replicate steps.length .attend)
    let n := (r.keysAtStart (σ.session i)).card
    ended = σ.step decide (.perform i r) ∧ ended.tasks = σ.tasks ∧
      steps.countP Session.Step.asks ≤ n * (n + 1) / 2 ∧
      ∀ step ∈ steps, ∀ e value options, step.task = .consult e →
        step.session.reinsertion? m e = some (value, options) →
          let p := step.session.cache.place m.now (step.session.answered m e).signals e.key value
            options
          step.session.cache.entries.get? e.key = none ∧ p.replaced = false ∧ p.evicted = [] := by
  intro σ m steps ended n
  have hlinked : (σ.session i).cache.Linked :=
    run_induction (P := fun σ => ∀ j, (σ.caches j).Linked) (linked_step decide)
      (fun j => .dropAll { epoch := epochs j, flag := flags j }) moves i
  have hended : ended = σ.step decide (.perform i r) :=
    (perform_eq_run decide σ i hget hlook).symm
  obtain ⟨hapart, hsize⟩ := r.apart_begin m hlinked
  refine ⟨hended, by rw [hended]; rfl, ?_, ?_⟩
  · exact (Session.countP_steps_le _ Session.patience (fun _ _ _ h => h.attend)
      (fun _ _ _ h => Session.patience_attend m h) hapart).trans (Session.patience_le hsize)
  · intro step hstep e value options htask _
    obtain ⟨rest, hrest⟩ := Session.forall_steps (P := Session.Apart)
      (fun s task tasks h => h.attend) hapart step hstep
    rw [htask] at hrest
    exact ⟨hrest.get?_eq_none, Cache.place_of_none m.now _ _ value options hrest.get?_eq_none⟩

/-- Hooks that put every entry back, without a hook of its own. -/
def renew : Decisions String Unit Unit := fun _ _ _ value _ scene => (.reinsert value {}, scene)

/-- One cache in a scene of its own. -/
def alone : Commons Unit String Unit Unit :=
  start ⟨fun _ => ⟨0⟩, fun _ _ _ => rfl⟩ (fun _ => 0) 0 { world := () }

/-- An entry with a hook is put in, and expires. -/
def aged : List (Move Unit String Unit Unit) :=
  [.begin () (.insert "watch" "seen" { expiration := .absolute 5, hook := some () }), .advance 10]

theorem countP_steps_purge_aged :
    (Cache.Request.purge.steps ((alone.run renew aged).moment renew)
      ((alone.run renew aged).session ())).countP Session.Step.asks = 1 := by
  simp [run, aged, step, alone, start, session, moment, afterBegin, after, renew,
    Cache.Request.begin, Cache.Request.steps, Session.steps_cons, Session.attend, Session.commit,
    Session.swept, Session.Step.asks, Cache.place, Cache.cleared, Cache.detach, Cache.refuses,
    Cache.link, Cache.sweep, Cache.doomed, Cache.evictEach, Cache.cascade, Slot.doom?,
    Slot.hasFired, Slot.isExpired, Slot.deadline?, Cache.Index.dependentsOf,
    Cache.Index.unregister, Cache.Index.register, Table.get?, Table.put, Table.erase, Table.empty]

theorem asks_le_aged : (∀ key, (.purge : Cache.Request String Unit) ≠ .get key) ∧
    (∀ key, (.purge : Cache.Request String Unit) ≠ .look key) ∧
    let σ := alone.run renew aged
    let asked := (Cache.Request.purge.steps (σ.moment renew) (σ.session ())).countP
      Session.Step.asks
    let n := (Cache.Request.purge.keysAtStart (σ.session ())).card
    asked = 1 ∧ asked ≤ n * (n + 1) / 2 := by
  have hget : ∀ key, (.purge : Cache.Request String Unit) ≠ .get key := fun _ h => nomatch h
  have hlook : ∀ key, (.purge : Cache.Request String Unit) ≠ .look key := fun _ h => nomatch h
  obtain ⟨-, -, hle, -⟩ := asks_le renew ⟨fun _ => ⟨0⟩, fun _ _ _ => rfl⟩ (fun _ => 0) 0
    { world := () } aged () .purge hget hlook
  exact ⟨hget, hlook, countP_steps_purge_aged, hle⟩

end Commons

end Templating
