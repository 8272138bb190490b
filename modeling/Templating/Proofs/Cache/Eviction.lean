import Templating.Proofs.Cache.Asking

/-!
# What an eviction takes out

To remove a key, or to purge, is to take out some roots and all that was built on them. The tables
and sets that are walked have no order that matters, so `Cascades` and `EvictsEach` say what
happens when the keys to visit come up in any order. In all orders the same entries leave: those
from which a root is reached along dependencies, each once (`Cascades.exact`, `EvictsEach.exact`).
Only the reason may be another: an entry that is expired and was built on one that leaves too goes
with the one that comes up first.

`Exact` is what all these walks have in common, and it is put together like them: from the entry
that leaves first and what leaves then (`Exact.unlink`), and from one walk and the next
(`Exact.trans`).
-/

namespace Templating.Cache

open Relation

variable {V C : Type}

/-! ## Walks in any order -/

/-- A cascade that visits the keys in any order: a stored key leaves, and what depends on it is
visited later. -/
inductive Cascades : Cache V C → List String → Cache V C → List (Evicted V C) → Prop
  | done (c : Cache V C) : Cascades c [] c []
  | absent {c rest : Cache V C} {child : String} {pending others : List String}
      {gone : List (Evicted V C)} : pending.Perm (child :: others) →
      c.entries.get? child = none →
      Cascades { c with index := c.index.unregister child } others rest gone →
      Cascades c pending rest gone
  | present {c rest : Cache V C} {child : String} {pending others : List String}
      {slot : Slot V C} {gone : List (Evicted V C)} : pending.Perm (child :: others) →
      c.entries.get? child = some slot →
      Cascades (c.unlink child) ((c.unlink child).index.dependentsOf child ++ others) rest gone →
      Cascades c pending rest (⟨child, slot, .dependencyChanged⟩ :: gone)

/-- A stored key is taken out with what depends on it. -/
def Removes (c : Cache V C) (key : String) (slot : Slot V C) (rest : Cache V C)
    (gone : List (Evicted V C)) : Prop :=
  c.entries.get? key = some slot ∧
    Cascades (c.unlink key) ((c.unlink key).index.dependentsOf key) rest gone

/-- The doomed are taken out in any order, those that are still stored, with what depends on
them. -/
inductive EvictsEach : Cache V C → List (String × Reason) → Cache V C → List (Evicted V C) → Prop
  | done (c : Cache V C) : EvictsEach c [] c []
  | absent {c rest : Cache V C} {key : String} {reason : Reason}
      {doomed others : List (String × Reason)} {gone : List (Evicted V C)} :
      doomed.Perm ((key, reason) :: others) → c.entries.get? key = none →
      EvictsEach c others rest gone → EvictsEach c doomed rest gone
  | present {c mid rest : Cache V C} {key : String} {reason : Reason}
      {doomed others : List (String × Reason)} {slot : Slot V C}
      {evicted gone : List (Evicted V C)} :
      doomed.Perm ((key, reason) :: others) → c.Removes key slot mid evicted →
      EvictsEach mid others rest gone →
      EvictsEach c doomed rest (evicted ++ ⟨key, slot, reason⟩ :: gone)

/-- A cascade visits the keys in one of the orders. -/
theorem cascades_cascade (c : Cache V C) (pending : List String) :
    Cascades c pending (c.cascade pending).1 (c.cascade pending).2 := by
  fun_induction cascade c pending with
  | case1 c => exact .done c
  | case2 c child pending hnone ih => exact .absent (.refl _) hnone ih
  | case3 c child pending slot hslot index rest ih => exact .present (.refl _) hslot ih

theorem removes_detach {c : Cache V C} {key : String} {d : Detached V C}
    (h : c.detach key = some d) : c.Removes key d.slot d.cache d.evicted := by
  obtain ⟨hslot, hcache, hevicted⟩ := detach_eq_some h
  rw [hcache, hevicted]
  exact ⟨hslot, cascades_cascade ..⟩

theorem evictsEach_evictEach (c : Cache V C) (doomed : List (String × Reason)) :
    EvictsEach c doomed (c.evictEach doomed).1 (c.evictEach doomed).2 := by
  induction doomed generalizing c with
  | nil => exact .done c
  | cons row doomed ih =>
    obtain ⟨key, reason⟩ := row
    cases hd : c.detach key with
    | none =>
      rw [evictEach_cons_none hd]
      exact .absent (.refl _) (detach_eq_none hd) (ih c)
    | some d =>
      rw [evictEach_cons_some hd]
      exact .present (.refl _) (removes_detach hd) (ih d.cache)

/-! ## What leaves -/

/-- The entries `gone` are those from which a stored root is reached, each once, and `rest` is the
cache without them. -/
structure Exact (c : Cache V C) (roots : String → Prop) (rest : Cache V C)
    (gone : List (Evicted V C)) : Prop where
  consistent : rest.Consistent
  loses : c.Loses gone rest
  nodup : (gone.map Evicted.key).Nodup
  reaches : ∀ key, key ∈ gone.map Evicted.key ↔ (c.entries.get? key).isSome = true ∧
    ∃ root, roots root ∧ (c.entries.get? root).isSome = true ∧ ReflTransGen c.DependsOn key root
  depends : ∀ key parent, rest.DependsOn key parent ↔
    (rest.entries.get? key).isSome = true ∧ c.DependsOn key parent

/-- On the way to a root one comes past `child`, or one never leaves it. -/
theorem past_or_avoids {R : String → String → Prop} {child key root : String}
    (h : ReflTransGen R key root) :
    key = child ∨
      (∃ x, x ≠ child ∧ R x child ∧ ReflTransGen (fun a b => a ≠ child ∧ R a b) key x) ∨
      root ≠ child ∧ ReflTransGen (fun a b => a ≠ child ∧ R a b) key root := by
  induction h using ReflTransGen.head_induction_on with
  | refl =>
    by_cases hroot : root = child
    · exact .inl hroot
    · exact .inr (.inr ⟨hroot, .refl⟩)
  | @head key next hstep _ ih =>
    by_cases hkey : key = child
    · exact .inl hkey
    · rcases ih with rfl | ⟨x, hx, hxc, hrest⟩ | ⟨hroot, hrest⟩
      · exact .inr (.inl ⟨key, hkey, hstep, .refl⟩)
      · exact .inr (.inl ⟨x, hx, hxc, .head ⟨hkey, hstep⟩ hrest⟩)
      · exact .inr (.inr ⟨hroot, .head ⟨hkey, hstep⟩ hrest⟩)

namespace Exact

variable {c mid rest : Cache V C} {roots roots' : String → Prop} {gone gone' : List (Evicted V C)}

theorem refl (h : c.Consistent) : c.Exact (fun _ => False) c [] where
  consistent := h
  loses := .refl c
  nodup := List.nodup_nil
  reaches key := by simp
  depends key parent := ⟨fun hd => ⟨h.stored_of_dependsOn hd, hd⟩, And.right⟩

/-- Roots that are not stored do not matter. -/
theorem congr (h : c.Exact roots rest gone) (hperm : gone'.Perm gone)
    (hroots : ∀ root, (c.entries.get? root).isSome = true → (roots' root ↔ roots root)) :
    c.Exact roots' rest gone' where
  consistent := h.consistent
  loses := h.loses.perm fun _ => hperm.mem_iff
  nodup := (hperm.map Evicted.key).nodup_iff.2 h.nodup
  reaches key := by
    rw [(hperm.map Evicted.key).mem_iff, h.reaches]
    refine and_congr_right fun _ => exists_congr fun root => ?_
    constructor
    · rintro ⟨hroot, hstored, hreaches⟩
      exact ⟨(hroots root hstored).2 hroot, hstored, hreaches⟩
    · rintro ⟨hroot, hstored, hreaches⟩
      exact ⟨(hroots root hstored).1 hroot, hstored, hreaches⟩
  depends := h.depends

/-- An entry leaves, and then what was built on it, beside other roots. -/
theorem unlink (hc : c.Consistent) {child : String} {slot : Slot V C} {others : List String}
    (hslot : c.entries.get? child = some slot)
    (h : (c.unlink child).Exact
      (· ∈ (c.unlink child).index.dependentsOf child ++ others) rest gone) (reason : Reason) :
    c.Exact (· ∈ child :: others) rest (⟨child, slot, reason⟩ :: gone) := by
  have hloses := Loses.unlink hslot reason
  have hstored : ∀ key, ((c.unlink child).entries.get? key).isSome = true ↔
      key ≠ child ∧ (c.entries.get? key).isSome = true := by
    intro key
    simp only [Cache.unlink, Table.get?_erase]
    split <;> simp_all
  have hdeps : (c.unlink child).DependsOn = fun a b => a ≠ child ∧ c.DependsOn a b := by
    funext a b
    exact propext (dependsOn_unlink c child a b)
  refine ⟨h.consistent, hloses.trans h.loses, ?_, fun key => ?_, fun key parent => ?_⟩
  · refine List.nodup_cons.2 ⟨fun hmem => ?_, h.nodup⟩
    exact ((hstored child).1 ((h.reaches child).1 hmem).1).1 rfl
  · rw [List.map_cons, List.mem_cons, h.reaches, hstored, hdeps]
    constructor
    · rintro (rfl | ⟨⟨-, hkey⟩, root, hroot, hrootstored, hreaches⟩)
      · exact ⟨by rw [hslot]; rfl, key, List.mem_cons_self, by rw [hslot]; rfl, .refl⟩
      · have hpath : ReflTransGen c.DependsOn key root :=
          ReflTransGen.mono (fun _ _ hd => hd.2) _ _ hreaches
        rcases List.mem_append.1 hroot with hdep | hother
        · have hstep := ((mem_dependentsOf_unlink hc child root child).1 hdep).2
          exact ⟨hkey, child, List.mem_cons_self, by rw [hslot]; rfl, hpath.tail hstep⟩
        · exact ⟨hkey, root, List.mem_cons_of_mem _ hother, ((hstored root).1 hrootstored).2, hpath⟩
    · rintro ⟨hkey, root, hroot, hrootstored, hreaches⟩
      by_cases hne : key = child
      · exact .inl hne
      refine .inr ⟨⟨hne, hkey⟩, ?_⟩
      rcases past_or_avoids hreaches with heq | ⟨x, hx, hxc, hpath⟩ | ⟨hrootne, hpath⟩
      · exact absurd heq hne
      · have hmem := (mem_dependentsOf_unlink hc child x child).2 ⟨hx, hxc⟩
        exact ⟨x, List.mem_append_left _ hmem,
          (hstored x).2 ⟨hx, hc.stored_of_dependsOn hxc⟩, hpath⟩
      · exact ⟨root, List.mem_append_right _ ((List.mem_cons.1 hroot).resolve_left hrootne),
          (hstored root).2 ⟨hrootne, hrootstored⟩, hpath⟩
  · rw [h.depends, dependsOn_unlink]
    refine and_congr_right fun hkey => and_iff_right ?_
    rintro rfl
    rw [(hloses.trans h.loses).is_gone _ List.mem_cons_self] at hkey
    cases hkey

/-- What is built on an entry that leaves, leaves too. -/
theorem closed (h : c.Exact roots rest gone) {key parent : String} (hc : c.Consistent)
    (hdep : c.DependsOn key parent) (hparent : parent ∈ gone.map Evicted.key) :
    key ∈ gone.map Evicted.key := by
  obtain ⟨-, root, hroot, hstored, hreaches⟩ := (h.reaches parent).1 hparent
  exact (h.reaches key).2
    ⟨hc.stored_of_dependsOn hdep, root, hroot, hstored, .head hdep hreaches⟩

theorem isSome_rest (h : c.Exact roots rest gone) (key : String) :
    (rest.entries.get? key).isSome = true ↔
      (c.entries.get? key).isSome = true ∧ key ∉ gone.map Evicted.key := by
  constructor
  · intro hkey
    obtain ⟨slot, hslot⟩ := Option.isSome_iff_exists.1 hkey
    refine ⟨by rw [h.loses.kept key slot hslot]; rfl, fun hmem => ?_⟩
    obtain ⟨e, he, rfl⟩ := List.mem_map.1 hmem
    rw [h.loses.is_gone e he] at hkey
    cases hkey
  · rintro ⟨hkey, hmem⟩
    obtain ⟨slot, hslot⟩ := Option.isSome_iff_exists.1 hkey
    rcases h.loses.kept_or_gone key slot hslot with hkept | ⟨e, he, rfl, -⟩
    · rw [hkept]
      rfl
    · exact absurd (List.mem_map_of_mem he) hmem

/-- One walk after the other. -/
theorem trans (hc : c.Consistent) (h : c.Exact roots mid gone) (h' : mid.Exact roots' rest gone') :
    c.Exact (fun root => roots root ∨ roots' root) rest (gone ++ gone') := by
  -- A way to a root that does not leave stays, as what is built on what leaves would leave too.
  have hpath : ∀ {key root}, ReflTransGen c.DependsOn key root →
      (c.entries.get? root).isSome = true → (mid.entries.get? key).isSome = true →
      (mid.entries.get? root).isSome = true ∧ ReflTransGen mid.DependsOn key root := by
    intro key root hreaches hroot hkey
    induction hreaches using ReflTransGen.head_induction_on with
    | refl => exact ⟨hkey, .refl⟩
    | @head key next hstep hrest ih =>
      have hnext : (mid.entries.get? next).isSome = true := by
        refine (h.isSome_rest next).2 ⟨?_, fun hmem => ?_⟩
        · rcases ReflTransGen.cases_head_iff.1 hrest with rfl | ⟨x, hx, -⟩
          · exact hroot
          · exact hc.stored_of_dependsOn hx
        · exact ((h.isSome_rest key).1 hkey).2 (h.closed hc hstep hmem)
      obtain ⟨hstored, hpath⟩ := ih hnext
      exact ⟨hstored, .head ((h.depends key next).2 ⟨hkey, hstep⟩) hpath⟩
  refine ⟨h'.consistent, h.loses.trans h'.loses, ?_, fun key => ?_, fun key parent => ?_⟩
  · rw [List.map_append]
    refine List.nodup_append.2 ⟨h.nodup, h'.nodup, ?_⟩
    rintro key hgone _ hgone' rfl
    exact ((h.isSome_rest key).1 ((h'.reaches key).1 hgone').1).2 hgone
  · rw [List.map_append, List.mem_append]
    constructor
    · rintro (hmem | hmem)
      · obtain ⟨hkey, root, hroot, hstored, hreaches⟩ := (h.reaches key).1 hmem
        exact ⟨hkey, root, .inl hroot, hstored, hreaches⟩
      · obtain ⟨hkey, root, hroot, hstored, hreaches⟩ := (h'.reaches key).1 hmem
        exact ⟨((h.isSome_rest key).1 hkey).1, root, .inr hroot, ((h.isSome_rest root).1 hstored).1,
          ReflTransGen.mono (fun a b hd => ((h.depends a b).1 hd).2) _ _ hreaches⟩
    · rintro ⟨hkey, root, hroot | hroot, hstored, hreaches⟩
      · exact .inl ((h.reaches key).2 ⟨hkey, root, hroot, hstored, hreaches⟩)
      · by_cases hmem : key ∈ gone.map Evicted.key
        · exact .inl hmem
        · have hmid := (h.isSome_rest key).2 ⟨hkey, hmem⟩
          obtain ⟨hrootmid, hreachesmid⟩ := hpath hreaches hstored hmid
          exact .inr ((h'.reaches key).2 ⟨hmid, root, hroot, hrootmid, hreachesmid⟩)
  · rw [h'.depends, h.depends]
    refine and_congr_right fun hkey => and_iff_right ?_
    exact ((h'.isSome_rest key).1 hkey).1

end Exact

section Walks

variable {c rest : Cache V C} {gone : List (Evicted V C)}

/-- **A cascade is exact**, in whatever order it visits the keys. -/
theorem Cascades.exact {pending : List String} (h : Cascades c pending rest gone)
    (hc : c.Consistent) : c.Exact (· ∈ pending) rest gone := by
  induction h with
  | done c => exact (Exact.refl hc).congr (.refl _) (by simp)
  | @absent c rest child pending others gone hperm hnone hwalk ih =>
    have hsame : { c with index := c.index.unregister child } = c := by
      rw [hc.unregister_of_none hnone]
    rw [hsame] at ih
    refine (ih hc).congr (.refl _) fun root hstored => ?_
    rw [hperm.mem_iff, List.mem_cons, or_iff_right]
    rintro rfl
    rw [hnone] at hstored
    cases hstored
  | present hperm hslot _ ih =>
    exact ((ih (hc.unlink _)).unlink hc hslot _).congr (.refl _) fun root _ => hperm.mem_iff

/-- What a cascade takes out leaves for a dependency. -/
theorem Cascades.reason {pending : List String} (h : Cascades c pending rest gone) :
    ∀ e ∈ gone, e.reason = .dependencyChanged := by
  induction h with
  | done => intro e he; cases he
  | absent _ _ _ ih => exact ih
  | present _ _ _ ih =>
    intro e he
    rcases List.mem_cons.1 he with rfl | he
    · rfl
    · exact ih e he

/-- **A removal is exact**: the key leaves with what depends on it. -/
theorem Removes.exact {key : String} {slot : Slot V C} (h : c.Removes key slot rest gone)
    (hc : c.Consistent) (reason : Reason) :
    c.Exact (· = key) rest (⟨key, slot, reason⟩ :: gone) := by
  have hwalk : (c.unlink key).Exact (· ∈ (c.unlink key).index.dependentsOf key ++ []) rest gone :=
    (h.2.exact (hc.unlink key)).congr (.refl gone) (by simp)
  exact (hwalk.unlink hc h.1 reason).congr (.refl _) (by simp)

/-- **A purge is exact**, in whatever order the doomed come up. -/
theorem EvictsEach.exact {doomed : List (String × Reason)} (h : EvictsEach c doomed rest gone)
    (hc : c.Consistent) : c.Exact (· ∈ doomed.map Prod.fst) rest gone := by
  induction h with
  | done c => exact (Exact.refl hc).congr (.refl _) (by simp)
  | @absent c rest key reason doomed others gone hperm hnone _ ih =>
    refine (ih hc).congr (.refl _) fun root hstored => ?_
    rw [(hperm.map Prod.fst).mem_iff, List.map_cons, List.mem_cons, or_iff_right]
    rintro rfl
    rw [hnone] at hstored
    cases hstored
  | @present c mid rest key reason doomed others slot evicted gone hperm hremoves _ ih =>
    have hfirst := hremoves.exact hc reason
    refine (hfirst.trans hc (ih hfirst.consistent)).congr List.perm_middle fun root _ => ?_
    rw [(hperm.map Prod.fst).mem_iff, List.map_cons, List.mem_cons]

/-- What a purge takes out is doomed for the reason that is reported, or it leaves for a
dependency. -/
theorem EvictsEach.reason {doomed : List (String × Reason)} (h : EvictsEach c doomed rest gone) :
    ∀ e ∈ gone, e.reason = .dependencyChanged ∨ (e.key, e.reason) ∈ doomed := by
  induction h with
  | done => intro e he; cases he
  | absent hperm _ _ ih =>
    exact fun e he => (ih e he).imp_right fun hmem => hperm.mem_iff.2 (List.mem_cons_of_mem _ hmem)
  | present hperm hremoves _ ih =>
    intro e he
    rcases List.mem_append.1 he with he | he
    · exact .inl (hremoves.2.reason e he)
    rcases List.mem_cons.1 he with rfl | he
    · exact .inr (hperm.mem_iff.2 List.mem_cons_self)
    · exact (ih e he).imp_right fun hmem => hperm.mem_iff.2 (List.mem_cons_of_mem _ hmem)

end Walks

/-! ## The same entries in another order -/

/-- The two caches hold the same entries, in tables and sets whose order may be another. -/
structure Alike (c c' : Cache V C) : Prop where
  linked : c'.Linked
  epoch : c'.epoch = c.epoch
  entries : ∀ key, c'.entries.get? key = c.entries.get? key

namespace Alike

variable {c c' : Cache V C}

theorem refl (h : c.Linked) : c.Alike c := ⟨h, rfl, fun _ => rfl⟩

theorem dependsOn (h : c.Alike c') (hc : c.Consistent) : c'.DependsOn = c.DependsOn := by
  funext child parent
  refine propext ?_
  cases hget : c.entries.get? child with
  | none =>
    have hnone : c'.entries.get? child = none := (h.entries child).trans hget
    constructor
    · intro hd
      have hstored := h.linked.stored_of_dependsOn hd
      rw [hnone] at hstored
      cases hstored
    · intro hd
      have hstored := hc.stored_of_dependsOn hd
      rw [hget] at hstored
      cases hstored
  | some slot =>
    rw [hc.recorded child slot hget, h.linked.recorded child slot ((h.entries child).trans hget)]

theorem mem_doomed (h : c.Alike c') {now : Instant} {signals : Signals} {key : String}
    {reason : Reason} :
    (key, reason) ∈ c'.doomed now signals ↔
      ∃ slot, c.entries.get? key = some slot ∧ slot.doom? c.epoch now signals = some reason := by
  rw [Cache.mem_doomed h.linked.distinct, h.entries, h.epoch]

end Alike

/-! ## Exactly what leaves -/

/-- The keys `gone` leave `c`, each once. They are those for which `leaves` holds, and nothing else
changes. -/
structure TakesOut (c : Cache V C) (leaves : String → Prop) (rest : Cache V C)
    (gone : List String) : Prop where
  nodup : gone.Nodup
  mem_iff : ∀ key, key ∈ gone ↔ leaves key
  entries : ∀ key slot, rest.entries.get? key = some slot ↔
    c.entries.get? key = some slot ∧ ¬leaves key
  depends : ∀ key parent, rest.DependsOn key parent ↔ c.DependsOn key parent ∧ ¬leaves key

namespace TakesOut

variable {c c' rest rest' : Cache V C} {leaves leaves' : String → Prop} {gone gone' : List String}

theorem of_iff (h : c.TakesOut leaves rest gone) (hleaves : ∀ key, leaves' key ↔ leaves key) :
    c.TakesOut leaves' rest gone where
  nodup := h.nodup
  mem_iff key := (h.mem_iff key).trans (hleaves key).symm
  entries key slot := by rw [h.entries, hleaves]
  depends key parent := by rw [h.depends, hleaves]

/-- What leaves a cache leaves it in any order of its tables. -/
theorem of_alike (h : c'.TakesOut leaves rest gone) (halike : c.Alike c') (hc : c.Consistent) :
    c.TakesOut leaves rest gone where
  nodup := h.nodup
  mem_iff := h.mem_iff
  entries key slot := by rw [h.entries, halike.entries]
  depends key parent := by rw [h.depends, halike.dependsOn hc]

/-- As many keys leave, whatever the order. -/
theorem length_eq (h : c.TakesOut leaves rest gone) (h' : c.TakesOut leaves rest' gone') :
    gone.length = gone'.length :=
  ((List.perm_ext_iff_of_nodup h.nodup h'.nodup).2
    fun key => (h.mem_iff key).trans (h'.mem_iff key).symm).length_eq

end TakesOut

theorem Exact.takesOut {c rest : Cache V C} {roots : String → Prop} {gone : List (Evicted V C)}
    (hc : c.Consistent) (h : c.Exact roots rest gone) :
    c.TakesOut (fun key => ∃ root, roots root ∧ (c.entries.get? root).isSome = true ∧
      ReflTransGen c.DependsOn key root) rest (gone.map Evicted.key) := by
  have hmem : ∀ key, key ∈ gone.map Evicted.key ↔ ∃ root, roots root ∧
      (c.entries.get? root).isSome = true ∧ ReflTransGen c.DependsOn key root := by
    intro key
    rw [h.reaches, and_iff_right_iff_imp]
    rintro ⟨root, -, hroot, hreaches⟩
    rcases ReflTransGen.cases_head_iff.1 hreaches with rfl | ⟨next, hstep, -⟩
    · exact hroot
    · exact hc.stored_of_dependsOn hstep
  refine ⟨h.nodup, hmem, fun key slot => ?_, fun key parent => ?_⟩
  · rw [← hmem]
    constructor
    · intro hget
      exact ⟨h.loses.kept key slot hget, ((h.isSome_rest key).1 (by rw [hget]; rfl)).2⟩
    · rintro ⟨hget, hstays⟩
      rcases h.loses.kept_or_gone key slot hget with hkept | ⟨e, he, rfl, -⟩
      · exact hkept
      · exact absurd (List.mem_map_of_mem he) hstays
  · rw [h.depends, ← hmem, h.isSome_rest]
    constructor
    · rintro ⟨⟨-, hstays⟩, hdep⟩
      exact ⟨hdep, hstays⟩
    · rintro ⟨hdep, hstays⟩
      exact ⟨⟨hc.stored_of_dependsOn hdep, hstays⟩, hdep⟩

section Alike

variable {c c' rest : Cache V C} {gone : List (Evicted V C)}

/-- **What a removal takes out**, whatever the order of tables and sets: the key and what depends
on it, directly or through others. The others leave for a dependency. -/
theorem Removes.takesOut {key : String} {slot : Slot V C} (hc : c.Linked) (halike : c.Alike c')
    (h : c'.Removes key slot rest gone) :
    c.TakesOut (ReflTransGen c.DependsOn · key) rest (key :: gone.map Evicted.key) ∧
      ∀ e ∈ gone, c.entries.get? e.key = some e.slot ∧ e.reason = .dependencyChanged := by
  have hexact := h.exact halike.linked.toConsistent .dependencyChanged
  have hstored : (c'.entries.get? key).isSome = true := by rw [h.1]; rfl
  constructor
  · refine ((hexact.takesOut halike.linked.toConsistent).of_alike halike hc.toConsistent).of_iff
      fun other => ?_
    rw [← halike.dependsOn hc.toConsistent]
    constructor
    · intro hreaches
      exact ⟨key, rfl, hstored, hreaches⟩
    · rintro ⟨_, rfl, -, hreaches⟩
      exact hreaches
  · intro e he
    rw [← halike.entries]
    exact ⟨hexact.loses.was_stored e (List.mem_cons_of_mem _ he), h.2.reason e he⟩

variable {now : Instant} {signals : Signals}

/-- **What a purge takes out**, whatever the order of tables and sets: the entries that are expired
or hold a token that has fired, and what depends on one of them. A token that has fired is the
reason where there is one. -/
theorem EvictsEach.takesOut (hc : c.Linked) (halike : c.Alike c')
    (h : c'.EvictsEach (c'.doomed now signals) rest gone) :
    c.TakesOut (fun key => ∃ root slot, c.entries.get? root = some slot ∧
        (slot.isExpired c.epoch now = true ∨ slot.hasFired signals = true) ∧
        ReflTransGen c.DependsOn key root) rest (gone.map Evicted.key) ∧
      ∀ e ∈ gone, c.entries.get? e.key = some e.slot ∧
        (e.reason = .expired →
          e.slot.isExpired c.epoch now = true ∧ e.slot.hasFired signals = false) ∧
        (e.slot.hasFired signals = true → e.reason = .dependencyChanged) := by
  have hexact := h.exact halike.linked.toConsistent
  have hroot : ∀ root, root ∈ (c'.doomed now signals).map Prod.fst ↔ ∃ slot,
      c.entries.get? root = some slot ∧
        (slot.isExpired c.epoch now = true ∨ slot.hasFired signals = true) := by
    intro root
    simp only [List.mem_map, Prod.exists, halike.mem_doomed, exists_and_right, exists_eq_right]
    constructor
    · rintro ⟨reason, slot, hget, hdoom⟩
      refine ⟨slot, hget, ?_⟩
      unfold Slot.doom? at hdoom
      split at hdoom
      · next hfired => exact .inr hfired
      · split at hdoom
        · next hexpired => exact .inl hexpired
        · cases hdoom
    · rintro ⟨slot, hget, hdue⟩
      unfold Slot.doom?
      by_cases hfired : slot.hasFired signals = true
      · exact ⟨_, slot, hget, if_pos hfired⟩
      · exact ⟨_, slot, hget, by rw [if_neg hfired, if_pos (hdue.resolve_right hfired)]⟩
  constructor
  · refine ((hexact.takesOut halike.linked.toConsistent).of_alike halike hc.toConsistent).of_iff
      fun key => ?_
    rw [halike.dependsOn hc.toConsistent]
    constructor
    · rintro ⟨root, slot, hget, hdue, hreaches⟩
      exact ⟨root, (hroot root).2 ⟨slot, hget, hdue⟩, by rw [halike.entries, hget]; rfl, hreaches⟩
    · rintro ⟨root, hmem, -, hreaches⟩
      obtain ⟨slot, hget, hdue⟩ := (hroot root).1 hmem
      exact ⟨root, slot, hget, hdue, hreaches⟩
  · intro e he
    have hget : c.entries.get? e.key = some e.slot := by
      rw [← halike.entries]
      exact hexact.loses.was_stored e he
    have hdoom : e.reason = .dependencyChanged ∨
        e.slot.doom? c.epoch now signals = some e.reason := by
      refine (h.reason e he).imp_right fun hmem => ?_
      obtain ⟨slot, hslot, hdoom⟩ := halike.mem_doomed.1 hmem
      rw [hget] at hslot
      cases hslot
      exact hdoom
    unfold Slot.doom? at hdoom
    refine ⟨hget, fun hreason => ?_, fun hfired => ?_⟩
    · rw [hreason] at hdoom
      cases hfired : e.slot.hasFired signals <;> cases hexpired : e.slot.isExpired c.epoch now <;>
        simp [hfired, hexpired] at hdoom ⊢
    · rcases hdoom with hreason | hreason
      · exact hreason
      · rw [if_pos hfired] at hreason
        exact (Option.some.inj hreason).symm

end Alike

end Templating.Cache

namespace Templating.Commons

open Relation

variable {ι V C W : Type} [DecidableEq ι]

/-- **Eviction is exact**, at every moment of every run. A removal, or a purge, first takes entries
out and then has their hooks asked. What it takes out is one of the outcomes that the order of
tables and sets leaves open, and all these outcomes take out the same keys, each once, and leave
the other entries as they are: a removal takes out the key and what depends on it, and a purge what
is expired or holds a token that has fired, and what depends on that. A purge answers how many they
are. -/
theorem evicts_exactly (decide : Decisions V C W) (flags : ι ↪ Flag) (epochs : ι → Instant)
    (now : Instant) (scene : Scene W) (moves : List (Move ι V C W)) (i : ι) :
    let σ := (start flags epochs now scene).run decide moves
    let m := σ.moment decide
    let s := σ.session i
    let c := s.cache
    let signals := s.scene.signals
    (∀ key slot, c.entries.get? key = some slot →
      let begun := (Cache.Request.remove key).begin m s
      Session.remove m key s = (some slot.value, begun.1.settle m (begun.2.map .consult)) ∧
      c.Removes key slot begun.1.cache begun.2 ∧
      ∀ c' rest gone, c.Alike c' → c'.Removes key slot rest gone →
        c.TakesOut (ReflTransGen c.DependsOn · key) rest (key :: gone.map Evicted.key) ∧
        ∀ e ∈ gone, c.entries.get? e.key = some e.slot ∧ e.reason = .dependencyChanged) ∧
    let begun := Cache.Request.purge.begin m s
    Session.purge m s = (begun.2.length, begun.1.settle m (begun.2.map .consult)) ∧
    (∃ rest, c.EvictsEach (c.doomed m.now signals) rest begun.2 ∧
      begun.1.cache = { rest with hint := rest.nextDeadline.map rest.hintFor }) ∧
    ∀ c' rest gone, c.Alike c' → c'.EvictsEach (c'.doomed m.now signals) rest gone →
      c.TakesOut (fun key => ∃ root slot, c.entries.get? root = some slot ∧
          (slot.isExpired c.epoch m.now = true ∨ slot.hasFired signals = true) ∧
          ReflTransGen c.DependsOn key root) rest (gone.map Evicted.key) ∧
      gone.length = (Session.purge m s).1 ∧
      ∀ e ∈ gone, c.entries.get? e.key = some e.slot ∧
        (e.reason = .expired →
          e.slot.isExpired c.epoch m.now = true ∧ e.slot.hasFired signals = false) ∧
        (e.slot.hasFired signals = true → e.reason = .dependencyChanged) := by
  intro σ m s c signals
  have hlinked : c.Linked :=
    run_induction (P := fun σ => ∀ j, (σ.caches j).Linked) (linked_step decide)
      (fun j => .dropAll { epoch := epochs j, flag := flags j }) moves i
  have hpurge := Cache.evictsEach_evictEach c (c.doomed m.now signals)
  refine ⟨fun key slot hget => ?_, rfl, ⟨_, hpurge, rfl⟩, fun c' rest gone halike hwalk => ?_⟩
  · obtain ⟨d, hd⟩ : ∃ d, c.detach key = some d := ⟨_, by rw [Cache.detach, hget]; rfl⟩
    have hslot : d.slot = slot := by
      have hold := (Cache.detach_eq_some hd).1
      rw [hget] at hold
      exact (Option.some.inj hold).symm
    have hbegin : (Cache.Request.remove key).begin m s =
        (⟨d.cache, s.scene.note (.evicted key .removed)⟩, d.evicted) := by
      simp only [Cache.Request.begin]
      rw [hd]
    have hremove : Session.remove m key s = (some d.slot.value, Session.consultAll m
        ⟨d.cache, s.scene.note (.evicted key .removed)⟩ d.evicted) := by
      unfold Session.remove
      rw [hd]
    subst hslot
    intro begun
    refine ⟨?_, ?_, fun c' rest gone halike hwalk => hwalk.takesOut hlinked halike⟩
    · rw [hremove, show begun = _ from hbegin]
      rfl
    · rw [show begun = _ from hbegin]
      exact Cache.removes_detach hd
  · obtain ⟨htakes, hrecords⟩ := hwalk.takesOut hlinked halike
    refine ⟨htakes, ?_, hrecords⟩
    have hsame := htakes.length_eq (hpurge.takesOut hlinked (.refl hlinked)).1
    rw [List.length_map, List.length_map] at hsame
    exact hsame

end Templating.Commons
