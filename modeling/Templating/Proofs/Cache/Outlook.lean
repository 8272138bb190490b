import Templating.Proofs.Cache.Sturdy

/-!
# What can be seen of a part of a cache

A `zone` is a set of keys, and the **outlook** on it (`Cache.outlook`) tells all that a user of
these keys can come to know: the sturdy entries of the zone, each with its value, its dependencies,
its expiry, the millisecond in which it was last read, and a mark for each of its tokens. Entries
that are due to leave are not part of it, so it is the same before and after a purge
(`outlook_sweep`).

No entry of a closed zone depends on one outside. What an operation makes of the outlook on such a
zone is told by the outlook alone (`outlook_place`, `outlook_detach`, `outlook_touch`,
`outlook_decay`), and it makes nothing of it where it is about a key outside.
-/

namespace Templating

open Relation

/-! ## Outlooks -/

/-- What is seen of an entry. `μ` are the marks that stand for tokens. -/
structure Sight (V μ : Type) where
  value : V
  keys : List String
  expiration : Expiration
  touched : Nat
  marks : List μ

def Slot.sight {V C μ : Type} (mark : Token → μ) (slot : Slot V C) : Sight V μ :=
  ⟨slot.value, slot.options.keys, slot.options.expiration, slot.touched,
    slot.options.tokens.map mark⟩

/-- Whether an entry that looks like this is expired. -/
def Sight.isExpired {V μ : Type} (seen : Sight V μ) (epoch now : Instant) : Bool :=
  (⟨seen.value, { expiration := seen.expiration }, seen.touched⟩ : Slot V Empty).isExpired epoch now

theorem Slot.isExpired_sight {V C μ : Type} (mark : Token → μ) (slot : Slot V C)
    (epoch now : Instant) : (slot.sight mark).isExpired epoch now = slot.isExpired epoch now := rfl

/-- What is seen under each key. -/
def Outlook (V μ : Type) := String → Sight V μ → Prop

namespace Outlook

variable {V μ : Type} (v : Outlook V μ)

def Leans (key parent : String) : Prop := ∃ seen, v key seen ∧ parent ∈ seen.keys

/-- Without a key and what leans on it. -/
def drop (key : String) : Outlook V μ := fun other seen =>
  v other seen ∧ ¬ReflTransGen v.Leans other key

/-- With an entry under a free key, if it is not expired at once and what it leans on is there. -/
def put (key : String) (new : Sight V μ) (epoch now : Instant) : Outlook V μ := fun other seen =>
  if other = key then
    seen = new ∧ new.isExpired epoch now = false ∧ ∀ parent ∈ new.keys, ∃ found, v parent found
  else v other seen

def touch (key : String) (millis : Nat) : Outlook V μ := fun other seen =>
  if other = key then ∃ old, v key old ∧ seen = { old with touched := millis } else v other seen

/-- Without what has gone bad, and what leans on that. -/
def decay (bad : Sight V μ → Prop) : Outlook V μ := fun key seen =>
  v key seen ∧ ∀ other found, ReflTransGen v.Leans key other → v other found → ¬bad found

theorem touch_of_not {v : Outlook V μ} {key : String} (h : ∀ seen, ¬v key seen) (millis : Nat) :
    v.touch key millis = v := by
  funext other seen
  unfold touch
  split
  · next heq =>
    subst heq
    exact propext ⟨fun ⟨old, hold, _⟩ => absurd hold (h old), fun hseen => absurd hseen (h seen)⟩
  · rfl

theorem decay_false (v : Outlook V μ) : v.decay (fun _ => False) = v := by
  funext key seen
  exact propext ⟨And.left, fun hseen => ⟨hseen, fun _ _ _ _ => id⟩⟩

end Outlook

namespace Slot

variable {V C : Type} {slot : Slot V C} {epoch now : Instant} {millis : Nat}

theorem isExpired_eq_false : slot.isExpired epoch now = false ↔
    ∀ deadline, slot.deadline? epoch = some deadline → now < deadline := by
  unfold isExpired
  cases slot.deadline? epoch <;> simp

theorem hasFired_eq_false {signals : Signals} :
    slot.hasFired signals = false ↔ ∀ t ∈ slot.options.tokens, signals.hasFired t = false := by
  simp [hasFired]

/-- An entry that was read since expires no earlier. -/
theorem isExpired_of_le (hle : slot.touched ≤ millis) (h : slot.isExpired epoch now = false) :
    ({ slot with touched := millis } : Slot V C).isExpired epoch now = false := by
  rw [isExpired_eq_false] at h ⊢
  intro deadline hdeadline
  obtain ⟨value, ⟨keys, tokens, expiration, hook⟩, touched⟩ := slot
  cases expiration with
  | never => cases hdeadline
  | absolute instant => exact h deadline hdeadline
  | sliding window =>
    cases hdeadline
    exact Nat.lt_of_lt_of_le (h _ rfl)
      (Nat.add_le_add_right (Nat.add_le_add_left (Nat.mul_le_mul_right 1000000 hle) epoch) window)

end Slot

namespace Cache

variable {V C μ : Type} {c rest : Cache V C} {now : Instant} {signals : Signals} {mark : Token → μ}
  {zone : String → Prop} {key parent other : String} {slot : Slot V C} {seen : Sight V μ}

/-- The sturdy entries of a zone. -/
def outlook (c : Cache V C) (now : Instant) (signals : Signals) (mark : Token → μ)
    (zone : String → Prop) : Outlook V μ := fun key seen =>
  zone key ∧ c.Sturdy now signals key ∧
    ∃ slot, c.entries.get? key = some slot ∧ seen = slot.sight mark

/-- No entry of the zone depends on one outside. -/
def Closed (c : Cache V C) (zone : String → Prop) : Prop :=
  ∀ key parent, zone key → c.DependsOn key parent → zone parent

theorem outlook_of_get? (hget : c.entries.get? key = some slot) (hzone : zone key)
    (hsturdy : c.Sturdy now signals key) :
    c.outlook now signals mark zone key (slot.sight mark) :=
  ⟨hzone, hsturdy, slot, hget, rfl⟩

theorem exists_outlook_iff : (∃ seen, c.outlook now signals mark zone key seen) ↔
    zone key ∧ c.Sturdy now signals key := by
  constructor
  · rintro ⟨seen, hzone, hsturdy, -⟩
    exact ⟨hzone, hsturdy⟩
  · rintro ⟨hzone, hsturdy⟩
    obtain ⟨slot, hget, -⟩ := contains_iff.1 hsturdy.contains
    exact ⟨_, outlook_of_get? hget hzone hsturdy⟩

theorem leans_outlook (h : c.Linked) : (c.outlook now signals mark zone).Leans key parent ↔
    zone key ∧ c.Sturdy now signals key ∧ c.DependsOn key parent := by
  constructor
  · rintro ⟨_, ⟨hzone, hsturdy, slot, hget, rfl⟩, hmem⟩
    exact ⟨hzone, hsturdy, (h.recorded key slot hget parent).2 hmem⟩
  · rintro ⟨hzone, hsturdy, hdep⟩
    obtain ⟨slot, hget, -⟩ := contains_iff.1 hsturdy.contains
    exact ⟨_, outlook_of_get? hget hzone hsturdy, (h.recorded key slot hget parent).1 hdep⟩

theorem Closed.of_reaches (hclosed : c.Closed zone) (hzone : zone key)
    (hreaches : ReflTransGen c.DependsOn key other) : zone other := by
  induction hreaches with
  | refl => exact hzone
  | tail _ hdep ih => exact hclosed _ _ ih hdep

/-- What a sturdy entry of a closed zone depends on can be seen. -/
theorem reaches_outlook (h : c.Linked) (hclosed : c.Closed zone) (hzone : zone key)
    (hsturdy : c.Sturdy now signals key) :
    ReflTransGen (c.outlook now signals mark zone).Leans key other ↔
      ReflTransGen c.DependsOn key other := by
  constructor
  · exact ReflTransGen.mono (fun _ _ hleans => ((leans_outlook h).1 hleans).2.2) _ _
  · intro hreaches
    induction hreaches with
    | refl => exact .refl
    | tail hreaches hdep ih =>
      refine ih.tail ((leans_outlook h).2 ⟨hclosed.of_reaches hzone hreaches, ?_, hdep⟩)
      exact fun last hlast => hsturdy last (hreaches.trans hlast)

/-- A key outside a closed zone is not what anything in it leans on. -/
theorem drop_outlook_of_not (h : c.Linked) (hclosed : c.Closed zone) (hkey : ¬zone key) :
    (c.outlook now signals mark zone).drop key = c.outlook now signals mark zone := by
  funext other seen
  refine propext ⟨And.left, fun hseen => ⟨hseen, fun hreaches => hkey ?_⟩⟩
  exact hclosed.of_reaches hseen.1 ((reaches_outlook h hclosed hseen.1 hseen.2.1).1 hreaches)

/-! ## Entries leave -/

section TakesOut

variable {leaves : String → Prop} {gone : List String}

/-- Entries leave with all that depends on them. What stays is as sturdy as it was. -/
theorem TakesOut.sturdy (h : c.TakesOut leaves rest gone) (hepoch : rest.epoch = c.epoch)
    (hup : ∀ key parent, c.DependsOn key parent → leaves parent → leaves key)
    (hstays : ¬leaves key) : rest.Sturdy now signals key ↔ c.Sturdy now signals key := by
  have hcontains : ∀ key, rest.contains now signals key = true ↔
      c.contains now signals key = true ∧ ¬leaves key := by
    intro key
    simp only [contains_iff, h.entries, hepoch]
    constructor
    · rintro ⟨slot, ⟨hget, hkey⟩, hlive⟩
      exact ⟨⟨slot, hget, hlive⟩, hkey⟩
    · rintro ⟨⟨slot, hget, hlive⟩, hkey⟩
      exact ⟨slot, ⟨hget, hkey⟩, hlive⟩
  have hpath : ∀ other, ReflTransGen c.DependsOn key other →
      ReflTransGen rest.DependsOn key other ∧ ¬leaves other := by
    intro other hreaches
    induction hreaches with
    | refl => exact ⟨.refl, hstays⟩
    | tail _ hdep ih =>
      exact ⟨ih.1.tail ((h.depends _ _).2 ⟨hdep, ih.2⟩), fun hleaves => ih.2 (hup _ _ hdep hleaves)⟩
  constructor
  · exact fun hsturdy other hreaches =>
      ((hcontains other).1 (hsturdy other (hpath other hreaches).1)).1
  · intro hsturdy other hreaches
    have hreaches' := ReflTransGen.mono (fun a b hdep => ((h.depends a b).1 hdep).1) _ _ hreaches
    exact (hcontains other).2 ⟨hsturdy other hreaches', (hpath other hreaches').2⟩

theorem TakesOut.outlook (h : c.TakesOut leaves rest gone) (hepoch : rest.epoch = c.epoch)
    (hup : ∀ key parent, c.DependsOn key parent → leaves parent → leaves key) :
    rest.outlook now signals mark zone =
      fun key seen => c.outlook now signals mark zone key seen ∧ ¬leaves key := by
  funext key seen
  refine propext ⟨?_, ?_⟩
  · rintro ⟨hzone, hsturdy, slot, hget, hseen⟩
    obtain ⟨hget, hstays⟩ := (h.entries key slot).1 hget
    exact ⟨⟨hzone, (h.sturdy hepoch hup hstays).1 hsturdy, slot, hget, hseen⟩, hstays⟩
  · rintro ⟨⟨hzone, hsturdy, slot, hget, hseen⟩, hstays⟩
    exact ⟨hzone, (h.sturdy hepoch hup hstays).2 hsturdy, slot,
      (h.entries key slot).2 ⟨hget, hstays⟩, hseen⟩

end TakesOut

/-- **A sweep cannot be seen.** -/
theorem outlook_sweep (h : c.Linked) : (c.sweep now signals).1.outlook now signals mark zone =
    c.outlook now signals mark zone := by
  have htakes := ((evictsEach_evictEach c (c.doomed now signals)).takesOut h (.refl h)).1
  have hloses := loses_evictEach h (c.doomed now signals)
  refine (htakes.outlook hloses.epoch ?_).trans ?_
  · rintro key parent hdep ⟨root, slot, hget, hdue, hreaches⟩
    exact ⟨root, slot, hget, hdue, .head hdep hreaches⟩
  · funext key seen
    refine propext ⟨And.left, fun hseen => ⟨hseen, fun hleaves => ?_⟩⟩
    obtain ⟨slot, hget, -⟩ := contains_iff.1 hseen.2.1.contains
    exact (h.not_sturdy (by rw [hget]; rfl)).2 hleaves hseen.2.1

theorem outlook_detach (h : c.Linked) (hclosed : c.Closed zone) {d : Detached V C}
    (hd : c.detach key = some d) : d.cache.outlook now signals mark zone =
      (c.outlook now signals mark zone).drop key := by
  have htakes := ((removes_detach hd).takesOut h (.refl h)).1
  refine (htakes.outlook (loses_detach h.toConsistent hd .expired).epoch
    fun _ _ hdep hreaches => .head hdep hreaches).trans ?_
  funext other seen
  refine propext (and_congr_right fun hseen => not_congr ?_)
  exact (reaches_outlook h hclosed hseen.1 hseen.2.1).symm

/-- Nothing leans on a key that is not stored. -/
theorem drop_outlook_of_none (h : c.Linked) (hclosed : c.Closed zone)
    (hnone : c.entries.get? key = none) : (c.outlook now signals mark zone).drop key =
      c.outlook now signals mark zone := by
  funext other seen
  refine propext ⟨And.left, fun hseen => ⟨hseen, fun hreaches => ?_⟩⟩
  have hstored := hseen.2.1 key ((reaches_outlook h hclosed hseen.1 hseen.2.1).1 hreaches)
  obtain ⟨slot, hget, -⟩ := contains_iff.1 hstored
  cases hnone.symm.trans hget

theorem outlook_cleared (h : c.Linked) (hclosed : c.Closed zone) :
    (c.cleared key).1.outlook now signals mark zone =
      (c.outlook now signals mark zone).drop key := by
  cases hd : c.detach key with
  | none =>
    rw [cleared_of_none hd, drop_outlook_of_none h hclosed (detach_eq_none hd)]
  | some d =>
    rw [cleared_of_some hd]
    exact outlook_detach h hclosed hd

/-! ## An entry is put in -/

section Link

variable {value : V} {options : Options C}

/-- A new entry makes no difference to the others. -/
theorem sturdy_link_of_ne (h : c.Linked) (hfree : c.entries.get? key = none) (hne : other ≠ key) :
    (c.link now key value options).Sturdy now signals other ↔ c.Sturdy now signals other := by
  have hdep := dependsOn_link now value options h.toConsistent hfree
  have hcontains : ∀ x, x ≠ key → (c.link now key value options).contains now signals x =
      c.contains now signals x := fun x hx => by
    simp only [contains, get?_link, if_neg hx]
    rfl
  have hparent : ∀ a b, c.DependsOn a b → b ≠ key := by
    rintro a b hab rfl
    exact h.not_dependsOn_of_none hfree a hab
  have hpath : ∀ x, ReflTransGen (c.link now key value options).DependsOn other x ↔
      ReflTransGen c.DependsOn other x := by
    intro x
    constructor
    · intro hreaches
      suffices ReflTransGen c.DependsOn other x ∧ x ≠ key from this.1
      induction hreaches with
      | refl => exact ⟨.refl, hne⟩
      | tail _ hstep ih =>
        rw [hdep, if_neg ih.2] at hstep
        exact ⟨ih.1.tail hstep, hparent _ _ hstep⟩
    · intro hreaches
      suffices ReflTransGen (c.link now key value options).DependsOn other x ∧ x ≠ key from this.1
      induction hreaches with
      | refl => exact ⟨.refl, hne⟩
      | tail _ hstep ih =>
        refine ⟨ih.1.tail ?_, hparent _ _ hstep⟩
        rw [hdep, if_neg ih.2]
        exact hstep
  refine forall_congr' fun x => ?_
  rw [hpath]
  refine imp_congr_right fun hreaches => ?_
  rw [hcontains x]
  rcases ReflTransGen.cases_tail hreaches with rfl | ⟨a, -, hlast⟩
  · exact hne
  · exact hparent a x hlast

/-- An entry is sturdy right after it was put in if what it depends on is, none of its tokens has
fired, and it is not expired at once. -/
theorem sturdy_link_self (h : c.Linked) (hfree : c.entries.get? key = none)
    (hparents : ∀ parent ∈ options.keys, parent ≠ key) :
    (c.link now key value options).Sturdy now signals key ↔
      (⟨value, options, c.millis now⟩ : Slot V C).isLive c.epoch now signals = true ∧
        ∀ parent ∈ options.keys, c.Sturdy now signals parent := by
  rw [sturdy_iff, contains, get?_link, if_pos rfl]
  refine and_congr Iff.rfl (forall_congr' fun parent => ?_)
  rw [dependsOn_link now value options h.toConsistent hfree, if_pos rfl]
  exact imp_congr_right fun hmem => sturdy_link_of_ne h hfree (hparents parent hmem)

theorem outlook_link (h : c.Linked) (hfree : c.entries.get? key = none)
    (hparents : ∀ parent ∈ options.keys, parent ≠ key) (hzone : zone key)
    (hkeys : ∀ parent ∈ options.keys, zone parent)
    (hfired : ∀ t ∈ options.tokens, signals.hasFired t = false) :
    (c.link now key value options).outlook now signals mark zone =
      (c.outlook now signals mark zone).put key
        (Slot.sight mark ⟨value, options, c.millis now⟩) c.epoch now := by
  funext other seen
  refine propext ?_
  by_cases heq : other = key
  · subst heq
    have hlive : (⟨value, options, c.millis now⟩ : Slot V C).isLive c.epoch now signals = true ↔
        (⟨value, options, c.millis now⟩ : Slot V C).isExpired c.epoch now = false := by
      rw [Slot.isLive_eq_true, and_iff_left_iff_imp]
      intro _
      exact Slot.hasFired_eq_false.2 hfired
    simp only [outlook, Outlook.put, if_pos, get?_link, sturdy_link_self h hfree hparents, hlive,
      Option.some.injEq, Slot.isExpired_sight]
    constructor
    · rintro ⟨-, ⟨hexpired, hsturdy⟩, slot, rfl, hseen⟩
      exact ⟨hseen, hexpired, fun parent hmem =>
        exists_outlook_iff.2 ⟨hkeys parent hmem, hsturdy parent hmem⟩⟩
    · rintro ⟨hseen, hexpired, hfound⟩
      exact ⟨hzone, ⟨hexpired, fun parent hmem => (exists_outlook_iff.1 (hfound parent hmem)).2⟩,
        _, rfl, hseen⟩
  · simp only [outlook, Outlook.put, if_neg heq, get?_link, sturdy_link_of_ne h hfree heq]

theorem outlook_link_of_not (h : c.Linked) (hfree : c.entries.get? key = none) (hzone : ¬zone key) :
    (c.link now key value options).outlook now signals mark zone =
      c.outlook now signals mark zone := by
  funext other seen
  refine propext (and_congr_right fun hother => ?_)
  have hne : other ≠ key := fun heq => hzone (heq ▸ hother)
  rw [sturdy_link_of_ne h hfree hne, get?_link, if_neg hne]

/-- A refused entry leans on one that is not stored, and so cannot be seen. -/
theorem put_outlook_of_refuses (hfree : c.entries.get? key = none)
    (hrefused : c.refuses signals key options = true)
    (hfired : ∀ t ∈ options.tokens, signals.hasFired t = false) (millis : Nat) :
    (c.outlook now signals mark zone).put key (Slot.sight mark ⟨value, options, millis⟩) c.epoch
        now = c.outlook now signals mark zone := by
  have hunseen : ∀ parent seen, c.outlook now signals mark zone parent seen →
      c.entries.get? parent ≠ none := by
    rintro parent seen ⟨-, -, slot, hget, -⟩ hnone
    cases hnone.symm.trans hget
  have hmissing : ∃ parent ∈ options.keys, c.entries.get? parent = none := by
    unfold refuses at hrefused
    rw [Bool.or_eq_true_iff, List.any_eq_true, List.any_eq_true] at hrefused
    rcases hrefused with ⟨parent, hmem, hmissing⟩ | ⟨t, ht, hfires⟩
    · refine ⟨parent, hmem, Option.not_isSome_iff_eq_none.1 fun hsome => ?_⟩
      rw [Table.contains_eq, hsome] at hmissing
      have heq : parent = key := by simpa using hmissing
      rw [heq, hfree] at hsome
      cases hsome
    · rw [hfired t ht] at hfires
      cases hfires
  obtain ⟨parent, hmem, hnone⟩ := hmissing
  funext other seen
  unfold Outlook.put
  split
  · next heq =>
    subst heq
    refine propext ⟨?_, fun hseen => absurd hfree (hunseen _ _ hseen)⟩
    rintro ⟨-, -, hfound⟩
    obtain ⟨found, hseen⟩ := hfound parent hmem
    exact absurd hnone (hunseen _ _ hseen)
  · rfl

/-- **An insertion** drops what was under the key, with what leans on it, and then puts the new
entry there, if what that leans on is still seen. -/
theorem outlook_place (h : c.Linked) (hclosed : c.Closed zone) (hzone : zone key)
    (hkeys : ∀ parent ∈ options.keys, zone parent)
    (hfired : ∀ t ∈ options.tokens, signals.hasFired t = false) :
    (c.place now signals key value options).cache.outlook now signals mark zone =
      ((c.outlook now signals mark zone).drop key).put key
        (Slot.sight mark ⟨value, options, c.millis now⟩) c.epoch now := by
  rw [← outlook_cleared h hclosed, ← epoch_cleared h key]
  have hfree := get?_cleared_self h key
  have hmillis : c.millis now = (c.cleared key).1.millis now := by
    unfold millis
    rw [epoch_cleared h key]
  unfold place
  simp only
  split
  · next hrefused => exact (put_outlook_of_refuses hfree hrefused hfired _).symm
  · next hrefused =>
    obtain ⟨hparents, -⟩ := not_refuses (by simpa using hrefused)
    rw [hmillis]
    exact outlook_link (h.cleared key) hfree (fun parent hmem => (hparents parent hmem).1) hzone
      hkeys hfired

theorem outlook_place_of_not (h : c.Linked) (hclosed : c.Closed zone) (hzone : ¬zone key) :
    (c.place now signals key value options).cache.outlook now signals mark zone =
      c.outlook now signals mark zone := by
  have hcleared : (c.cleared key).1.outlook now signals mark zone =
      c.outlook now signals mark zone :=
    (outlook_cleared h hclosed).trans (drop_outlook_of_not h hclosed hzone)
  unfold place
  simp only
  split
  · exact hcleared
  · exact (outlook_link_of_not (h.cleared key) (get?_cleared_self h key) hzone).trans hcleared

end Link

/-! ## The surroundings change -/

/-- Where an entry is live if it was and has not gone bad, sturdy is what was sturdy and depends on
nothing that has gone bad. -/
theorem sturdy_decay (hclosed : c.Closed zone) (hzone : zone key) {now' : Instant}
    {signals' : Signals} {bad : Slot V C → Prop}
    (hlive : ∀ key slot, zone key → c.entries.get? key = some slot →
      (slot.isLive c.epoch now' signals' = true ↔
        slot.isLive c.epoch now signals = true ∧ ¬bad slot)) :
    c.Sturdy now' signals' key ↔ c.Sturdy now signals key ∧
      ∀ other slot, ReflTransGen c.DependsOn key other → c.entries.get? other = some slot →
        ¬bad slot := by
  constructor
  · intro hnew
    have hboth : ∀ other slot, ReflTransGen c.DependsOn key other →
        c.entries.get? other = some slot →
          slot.isLive c.epoch now signals = true ∧ ¬bad slot := by
      intro other slot hreaches hget
      obtain ⟨slot', hget', hlive'⟩ := contains_iff.1 (hnew other hreaches)
      cases hget.symm.trans hget'
      exact (hlive other slot (hclosed.of_reaches hzone hreaches) hget).1 hlive'
    refine ⟨fun other hreaches => ?_, fun other slot hreaches hget =>
      (hboth other slot hreaches hget).2⟩
    obtain ⟨slot, hget, -⟩ := contains_iff.1 (hnew other hreaches)
    exact contains_iff.2 ⟨slot, hget, (hboth other slot hreaches hget).1⟩
  · rintro ⟨hold, hgood⟩ other hreaches
    obtain ⟨slot, hget, hlive'⟩ := contains_iff.1 (hold other hreaches)
    exact contains_iff.2 ⟨slot, hget, (hlive other slot (hclosed.of_reaches hzone hreaches) hget).2
      ⟨hlive', hgood other slot hreaches hget⟩⟩

/-- **Time passes and tokens fire**, and what has gone bad by it is no longer seen, with what leans
on it. -/
theorem outlook_decay (h : c.Linked) (hclosed : c.Closed zone) {now' : Instant} {signals' : Signals}
    {mark' : Token → μ} {bad : Sight V μ → Prop}
    (hlive : ∀ key slot, zone key → c.entries.get? key = some slot →
      (slot.isLive c.epoch now' signals' = true ↔
        slot.isLive c.epoch now signals = true ∧ ¬bad (slot.sight mark)))
    (hmark : ∀ key slot, zone key → c.entries.get? key = some slot →
      slot.isLive c.epoch now' signals' = true → slot.sight mark' = slot.sight mark) :
    c.outlook now' signals' mark' zone = (c.outlook now signals mark zone).decay bad := by
  funext key seen
  refine propext ⟨?_, ?_⟩
  · rintro ⟨hzone, hnew, slot, hget, rfl⟩
    obtain ⟨hold, hgood⟩ := (sturdy_decay hclosed hzone hlive).1 hnew
    rw [hmark key slot hzone hget (hnew.isLive hget)]
    refine ⟨outlook_of_get? hget hzone hold, fun other found hreaches hfound => ?_⟩
    obtain ⟨-, -, slot', hget', rfl⟩ := hfound
    exact hgood other slot' ((reaches_outlook h hclosed hzone hold).1 hreaches) hget'
  · rintro ⟨⟨hzone, hold, slot, hget, rfl⟩, hgood⟩
    have hnew := (sturdy_decay hclosed hzone hlive).2 ⟨hold, fun other slot' hreaches hget' =>
      hgood other _ ((reaches_outlook h hclosed hzone hold).2 hreaches)
        (outlook_of_get? hget' (hclosed.of_reaches hzone hreaches)
          fun last hlast => hold last (hreaches.trans hlast))⟩
    exact ⟨hzone, hnew, slot, hget, (hmark key slot hzone hget (hnew.isLive hget)).symm⟩

/-- A change of the surroundings that does not concern the entries of the zone cannot be seen. -/
theorem outlook_congr (h : c.Linked) (hclosed : c.Closed zone) {now' : Instant} {signals' : Signals}
    {mark' : Token → μ}
    (hlive : ∀ key slot, zone key → c.entries.get? key = some slot →
      slot.isLive c.epoch now' signals' = slot.isLive c.epoch now signals)
    (hmark : ∀ key slot, zone key → c.entries.get? key = some slot →
      slot.isLive c.epoch now' signals' = true → slot.sight mark' = slot.sight mark) :
    c.outlook now' signals' mark' zone = c.outlook now signals mark zone := by
  have hdecay : c.outlook now' signals' mark' zone =
      (c.outlook now signals mark zone).decay fun _ => False :=
    outlook_decay h hclosed (fun key slot hzone hget => by simp [hlive key slot hzone hget]) hmark
  exact hdecay.trans (Outlook.decay_false _)

/-! ## An entry is read -/

/-- The entry under a key is live and stays so when it is read. -/
theorem outlook_touch (hlive : ∀ slot, c.entries.get? key = some slot →
      slot.isLive c.epoch now signals = true ∧ slot.touched ≤ c.millis now) :
    (c.touch now key).outlook now signals mark zone =
      (c.outlook now signals mark zone).touch key (c.millis now) := by
  have hafter : ∀ slot, c.entries.get? key = some slot →
      ({ slot with touched := c.millis now } : Slot V C).isLive c.epoch now signals = true := by
    intro slot hget
    obtain ⟨hlive, hle⟩ := hlive slot hget
    obtain ⟨hexpired, hfired⟩ := Slot.isLive_eq_true.1 hlive
    exact Slot.isLive_eq_true.2 ⟨Slot.isExpired_of_le hle hexpired, hfired⟩
  have hcontains : ∀ other, (c.touch now key).contains now signals other =
      c.contains now signals other := by
    intro other
    unfold contains
    rw [get?_touch]
    split
    · next heq =>
      subst heq
      cases hget : c.entries.get? other with
      | none => rfl
      | some slot => exact (hafter slot hget).trans (hlive slot hget).1.symm
    · rfl
  have hsturdy : ∀ other, (c.touch now key).Sturdy now signals other ↔
      c.Sturdy now signals other := fun other =>
    forall_congr' fun x => imp_congr_right fun _ => by rw [hcontains]
  funext other seen
  refine propext ?_
  simp only [outlook, Outlook.touch, hsturdy, get?_touch]
  split
  · next heq =>
    subst heq
    simp only [Option.map_eq_some_iff]
    constructor
    · rintro ⟨hzone, hold, _, ⟨slot, hget, rfl⟩, rfl⟩
      exact ⟨_, ⟨hzone, hold, slot, hget, rfl⟩, rfl⟩
    · rintro ⟨_, ⟨hzone, hold, slot, hget, rfl⟩, rfl⟩
      exact ⟨hzone, hold, _, ⟨slot, hget, rfl⟩, rfl⟩
  · rfl

end Cache

end Templating
