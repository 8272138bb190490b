import Templating.Proofs.Engine.Polled
import Templating.Settings.Basic

/-!
# Keys never collide

A key is the text of its space, the name of its group and the word or path behind it, joined by
colons. Only a path may hold colons, and it stands last, so the three can be read off a key. What
stands last tells what the key is for: the path of a template starts with `~/`, the partials of a
group are kept under `config`, and a poller under `config` with 32 digits behind it. The global key
has a single colon.
-/

namespace Templating

/-! ## Digits -/

namespace Text

/-- A hexadecimal digit is written in one way. -/
theorem hexDigit_injective {d d' : Nat} (hd : d < 16) (hd' : d' < 16)
    (h : hexDigit d = hexDigit d') : d = d' := by
  have hall : ∀ a : Fin 16, ∀ b : Fin 16, hexDigit a = hexDigit b → a = b := by decide
  exact congrArg Fin.val (hall ⟨d, hd⟩ ⟨d', hd'⟩ h)

theorem hexDigits_eq_iff {count n m : Nat} :
    hexDigits count n = hexDigits count m ↔ n % 16 ^ count = m % 16 ^ count := by
  induction count generalizing n m with
  | zero => simp [hexDigits, Nat.mod_one]
  | succ count ih =>
    have hsplit : ∀ a, a % 16 ^ (count + 1) = a % 16 + 16 * (a / 16 % 16 ^ count) := fun a => by
      rw [Nat.pow_succ', Nat.mod_mul]
    rw [hexDigits, hexDigits, hsplit, hsplit]
    constructor
    · intro h
      obtain ⟨hhigh, hlow⟩ := List.append_inj' h rfl
      have hhigh := ih.1 hhigh
      have hlow := hexDigit_injective (Nat.mod_lt n (by decide)) (Nat.mod_lt m (by decide))
        (List.singleton_inj.1 hlow)
      omega
    · intro h
      have hlow : n % 16 = m % 16 := by omega
      have hhigh : n / 16 % 16 ^ count = m / 16 % 16 ^ count := by omega
      rw [hlow, ih.2 hhigh]

theorem hex_eq_iff {count n m : Nat} :
    hex count n = hex count m ↔ n % 16 ^ count = m % 16 ^ count := by
  rw [hex, hex, String.ofList_inj]
  exact hexDigits_eq_iff

end Text

/-! ## Groups -/

namespace Group

/-- The spaces around the names do not matter. -/
theorem make_trim_congr {area controller area' controller' : String}
    (harea : Text.trim area = Text.trim area')
    (hcontroller : Text.trim controller = Text.trim controller') :
    make area controller = make area' controller' := by
  unfold make
  rw [harea, hcontroller]

/-- Two pairs of names give one group if they are the same up to the spaces around them. -/
theorem make_eq_make_iff {area controller area' controller' : String} :
    (∃ g, make area controller = .ok g ∧ make area' controller' = .ok g) ↔
      (∃ g, make area controller = .ok g) ∧
        Text.trim area = Text.trim area' ∧ Text.trim controller = Text.trim controller' := by
  constructor
  · rintro ⟨g, hmake, hmake'⟩
    obtain ⟨-, -, -, rfl⟩ := make_eq_ok hmake
    obtain ⟨-, -, -, heq⟩ := make_eq_ok hmake'
    exact ⟨⟨_, hmake⟩, Group.mk.inj heq⟩
  · rintro ⟨⟨g, hmake⟩, harea, hcontroller⟩
    exact ⟨g, hmake, (make_trim_congr harea hcontroller).symm.trans hmake⟩

end Group

/-! ## Keys -/

/-- What settings accept in front of keys: any text without a colon, but for the spaces around
it. -/
theorem Settings.checkKeyPrefix_eq_ok_iff {given text : String} :
    checkKeyPrefix (some given) = .ok (some text) ↔
      text = Text.trim given ∧ text ≠ "" ∧ KeySpace.ColonFree ⟨text⟩ := by
  have haccepted : isKeyPrefix (Text.trim given) = true ↔
      Text.trim given ≠ "" ∧ KeySpace.ColonFree ⟨Text.trim given⟩ := by
    simp [isKeyPrefix, KeySpace.ColonFree]
  rw [checkKeyPrefix]
  constructor
  · intro h
    split at h
    · next hok =>
      cases h
      exact ⟨rfl, haccepted.1 hok⟩
    · cases h
  · rintro ⟨rfl, htext⟩
    rw [if_pos (haccepted.2 htext)]

namespace KeySpace

/-- What a key is for. -/
inductive Purpose where
  | global
  /-- The partials of a group. -/
  | partials (g : Group.Made)
  /-- A template of a group, or the note that there is none. -/
  | template (g : Group.Made) (path : { path : String // Rooted path })
  /-- A poller beside the partials of a group. -/
  | poller (g : Group.Made) (serial : Nat)

/-- The key for a purpose. -/
def key (k : KeySpace) : Purpose → String
  | .global => k.global
  | .partials g => k.config g.1
  | .template g path => k.path g.1 path.1
  | .poller g serial => poller (k.config g.1) serial

namespace Purpose

/-- The group and what stands behind it in the key, if the key names a group. -/
def place? : Purpose → Option (Group.Made × String)
  | .global => none
  | .partials g => some (g, "config")
  | .template g path => some (g, path.1)
  | .poller g serial => some (g, pollerPath serial)

/-- The purposes are of one kind, for one group, and for one path if they are templates. The number
of a poller counts as far as its 32 digits go. -/
def Same : Purpose → Purpose → Prop
  | .global, .global => True
  | .partials g, .partials g' => g = g'
  | .template g path, .template g' path' => g = g' ∧ path = path'
  | .poller g serial, .poller g' serial' => g = g' ∧ serial % 16 ^ 32 = serial' % 16 ^ 32
  | _, _ => False

theorem pollerPath_eq_iff {serial serial' : Nat} :
    pollerPath serial = pollerPath serial' ↔ serial % 16 ^ 32 = serial' % 16 ^ 32 := by
  rw [pollerPath, pollerPath, ← Text.hex_eq_iff]
  simp only [← String.toList_inj, String.toList_append, List.append_cancel_left_eq]

/-- What stands behind the group tells the kind of a key. -/
theorem place?_eq_iff {x y : Purpose} : x.place? = y.place? ↔ x.Same y := by
  have hconfig : ∀ path : { path : String // Rooted path }, path.1 ≠ "config" :=
    fun path => path.2.ne_config
  have hpoller : ∀ (path : { path : String // Rooted path }) serial, path.1 ≠ pollerPath serial :=
    fun path serial => path.2.ne_config_append _
  cases x <;> cases y <;>
    simp [place?, Same, pollerPath_ne_config, hconfig, hpoller, (pollerPath_ne_config _).symm,
      (hconfig _).symm, (hpoller _ _).symm, pollerPath_eq_iff, Subtype.ext_iff]

end Purpose

variable {k k' : KeySpace}

/-- A key that names a group is that of a path. -/
theorem key_of_place (k : KeySpace) {x : Purpose} {g : Group.Made} {p : String}
    (h : x.place? = some (g, p)) : k.key x = k.path g.1 p := by
  cases x <;> cases h
  · rfl
  · rfl
  · exact poller_eq_path k g.1 _

theorem key_of_no_place (k : KeySpace) {x : Purpose} (h : x.place? = none) :
    k.key x = k.global := by
  cases x <;> cases h
  rfl

theorem global_injective (h : k.global = k'.global) : k = k' := by
  have hglobal : ∀ j : KeySpace, j.global.toList = j.keyPrefix.toList ++ ":global".toList :=
    fun j => by simp [global, toString]
  have hlist := congrArg String.toList h
  rw [hglobal, hglobal] at hlist
  exact congrArg KeySpace.mk (String.toList_inj.1 (List.append_cancel_right hlist))

/-- **A key tells its space, its kind, its group and its path.** -/
theorem key_eq_key_iff (hk : k.ColonFree) (hk' : k'.ColonFree) {x y : Purpose} :
    k.key x = k'.key y ↔ k = k' ∧ x.Same y := by
  rw [← Purpose.place?_eq_iff]
  cases hx : x.place? with
  | none =>
    cases hy : y.place? with
    | none =>
      rw [key_of_no_place k hx, key_of_no_place k' hy]
      exact ⟨fun h => ⟨global_injective h, rfl⟩, fun h => h.1 ▸ rfl⟩
    | some at' =>
      rw [key_of_no_place k hx, key_of_place k' hy]
      exact ⟨fun h => absurd h (global_ne_path_of hk hk' _ _), fun h => nomatch h.2⟩
  | some at' =>
    cases hy : y.place? with
    | none =>
      rw [key_of_place k hx, key_of_no_place k' hy]
      exact ⟨fun h => absurd h.symm (global_ne_path_of hk' hk _ _), fun h => nomatch h.2⟩
    | some at'' =>
      rw [key_of_place k hx, key_of_place k' hy]
      constructor
      · intro h
        obtain ⟨hspace, hgroup, hpath⟩ := path_eq_path hk hk' h
        exact ⟨hspace, congrArg some (Prod.ext hgroup hpath)⟩
      · rintro ⟨rfl, h⟩
        cases h
        rfl

/-- **Keys never collide**: two keys are equal when their spaces are, and they are for one purpose.
The spaces are those without a colon, which is what settings accept; the groups are those of names
that agree up to the spaces around them. -/
theorem keys_never_collide :
    (∀ (k k' : { k : KeySpace // k.ColonFree }) (x y : Purpose),
      k.1.key x = k'.1.key y ↔ k = k' ∧ x.Same y) ∧
    (∀ given text, Settings.checkKeyPrefix (some given) = .ok (some text) ↔
      text = Text.trim given ∧ text ≠ "" ∧ KeySpace.ColonFree ⟨text⟩) ∧
    ∀ area controller area' controller',
      (∃ g, Group.make area controller = .ok g ∧ Group.make area' controller' = .ok g) ↔
        (∃ g, Group.make area controller = .ok g) ∧
          Text.trim area = Text.trim area' ∧ Text.trim controller = Text.trim controller' :=
  ⟨fun k k' _ _ => (key_eq_key_iff k.2 k'.2).trans (and_congr_left' Subtype.ext_iff.symm),
    fun _ _ => Settings.checkKeyPrefix_eq_ok_iff, fun _ _ _ _ => Group.make_eq_make_iff⟩

end KeySpace

end Templating
