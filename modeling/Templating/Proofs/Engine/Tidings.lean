import Templating.Proofs.Engine.Fresh
import Templating.Proofs.Engine.Hanging
import Templating.Proofs.Engine.Listening

/-!
# What a change drops

Where changes are signalled, the next purge after a change of a file drops what the change concerns
(`KeySpace.Concerns`): the partials of each group with a partial folder that the file is in, all
that depends on these, and what is kept for the path of the file. It drops nothing else on account
of the change (`Service.change_drops_exactly`).
-/

namespace Templating

open Relation

namespace KeySpace

variable {k : KeySpace} {names : FolderNames} {scene scene' : Scene Memory} {path key : String}

/-- A template, or the note that there is no file, which hangs off the partials of the group. The
note that a file is not well formed hangs off nothing. -/
def Answers {C : Type} (k : KeySpace) (g : Group) (slot : Slot Entry C) : Prop :=
  (∃ template : Template.Compiled, slot.value = .compiled template) ∨
    slot.value = .missing ∧ slot.options.keys = [k.config g]

/-- The entries that a change at `path` concerns: the partials of a group with a partial folder that
the path is in, what depends on them, and the answers that are kept for the path. An answer for a
path that is written as a folder is for all that is in it. -/
inductive Concerns {C : Type} (k : KeySpace) (names : FolderNames) (c : Cache Entry C)
    (path key : String) : Prop
  | partials (g : Group.Made) (v : GroupConfig) (folder : String)
      (stored : c.valueAt (k.config g.1) = some (.config v))
      (folders : folder ∈ names.partialFolders g.1) (within : Text.startsWith folder path = true)
      (hangs : ReflTransGen c.DependsOn key (k.config g.1))
  | answer (g : Group.Made) (watched : String) (slot : Slot Entry C)
      (key_eq : key = k.path g.1 watched) (stored : c.entries.get? key = some slot)
      (answers : k.Answers g.1 slot) (covers : covers watched path = true)

/-! ## What depends on what -/

section Holds

variable {c : Cache Entry (Poller Memory)} (h : c.Holds (k.Listens names scene) [])

include h

/-- Nothing is above the global entry. -/
theorem not_dependsOn_global (parent : String) : ¬c.DependsOn k.global parent := by
  intro hdep
  obtain ⟨slot, hget⟩ := Option.isSome_iff_exists.1
    (h.linked.toConsistent.stored_of_dependsOn hdep)
  have hmem := (h.linked.recorded _ slot hget parent).1 hdep
  have hlistens := h.stored _ slot hget
  generalize hkey : k.global = key at hlistens
  generalize slot.value = value, slot.options = options at hlistens hmem
  cases hlistens with
  | global => cases hmem
  | partials g => exact k.global_ne_config g.1 hkey
  | answer g path | broken g path => exact k.global_ne_path g.1 path hkey

/-- What something depends on is the global entry or the partials of its group. -/
theorem parent_cases {parent : String} (hdep : c.DependsOn key parent) :
    parent = k.global ∨
      ∃ (g : Group.Made) (path : String), key = k.path g.1 path ∧ parent = k.config g.1 := by
  obtain ⟨slot, hget⟩ := Option.isSome_iff_exists.1
    (h.linked.toConsistent.stored_of_dependsOn hdep)
  have hmem := (h.linked.recorded _ slot hget parent).1 hdep
  have hlistens := h.stored _ slot hget
  generalize slot.value = value, slot.options = options at hlistens hmem
  cases hlistens with
  | global | broken => cases hmem
  | partials g => exact .inl (List.mem_singleton.1 hmem)
  | answer g path => exact .inr ⟨g, path, rfl, List.mem_singleton.1 hmem⟩

/-- Partials depend on the global entry alone. -/
theorem parent_config {g : Group.Made} {parent : String}
    (hdep : c.DependsOn (k.config g.1) parent) : parent = k.global := by
  rcases parent_cases h hdep with hglobal | ⟨g', path, hkey, rfl⟩
  · exact hglobal
  · obtain ⟨hgroup, -⟩ := k.path_injective g.2 g'.2 hkey
    rw [← hgroup] at hdep
    exact absurd (.single hdep) (h.linked.acyclic _)

/-- **What an entry of a group depends on** of partials are those of the group. -/
theorem group_of_hangs {g g' : Group.Made} {other : String}
    (hangs : ReflTransGen c.DependsOn (k.path g.1 other) (k.config g'.1)) : g' = g := by
  have hconfig : ∀ {g : Group.Made}, ReflTransGen c.DependsOn (k.config g.1) (k.config g'.1) →
      g' = g := by
    intro g hangs
    rcases ReflTransGen.cases_head_iff.1 hangs with heq | ⟨parent, hdep, hrest⟩
    · exact Subtype.ext (k.path_injective g'.2 g.2 heq.symm).1
    · rw [parent_config h hdep] at hrest
      rcases ReflTransGen.cases_head_iff.1 hrest with heq | ⟨parent, hdep, -⟩
      · exact absurd heq (k.global_ne_config g'.1)
      · exact absurd hdep (not_dependsOn_global h parent)
  rcases ReflTransGen.cases_head_iff.1 hangs with heq | ⟨parent, hdep, hrest⟩
  · exact Subtype.ext (k.path_injective g'.2 g.2 heq.symm).1
  · rcases parent_cases h hdep with rfl | ⟨g₁, path, hkey, rfl⟩
    · rcases ReflTransGen.cases_head_iff.1 hrest with heq | ⟨parent, hdep, -⟩
      · exact absurd heq (k.global_ne_config g'.1)
      · exact absurd hdep (not_dependsOn_global h parent)
    · rw [hconfig hrest]
      exact Subtype.ext (k.path_injective g.2 g₁.2 hkey).1.symm

/-- An answer hangs off the partials of its group. -/
theorem keys_of_answers {g : Group.Made} {slot : Slot Entry (Poller Memory)}
    (hget : c.entries.get? (k.path g.1 path) = some slot) (hanswers : k.Answers g.1 slot) :
    slot.options.keys = [k.config g.1] := by
  rcases hanswers with ⟨template, hvalue⟩ | ⟨-, hkeys⟩
  · have hlistens := h.stored _ slot hget
    generalize hkey : k.path g.1 path = key at hlistens
    generalize slot.options = options at hlistens ⊢
    rw [hvalue] at hlistens
    cases hlistens with
    | answer g' => rw [(k.path_injective g.2 g'.2 hkey).1]
  · exact hkeys

/-- **Nothing hangs off an answer.** -/
theorem eq_of_hangs_answer {g : Group.Made} {slot : Slot Entry (Poller Memory)}
    (hget : c.entries.get? (k.path g.1 path) = some slot) (hanswers : k.Answers g.1 slot)
    (hangs : ReflTransGen c.DependsOn key (k.path g.1 path)) : key = k.path g.1 path := by
  rcases ReflTransGen.cases_tail_iff _ _ _ |>.1 hangs with heq | ⟨child, -, hdep⟩
  · exact heq.symm
  · rcases parent_cases h hdep with hglobal | ⟨g', -, -, hkey⟩
    · exact absurd hglobal.symm (k.global_ne_path g.1 path)
    · -- It would be the answer for the path `config`, and hang off itself.
      obtain ⟨hgroup, -⟩ := k.path_injective g.2 g'.2 hkey
      have hself : c.DependsOn (k.path g.1 path) (k.path g.1 path) := by
        rw [h.linked.recorded _ slot hget, keys_of_answers h hget hanswers, hkey, ← hgroup]
        exact List.mem_singleton_self _
      exact absurd (.single hself) (h.linked.acyclic _)

/-! ## Entries whose tokens fire -/

/-- **The entries that hear of a change** are the partials of groups with a partial folder that the
path is in, and the answers for the path. -/
theorem hasFired_iff (hunshared : Memory.Unshared scene)
    (haltered : Memory.Altered path scene scene') {slot : Slot Entry (Poller Memory)}
    (hget : c.entries.get? key = some slot) (hunfired : slot.hasFired scene.signals = false) :
    slot.hasFired scene'.signals = true ↔
      (∃ (g : Group.Made) (v : GroupConfig), key = k.config g.1 ∧ slot.value = .config v ∧
        ∃ folder ∈ names.partialFolders g.1, Text.startsWith folder path = true) ∨
      ∃ (g : Group.Made) (watched : String), key = k.path g.1 watched ∧ k.Answers g.1 slot ∧
        covers watched path = true := by
  obtain ⟨value, options, touched⟩ := slot
  have hlistens : k.Listens names scene key value options := h.stored key _ hget
  have hany : ∀ signals : Signals, (⟨value, options, touched⟩ : Slot Entry (Poller Memory)).hasFired
      signals = true ↔ ∃ t ∈ options.tokens, signals.hasFired t = true :=
    fun _ => List.any_eq_true
  have hnone : ∀ t ∈ options.tokens, scene.signals.hasFired t = false := fun t ht =>
    Bool.eq_false_iff.2 fun hfired => by
      rw [(hany _).2 ⟨t, ht, hfired⟩] at hunfired
      cases hunfired
  rw [hany]
  cases hlistens with
  | global =>
    refine ⟨fun ⟨_, ht, _⟩ => (nomatch ht), ?_⟩
    rintro (⟨g, v, heq, -⟩ | ⟨g, watched, heq, -⟩)
    · exact absurd heq (k.global_ne_config g.1)
    · exact absurd heq (k.global_ne_path g.1 watched)
  | partials g v tokens posted =>
    rw [posted.hasFired_iff hunshared (names.endsInSlash_partialFolders g.1) hnone haltered]
    constructor
    · exact fun hwithin => .inl ⟨g, v, rfl, rfl, hwithin⟩
    · rintro (⟨g', v', heq, -, hwithin⟩ | ⟨-, -, -, ⟨template, hvalue⟩ | ⟨hvalue, -⟩, -⟩)
      · rwa [(k.path_injective g.2 g'.2 heq).1]
      · cases hvalue
      · cases hvalue
  | answer g other value t sliding answers hears =>
    have hone : (∃ u ∈ [t], scene'.signals.hasFired u = true) ↔ covers other path = true := by
      simp only [List.mem_singleton, exists_eq_left]
      exact haltered.hasFired_iff_covers hunshared (hnone t (List.mem_singleton_self t)) hears
    rw [hone]
    constructor
    · exact fun hcovers => .inr ⟨g, other, rfl, answers.symm.imp
        (fun ⟨template, _, hvalue⟩ => ⟨template, hvalue⟩) fun hvalue => ⟨hvalue, rfl⟩, hcovers⟩
    · rintro (⟨g', v, -, hvalue, -⟩ | ⟨g', watched, heq, -, hcovers⟩)
      · rcases answers with hmissing | ⟨template, -, hcompiled⟩
        · cases hmissing.symm.trans hvalue
        · cases hcompiled.symm.trans hvalue
      · rwa [(k.path_injective g.2 g'.2 heq).2]
  | broken g other deadline =>
    refine ⟨fun ⟨_, ht, _⟩ => (nomatch ht), ?_⟩
    rintro (⟨g', v, -, hvalue, -⟩ | ⟨g', watched, -, ⟨template, hvalue⟩ | ⟨-, hkeys⟩, -⟩)
    · cases hvalue
    · cases hvalue
    · cases hkeys

/-- **What a change concerns** is what is no longer sturdy behind it. -/
theorem not_sturdy_iff_concerns (hunshared : Memory.Unshared scene)
    (haltered : Memory.Altered path scene scene') {now : Instant}
    (hsturdy : c.Sturdy now scene.signals key) :
    ¬c.Sturdy now scene'.signals key ↔ k.Concerns names c path key := by
  obtain ⟨slot, hget, -⟩ := Cache.contains_iff.1 hsturdy.contains
  have hlive : ∀ {root : String} {slot : Slot Entry (Poller Memory)},
      ReflTransGen c.DependsOn key root → c.entries.get? root = some slot →
        slot.isExpired c.epoch now = false ∧ slot.hasFired scene.signals = false := by
    intro root slot hangs hroot
    obtain ⟨slot', hroot', hlive⟩ := Cache.contains_iff.1 (hsturdy root hangs)
    cases hroot.symm.trans hroot'
    exact Slot.isLive_eq_true.1 hlive
  rw [h.linked.not_sturdy (by rw [hget]; rfl)]
  constructor
  · rintro ⟨root, slot, hroot, hdue, hangs⟩
    obtain ⟨hunexpired, hunfired⟩ := hlive hangs hroot
    have hfired := hdue.resolve_left (by rw [hunexpired]; exact Bool.false_ne_true)
    rcases (hasFired_iff h hunshared haltered hroot hunfired).1 hfired with
      ⟨g, v, rfl, hvalue, folder, hfolder, hwithin⟩ | ⟨g, watched, rfl, hanswers, hcovers⟩
    · exact .partials g v folder (Cache.valueAt_eq_some.2 ⟨slot, hroot, hvalue⟩) hfolder hwithin
        hangs
    · cases eq_of_hangs_answer h hroot hanswers hangs
      exact .answer g watched slot rfl hroot hanswers hcovers
  · rintro (⟨g, v, folder, hstored, hfolder, hwithin, hangs⟩ |
      ⟨g, watched, slot, rfl, hroot, hanswers, hcovers⟩)
    · obtain ⟨slot, hroot, hvalue⟩ := Cache.valueAt_eq_some.1 hstored
      refine ⟨_, slot, hroot, .inr ?_, hangs⟩
      exact (hasFired_iff h hunshared haltered hroot (hlive hangs hroot).2).2
        (.inl ⟨g, v, rfl, hvalue, folder, hfolder, hwithin⟩)
    · refine ⟨_, slot, hroot, .inr ?_, .refl⟩
      exact (hasFired_iff h hunshared haltered hroot (hlive .refl hroot).2).2
        (.inr ⟨g, watched, rfl, hanswers, hcovers⟩)

omit h in
/-- What is sturdy behind a change was sturdy before. -/
theorem sturdy_of_altered (haltered : Memory.Altered path scene scene') {now : Instant}
    (hsturdy : c.Sturdy now scene'.signals key) : c.Sturdy now scene.signals key := by
  intro other hangs
  obtain ⟨slot, hget, hlive⟩ := Cache.contains_iff.1 (hsturdy other hangs)
  obtain ⟨hunexpired, hunfired⟩ := Slot.isLive_eq_true.1 hlive
  refine Cache.contains_iff.2 ⟨slot, hget, Slot.isLive_eq_true.2 ⟨hunexpired, ?_⟩⟩
  refine Bool.eq_false_iff.2 fun hfired => ?_
  obtain ⟨t, ht, htold⟩ := List.any_eq_true.1 hfired
  rw [Slot.hasFired, List.any_eq_true.2 ⟨t, ht, haltered.hasFired_iff.2 (.inl htold)⟩] at hunfired
  cases hunfired

/-! ## What is not concerned -/

theorem not_concerns_global : ¬k.Concerns names c path k.global := by
  rintro (⟨g, v, folder, -, -, -, hangs⟩ | ⟨g, watched, -, heq, -⟩)
  · rcases ReflTransGen.cases_head_iff.1 hangs with heq | ⟨parent, hdep, -⟩
    · exact k.global_ne_config g.1 heq
    · exact not_dependsOn_global h parent hdep
  · exact k.global_ne_path g.1 watched heq

/-- A change outside of a group's partial folders does not concern its entries, except for the
answers for the path. -/
theorem Concerns.covers_of_outside {g : Group.Made} {other : String}
    (hconcerns : k.Concerns names c path (k.path g.1 other))
    (houtside : ∀ folder ∈ names.partialFolders g.1, Text.startsWith folder path = false) :
    covers other path = true ∧
      ∃ slot, c.entries.get? (k.path g.1 other) = some slot ∧ k.Answers g.1 slot := by
  rcases hconcerns with ⟨g', v, folder, -, hfolder, hwithin, hangs⟩ |
    ⟨g', watched, slot, heq, hget, hanswers, hcovers⟩
  · rw [group_of_hangs h hangs] at hfolder
    rw [houtside folder hfolder] at hwithin
    cases hwithin
  · obtain ⟨hgroup, rfl⟩ := k.path_injective g.2 g'.2 heq
    rw [hgroup]
    exact ⟨hcovers, slot, hgroup ▸ hget, hanswers⟩

end Holds

end KeySpace

namespace Service

variable {σ : Service}

/-- What is stored after a purge: what was sturdy. -/
theorem Attends.get?_purge (h : σ.Attends) {key : String} {slot : Slot Entry (Poller Memory)} :
    (σ.step .purge).session.cache.entries.get? key = some slot ↔
      σ.session.cache.entries.get? key = some slot ∧
        σ.session.cache.Sturdy σ.now σ.scene.signals key :=
  Session.get?_purge_silent h.silent h.holds.linked

/-- **What a change drops.** Take a service over files that signal changes, after any requests, and
a file that is then written, or removed if it is there. What a purge leaves behind the change is
what it would have left without it, but for the entries that the change concerns: the partials of
the groups with a partial folder that the file is in, with all that depends on them, and the answers
that are kept for its path. So the global entry stays, and so do the partials of each group with no
such folder, and its entries for other paths. -/
theorem change_drops_exactly {files : List (String × String)} {site : Template.Library}
    {options : EngineOptions} {start : Instant} {σ₀ : Service}
    (hstart : Service.start true files site options start = .ok σ₀) (requests : List Request)
    (path : String) (change : Request)
    (hchange : (∃ content, change = .write path content) ∨
      change = .remove path ∧ ((σ₀.run requests).files.lookup path).isSome = true) :
    let σ := σ₀.run requests
    let left := (σ.step .purge).session.cache
    let left' := ((σ.step change).step .purge).session.cache
    let concerns := σ.keys.Concerns σ.options.folders σ.session.cache path
    (∀ key slot, left'.entries.get? key = some slot ↔
      left.entries.get? key = some slot ∧ ¬concerns key) ∧
    left'.entries.get? σ.keys.global = left.entries.get? σ.keys.global ∧
    ∀ g : Group.Made, (∀ folder ∈ σ.options.folders.partialFolders g.1,
        Text.startsWith folder path = false) →
      (∀ v, left.valueAt (σ.keys.config g.1) = some (.config v) →
        left'.entries.get? (σ.keys.config g.1) = left.entries.get? (σ.keys.config g.1)) ∧
      ∀ other, other ≠ path → ¬EndsInSlash other →
        left'.entries.get? (σ.keys.path g.1 other) = left.entries.get? (σ.keys.path g.1 other) := by
  intro σ left left' concerns
  have hattends : σ.Attends := attends_run hstart requests
  have hattends' : (σ.step change).Attends := attends_step hattends change
  have haltered : Memory.Altered path σ.scene (σ.step change).scene := by
    rcases hchange with ⟨content, rfl⟩ | ⟨rfl, hfile⟩
    · exact Memory.altered_write path content σ.scene
    · exact Memory.altered_remove hfile
  have hsame : (σ.step change).session.cache = σ.session.cache ∧ (σ.step change).now = σ.now := by
    rcases hchange with ⟨content, rfl⟩ | ⟨rfl, -⟩ <;> exact ⟨rfl, rfl⟩
  have hleft : ∀ key slot, left'.entries.get? key = some slot ↔
      left.entries.get? key = some slot ∧ ¬concerns key := by
    intro key slot
    rw [hattends'.get?_purge, hattends.get?_purge, hsame.1, hsame.2, and_assoc]
    refine and_congr_right fun _ => ⟨fun hsturdy => ?_, fun ⟨hsturdy, hnot⟩ => ?_⟩
    · have hbefore := KeySpace.sturdy_of_altered haltered hsturdy
      exact ⟨hbefore, fun hconcerns => (KeySpace.not_sturdy_iff_concerns hattends.holds
        hattends.unshared haltered hbefore).2 hconcerns hsturdy⟩
    · by_contra hfalls
      exact hnot ((KeySpace.not_sturdy_iff_concerns hattends.holds hattends.unshared haltered
        hsturdy).1 hfalls)
  have hkept : ∀ key, ¬concerns key → left'.entries.get? key = left.entries.get? key :=
    fun key hnot => Option.ext fun slot => (hleft key slot).trans (and_iff_left hnot)
  refine ⟨hleft, hkept _ (KeySpace.not_concerns_global hattends.holds), fun g houtside =>
    ⟨fun v hv => hkept _ fun hconcerns => ?_, fun other hne hslash => hkept _ fun hconcerns => ?_⟩⟩
  · obtain ⟨slot, hget, hvalue⟩ := Cache.valueAt_eq_some.1 hv
    obtain ⟨-, slot', hget', hanswers⟩ := hconcerns.covers_of_outside hattends.holds houtside
    cases (hattends.get?_purge.1 hget).1.symm.trans hget'
    rcases hanswers with ⟨template, hcompiled⟩ | ⟨hmissing, -⟩
    · cases hcompiled.symm.trans hvalue
    · cases hmissing.symm.trans hvalue
  · obtain ⟨hcovers, -⟩ := hconcerns.covers_of_outside hattends.holds houtside
    exact hne ((covers_iff_eq hslash).1 hcovers)

/-! Two groups without partials, and a file that is written into a partial folder of one. -/

/-- The group of a controller called Shop. -/
def shop : Group.Made := ⟨⟨"", "Shop"⟩, "", "Shop", rfl⟩

/-- The session when the global entry is there. -/
def bare : EngineSession where
  cache := ({ epoch := 0, flag := ⟨0⟩ } : EngineCache).link 0 "p:global" .global {}
  scene :=
    { signals := { issued := 1 }, journal := [.stored "p:global"], world := { push := true } }

/-- A service over no files, when it has started. -/
def opened : Service where
  site := {}
  options := { keyPrefix := some "p" }
  keys := ⟨"p"⟩
  now := 0
  session := Session.settle (Poller.moment 0) bare []

/-- The session when the partials of one more group are kept: there are none, and two folders are
watched. -/
def joined (s : EngineSession) (key own : String) (t u : Token) : EngineSession where
  cache := s.cache.link 0 key (.config ⟨{}, [], []⟩) { keys := ["p:global"], tokens := [t, u] }
  scene :=
    { signals :=
        { issued := u.id + 1, listeners := (u, ⟨0⟩) :: (t, ⟨0⟩) :: s.scene.signals.listeners }
      journal := .stored key :: .miss key :: .miss key :: s.scene.journal
      world :=
        { s.scene.world with
          watchers := ("~/Views/_Partials/", u) :: (own, t) :: s.scene.world.watchers } }

def withHome : EngineSession := joined bare "p::Home:config" "~/Views/Home/_Partials/" ⟨1⟩ ⟨2⟩

def atHome : EngineSession := { withHome with scene := withHome.scene.note .built }

def withShop : EngineSession := joined atHome "p::Shop:config" "~/Views/Shop/_Partials/" ⟨3⟩ ⟨4⟩

def atShop : EngineSession := { withShop with scene := withShop.scene.note .built }

theorem run_opened : (opened.run [.config home, .config shop]).session = atShop := by
  have hhome : (opened.engine.config 0 home.1 bare).2 =
      (Session.note .built (Session.settle (Poller.moment 0) withHome [])).2 := rfl
  have hshop : (opened.engine.config 0 shop.1 atHome).2 =
      (Session.note .built (Session.settle (Poller.moment 0) withShop [])).2 := rfl
  rw [Session.settle_nil] at hhome hshop
  change (opened.engine.config 0 shop.1 (opened.engine.config 0 home.1
    (Session.settle (Poller.moment 0) bare [])).2).2 = _
  rw [Session.settle_nil, hhome]
  exact hshop

/-- **A partial is written for one group.** The partials of this group are dropped, though none of
them has changed, and those of the other group stay, as the global entry does. -/
theorem change_drops_exactly_partial :
    let σ := opened.run [.config home, .config shop]
    let left := (σ.step .purge).session.cache
    let change := Request.write "~/Views/Home/_Partials/a.hbs" "text"
    let left' := ((σ.step change).step .purge).session.cache
    start true [] {} { keyPrefix := some "p" } 0 = .ok opened ∧
      (left.entries.get? "p::Home:config").isSome = true ∧
      left'.entries.get? "p::Home:config" = none ∧
      (left'.entries.get? "p::Shop:config").isSome = true ∧
      (left'.entries.get? "p:global").isSome = true := by
  intro σ left change left'
  have hstart : start true [] {} { keyPrefix := some "p" } 0 = .ok opened := rfl
  have hleft : left = (atShop.swept (Poller.moment 0)).cache := by
    change (Session.purge (Poller.moment 0)
      (opened.run [.config home, .config shop]).session).2.cache = _
    rw [run_opened]
    exact congrArg Session.cache (Session.settle_nil ..)
  have hhome : (left.entries.get? "p::Home:config").isSome = true := by
    rw [hleft]
    rfl
  have hvalue : left.valueAt "p::Shop:config" = some (.config ⟨{}, [], []⟩) := by
    rw [hleft]
    rfl
  obtain ⟨hdrops, hglobal, houtside⟩ := change_drops_exactly hstart [.config home, .config shop]
    "~/Views/Home/_Partials/a.hbs" change (.inl ⟨"text", rfl⟩)
  have hconcerns : (⟨"p"⟩ : KeySpace).Concerns opened.options.folders σ.session.cache
      "~/Views/Home/_Partials/a.hbs" "p::Home:config" := by
    rw [show σ.session = atShop from run_opened]
    exact .partials home ⟨{}, [], []⟩ "~/Views/Home/_Partials/" rfl (by decide +kernel)
      (by decide +kernel) .refl
  refine ⟨hstart, hhome, ?_, ?_, ?_⟩
  · exact Option.eq_none_iff_forall_ne_some.2 fun slot hget =>
      ((hdrops "p::Home:config" slot).1 hget).2 hconcerns
  · have hshop := (houtside shop (by decide +kernel)).1 _ hvalue
    change left'.entries.get? "p::Shop:config" = left.entries.get? "p::Shop:config" at hshop
    rw [hshop, hleft]
    rfl
  · change left'.entries.get? "p:global" = left.entries.get? "p:global" at hglobal
    rw [hglobal, hleft]
    rfl

end Service

end Templating
