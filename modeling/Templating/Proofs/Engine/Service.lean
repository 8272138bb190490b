import Templating.Proofs.Engine.Change
import Templating.Proofs.Engine.Resolve

/-!
# An engine at work

A `Service` is an engine with its cache and its files in memory, at an instant. It serves requests:
some ask for views, some change files, some drop what is cached, and between them time passes. It
also keeps track of when a view did not compile and when a file was last changed, on which its
answers do not depend.

Whatever is requested, its session stays sound (`Terms.sound_run`), on the terms of the run: whether
changes are signalled, and which contents files have.
-/

namespace Templating

structure Service where
  site : Template.Library
  options : EngineOptions
  keys : KeySpace
  now : Instant
  session : EngineSession
  /-- When a view or a layout did not compile. -/
  failures : List Instant := []
  /-- When a file was last written or removed. -/
  changed : Option Instant := none

namespace Service

/-- What may be asked of a service. -/
inductive Request
  | write (path content : String)
  | remove (path : String)
  | resolve (g : Group.Made) (name : String) (layout : Option String)
  | resolvePartial (g : Group.Made) (name : String)
  | resolvePath (g : Group.Made) (path : String)
  | config (g : Group.Made)
  /-- Registers a template for the site. -/
  | register (name source : String)
  /-- Drops what the engine has cached. -/
  | clear
  | purge
  /-- Drops every entry of the cache. -/
  | clearCache
  /-- Takes an entry out of the cache. -/
  | evict (key : String)
  | advance (time : Duration)

def engine (σ : Service) : Engine Memory := ⟨Memory.source, σ.site, σ.options, σ.keys⟩

def scene (σ : Service) : Scene Memory := σ.session.scene

def files (σ : Service) : List (String × String) := σ.scene.world.files

/-- A service with an empty cache, over files that were written one after the other. -/
def start (push : Bool) (files : List (String × String)) (site : Template.Library)
    (options : EngineOptions) (now : Instant) : Except ViewError Service :=
  let (flag, signals) := ({} : Signals).issueFlag
  let session : EngineSession :=
    ⟨{ epoch := now, flag }, { signals, world := { files := Sorted.ofList files, push } }⟩
  match Engine.create Memory.source site options now session with
  | (.error err, _) => .error err
  | (.ok e, session) =>
    .ok { site := e.site, options := e.options, keys := e.keys, now, session }

/-- An operation of the engine or the cache. -/
def act {α : Type} (σ : Service) (op : Resolving Memory α) : α × Service :=
  let (answer, session) := op σ.session
  let failed := viewFailures σ.scene.journal < viewFailures session.scene.journal
  (answer, { σ with session, failures := if failed then σ.now :: σ.failures else σ.failures })

def resolve (σ : Service) (g : Group.Made) (name : String) (layout : Option String) :
    Except ViewError Resolution × Service :=
  σ.act (σ.engine.resolve σ.now g.1 name layout)

def resolvePartial (σ : Service) (g : Group.Made) (name : String) :
    Except ViewError Resolution × Service :=
  σ.act (σ.engine.resolvePartial σ.now g.1 name)

def resolvePath (σ : Service) (g : Group.Made) (path : String) :
    Except ViewError (Option Template.Compiled) × Service :=
  σ.act (σ.engine.resolvePath σ.now g.1 path)

def config (σ : Service) (g : Group.Made) : GroupConfig × Service :=
  σ.act (σ.engine.config σ.now g.1)

def register (σ : Service) (name source : String) : Service :=
  match σ.act (σ.engine.register σ.now name source) with
  | (.ok e, σ) => { σ with site := e.site }
  | (.error _, σ) => σ

/-- What a request leaves behind. -/
def step (σ : Service) : Request → Service
  | .write path content =>
    { σ with
      session := { σ.session with scene := (Memory.write path content σ.scene).2 }
      changed := some σ.now }
  | .remove path =>
    let (found, scene) := Memory.remove path σ.scene
    { σ with
      session := { σ.session with scene }
      changed := if found then some σ.now else σ.changed }
  | .resolve g name layout => (σ.resolve g name layout).2
  | .resolvePartial g name => (σ.resolvePartial g name).2
  | .resolvePath g path => (σ.resolvePath g path).2
  | .config g => (σ.config g).2
  | .register name source => σ.register name source
  | .clear => (σ.act (σ.engine.clear σ.now)).2
  | .purge => (σ.act (Session.purge (Poller.moment σ.now))).2
  | .clearCache => (σ.act Session.clear).2
  | .evict key => (σ.act (Session.remove (Poller.moment σ.now) key)).2
  | .advance time => { σ with now := σ.now + time }

def run (σ : Service) (requests : List Request) : Service := requests.foldl step σ

/-- To register a template is to be refused, or to drop what is cached and go on with other
templates of the site. -/
theorem register_eq (σ : Service) (name source : String) :
    σ.register name source = (σ.act fun s => ((), s)).2 ∨
      ∃ site, σ.register name source = { (σ.act (σ.engine.clear σ.now)).2 with site } := by
  rcases σ.engine.register_cases σ.now name source σ.session with ⟨err, hrefused⟩ | ⟨site, hdone⟩
  · left
    unfold register act
    rw [hrefused]
  · right
    refine ⟨site, ?_⟩
    unfold register act
    rw [hdone]
    rfl

theorem options_register (σ : Service) (name source : String) :
    (σ.register name source).options = σ.options ∧ (σ.register name source).keys = σ.keys := by
  rcases σ.register_eq name source with heq | ⟨site, heq⟩ <;> rw [heq] <;> exact ⟨rfl, rfl⟩

theorem act_fst {α : Type} (σ : Service) (op : Resolving Memory α) :
    (σ.act op).1 = (op σ.session).1 := rfl

theorem options_act {α : Type} (σ : Service) (op : Resolving Memory α) :
    (σ.act op).2.options = σ.options ∧ (σ.act op).2.keys = σ.keys := ⟨rfl, rfl⟩

/-- A request changes neither the options nor the keys. -/
theorem options_step (σ : Service) (r : Request) :
    (σ.step r).options = σ.options ∧ (σ.step r).keys = σ.keys := by
  cases r with
  | write path content | remove path | advance time => exact ⟨rfl, rfl⟩
  | register name source => exact σ.options_register name source
  | _ =>
    simp only [step, resolve, resolvePartial, resolvePath, config]
    exact σ.options_act _

theorem options_run (σ : Service) (requests : List Request) :
    (σ.run requests).options = σ.options := by
  induction requests generalizing σ with
  | nil => rfl
  | cons r requests ih => exact (ih (σ.step r)).trans (σ.options_step r).1

/-! ## The past -/

/-- What a service has kept track of has happened. -/
structure Past (σ : Service) : Prop where
  failures : ∀ t ∈ σ.failures, t ≤ σ.now
  changed : ∀ t, σ.changed = some t → t ≤ σ.now

theorem Past.act {α : Type} {σ : Service} (h : σ.Past) (op : Resolving Memory α) :
    (σ.act op).2.Past where
  failures t ht := by
    change t ∈ if _ then _ else _ at ht
    split at ht
    · rcases List.mem_cons.1 ht with rfl | ht
      · exact Nat.le_refl _
      · exact h.failures t ht
    · exact h.failures t ht
  changed := h.changed

theorem Past.step {σ : Service} (h : σ.Past) (r : Request) : (σ.step r).Past := by
  cases r with
  | write path content =>
    refine ⟨h.failures, ?_⟩
    intro t ht
    cases ht
    exact Nat.le_refl _
  | remove path =>
    refine ⟨h.failures, ?_⟩
    intro t ht
    change (if _ then some σ.now else σ.changed) = some t at ht
    split at ht
    · cases ht
      exact Nat.le_refl _
    · exact h.changed t ht
  | advance time =>
    exact ⟨fun t ht => Nat.le_add_right_of_le (h.failures t ht),
      fun t ht => Nat.le_add_right_of_le (h.changed t ht)⟩
  | register name source =>
    change (σ.register name source).Past
    rcases σ.register_eq name source with heq | ⟨site, heq⟩
    · rw [heq]
      exact h.act _
    · have hcleared := h.act (σ.engine.clear σ.now)
      rw [heq]
      exact ⟨hcleared.failures, hcleared.changed⟩
  | _ =>
    simp only [Service.step, resolve, resolvePartial, resolvePath, config]
    exact h.act _

theorem Past.run {σ : Service} (h : σ.Past) (requests : List Request) : (σ.run requests).Past := by
  induction requests generalizing σ with
  | nil => exact h
  | cons r requests ih => exact ih (h.step r)

/-- A pause behind a run. -/
theorem run_rest (σ : Service) (requests : List Request) (time : Duration) :
    σ.run (requests ++ [.advance time]) =
      { σ.run requests with now := (σ.run requests).now + time } := by
  unfold run
  rw [List.foldl_append]
  rfl

end Service

/-! ## Runs stay sound -/

/-- No poller is kept under this key. -/
def KeySpace.Spares (keys : KeySpace) (key : String) : Prop :=
  ∀ (g : Group.Made) (serial : Nat), key ≠ poller (keys.config g.1) serial

/-- What does not change in a run. -/
structure Terms where
  /-- Whether changes are signalled. -/
  push : Bool
  /-- All contents that files ever have. -/
  contents : Set String
  distinct : push = false → Set.InjOn Memory.digest contents

namespace Terms

variable {T : Terms} {σ : Service}

/-- The ledger of a service between two requests. -/
def ledger (T : Terms) (σ : Service) : Ledger where
  engine := σ.engine
  source := rfl
  push := T.push
  contents := T.contents
  distinct := T.distinct
  now := σ.now
  failures := σ.failures
  counted := viewFailures σ.scene.journal
  changed := σ.changed

def Sound (T : Terms) (σ : Service) : Prop := (T.ledger σ).Sound Ledger.strict σ.session []

/-- A request keeps to the terms. -/
def Allows (T : Terms) (keys : KeySpace) : Service.Request → Prop
  | .write _ content => content ∈ T.contents
  | .evict key => T.push = false → keys.Spares key
  | .resolvePath g path => T.push = false → keys.Spares (keys.path g.1 path)
  | _ => True

theorem Sound.begun (h : T.Sound σ) : (T.ledger σ).Begun σ.session where
  sound := h
  counted := Nat.le_refl _
  notes hsettled := Ledger.Sound.notesRight h rfl hsettled

/-- **An operation**, with the failures that it met booked. -/
theorem sound_act {α : Type} {op : Resolving Memory α}
    (h : (T.ledger σ).Sound Ledger.strict (op σ.session).2 []) : T.Sound (σ.act op).2 := by
  refine Ledger.Sound.later h ⟨Nat.le_refl _, ?_⟩
  intro t ht
  rcases ht with ht | ⟨rfl, hcount⟩
  · change t ∈ if _ then _ else _
    split
    · exact List.mem_cons_of_mem _ ht
    · exact ht
  · change σ.now ∈ if _ then _ else _
    have hfailed : viewFailures σ.scene.journal < viewFailures (op σ.session).2.scene.journal :=
      hcount
    rw [if_pos hfailed]
    exact List.mem_cons_self

theorem Sound.write (h : T.Sound σ) (path : String) {content : String}
    (hcontent : content ∈ T.contents) : T.Sound (σ.step (.write path content)) := by
  apply Ledger.Sound.changed h (Memory.changed_write path content σ.scene)
  intro other source hfile
  rw [Memory.lookup_write] at hfile
  split at hfile
  · cases hfile
    exact hcontent
  · exact Ledger.Sound.contents h other source hfile

theorem Sound.remove (h : T.Sound σ) (path : String) : T.Sound (σ.step (.remove path)) := by
  have hcontents : ContentsIn T.contents (Memory.remove path σ.scene).2.world.files :=
    fun other source hfile => Ledger.Sound.contents h other source (Memory.lookup_of_remove hfile)
  cases hfile : (σ.scene.world.files.lookup path).isSome with
  | false =>
    simp only [Service.step, Memory.remove_absent hfile]
    exact h
  | true =>
    have hchanged := Memory.changed_remove_present hfile
    simp only [Service.step, Memory.remove_present hfile] at hchanged hcontents ⊢
    exact Ledger.Sound.changed h hchanged hcontents

theorem Sound.advance (h : T.Sound σ) (time : Duration) : T.Sound (σ.step (.advance time)) := by
  refine Ledger.Sound.later h ⟨Nat.le_add_right _ _, ?_⟩
  intro t ht
  rcases ht with ht | ⟨-, hcount⟩
  · exact ht
  · exact absurd hcount (Nat.lt_irrefl _)

theorem Sound.register (h : T.Sound σ) (name source : String) :
    T.Sound (σ.step (.register name source)) := by
  change T.Sound (σ.register name source)
  rcases σ.register_eq name source with heq | ⟨site, heq⟩
  · rw [heq]
    exact sound_act h
  · have hclear := Ledger.Sound.clear h
    have hcleared : T.Sound (σ.act (σ.engine.clear σ.now)).2 := sound_act hclear.1.sound
    rw [heq]
    exact Ledger.Sound.withSite hcleared hclear.2 site

/-- The key is that of no poller of a group. -/
theorem spared {keys : KeySpace} {key : String} (h : keys.Spares key) (g : Group) (serial : Nat)
    (hg : g.WellNamed) : key ≠ keys.path g (KeySpace.pollerPath serial) := by
  rw [← keys.poller_eq_path]
  exact h ⟨g, hg⟩ serial

/-- **A request keeps a service sound.** -/
theorem sound_step (h : T.Sound σ) {r : Service.Request} (hr : T.Allows σ.keys r) :
    T.Sound (σ.step r) := by
  cases r with
  | write path content => exact h.write path hr
  | remove path => exact h.remove path
  | resolve g name layout => exact sound_act (h.begun.resolve g.2 name layout).sound
  | resolvePartial g name => exact sound_act (h.begun.resolvePartial g.2 name).sound
  | resolvePath g path =>
    have hpath : (T.ledger σ).Spared path := fun hpush serial heq =>
      spared (hr hpush) g.1 serial g.2 (congrArg _ heq)
    exact sound_act (h.begun.resolvePath g.2 hpath).sound
  | config g => exact sound_act (h.begun.outcome_config g.2).sound
  | register name source => exact h.register name source
  | clear => exact sound_act (Ledger.Sound.clear h).1.sound
  | purge => exact sound_act (Ledger.Sound.purged h).1.sound
  | clearCache => exact sound_act (Ledger.Sound.dropped h)
  | evict key => exact sound_act (Ledger.Sound.removed h fun hpush => spared (hr hpush)).1.sound
  | advance time => exact h.advance time

theorem sound_run (h : T.Sound σ) {requests : List Service.Request}
    (hallowed : ∀ r ∈ requests, T.Allows σ.keys r) : T.Sound (σ.run requests) := by
  induction requests generalizing σ with
  | nil => exact h
  | cons r requests ih =>
    have hstep := sound_step h (hallowed r List.mem_cons_self)
    apply ih hstep
    intro other hother
    rw [(σ.options_step r).2]
    exact hallowed other (List.mem_cons_of_mem _ hother)

end Terms

end Templating
