import Templating.Proofs.Engine.Reporting
import Templating.Proofs.Engine.Workshop

/-!
# What a look-up makes of the files

While nobody writes, what a look-up of a path answers depends on what stands under the path's key
and on the files (`Report.judge`). It asks the source as long as that is not settled
(`Report.Settles`), and keeps what it made of the files. `Engine.answers_lookup_of` says what it
answers and leaves behind, given what holds while the source is asked (`Engine.Consults`) and what
comes of keeping an answer (`Engine.Remembers`).
-/

namespace Templating

open Template (Compiled)
open Work (Answers Takes)

namespace Report

variable {r : Report} {library : Template.Library} {path : String} {t : Compiled}

/-- Whether the file is the one that the template was compiled from, as far as that is known. -/
def confirms (r : Report) (path : String) (t : Compiled) : Bool :=
  match t.fingerprint, r.fingerprint path with
  | none, _ => true
  | some expected, .ok current => current == expected
  | some _, .error _ => false

/-- What a look-up answers, if this stands under the path's key. -/
def judge (r : Report) (library : Template.Library) (path : String) : Option Entry → Option Compiled
  | some .missing => none
  | some (.compiled t) => if r.confirms path t then some t else r.template library path
  | _ => r.template library path

/-- This answers a look-up, if it stands under the path's key: the files are not read. -/
def Settles (r : Report) (path : String) : Option Entry → Prop
  | some .missing => True
  | some (.compiled t) => r.confirms path t = true
  | _ => False

/-- What the files say is confirmed by them. -/
theorem confirms_template (h : r.template library path = some t) : r.confirms path t = true := by
  unfold template at h
  split at h
  · split at h
    · obtain ⟨render, -, rfl⟩ := Option.map_eq_some_iff.1 h
      unfold confirms
      cases r.watched path with
      | true => rfl
      | false => cases r.fingerprint path <;> simp [Except.toOption]
    · cases h
  · cases h

theorem judge_template (h : r.template library path = some t) :
    r.judge library path (some (.compiled t)) = some t := by
  simp only [judge, confirms_template h, if_true]

theorem judge_eq_some {found : Option Entry} (h : r.judge library path found = some t) :
    found = some (.compiled t) ∨ r.template library path = some t := by
  unfold judge at h
  split at h
  · cases h
  · split at h
    · cases h
      exact .inl rfl
    · exact .inr h
  · exact .inr h

/-- What is made of the text at a path: what renders it, and the layout that it declares. -/
def made (r : Report) (library : Template.Library) (path : String) :
    Option (Template.RenderFn × Option String) :=
  match r.read path with
  | .ok source => ((library.compile path source).toOption).map fun render =>
    (render, (Template.Declaration.scan source).name?)
  | .error _ => none

theorem template_of_made (hfile : r.isFile path = true)
    {made : Option (Template.RenderFn × Option String)} (hmade : r.made library path = made) :
    r.template library path = made.map fun m =>
      ⟨path, m.1, if r.watched path then none else (r.fingerprint path).toOption, m.2⟩ := by
  rw [← hmade]
  unfold template Report.made
  rw [if_pos hfile]
  cases r.read path with
  | error _ => rfl
  | ok source => simp [Option.map_map, Function.comp_def]

end Report

namespace Engine

variable {W : Type} {e : Engine W} {now : Instant} {g : Group} {c : GroupConfig} {r : Report}
  {path : String} {V : Option Token → Prop} {P B R : Session Entry (Poller W) W → Prop}

/-- In sessions with `B` the source answers about a path as reported, and leaves such sessions. What
it answers when it is asked for a token is as `V` says. -/
structure Consults (e : Engine W) (r : Report) (path : String) (V : Option Token → Prop)
    (B : Session Entry (Poller W) W → Prop) : Prop where
  token : Answers B (fun token s => (token.isSome = r.watched path ∧ V token) ∧ B s)
    (Session.onScene (e.source.changeToken? path))
  isFile : Answers B (fun answer s => answer = r.isFile path ∧ B s)
    (Session.onScene (e.source.isFile path))
  read : Answers B (fun answer s => answer = r.read path ∧ B s)
    (Session.onScene (e.source.read path))
  fingerprint : Answers B (fun answer s => answer = r.fingerprint path ∧ B s)
    (Session.onScene (e.source.fingerprint path))
  note : ∀ event, Takes B B (Session.note event)

/-- What the files say about a path, `template`, is kept, which leads from sessions with `B` to ones
with `R`. A template whose fingerprint cannot be had is not kept. -/
structure Remembers (e : Engine W) (now : Instant) (g : Group) (r : Report) (path : String)
    (template : Option Compiled) (V : Option Token → Prop)
    (B R : Session Entry (Poller W) W → Prop) : Prop where
  compiled : ∀ token t, V token → t.fingerprint.isNone = token.isSome → t.path = path →
    template = some t → Takes B R (e.rememberCompiled now g token t)
  missing : ∀ token, V token → template = none → Takes B R (e.rememberMissing now g path token)
  broken : template = none → Takes B R (e.rememberBroken now g path)
  unkept : ∀ source err, r.read path = .ok source → r.fingerprint path = .error err →
    ∀ s, B s → R s

section Ask

variable (hconsults : e.Consults r path V B)
  (hremembers : e.Remembers now g r path (r.template c.library path) V B R)

include hconsults hremembers

theorem answers_compile_of (hfile : r.isFile path = true) {token : Option Token}
    (htoken : token.isSome = r.watched path) (hV : V token) :
    Answers B (fun t? s => t? = r.template c.library path ∧ R s)
      (e.compile now g c path token) := by
  unfold compile
  refine .bind_of hconsults.read ?_
  rintro _ rfl
  simp only
  refine .bind (R := fun _ => B) (hconsults.note _) fun _ => ?_
  split
  · next hmade =>
    have hnone : r.template c.library path = none := Report.template_of_made hfile hmade
    exact .bind (R := fun _ => R) (hremembers.broken hnone) fun _ s hs => ⟨hnone.symm, hs⟩
  · next render layout hmade =>
    have htemplate := Report.template_of_made hfile hmade
    split
    · next hsome =>
      rw [hsome] at htoken
      simp only [← htoken, if_true, Option.map_some] at htemplate
      exact .bind (R := fun _ => R) (hremembers.compiled token _ hV hsome.symm rfl htemplate)
        fun _ s hs => ⟨htemplate.symm, hs⟩
    · next hnone =>
      rw [Bool.not_eq_true] at hnone
      rw [hnone] at htoken
      simp only [← htoken, Bool.false_eq_true, if_false, Option.map_some] at htemplate
      refine .bind_of hconsults.fingerprint ?_
      rintro _ rfl
      cases hfingerprint : r.fingerprint path with
      | error err =>
        obtain ⟨source, hread, -, -⟩ := of_compiled hmade
        rw [hfingerprint] at htemplate
        exact fun s hs => ⟨htemplate.symm, hremembers.unkept source err hread hfingerprint s hs⟩
      | ok fingerprint =>
        rw [hfingerprint] at htemplate
        exact .bind (R := fun _ => R) (hremembers.compiled token _ hV hnone.symm rfl htemplate)
          fun _ s hs => ⟨htemplate.symm, hs⟩

/-- Where the source is asked, it answers what the files say. -/
theorem answers_ask_of : Answers B (fun t? s => t? = r.template c.library path ∧ R s)
    (e.ask now g c path) := by
  unfold ask
  refine .bind_of hconsults.token fun token htoken => ?_
  refine .bind_of hconsults.isFile ?_
  rintro _ rfl
  cases hfile : r.isFile path with
  | true => exact answers_compile_of hconsults hremembers hfile htoken.1 htoken.2
  | false =>
    have hnone : r.template c.library path = none := by
      rw [Report.template, hfile]
      rfl
    exact .bind (R := fun _ => R) (hremembers.missing token htoken.2 hnone)
      fun _ s hs => ⟨hnone.symm, hs⟩

end Ask

/-- A fingerprint is compared with the one that the source reports. -/
theorem answers_hasFingerprint_of {t : Compiled} {expected : String}
    (hexpected : t.fingerprint = some expected)
    (hfingerprint : Answers P (fun answer s => answer = r.fingerprint path ∧ P s)
      (Session.onScene (e.source.fingerprint path))) :
    Answers P (fun same s => same = r.confirms path t ∧ P s)
      (e.hasFingerprint path expected) := by
  refine .bind_of hfingerprint ?_
  rintro _ rfl
  unfold Report.confirms
  rw [hexpected]
  cases r.fingerprint path <;> exact fun s hs => ⟨rfl, hs⟩

/-- **A look-up** answers what is known (`look`). If this is not settled by what is found in the
cache, the source is asked, behind the entry that is out of date was taken out. -/
theorem answers_lookup_of {T : Option Entry → Session Entry (Poller W) W → Prop}
    {look : Option Compiled}
    (hget : Answers P (fun found s => r.judge c.library path found = look ∧ T found s)
      (Session.get (Poller.moment now) (e.keys.path g path)))
    (hfingerprint : ∀ found, Answers (T found) (fun answer s => answer = r.fingerprint path ∧
      T found s) (Session.onScene (e.source.fingerprint path)))
    (hsettled : ∀ found s, r.Settles path found → T found s → R s)
    (hremove : ∀ found, r.template c.library path = look →
      Takes (T found) B (Session.remove (Poller.moment now) (e.keys.path g path)))
    (hasks : ∀ found s, T found s → B s) (hconsults : e.Consults r path V B)
    (hremembers : r.template c.library path = look → e.Remembers now g r path look V B R) :
    Answers P (fun t? s => t? = look ∧ R s) (e.lookup now g c path) := by
  have hask : r.template c.library path = look →
      Answers B (fun t? s => t? = look ∧ R s) (e.ask now g c path) := by
    rintro rfl
    exact answers_ask_of hconsults (hremembers rfl)
  unfold lookup
  refine .bind_of hget fun found hjudge => ?_
  split
  · exact fun s hs => ⟨hjudge, hsettled (some .missing) s trivial hs⟩
  · next t =>
    split
    · next hnone =>
      have hconfirms : r.confirms path t = true := by
        unfold Report.confirms
        rw [hnone]
      simp only [Report.judge, hconfirms, if_true] at hjudge
      exact fun s hs => ⟨hjudge, hsettled (some (.compiled t)) s hconfirms hs⟩
    · next expected hexpected =>
      refine .bind_of (answers_hasFingerprint_of hexpected (hfingerprint _)) ?_
      rintro _ rfl
      cases hconfirms : r.confirms path t with
      | true =>
        simp only [Report.judge, hconfirms, if_true] at hjudge
        exact fun s hs => ⟨hjudge, hsettled (some (.compiled t)) s hconfirms hs⟩
      | false =>
        simp only [Report.judge, hconfirms, Bool.false_eq_true, if_false] at hjudge
        exact .bind (R := fun _ => B) (hremove _ hjudge) fun _ => hask hjudge
  · next hmissing hcompiled =>
    have htemplate : r.template c.library path = look := by
      rw [← hjudge]
      unfold Report.judge
      split
      · exact absurd rfl hmissing
      · exact absurd rfl (hcompiled _)
      · rfl
    exact fun s hs => hask htemplate s (hasks found s hs)

end Engine

end Templating
