import Mathlib.Data.List.Forall2
import Templating.Proofs.Engine.Workshop

/-!
# What a request for a view should find

What is answered to a request is told here without saying how it is come by. Suppose it is known for
each path which template there is, if any (`look`). A name is found at the first of its paths at
which there is a template (`Plain.Hit`), and otherwise missed (`Plain.Miss`). Layouts stack up, each
found under the name that the one below it declares (`Plain.Stack`). The answer is the view with a
stack whose last layout declares none, unless a name is missed or a path comes up a second time
before (`Engine.Resolves`).

An engine answers like this as long as each look-up answers what is known (`Engine.resolve_iff`).
That no more layouts stack up than it allows for is due to the names: no two layouts of a stack were
asked for by the same name, and only a template that there is declares one
(`Plain.Stack.length_le`).
-/

namespace Templating

open Template (Compiled)
open Work (Answers)

namespace Plain

variable (look : String → Option Compiled)

/-- The template `t` is at the first of some paths at which there is one; `tried` are the paths up
to there. -/
def Hit (paths : List String) (t : Compiled) (tried : List String) : Prop :=
  ∃ before path after, paths = before ++ path :: after ∧ (∀ p ∈ before, look p = none) ∧
    look path = some t ∧ tried = before ++ [path]

/-- There is a template at none of the paths. -/
def Miss (paths : List String) : Prop := ∀ path ∈ paths, look path = none

/-- Layouts that follow one another: the first is found under the name `next`, each further one
under the name that the one before it declares, and the last declares `last`. For each layout paths
were tried; `searched` are all of them. -/
inductive Stack (paths : String → List String) :
    (next : Option String) → (layouts : List Compiled) → (searched : List String) →
      (last : Option String) → Prop
  | done (next : Option String) : Stack paths next [] [] next
  | more {name : String} {layout : Compiled} {tried : List String} {layouts : List Compiled}
      {searched : List String} {last : Option String} :
      Hit look (paths name) layout tried → Stack paths layout.layout layouts searched last →
        Stack paths (some name) (layout :: layouts) (tried ++ searched) last

/-- What is to be answered for a view with these paths, when its first layout is the one that
`first` names for it. -/
inductive Answer (views : List String) (paths : String → List String)
    (first : Compiled → Option String) : Except ViewError Resolution → Prop
  | noView : Miss look views → Answer views paths first (.ok (.notFound views))
  | found {view : Compiled} {tried : List String} {layouts : List Compiled}
      {searched : List String} :
      Hit look views view tried → Stack look paths (first view) layouts searched none →
        (layouts.map Compiled.path).Nodup → Answer views paths first (.ok (.found ⟨view, layouts⟩))
  | noLayout {view : Compiled} {tried : List String} {layouts : List Compiled}
      {searched : List String} {name : String} :
      Hit look views view tried → Stack look paths (first view) layouts searched (some name) →
        (layouts.map Compiled.path).Nodup → Miss look (paths name) →
          Answer views paths first (.ok (.notFound (tried ++ searched ++ paths name)))
  | recursive {view : Compiled} {tried : List String} {layouts : List Compiled}
      {searched : List String} {name : String} {again : Compiled} {more : List String} :
      Hit look views view tried → Stack look paths (first view) layouts searched (some name) →
        (layouts.map Compiled.path).Nodup → Hit look (paths name) again more →
          again.path ∈ layouts.map Compiled.path →
            Answer views paths first (.error (.recursiveLayout name again.path))

variable {look}

/-! ## Searching -/

theorem Hit.search {paths tried : List String} {t : Compiled} (h : Hit look paths t tried)
    (searched : List String) :
    Plain.search look searched paths = (some t, searched ++ tried) := by
  obtain ⟨before, path, after, rfl, hbefore, hpath, rfl⟩ := h
  induction before generalizing searched with
  | nil => simp [Plain.search, hpath]
  | cons p before ih =>
    have hp : look p = none := hbefore p List.mem_cons_self
    rw [List.cons_append, Plain.search, hp]
    simp only
    rw [ih (searched ++ [p]) fun q hq => hbefore q (List.mem_cons_of_mem _ hq)]
    simp

theorem Miss.search {paths : List String} (h : Miss look paths) (searched : List String) :
    Plain.search look searched paths = (none, searched ++ paths) := by
  induction paths generalizing searched with
  | nil => simp [Plain.search]
  | cons path paths ih =>
    have hpath : look path = none := h path List.mem_cons_self
    rw [Plain.search, hpath]
    simp only
    rw [ih fun p hp => h p (List.mem_cons_of_mem _ hp)]
    simp

/-- Either there is a template, or there is none. -/
theorem hit_or_miss (look : String → Option Compiled) (paths : List String) :
    (∃ t tried, Hit look paths t tried) ∨ Miss look paths := by
  induction paths with
  | nil => exact .inr (List.forall_mem_nil _)
  | cons path paths ih =>
    cases hpath : look path with
    | some t => exact .inl ⟨t, [path], [], path, paths, rfl, List.forall_mem_nil _, hpath, rfl⟩
    | none =>
      rcases ih with ⟨t, tried, before, found, after, rfl, hbefore, hfound, rfl⟩ | hmiss
      · exact .inl ⟨t, _, path :: before, found, after, rfl,
          List.forall_mem_cons.2 ⟨hpath, hbefore⟩, hfound, rfl⟩
      · exact .inr (List.forall_mem_cons.2 ⟨hpath, hmiss⟩)

theorem Hit.unique {paths tried tried' : List String} {t t' : Compiled}
    (h : Hit look paths t tried) (h' : Hit look paths t' tried') : t = t' ∧ tried = tried' := by
  have heq := (h.search []).symm.trans (h'.search [])
  simpa using heq

theorem Hit.exists_look {paths tried : List String} {t : Compiled} (h : Hit look paths t tried) :
    ∃ path ∈ paths, look path = some t := by
  obtain ⟨before, path, after, rfl, -, hpath, -⟩ := h
  exact ⟨path, List.mem_append_right _ List.mem_cons_self, hpath⟩

/-! ## Stacks -/

namespace Stack

variable {paths : String → List String} {next last : Option String} {layouts : List Compiled}
  {searched tried : List String} {name : String} {layout : Compiled}

/-- One more layout is found. -/
theorem snoc (h : Stack look paths next layouts searched (some name))
    (hit : Hit look (paths name) layout tried) :
    Stack look paths next (layouts ++ [layout]) (searched ++ tried) layout.layout := by
  generalize hlast : some name = last at h
  induction h with
  | done =>
    subst hlast
    have hone : Stack look paths (some name) [layout] (tried ++ []) layout.layout :=
      .more hit (.done _)
    rwa [List.append_nil] at hone
  | more first _ ih =>
    rw [List.append_assoc]
    exact .more first (ih hlast)

/-- Each layout of a stack was asked for by a name. -/
theorem names (h : Stack look paths next layouts searched last) :
    ∃ asked : List String, List.Forall₂ (fun name t => ∃ tried, Hit look (paths name) t tried)
      asked layouts ∧ ∀ known : List String, (∀ name, next = some name → name ∈ known) →
        (∀ name, ∀ path ∈ paths name, ∀ t declared, look path = some t →
          t.layout = some declared → declared ∈ known) → asked ⊆ known := by
  induction h with
  | done => exact ⟨[], .nil, fun _ _ _ => List.nil_subset _⟩
  | @more name layout tried _ _ _ hit _ ih =>
    obtain ⟨asked, hasked, hknown⟩ := ih
    refine ⟨name :: asked, .cons ⟨tried, hit⟩ hasked, fun known hnext hdeclared => ?_⟩
    obtain ⟨path, hmem, hpath⟩ := hit.exists_look
    exact List.cons_subset.2 ⟨hnext name rfl,
      hknown known (fun other => hdeclared name path hmem layout other hpath) hdeclared⟩

/-- Layouts with different paths were asked for by different names. -/
theorem nodup_names {asked : List String}
    (h : List.Forall₂ (fun name t => ∃ tried, Hit look (paths name) t tried) asked layouts)
    (hnodup : (layouts.map Compiled.path).Nodup) : asked.Nodup := by
  induction h with
  | nil => exact List.nodup_nil
  | cons hfirst hrest ih =>
    rename_i name t asked layouts
    rw [List.map_cons, List.nodup_cons] at hnodup
    refine List.nodup_cons.2 ⟨fun hmem => hnodup.1 ?_, ih hnodup.2⟩
    -- The same name is found at the same path.
    obtain ⟨tried, hit⟩ := hfirst
    clear ih hnodup
    induction hrest with
    | nil => cases hmem
    | cons hother _ ih =>
      rw [List.map_cons]
      rcases List.mem_cons.1 hmem with rfl | hmem
      · obtain ⟨tried', hit'⟩ := hother
        rw [(hit.unique hit').1]
        exact List.mem_cons_self
      · exact List.mem_cons_of_mem _ (ih hmem)

/-- **No more layouts stack up than there are names** that a template declares, but for the first
one. -/
theorem length_le (h : Stack look paths next layouts searched last)
    (hnodup : (layouts.map Compiled.path).Nodup) {declared : List String}
    (hdeclared : ∀ name, ∀ path ∈ paths name, ∀ t next, look path = some t →
      t.layout = some next → next ∈ declared) : layouts.length ≤ declared.length + 1 := by
  obtain ⟨asked, hasked, hknown⟩ := h.names
  have hsubset : asked ⊆ next.toList ++ declared :=
    hknown _ (fun name hnext => by simp [hnext]) fun name path hmem t next hpath hnext =>
      List.mem_append_right _ (hdeclared name path hmem t next hpath hnext)
  have hle := ((nodup_names hasked hnodup).subperm hsubset).length_le
  rw [hasked.length_eq, List.length_append] at hle
  cases next <;> simp at hle <;> omega

/-- To follow a stack is to go on from its end. -/
theorem follow (h : Stack look paths next layouts searched last) {below : List Compiled}
    (hnodup : ((below ++ layouts).map Compiled.path).Nodup) (fuel : Nat) (view : Compiled)
    (before : List String) :
    Plain.follow look paths (layouts.length + fuel) view below before next =
      Plain.follow look paths fuel view (below ++ layouts) (before ++ searched) last := by
  induction h generalizing below before with
  | done next => simp
  | @more _ layout _ layouts _ _ hit _ ih =>
    have hnew : ¬below.any (·.path == layout.path) = true := by
      simp only [List.map_append, List.map_cons, List.nodup_append', List.disjoint_cons_right]
        at hnodup
      simpa using hnodup.2.2.1
    have hsteps : (layout :: layouts).length + fuel = (layouts.length + fuel) + 1 := by
      rw [List.length_cons]
      omega
    rw [hsteps, Plain.follow, hit.search]
    simp only
    rw [if_neg hnew]
    have hassoc : below ++ layout :: layouts = (below ++ [layout]) ++ layouts := by simp
    rw [hassoc] at hnodup ⊢
    rw [ih hnodup, List.append_assoc before]

end Stack

/-! ## Answers -/

section Answer

variable {views : List String} {paths : String → List String} {first : Compiled → Option String}

/-- A stack goes on until there is an answer, if it cannot go on for ever. -/
theorem exists_answer {view : Compiled} {tried : List String} (hit : Hit look views view tried)
    {limit : Nat} (hlimit : ∀ layouts searched last, Stack look paths (first view) layouts searched
      last → (layouts.map Compiled.path).Nodup → layouts.length < limit) (fuel : Nat)
    {layouts : List Compiled} {searched : List String} {next : Option String}
    (hstack : Stack look paths (first view) layouts searched next)
    (hnodup : (layouts.map Compiled.path).Nodup) (hfuel : limit ≤ layouts.length + fuel) :
    ∃ a, Answer look views paths first a := by
  induction fuel generalizing layouts searched next with
  | zero =>
    have hlt := hlimit layouts searched next hstack hnodup
    omega
  | succ fuel ih =>
    cases next with
    | none => exact ⟨_, .found hit hstack hnodup⟩
    | some name =>
      rcases hit_or_miss look (paths name) with ⟨layout, more, hmore⟩ | hmiss
      · by_cases hagain : layout.path ∈ layouts.map Compiled.path
        · exact ⟨_, .recursive hit hstack hnodup hmore hagain⟩
        · have hnodup' : ((layouts ++ [layout]).map Compiled.path).Nodup := by
            rw [List.map_append]
            exact List.nodup_append'.2 ⟨hnodup, List.nodup_singleton _, by simpa using hagain⟩
          refine ih (hstack.snoc hmore) hnodup' ?_
          rw [List.length_append, List.length_singleton]
          omega
      · exact ⟨_, .noLayout hit hstack hnodup hmiss⟩

/-- An answer with a view is what following its layouts comes to. -/
theorem Answer.eq_follow {a : Except ViewError Resolution} (h : Answer look views paths first a)
    {view : Compiled} {tried : List String} (hit : Hit look views view tried) {fuel : Nat}
    (hfuel : ∀ layouts searched last, Stack look paths (first view) layouts searched last →
      (layouts.map Compiled.path).Nodup → layouts.length < fuel) :
    Plain.follow look paths fuel view [] tried (first view) = a := by
  have hrest : ∀ {layouts searched last}, Stack look paths (first view) layouts searched last →
      (layouts.map Compiled.path).Nodup → ∃ n,
        Plain.follow look paths fuel view [] tried (first view) =
          Plain.follow look paths (n + 1) view layouts (tried ++ searched) last := by
    intro layouts searched last hstack hnodup
    have hlt := hfuel layouts searched last hstack hnodup
    refine ⟨fuel - layouts.length - 1, ?_⟩
    have hsteps : fuel = layouts.length + (fuel - layouts.length - 1 + 1) := by omega
    conv_lhs => rw [hsteps]
    exact hstack.follow (by simpa using hnodup) _ view tried
  cases h with
  | noView hmiss =>
    have heq := (hit.search []).symm.trans (hmiss.search [])
    simp at heq
  | found hit' hstack hnodup =>
    obtain ⟨rfl, rfl⟩ := hit.unique hit'
    obtain ⟨n, heq⟩ := hrest hstack hnodup
    rw [heq, Plain.follow]
  | noLayout hit' hstack hnodup hmiss =>
    obtain ⟨rfl, rfl⟩ := hit.unique hit'
    obtain ⟨n, heq⟩ := hrest hstack hnodup
    rw [heq, Plain.follow, hmiss.search]
  | recursive hit' hstack hnodup hmore hagain =>
    obtain ⟨rfl, rfl⟩ := hit.unique hit'
    obtain ⟨n, heq⟩ := hrest hstack hnodup
    rw [heq, Plain.follow, hmore.search]
    simp only
    rw [if_pos (by simpa using hagain)]

/-- **Following layouts** comes to the answer, and to no other one. -/
theorem follow_eq_iff (first : Compiled → Option String) {view : Compiled} {tried : List String}
    (hit : Hit look views view tried) {fuel : Nat} (hfuel : ∀ layouts searched last,
      Stack look paths (first view) layouts searched last → (layouts.map Compiled.path).Nodup →
        layouts.length < fuel)
    (a : Except ViewError Resolution) :
    Plain.follow look paths fuel view [] tried (first view) = a ↔
      Answer look views paths first a := by
  obtain ⟨b, hb⟩ := exists_answer hit hfuel fuel (.done _) List.nodup_nil (by simp)
  have hfollow := hb.eq_follow hit hfuel
  refine ⟨?_, fun ha => ha.eq_follow hit hfuel⟩
  rintro rfl
  rwa [hfollow]

end Answer

end Plain

/-! ## What an engine answers -/

namespace Engine

variable {W : Type} {e : Engine W} {now : Instant} {g : Group} {c : GroupConfig}
  {look : String → Option Compiled} {P : Session Entry (Poller W) W → Prop}

/-- What is to be answered to a request for a view: the name must not be blank, the view is looked
for in the view folders and layouts in the layout folders, and the first layout is the given one,
unless it is empty, and otherwise the one that the view declares. -/
inductive Resolves (e : Engine W) (look : String → Option Compiled) (g : Group) (name : String)
    (layout : Option String) : Except ViewError Resolution → Prop
  | blank : Text.trim name = "" →
      Resolves e look g name layout (.error (.invalidArgument "name" "must not be empty"))
  | named {a : Except ViewError Resolution} : Text.trim name ≠ "" →
      Plain.Answer look (e.candidates name (e.options.folders.viewFolders g))
        (fun next => e.candidates next (e.options.folders.layoutFolders g))
        (fun view => (layout.filter (· != "")).or view.layout) a →
      Resolves e look g name layout a

theorem answers_search_known {paths : List String} (hlookup : ∀ path ∈ paths,
      Answers P (fun t? s => t? = look path ∧ P s) (e.lookup now g c path))
    (searched : List String) :
    Answers P (fun r s => r = Plain.search look searched paths ∧ P s)
      (e.search now g c searched paths) := by
  induction paths generalizing searched with
  | nil => exact fun s hs => ⟨rfl, hs⟩
  | cons path paths ih =>
    refine .bind (hlookup path List.mem_cons_self) ?_
    rintro t? s ⟨rfl, hs⟩
    unfold Plain.search
    cases look path with
    | some template => exact ⟨rfl, hs⟩
    | none => exact ih (fun p hp => hlookup p (List.mem_cons_of_mem _ hp)) _ s hs

theorem answers_follow_known (hlookup : ∀ path, Rooted path →
      Answers P (fun t? s => t? = look path ∧ P s) (e.lookup now g c path))
    (fuel : Nat) (view : Compiled) (layouts : List Compiled) (searched : List String)
    (next : Option String) :
    Answers P (fun a s => a = Plain.follow look
        (fun name => e.candidates name (e.options.folders.layoutFolders g)) fuel view layouts
        searched next ∧ P s)
      (e.follow now g c fuel view layouts searched next) := by
  induction fuel generalizing layouts searched next with
  | zero => cases next <;> exact fun s hs => ⟨rfl, hs⟩
  | succ fuel ih =>
    cases next with
    | none => exact fun s hs => ⟨rfl, hs⟩
    | some name =>
      have hrooted := e.rooted_candidates name (e.options.folders.rooted_layoutFolders g)
      refine .bind (answers_search_known (fun path hpath => hlookup path (hrooted path hpath))
        searched) ?_
      rintro r s ⟨rfl, hs⟩
      unfold Plain.follow
      generalize Plain.search look searched _ = found
      obtain ⟨_ | layout, tried⟩ := found
      · exact ⟨rfl, hs⟩
      · simp only
        split
        · exact ⟨rfl, hs⟩
        · exact ih _ _ _ s hs

/-- **An engine answers what is to be answered**, if each look-up answers what is known, and the
names that templates declare are fewer than the layouts that it allows for. -/
theorem resolve_iff {s : Session Entry (Poller W) W} (hconfig : P (e.config now g s).2)
    (hlookup : ∀ path, Rooted path → Answers P (fun t? s => t? = look path ∧ P s)
      (e.lookup now g (e.config now g s).1 path))
    (hbound : ∀ s₂, P s₂ → ∃ declared : List String, (∀ path, Rooted path → ∀ t next,
      look path = some t → t.layout = some next → next ∈ declared) ∧
        declared.length + 1 < e.chainBound g s₂)
    (name : String) (layout : Option String) (a : Except ViewError Resolution) :
    (e.resolve now g name layout s).1 = a ↔ e.Resolves look g name layout a := by
  unfold resolve requireName
  by_cases hname : Text.trim name = ""
  · rw [if_pos hname]
    constructor
    · rintro rfl
      exact .blank hname
    · rintro (_ | ⟨hnot, -⟩)
      · rfl
      · exact absurd hname hnot
  · rw [if_neg hname]
    have hnamed : ∀ b, e.Resolves look g name layout b ↔ Plain.Answer look
        (e.candidates name (e.options.folders.viewFolders g))
        (fun next => e.candidates next (e.options.folders.layoutFolders g))
        (fun view => (layout.filter (· != "")).or view.layout) b := fun b =>
      ⟨fun h => by cases h with
        | blank hblank => exact absurd hblank hname
        | named _ h => exact h, .named hname⟩
    rw [hnamed]
    simp only
    rw [bind_apply, bind_apply]
    have hviews := e.rooted_candidates name (e.options.folders.rooted_viewFolders g)
    obtain ⟨hsearch, hs₂⟩ := answers_search_known
      (fun path hpath => hlookup path (hviews path hpath)) [] _ hconfig
    rcases Plain.hit_or_miss look (e.candidates name (e.options.folders.viewFolders g)) with
      ⟨view, tried, hit⟩ | hmiss
    · rw [hit.search] at hsearch
      generalize e.search now g _ [] _ _ = found at hsearch hs₂ ⊢
      obtain ⟨found, s₂⟩ := found
      subst hsearch
      simp only [List.nil_append]
      change (e.follow now g _ (e.chainBound g s₂) view [] tried _ s₂).1 = a ↔ _
      rw [(answers_follow_known hlookup _ view [] tried _ s₂ hs₂).1]
      obtain ⟨declared, hdeclared, hlt⟩ := hbound _ hs₂
      refine Plain.follow_eq_iff (fun view => (layout.filter (· != "")).or view.layout) hit
        (fun layouts searched last hstack hnodup => ?_) a
      have hle := hstack.length_le hnodup fun asked path hpath => hdeclared path
        (e.rooted_candidates asked (e.options.folders.rooted_layoutFolders g) path hpath)
      exact Nat.lt_of_le_of_lt hle hlt
    · rw [hmiss.search] at hsearch
      generalize e.search now g _ [] _ _ = found at hsearch hs₂ ⊢
      obtain ⟨found, s₂⟩ := found
      subst hsearch
      simp only [List.nil_append]
      constructor
      · rintro rfl
        exact .noView hmiss
      · intro h
        cases h with
        | noView _ => rfl
        | found hit | noLayout hit | recursive hit =>
          have heq := (hit.search []).symm.trans (hmiss.search [])
          simp at heq

end Engine

end Templating
