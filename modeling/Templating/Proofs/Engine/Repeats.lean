import Templating.Proofs.Engine.Stocked

/-!
# Asking a second time

The look-ups of a request can be told one by one, with what each answers (`Engine.resolveLog`,
`Engine.resolvePartialLog`). When a request has been answered, all of them are settled, and the same
request is answered the same again, at the cost of the fingerprints of the templates that it finds
(`Engine.resolve_again`, `Engine.resolvePartial_again`). It does not matter whether the request
finds a view, misses one or a layout, or is refused since its layouts recur.

Which paths are looked up follows from what their look-ups answer (`Plain.trail`). The engine allows
for more layouts the more it has cached, but there are always enough (`Plain.trail_eq`).
-/

namespace Templating

open Template (Compiled)
open Work (Answers Takes)

/-! ## Trails -/

namespace Plain

variable {look : String → Option Compiled} {paths : String → List String}

theorem search_cons (path : String) (rest : List String) :
    Plain.search look [] (path :: rest) = match look path with
      | some t => (some t, [path])
      | none => ((Plain.search look [] rest).1, path :: (Plain.search look [] rest).2) := by
  rw [Plain.search]
  cases look path with
  | some t => rfl
  | none =>
    rcases hit_or_miss look rest with ⟨t, tried, hit⟩ | hmiss
    · simp only [hit.search]
      rfl
    · simp only [hmiss.search]
      rfl

variable (look paths) in
/-- The paths that are looked up when layouts are followed. -/
def trail : (fuel : Nat) → (layouts : List Compiled) → (next : Option String) → List String
  | _, _, none => []
  | 0, _, some _ => []
  | fuel + 1, layouts, some name =>
    let found := Plain.search look [] (paths name)
    match found.1 with
    | none => found.2
    | some layout =>
      if layouts.any (·.path == layout.path) then found.2
      else found.2 ++ trail fuel (layouts ++ [layout]) layout.layout

variable (look paths) in
/-- There are steps enough for all layouts that may still follow. -/
def Enough (fuel : Nat) (layouts : List Compiled) (next : Option String) : Prop :=
  ∀ more searched last, Stack look paths next more searched last →
    ((layouts ++ more).map Compiled.path).Nodup → more.length < fuel

variable {fuel fuel' : Nat} {layouts : List Compiled} {next : Option String}

theorem Enough.pos (h : Enough look paths fuel layouts next)
    (hnodup : (layouts.map Compiled.path).Nodup) : 0 < fuel :=
  h [] [] next (.done next) (by rwa [List.append_nil])

theorem Enough.step {name : String} {layout : Compiled} {tried : List String}
    (h : Enough look paths (fuel + 1) layouts (some name))
    (hit : Hit look (paths name) layout tried) :
    Enough look paths fuel (layouts ++ [layout]) layout.layout := by
  intro more searched last hstack hnodup
  rw [List.append_assoc] at hnodup
  exact Nat.lt_of_succ_lt_succ (h _ _ _ (.more hit hstack) hnodup)

/-- **Where there are steps enough**, it does not matter how many they are. -/
theorem trail_eq (hnodup : (layouts.map Compiled.path).Nodup)
    (h : Enough look paths fuel layouts next) (h' : Enough look paths fuel' layouts next) :
    trail look paths fuel layouts next = trail look paths fuel' layouts next := by
  induction fuel generalizing fuel' layouts next with
  | zero => exact absurd (h.pos hnodup) (Nat.lt_irrefl 0)
  | succ fuel ih =>
    obtain ⟨fuel', rfl⟩ := Nat.exists_eq_add_one.2 (h'.pos hnodup)
    cases next with
    | none => rfl
    | some name =>
      unfold trail
      rcases hit_or_miss look (paths name) with ⟨layout, tried, hit⟩ | hmiss
      · simp only [hit.search]
        split
        · rfl
        · next hnew =>
          rw [ih ?_ (h.step hit) (h'.step hit)]
          rw [List.map_append]
          exact List.nodup_append'.2 ⟨hnodup, List.nodup_singleton _, by simpa using hnew⟩
      · simp only [hmiss.search]

end Plain

/-! ## Logs -/

namespace Engine

variable {W : Type}

section Logs

variable (e : Engine W) (now : Instant) (g : Group)

/-- A search, with what each of its look-ups answers. -/
def searchLog (c : GroupConfig) :
    List String → Resolving W (Option Compiled × List (Option Compiled))
  | [] => return (none, [])
  | path :: paths => do
    match ← e.lookup now g c path with
    | some template => return (some template, [some template])
    | none =>
      let (found, log) ← searchLog c paths
      return (found, none :: log)

/-- What the look-ups answer by which layouts are followed. -/
def followLog (c : GroupConfig) : (fuel : Nat) → (layouts : List Compiled) →
    (next : Option String) → Resolving W (List (Option Compiled))
  | _, _, none => return []
  | 0, _, some _ => return []
  | fuel + 1, layouts, some name => do
    let (layout?, log) ← e.searchLog now g c
      (e.candidates name (e.options.folders.layoutFolders g))
    match layout? with
    | none => return log
    | some layout =>
      if layouts.any (·.path == layout.path) then return log
      else return log ++ (← followLog c fuel (layouts ++ [layout]) layout.layout)

/-- A request for a view, once its group's partials are there. -/
def seek (c : GroupConfig) (name : String) (layout : Option String) :
    Resolving W (Except ViewError Resolution) := do
  match ← e.search now g c [] (e.candidates name (e.options.folders.viewFolders g)) with
  | (none, searched) => return .ok (.notFound searched)
  | (some view, searched) =>
    let first := (layout.filter (· != "")).or view.layout
    e.follow now g c (e.chainBound g (← get)) view [] searched first

def seekLog (c : GroupConfig) (name : String) (layout : Option String) :
    Resolving W (List (Option Compiled)) := do
  match ← e.searchLog now g c (e.candidates name (e.options.folders.viewFolders g)) with
  | (none, log) => return log
  | (some view, log) =>
    let first := (layout.filter (· != "")).or view.layout
    return log ++ (← e.followLog now g c (e.chainBound g (← get)) [] first)

/-- What each look-up answers of a request for a view. -/
def resolveLog (name : String) (layout : Option String) :
    Resolving W (List (Option Compiled)) := do
  match requireName "name" name with
  | .error _ => return []
  | .ok () => e.seekLog now g (← e.config now g) name layout

/-- What each look-up answers of a request for a partial. -/
def resolvePartialLog (name : String) : Resolving W (List (Option Compiled)) := do
  match requireName "name" name with
  | .error _ => return []
  | .ok () =>
    let c ← e.config now g
    let (_, log) ← e.searchLog now g c (e.candidates name (e.options.folders.viewFolders g))
    return log

end Logs

section Spec

variable {e : Engine W} {now : Instant} {g : Group} {c : GroupConfig}

/-- A log finds and leaves what the search does. -/
theorem searchLog_spec (e : Engine W) (now : Instant) (g : Group) (c : GroupConfig)
    (paths searched : List String) (s : Session Entry (Poller W) W) :
    (e.searchLog now g c paths s).1.1 = (e.search now g c searched paths s).1.1 ∧
      (e.searchLog now g c paths s).2 = (e.search now g c searched paths s).2 := by
  induction paths generalizing searched s with
  | nil => exact ⟨rfl, rfl⟩
  | cons path paths ih =>
    unfold searchLog search
    rw [bind_apply, bind_apply]
    generalize e.lookup now g c path s = a
    obtain ⟨_ | t, s'⟩ := a
    · exact ih _ s'
    · exact ⟨rfl, rfl⟩

theorem snd_followLog (fuel : Nat) (view : Compiled) (layouts : List Compiled)
    (searched : List String) (next : Option String) (s : Session Entry (Poller W) W) :
    (e.followLog now g c fuel layouts next s).2 =
      (e.follow now g c fuel view layouts searched next s).2 := by
  induction fuel generalizing layouts searched next s with
  | zero => cases next <;> rfl
  | succ fuel ih =>
    cases next with
    | none => rfl
    | some name =>
      obtain ⟨hfound, hafter⟩ := e.searchLog_spec now g c
        (e.candidates name (e.options.folders.layoutFolders g)) searched s
      unfold followLog follow
      rw [bind_apply, bind_apply]
      generalize e.searchLog now g c _ s = a at hfound hafter ⊢
      generalize e.search now g c searched _ s = b at hfound hafter ⊢
      obtain ⟨⟨found, log⟩, s'⟩ := a
      obtain ⟨⟨_, tried⟩, _⟩ := b
      cases hfound
      cases hafter
      cases found with
      | none => rfl
      | some layout =>
        simp only
        split
        · rfl
        · exact ih _ _ _ s'

theorem snd_seekLog (name : String) (layout : Option String) (s : Session Entry (Poller W) W) :
    (e.seekLog now g c name layout s).2 = (e.seek now g c name layout s).2 := by
  obtain ⟨hfound, hafter⟩ := e.searchLog_spec now g c
    (e.candidates name (e.options.folders.viewFolders g)) [] s
  unfold seekLog seek
  rw [bind_apply, bind_apply]
  generalize e.searchLog now g c _ s = a at hfound hafter ⊢
  generalize e.search now g c _ _ s = b at hfound hafter ⊢
  obtain ⟨⟨found, log⟩, s'⟩ := a
  obtain ⟨⟨_, tried⟩, _⟩ := b
  cases hfound
  cases hafter
  cases found with
  | none => rfl
  | some view => exact snd_followLog _ view [] tried _ s'

/-- A blank name is refused, and nothing is looked up. -/
theorem resolve_refused {name : String} {err : ViewError}
    (hname : requireName "name" name = .error err) (layout : Option String)
    (s : Session Entry (Poller W) W) : e.resolve now g name layout s = (.error err, s) ∧
      e.resolveLog now g name layout s = ([], s) := by
  unfold resolve resolveLog
  rw [hname]
  exact ⟨rfl, rfl⟩

theorem resolvePartial_refused {name : String} {err : ViewError}
    (hname : requireName "name" name = .error err) (s : Session Entry (Poller W) W) :
    e.resolvePartial now g name s = (.error err, s) ∧
      e.resolvePartialLog now g name s = ([], s) := by
  unfold resolvePartial resolvePartialLog
  rw [hname]
  exact ⟨rfl, rfl⟩

theorem resolve_eq_seek {name : String} (hname : requireName "name" name = .ok ())
    (layout : Option String) (s : Session Entry (Poller W) W) :
    e.resolve now g name layout s =
      e.seek now g (e.config now g s).1 name layout (e.config now g s).2 := by
  unfold resolve
  rw [hname]
  rfl

theorem resolveLog_eq_seekLog {name : String} (hname : requireName "name" name = .ok ())
    (layout : Option String) (s : Session Entry (Poller W) W) :
    e.resolveLog now g name layout s =
      e.seekLog now g (e.config now g s).1 name layout (e.config now g s).2 := by
  unfold resolveLog
  rw [hname]
  rfl

/-- **The log of a request** leaves what the request leaves. -/
theorem snd_resolveLog (name : String) (layout : Option String)
    (s : Session Entry (Poller W) W) :
    (e.resolveLog now g name layout s).2 = (e.resolve now g name layout s).2 := by
  cases hname : requireName "name" name with
  | error err => rw [(resolve_refused hname layout s).1, (resolve_refused hname layout s).2]
  | ok _ =>
    rw [resolve_eq_seek hname, resolveLog_eq_seekLog hname, snd_seekLog]

/-- What is answered when a partial was searched for. -/
def partialOf : Option Compiled × List String → Except ViewError Resolution
  | (none, searched) => .ok (.notFound searched)
  | (some view, _) => .ok (.found ⟨view, []⟩)

theorem resolvePartial_eq_search {name : String} (hname : requireName "name" name = .ok ())
    (s : Session Entry (Poller W) W) :
    let found := e.search now g (e.config now g s).1 []
      (e.candidates name (e.options.folders.viewFolders g)) (e.config now g s).2
    e.resolvePartial now g name s = (partialOf found.1, found.2) := by
  unfold resolvePartial
  rw [hname]
  simp only
  rw [bind_apply, bind_apply]
  generalize e.search now g _ _ _ _ = found
  obtain ⟨⟨_ | view, searched⟩, s'⟩ := found <;> rfl

theorem resolvePartialLog_eq_searchLog {name : String} (hname : requireName "name" name = .ok ())
    (s : Session Entry (Poller W) W) :
    let found := e.searchLog now g (e.config now g s).1
      (e.candidates name (e.options.folders.viewFolders g)) (e.config now g s).2
    e.resolvePartialLog now g name s = (found.1.2, found.2) := by
  unfold resolvePartialLog
  rw [hname]
  rfl

theorem snd_resolvePartialLog (name : String) (s : Session Entry (Poller W) W) :
    (e.resolvePartialLog now g name s).2 = (e.resolvePartial now g name s).2 := by
  cases hname : requireName "name" name with
  | error err =>
    rw [(resolvePartial_refused hname s).1, (resolvePartial_refused hname s).2]
  | ok _ =>
    rw [resolvePartial_eq_search hname, resolvePartialLog_eq_searchLog hname]
    exact (e.searchLog_spec now g _ _ [] _).2

end Spec

/-! ## Requests over again -/

section Again

variable {e : Engine W} {now : Instant} {g : Group.Made} {c : GroupConfig} {r : Report}
  {Q : W → Prop} {fired : List Token} {look : String → Option Compiled} {push : Bool}
  {S : Scene W → Prop} {P : String → Prop} {s : Session Entry (Poller W) W}
  {name : String} {layout : Option String}

/-- Behind a group's partials no look-up needs to be settled. -/
theorem stocked_config (hreports : e.source.Reports Q r) (hissues : e.source.Issues S push)
    (h : e.Watches now s []) (hhangs : e.Hangs now (fun _ => False) s)
    (hfiling : e.Filing push S s []) (hworld : Q s.scene.world) :
    e.Stocked now g (e.config now g.1 s).1 r Q s.scene.signals.fired (e.sight now g.1 s) push S
      (fun _ => False) (e.config now g.1 s).2 := by
  obtain ⟨htended, hstands⟩ :=
    standing_config (g := g) hreports.still hissues h hhangs hfiling hworld
  exact { poised_config h hreports hworld with
    filing := htended.filing
    partials := hstands
    settled := nofun }

section First

variable (hreports : e.source.Reports Q r) (hissues : e.source.Issues S push)
  (hpatient : e.options.Patient)
  (hdigest : ∀ path source err, r.read path = .ok source → r.fingerprint path ≠ .error err)

include hreports hissues hpatient hdigest

/-- A search settles the paths that it tries. -/
theorem answers_search_stocked {paths : List String} (hrooted : ∀ path ∈ paths, Rooted path)
    (searched : List String) : Answers (e.Stocked now g c r Q fired look push S P)
      (fun a s => a.1 = (Plain.search look [] paths).1 ∧ e.Stocked now g c r Q fired look push S
        (fun path => path ∈ (Plain.search look [] paths).2 ∨ P path) s)
      (e.search now g.1 c searched paths) := by
  induction paths generalizing searched P with
  | nil => exact fun s hs => ⟨rfl, hs.weaken fun path => (Or.resolve_left · List.not_mem_nil)⟩
  | cons path paths ih =>
    obtain ⟨hpath, hrest⟩ := List.forall_mem_cons.1 hrooted
    refine .bind_of (answers_lookup_stocked hreports hissues hpatient hpath (hdigest path)) ?_
    rintro _ rfl
    rw [Plain.search_cons]
    cases look path with
    | some t => exact fun s hs => ⟨rfl, hs.weaken fun other => Or.imp_left List.mem_singleton.1⟩
    | none =>
      intro s hs
      obtain ⟨hfound, hstocked⟩ := ih hrest (searched ++ [path]) s hs
      refine ⟨hfound, hstocked.weaken fun other hother => ?_⟩
      rw [List.mem_cons] at hother
      tauto

/-- To follow layouts settles the trail. -/
theorem takes_follow_stocked (fuel : Nat) (view : Compiled) (layouts : List Compiled)
    (searched : List String) (next : Option String) :
    Takes (e.Stocked now g c r Q fired look push S P)
      (e.Stocked now g c r Q fired look push S fun path => path ∈ Plain.trail look
        (fun name => e.candidates name (e.options.folders.layoutFolders g.1)) fuel layouts next ∨
          P path)
      (e.follow now g.1 c fuel view layouts searched next) := by
  have hnone : ∀ (P : String → Prop) s, e.Stocked now g c r Q fired look push S P s →
      e.Stocked now g c r Q fired look push S (fun path => path ∈ [] ∨ P path) s :=
    fun P s hs => hs.weaken fun path => (Or.resolve_left · List.not_mem_nil)
  induction fuel generalizing layouts searched next P with
  | zero => cases next <;> exact hnone P
  | succ fuel ih =>
    cases next with
    | none => exact hnone P
    | some name =>
      have hrooted := e.rooted_candidates name (e.options.folders.rooted_layoutFolders g.1)
      unfold follow Plain.trail
      refine (Answers.bind (answers_search_stocked hreports hissues hpatient hdigest hrooted
        searched) fun a => ?_ : Answers _ (fun _ => _) _)
      obtain ⟨found, tried⟩ := a
      rintro s ⟨rfl, hs⟩
      simp only
      generalize Plain.search look [] _ = result at hs ⊢
      obtain ⟨_ | layout, tried'⟩ := result
      · exact hs
      · simp only
        split
        · exact hs
        · refine (ih _ _ _ s hs).weaken fun path hpath => ?_
          rw [List.mem_append] at hpath
          tauto

end First

section Second

variable {pay : W → W} (hreports : e.source.Reports Q r) (hissues : e.source.Issues S push)
  (hpay : e.source.Charges Q pay)

include hreports hissues hpay

/-- A search of settled paths costs fingerprints at most. -/
theorem searchLog_settled (h : e.Stocked now g c r Q fired look push S P s) {paths : List String}
    (hrooted : ∀ path ∈ paths, Rooted path)
    (hpaths : ∀ path ∈ (Plain.search look [] paths).2, P path) :
    let a := e.searchLog now g.1 c paths s
    a.1.1 = (Plain.search look [] paths).1 ∧ e.Stocked now g c r Q fired look push S P a.2 ∧
      a.2.scene.world = pay^[fees push a.1.2] s.scene.world := by
  induction paths generalizing s with
  | nil => exact ⟨rfl, h, by cases push <;> rfl⟩
  | cons path paths ih =>
    obtain ⟨hpath, hrest⟩ := List.forall_mem_cons.1 hrooted
    rw [Plain.search_cons] at hpaths ⊢
    have hP : P path := by
      cases hlook : look path <;> simp only [hlook] at hpaths <;>
        exact hpaths path List.mem_cons_self
    obtain ⟨hanswer, hstocked, hworld⟩ := h.lookup hreports hissues hpay hP hpath
    unfold searchLog
    rw [bind_apply]
    generalize e.lookup now g.1 c path s = a at hanswer hstocked hworld ⊢
    obtain ⟨_, s'⟩ := a
    subst hanswer
    cases hlook : look path with
    | some t =>
      rw [hlook] at hworld
      exact ⟨rfl, hstocked, hworld⟩
    | none =>
      simp only [hlook] at hpaths hworld ⊢
      obtain ⟨hfound, hlast, hcost⟩ := ih hstocked hrest
        fun other hmem => hpaths other (List.mem_cons_of_mem _ hmem)
      rw [bind_apply]
      refine ⟨hfound, hlast, hcost.trans ?_⟩
      rw [hworld, ← Function.iterate_add_apply, ← fees_append]
      rfl

/-- So does following layouts along a settled trail. -/
theorem followLog_settled (fuel : Nat) {layouts : List Compiled} {next : Option String}
    (h : e.Stocked now g c r Q fired look push S P s)
    (hpaths : ∀ path ∈ Plain.trail look
      (fun name => e.candidates name (e.options.folders.layoutFolders g.1)) fuel layouts next,
        P path) :
    let a := e.followLog now g.1 c fuel layouts next s
    e.Stocked now g c r Q fired look push S P a.2 ∧
      a.2.scene.world = pay^[fees push a.1] s.scene.world := by
  have hnone : ∀ w, w = pay^[fees push []] w := fun w => by cases push <;> rfl
  induction fuel generalizing s layouts next with
  | zero => cases next <;> exact ⟨h, hnone _⟩
  | succ fuel ih =>
    cases next with
    | none => exact ⟨h, hnone _⟩
    | some name =>
      have hrooted := e.rooted_candidates name (e.options.folders.rooted_layoutFolders g.1)
      unfold Plain.trail at hpaths
      unfold followLog
      have htried : ∀ path ∈ (Plain.search look []
          (e.candidates name (e.options.folders.layoutFolders g.1))).2, P path := by
        intro path hmem
        refine hpaths path ?_
        simp only
        split
        · exact hmem
        · split
          · exact hmem
          · exact List.mem_append_left _ hmem
      obtain ⟨hfound, hstocked, hworld⟩ :=
        searchLog_settled hreports hissues hpay h hrooted htried
      rw [bind_apply]
      generalize e.searchLog now g.1 c _ s = a at hfound hstocked hworld ⊢
      obtain ⟨⟨found, log⟩, s'⟩ := a
      subst hfound
      generalize Plain.search look [] _ = result at hpaths ⊢
      obtain ⟨_ | layout, tried⟩ := result
      · exact ⟨hstocked, hworld⟩
      · simp only at hpaths ⊢
        split at hpaths
        · next hagain =>
          rw [if_pos hagain]
          exact ⟨hstocked, hworld⟩
        · next hnew =>
          rw [if_neg hnew, bind_apply]
          obtain ⟨hlast, hcost⟩ := ih hstocked
            fun path hmem => hpaths path (List.mem_append_right _ hmem)
          refine ⟨hlast, hcost.trans ?_⟩
          rw [hworld, ← Function.iterate_add_apply, ← fees_append]
          rfl

end Second

/-! ### What is answered -/

/-- There are always steps enough. -/
theorem Poised.enough (h : e.Poised now g c r Q fired look s) (hreports : e.source.Reports Q r)
    (next : Option String) : Plain.Enough look
      (fun name => e.candidates name (e.options.folders.layoutFolders g.1)) (e.chainBound g.1 s) []
        next := by
  obtain ⟨declared, hdeclared, hlt⟩ := h.declared hreports
  intro more searched last hstack hnodup
  have hle := hstack.length_le hnodup fun asked path hpath => hdeclared path
    (e.rooted_candidates asked (e.options.folders.rooted_layoutFolders g.1) path hpath)
  exact Nat.lt_of_le_of_lt hle hlt

variable {pay : W → W} (hreports : e.source.Reports Q r) (hissues : e.source.Issues S push)
  (hpatient : e.options.Patient)
  (hdigest : ∀ path source err, r.read path = .ok source → r.fingerprint path ≠ .error err)
  (hpay : e.source.Charges Q pay)

include hreports hissues hpatient hdigest hpay

/-- Seeking a view settles what it takes to seek it. -/
theorem seek_again (h : e.Stocked now g c r Q fired look push S P s) (name : String)
    (layout : Option String) :
    ∃ P' : String → Prop,
      e.Stocked now g c r Q fired look push S P' (e.seek now g.1 c name layout s).2 ∧
      ∀ s', e.Stocked now g c r Q fired look push S P' s' →
        let a := e.seekLog now g.1 c name layout s'
        e.Stocked now g c r Q fired look push S P' a.2 ∧
          a.2.scene.world = pay^[fees push a.1] s'.scene.world := by
  have hrooted := e.rooted_candidates name (e.options.folders.rooted_viewFolders g.1)
  obtain ⟨hfound, hsearched⟩ :=
    answers_search_stocked hreports hissues hpatient hdigest hrooted [] s h
  unfold seek seekLog
  rw [bind_apply]
  generalize e.search now g.1 c [] _ s = a at hfound hsearched ⊢
  obtain ⟨⟨found, tried⟩, s₁⟩ := a
  cases found with
  | none =>
    refine ⟨_, hsearched, fun s' hs' => ?_⟩
    obtain ⟨hagain, hstocked, hworld⟩ := searchLog_settled hreports hissues hpay hs' hrooted
      fun path => .inl
    rw [bind_apply]
    generalize e.searchLog now g.1 c _ s' = a at hagain hstocked hworld ⊢
    obtain ⟨⟨_, log⟩, s₂⟩ := a
    cases hagain.trans hfound.symm
    exact ⟨hstocked, hworld⟩
  | some view =>
    have hfollowed := takes_follow_stocked hreports hissues hpatient hdigest
      (e.chainBound g.1 s₁) view [] tried ((layout.filter (· != "")).or view.layout) s₁ hsearched
    refine ⟨_, hfollowed, fun s' hs' => ?_⟩
    obtain ⟨hagain, hstocked, hworld⟩ := searchLog_settled hreports hissues hpay hs' hrooted
      fun path hpath => .inr (.inl hpath)
    rw [bind_apply]
    generalize e.searchLog now g.1 c _ s' = a at hagain hstocked hworld ⊢
    obtain ⟨⟨_, log⟩, s₂⟩ := a
    cases hagain.trans hfound.symm
    -- The cache may have grown since, so that there are other steps than before.
    have hnodup : (([] : List Compiled).map Compiled.path).Nodup := List.nodup_nil
    have htrail := Plain.trail_eq hnodup
      (hstocked.enough hreports ((layout.filter (· != "")).or view.layout))
      (hsearched.enough hreports _)
    obtain ⟨hlast, hcost⟩ := followLog_settled hreports hissues hpay (e.chainBound g.1 s₂) hstocked
      fun path hpath => .inl (htrail ▸ hpath)
    refine ⟨hlast, hcost.trans ?_⟩
    rw [hworld, ← Function.iterate_add_apply, ← fees_append]
    rfl

/-- **The same request for a view** is answered the same, and costs the fingerprints of the
templates that it finds. -/
theorem resolve_again (h : e.Watches now s []) (hhangs : e.Hangs now (fun _ => False) s)
    (hfiling : e.Filing push S s []) (hworld : Q s.scene.world) (g : Group.Made) (name : String)
    (layout : Option String) :
    let first := e.resolve now g.1 name layout s
    let again := e.resolve now g.1 name layout first.2
    again.1 = first.1 ∧ again.2.scene.world =
      pay^[fees push (e.resolveLog now g.1 name layout first.2).1] first.2.scene.world := by
  intro first again
  cases hname : requireName "name" name with
  | error err =>
    simp only [again, first, (resolve_refused hname layout _).1, (resolve_refused hname layout _).2]
    exact ⟨trivial, by cases push <;> rfl⟩
  | ok _ =>
    have hstocked := stocked_config (g := g) hreports hissues h hhangs hfiling hworld
    obtain ⟨P', hafter, hagain⟩ :=
      seek_again hreports hissues hpatient hdigest hpay hstocked name layout
    rw [← resolve_eq_seek hname] at hafter
    obtain ⟨hconfig, hready, hsame⟩ := hafter.config hissues
    constructor
    · have hanswer : ∀ a, again.1 = a ↔ e.Resolves (e.sight now g.1 s) g.1 name layout a :=
        resolve_iff hready.toPoised (fun path hrooted => by
          rw [hconfig]
          exact answers_lookup_known hreports hrooted) (fun _ hs => hs.declared hreports) name
          layout
      exact (hanswer _).2 ((resolve_iff_sight h hreports hworld g name layout _).1 rfl)
    · rw [← snd_resolveLog, resolveLog_eq_seekLog hname, hconfig, ← hsame]
      exact (hagain _ hready).2

/-- **The same request for a partial** is answered the same, and costs the fingerprint of the
template that it finds. -/
theorem resolvePartial_again (h : e.Watches now s []) (hhangs : e.Hangs now (fun _ => False) s)
    (hfiling : e.Filing push S s []) (hworld : Q s.scene.world) (g : Group.Made) (name : String) :
    let first := e.resolvePartial now g.1 name s
    let again := e.resolvePartial now g.1 name first.2
    again.1 = first.1 ∧ again.2.scene.world =
      pay^[fees push (e.resolvePartialLog now g.1 name first.2).1] first.2.scene.world := by
  intro first again
  cases hname : requireName "name" name with
  | error err =>
    simp only [again, first, (resolvePartial_refused hname _).1, (resolvePartial_refused hname _).2]
    exact ⟨trivial, by cases push <;> rfl⟩
  | ok _ =>
    have hrooted := e.rooted_candidates name (e.options.folders.rooted_viewFolders g.1)
    have hstocked := stocked_config (g := g) hreports hissues h hhangs hfiling hworld
    let found := e.search now g.1 (e.config now g.1 s).1 []
      (e.candidates name (e.options.folders.viewFolders g.1)) (e.config now g.1 s).2
    have hfirst : first = (partialOf found.1, found.2) := resolvePartial_eq_search hname s
    have hknown : ∀ s', e.Poised now g (e.config now g.1 s).1 r Q s.scene.signals.fired
        (e.sight now g.1 s) s' → (e.search now g.1 (e.config now g.1 s).1 []
          (e.candidates name (e.options.folders.viewFolders g.1)) s').1 = _ := fun s' hs' =>
      (answers_search_known (fun path hpath => answers_lookup_known hreports (hrooted path hpath))
        [] s' hs').1
    obtain ⟨-, hafter⟩ := answers_search_stocked hreports hissues hpatient hdigest hrooted []
      _ hstocked
    obtain ⟨hconfig, hready, hsame⟩ := hafter.config hissues
    obtain ⟨-, -, hcost⟩ := searchLog_settled hreports hissues hpay hready hrooted fun _ => .inl
    have hagain : again = e.resolvePartial now g.1 name found.2 :=
      congrArg (fun a => e.resolvePartial now g.1 name a.2) hfirst
    rw [hfirst]
    simp only
    constructor
    · rw [hagain, resolvePartial_eq_search hname]
      refine congrArg partialOf ?_
      rw [hconfig]
      exact (hknown _ hready.toPoised).trans (hknown _ hstocked.toPoised).symm
    · rw [hagain, ← snd_resolvePartialLog, resolvePartialLog_eq_searchLog hname, hconfig, ← hsame]
      exact hcost

end Again

end Engine

end Templating
