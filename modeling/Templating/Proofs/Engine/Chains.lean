import Templating.Proofs.Cache.Sturdy
import Templating.Proofs.Engine.Clearing
import Templating.Proofs.Engine.Snapshot

/-!
# How long a chain of layouts may be

The chain of layouts that a view is put into is followed for as many steps as there may be layouts,
which depends on how much is cached, also for other engines. How many steps are allowed makes no
difference, if they are enough (`Engine.follow_chainBound`): the layouts of a chain have different
paths, and a path at which there is a template is one of a file or of a cached template.
-/

namespace Templating.Engine

open Session.Steady (Rests)
open Work (Answers Takes)

variable {W : Type} {e : Engine W} {now : Instant} {g : Group.Made} {c : GroupConfig}
  {Q : W → Prop} {paths : List String} {path : String}

/-- The paths of cached templates are among these. -/
structure Charted (paths : List String) (key : String) (value : Entry)
    (options : Options (Poller W)) : Prop where
  hook : options.hook = none
  path : ∀ t, value = .compiled t → t.path ∈ paths

/-- What holds of a session while a chain is followed. -/
abbrev Charts (paths : List String) (Q : W → Prop) : Session Entry (Poller W) W → Prop :=
  Rests (Cache.Holds (Charted paths)) Q

theorem steady_charted (now : Instant) : Session.Steady (W := W) (Poller.moment now)
    (fun _ _ => Charted paths) (Cache.Holds (Charted paths)) Q :=
  Session.steady_holds (fun _ _ _ h hhook => by rw [h.hook] at hhook; cases hhook)
    fun _ _ _ _ _ h hhook => by rw [h.hook] at hhook; cases hhook

/-- A source whose calls keep `Q`, and which can read no file at other paths while `Q` holds. -/
structure Surveys (s : Source W) (Q : W → Prop) (paths : List String) : Prop extends
    s.Keeps Q where
  read_ok : ∀ path scene text, Q scene.world → (s.read path scene).1 = .ok text → path ∈ paths

variable (h : Surveys e.source Q paths)

include h

theorem takes_lookup_charted :
    Takes (Charts paths Q) (Charts paths Q) (e.lookup now g.1 c path) := by
  refine takes_lookup_steady h.toKeeps (steady_charted now) ?_ fun _ _ => ⟨rfl, nofun⟩
  rintro _ _ token sliding recheck - (rfl | ⟨t, -, ⟨scene, text, hQ, hread, -⟩, rfl⟩)
  · exact ⟨rfl, nofun⟩
  · refine ⟨rfl, fun t' ht' => ?_⟩
    cases ht'
    exact h.read_ok t.path scene text hQ hread

/-- What is compiled was read. -/
theorem answers_compile {token : Option Token} : Answers (fun s => Q s.scene.world)
    (fun t? _ => ∀ t, t? = some t → t.path ∈ paths) (e.compile now g.1 c path token) := by
  unfold compile
  have hread : Answers (fun s => Q s.scene.world)
      (fun answer _ => ∀ text, answer = .ok text → path ∈ paths)
      (Session.onScene (e.source.read path) : Resolving W _) :=
    fun s hs text => h.read_ok path s.scene text hs
  refine .bind hread fun answer => ?_
  simp only
  refine .bind (R := fun _ _ => ∀ text, answer = .ok text → path ∈ paths) (fun _ hs => hs)
    fun _ => ?_
  split
  · exact .bind (R := fun _ _ => True) (fun _ _ => trivial) fun _ _ _ _ ht => nomatch ht
  · next render layout hmade =>
    obtain ⟨text, rfl, -⟩ := of_compiled hmade
    split
    · refine .bind (R := fun _ _ => path ∈ paths) (fun _ hs => hs text rfl) fun _ s hs t ht => ?_
      cases ht
      exact hs
    · refine .bind (R := fun _ _ => path ∈ paths) (fun _ hs => hs text rfl) fun answer => ?_
      cases answer with
      | error err =>
        intro s hs t ht
        cases ht
        exact hs
      | ok fingerprint =>
        refine .bind (R := fun _ _ => path ∈ paths) (fun _ hs => hs) fun _ s hs t ht => ?_
        cases ht
        exact hs

theorem answers_ask : Answers (fun s => Q s.scene.world)
    (fun t? _ => ∀ t, t? = some t → t.path ∈ paths) (e.ask now g.1 c path) := by
  unfold ask
  refine .bind (R := fun _ s => Q s.scene.world) (fun s => h.changeToken? path s.scene)
    fun token => .bind (R := fun _ s => Q s.scene.world) (fun s => h.isFile path s.scene)
      fun isFile => ?_
  cases isFile with
  | false => exact .bind (R := fun _ _ => True) (fun _ _ => trivial) fun _ _ _ _ ht => nomatch ht
  | true => exact answers_compile h

/-- Where a template is found is one of the paths. -/
theorem answers_lookup : Answers (Charts paths Q)
    (fun t? s => (∀ t, t? = some t → t.path ∈ paths) ∧ Charts paths Q s)
    (e.lookup now g.1 c path) := by
  suffices Answers (Charts paths Q) (fun t? _ => ∀ t, t? = some t → t.path ∈ paths)
      (e.lookup now g.1 c path) from fun s hs => ⟨this s hs, takes_lookup_charted h s hs⟩
  have hsteady : Session.Steady (Poller.moment now) (fun _ _ => Charted paths)
      (Cache.Holds (Charted paths)) Q := steady_charted now
  have hask : Answers (Charts paths Q) (fun t? _ => ∀ t, t? = some t → t.path ∈ paths)
      (e.ask now g.1 c path) := fun s hs => answers_ask h s hs.2
  unfold lookup
  refine .bind (R := fun found s => (∀ t, found = some (.compiled t) → t.path ∈ paths) ∧
    Charts paths Q s) (fun s hs => ?_) fun found => ?_
  · have hkept := hsteady.get (e.keys.path g.1 path) s hs
    refine ⟨fun t ht => ?_, hkept⟩
    obtain ⟨slot, hslot, hvalue⟩ := Session.stored_of_get ht
    exact (hkept.1.stored _ slot hslot).path t hvalue
  · split
    · exact fun _ _ _ ht => nomatch ht
    · next template =>
      split
      · rintro s ⟨hs, -⟩ t ht
        cases ht
        exact hs template rfl
      · refine .bind (R := fun _ s => template.path ∈ paths ∧ Charts paths Q s)
          (fun s hs => ⟨hs.1 template rfl,
            takes_hasFingerprint (takes_onScene (h.toKeeps.fingerprint path)) _ s hs.2⟩)
          fun same => ?_
        cases same with
        | true =>
          rintro s ⟨hs, -⟩ t ht
          cases ht
          exact hs
        | false =>
          exact .bind (R := fun _ => Charts paths Q) (fun s hs => hsteady.remove _ s hs.2)
            fun _ => hask
    · exact fun s hs => hask s hs.2

variable (now g c) in
theorem answers_search (searched candidates : List String) :
    Answers (Charts paths Q)
      (fun found s => (∀ t, found.1 = some t → t.path ∈ paths) ∧ Charts paths Q s)
      (e.search now g.1 c searched candidates) := by
  induction candidates generalizing searched with
  | nil => exact fun s hs => ⟨nofun, hs⟩
  | cons path candidates ih =>
    refine .bind (answers_lookup h) fun found => ?_
    cases found with
    | some template => exact fun s hs => ⟨hs.1, hs.2⟩
    | none => exact fun s hs => ih _ s hs.2

/-- **How many steps are allowed does not matter**, if there are more than paths. -/
theorem follow_fuel {s : Session Entry (Poller W) W} (hs : Charts paths Q s) {fuel fuel' : Nat}
    {view : Template.Compiled} {layouts : List Template.Compiled} {searched : List String}
    {next : Option String} (hnodup : (layouts.map Template.Compiled.path).Nodup)
    (hpaths : layouts.map Template.Compiled.path ⊆ paths)
    (hfuel : paths.length < fuel + layouts.length)
    (hfuel' : paths.length < fuel' + layouts.length) :
    e.follow now g.1 c fuel view layouts searched next s =
      e.follow now g.1 c fuel' view layouts searched next s := by
  have hbound : layouts.length ≤ paths.length := by
    simpa using (hnodup.subperm hpaths).length_le
  induction fuel generalizing fuel' layouts searched next s with
  | zero => omega
  | succ fuel ih =>
    obtain ⟨fuel', rfl⟩ : ∃ n, fuel' = n + 1 := ⟨fuel' - 1, by omega⟩
    cases next with
    | none => rfl
    | some name =>
      unfold follow
      have hfound := answers_search now g c h searched
        (e.candidates name (e.options.folders.layoutFolders g.1)) s hs
      simp only [bind_apply]
      generalize e.search now g.1 c searched _ s = found at hfound ⊢
      obtain ⟨⟨_ | layout, tried⟩, s'⟩ := found
      · rfl
      · simp only
        split
        · rfl
        · next hnew =>
          -- The next layout was not met before.
          have hfresh : layout.path ∉ layouts.map Template.Compiled.path := by simpa using hnew
          have hnodup' : ((layouts ++ [layout]).map Template.Compiled.path).Nodup := by
            rw [List.map_append]
            exact List.nodup_append'.2 ⟨hnodup, List.nodup_singleton _, by simpa using hfresh⟩
          have hpaths' : (layouts ++ [layout]).map Template.Compiled.path ⊆ paths := by
            simpa using ⟨hpaths, hfound.1 layout rfl⟩
          have hlength : (layouts ++ [layout]).length = layouts.length + 1 := List.length_append
          refine ih hfound.2 hnodup' hpaths' (by omega) (by omega) ?_
          simpa using (hnodup'.subperm hpaths').length_le

/-- **A chain is followed to its end**: to allow for more steps makes no difference. -/
theorem follow_chainBound {s : Session Entry (Poller W) W} (hlinked : s.cache.Linked)
    (hsilent : Session.Silent s.cache) (hQ : Q s.scene.world)
    (hcapacity : paths.length ≤ e.source.capacity s.scene.world) {fuel : Nat}
    (hfuel : e.chainBound g.1 s ≤ fuel) (view : Template.Compiled) (searched : List String)
    (next : Option String) :
    e.follow now g.1 c (e.chainBound g.1 s) view [] searched next s =
      e.follow now g.1 c fuel view [] searched next s := by
  let cached := s.cache.entries.rows.filterMap fun row =>
    match row.2.value with
    | .compiled t => some t.path
    | _ => none
  have hsurveys : Surveys e.source Q (paths ++ cached) :=
    ⟨h.toKeeps, fun path scene text hworld hread =>
      List.mem_append_left _ (h.read_ok path scene text hworld hread)⟩
  have hcharts : Charts (paths ++ cached) Q s := by
    refine ⟨⟨hlinked, fun key slot hget => ⟨hsilent key slot hget, fun t ht => ?_⟩, nofun⟩, hQ⟩
    refine List.mem_append_right _ (List.mem_filterMap.2 ⟨(key, slot), ?_, ?_⟩)
    · exact Table.mem_rows_of_get? hget
    · simp only [ht]
  have hbound : (paths ++ cached).length < e.chainBound g.1 s := by
    have hfolders : 0 < (e.options.folders.layoutFolders g.1).length :=
      List.length_pos_iff.2 (e.options.folders.special_ne_nil g.1 _)
    have hle := Nat.le_mul_of_pos_left (e.source.capacity s.scene.world) hfolders
    have hcached : cached.length ≤ s.cache.size := List.length_filterMap_le ..
    rw [List.length_append]
    unfold chainBound
    omega
  exact follow_fuel hsurveys hcharts List.nodup_nil (List.nil_subset _) hbound (by
    rw [List.length_nil]
    omega)

end Templating.Engine
