import Templating.Proofs.Cutting
import Templating.Proofs.Engine.Keys
import Templating.Proofs.Engine.Workshop
import Templating.Proofs.Source.Listing
import Templating.Settings.Basic

/-!
# Settings that are accepted

Settings are checked one by one, each against its own condition, and what has passed is put together
by others: the engine checks its options once more, and folders are put together from names of
settings and of groups. `Draft.Fault` says what is wrong with a draft, with the refusal that answers
it. A draft is refused if and only if there is a fault in it, and for a fault that it has
(`Settings.ofDraft_eq_error`, `Settings.ofDraft_eq_ok`).

What has passed fits together: names without slashes give folders that are cut at their slashes into
just these names (`IsFolderPath`), and an extension or a prefix that has passed here passes again.
-/

namespace Templating

/-! ## Texts -/

namespace Text

/-- Trimming takes no character from a text that is not blank. -/
theorem mem_trim {c : Char} (hc : isBlank c = false) (s : String) :
    c ∈ (trim s).toList ↔ c ∈ s.toList := by
  obtain ⟨⟨left, right, heq, hleft, hright⟩, -⟩ := isTrimmed_trimChars s.toList
  have hblank : ∀ {cs : List Char}, AllBlank cs → c ∉ cs := fun hall hmem => by
    rw [hall c hmem] at hc
    cases hc
  rw [trim, String.toList_ofList]
  generalize trimChars s.toList = trimmed at heq
  rw [heq]
  simp [hblank hleft, hblank hright]

theorem splitChars_append {sep : Char} {part : List Char} (h : sep ∉ part) (rest : List Char) :
    splitChars sep (part ++ sep :: rest) = part :: splitChars sep rest := by
  induction part with
  | nil => simp [splitChars]
  | cons c part ih =>
    obtain ⟨hc, hpart⟩ := not_or.1 (fun hor => h (List.mem_cons.2 hor))
    rw [List.cons_append, splitChars, if_neg (Ne.symm hc), ih hpart]

end Text

/-! ## Folders -/

/-- The path of a folder: it starts at the root and ends in a slash, and there is something between
any two slashes. -/
structure IsFolderPath (folder : String) : Prop where
  rooted : Text.startsWith rootMark folder = true
  closed : EndsInSlash folder
  filled : ∃ names, Text.split '/' folder = "~" :: names ++ [""] ∧ ∀ name ∈ names, name ≠ ""

/-- A text that can name one folder. -/
def IsFolderName (name : String) : Prop := name ≠ "" ∧ '/' ∉ name.toList

instance (name : String) : Decidable (IsFolderName name) := inferInstanceAs (Decidable (_ ∧ _))

/-- The folder is given by names of folders behind the root mark. -/
def IsNamedPath (folder : String) : Prop :=
  ∃ names : List String, (∀ name ∈ names, IsFolderName name) ∧
    folder.toList = rootMark.toList ++ names.flatMap fun name => name.toList ++ ['/']

namespace IsNamedPath

theorem root : IsNamedPath rootMark := ⟨[], nofun, rfl⟩

theorem add {folder name : String} (h : IsNamedPath folder) (hname : IsFolderName name) :
    IsNamedPath (folder ++ name ++ "/") := by
  obtain ⟨names, hnames, heq⟩ := h
  refine ⟨names ++ [name], fun other hother => ?_, ?_⟩
  · rcases List.mem_append.1 hother with hother | hother
    · exact hnames other hother
    · rw [List.mem_singleton.1 hother]
      exact hname
  · simp [heq]

theorem split_names {names : List String} (h : ∀ name ∈ names, IsFolderName name) :
    Text.splitChars '/' (names.flatMap fun name => name.toList ++ ['/']) =
      names.map String.toList ++ [[]] := by
  induction names with
  | nil => rfl
  | cons name names ih =>
    rw [List.flatMap_cons, List.append_assoc, List.singleton_append,
      Text.splitChars_append (h name List.mem_cons_self).2,
      ih fun other hother => h other (List.mem_cons_of_mem _ hother)]
    rfl

theorem isFolderPath {folder : String} (h : IsNamedPath folder) : IsFolderPath folder := by
  obtain ⟨names, hnames, heq⟩ := h
  refine ⟨?_, ?_, names, ?_, fun name hname => (hnames name hname).1⟩
  · rw [Text.startsWith, Option.isSome_iff_exists]
    exact ⟨_, Text.dropMark_eq_some.2 heq⟩
  · rcases List.eq_nil_or_concat names with rfl | ⟨init, last, rfl⟩
    · exact ⟨['~'], heq⟩
    · refine ⟨rootMark.toList ++ (init.flatMap fun name => name.toList ++ ['/']) ++ last.toList, ?_⟩
      rw [heq, List.concat_eq_append, List.flatMap_append, List.flatMap_singleton]
      simp only [List.append_assoc]
  · have hmark : folder.toList =
        ['~'] ++ '/' :: names.flatMap fun name => name.toList ++ ['/'] := heq
    rw [Text.split, hmark, Text.splitChars_append (by decide), split_names hnames]
    simp

end IsNamedPath

namespace FolderNames

/-- The names are such that every folder put together from them can be told apart from its parts. -/
structure Proper (names : FolderNames) : Prop where
  views : IsFolderName names.views
  areas : IsFolderName names.areas
  partials : IsFolderName names.partials
  layouts : IsFolderName names.layouts
  shared : '/' ∉ names.shared.toList

namespace Proper

variable {names : FolderNames} (h : names.Proper) {g : Group} (hg : g.WellNamed)

include h hg

theorem roots : ∀ root ∈ names.roots g, IsNamedPath root := by
  have hsite : IsNamedPath (rootMark ++ names.views ++ "/") := IsNamedPath.root.add h.views
  unfold FolderNames.roots Group.area?
  intro root hroot
  split at hroot
  · next area harea =>
    split at harea
    · cases harea
    · next hne =>
      cases harea
      have harea : IsNamedPath (rootMark ++ names.areas ++ "/" ++ g.area ++ "/" ++ names.views ++
          "/") := ((IsNamedPath.root.add h.areas).add ⟨hne, hg.slash_not_mem_area⟩).add h.views
      rcases List.mem_pair.1 hroot with rfl | rfl
      · exact harea
      · exact hsite
  · rw [List.mem_singleton.1 hroot]
    exact hsite

theorem viewFolders : ∀ folder ∈ names.viewFolders g, IsNamedPath folder := by
  intro folder hfolder
  obtain ⟨root, hroot, hfolder⟩ := List.mem_flatMap.1 hfolder
  have hnamed := h.roots hg root hroot
  rcases List.mem_append.1 hfolder with hfolder | hfolder
  · rcases List.mem_append.1 hfolder with hfolder | hfolder
    · rw [List.mem_singleton.1 hfolder]
      exact hnamed.add ⟨hg.named, hg.slash_not_mem_controller⟩
    · split at hfolder
      · cases hfolder
      · next hshared =>
        rw [List.mem_singleton.1 hfolder]
        exact hnamed.add ⟨hshared, h.shared⟩
  · split at hfolder
    · rw [List.mem_singleton.1 hfolder]
      exact hnamed
    · cases hfolder

theorem special {name : String} (hname : IsFolderName name) :
    ∀ folder ∈ names.special g name, IsNamedPath folder := by
  intro folder hfolder
  obtain ⟨root, hroot, hfolder⟩ := List.mem_flatMap.1 hfolder
  have hnamed := h.roots hg root hroot
  rcases List.mem_pair.1 hfolder with rfl | rfl
  · exact (hnamed.add ⟨hg.named, hg.slash_not_mem_controller⟩).add hname
  · exact hnamed.add hname

end Proper

end FolderNames

/-! ## Faults -/

/-- A text that can be the extension of template files: a dot and a name. -/
def IsDottedName (text : String) : Prop :=
  ∃ name, text.toList = '.' :: name ∧ name ≠ [] ∧ '/' ∉ name

namespace Settings

/-- The folders that must have a name, with the keys that they are set under. -/
def Draft.namedFolders (d : Draft) : List (String × Option String) :=
  [("views.views_folder", d.viewsFolder), ("views.areas_folder", d.areasFolder),
    ("views.partials_folder", d.partialsFolder), ("views.layouts_folder", d.layoutsFolder)]

def Draft.folders (d : Draft) : List (String × Option String) :=
  ("views.shared_folder", d.sharedFolder) :: d.namedFolders

def Draft.timings (d : Draft) : List (String × Option Nat) :=
  [("cache.poll_interval_ms", d.pollMs), ("cache.missing_retry_ms", d.missingRetryMs),
    ("cache.missing_sliding_secs", d.missingSlidingSecs),
    ("cache.view_recheck_ms", d.viewRecheckMs),
    ("cache.compile_failure_retry_ms", d.compileFailureRetryMs),
    ("cache.sweep_interval_ms", d.sweepMs)]

/-- What is wrong with a draft, with the refusal that answers it. -/
inductive Draft.Fault (d : Draft) : Refusal → Prop
  | logLevel {text : String} (given : d.logLevel = some text)
      (unparsable : LogLevel.read? text = none) : Fault d .logLevel
  | emptyFolder {key text : String} (given : (key, some text) ∈ d.namedFolders)
      (empty : Text.trim text = "") : Fault d (.emptyFolder key)
  | nestedFolder {key text : String} (given : (key, some text) ∈ d.folders)
      (nested : '/' ∈ text.toList) : Fault d (.nestedFolder key)
  | extension {text : String} (given : d.extension = some text)
      (undotted : ¬IsDottedName (Text.trim text)) : Fault d (.extension (Text.trim text))
  | keyPrefix {text : String} (given : d.keyPrefix = some text)
      (unfit : Text.trim text = "" ∨ ':' ∈ text.toList) : Fault d .keyPrefix
  | zero {key : String} (given : (key, some 0) ∈ d.timings) : Fault d (.zero key)

/-! ## Checks -/

theorem utf8ByteSize_of_cons {text : String} {name : List Char} (h : text.toList = '.' :: name) :
    2 ≤ text.utf8ByteSize ↔ name ≠ [] := by
  have htext : text = String.singleton '.' ++ String.ofList name := by
    rw [← String.ofList_cons, ← h, String.ofList_toList]
  have hsize : text.utf8ByteSize = 1 + (String.ofList name).utf8ByteSize := by
    rw [htext, String.utf8ByteSize_append, String.utf8ByteSize_singleton]
    rfl
  have hempty : (String.ofList name).utf8ByteSize = 0 ↔ name = [] := by
    rw [String.utf8ByteSize_eq_zero_iff, ← String.toList_eq_nil_iff, String.toList_ofList]
  rw [hsize, Ne, ← hempty]
  omega

theorem isExtension_iff {text : String} : isExtension text = true ↔ IsDottedName text := by
  unfold isExtension IsDottedName
  cases hlist : text.toList with
  | nil => simp
  | cons c name =>
    by_cases hc : c = '.'
    · subst hc
      simp [utf8ByteSize_of_cons hlist]
    · simp [hc]

section Checks

variable {r : Refusal} {key default : String} {given : Option String}

theorem checkLogLevel_eq_error (h : checkLogLevel given = .error r) :
    r = .logLevel ∧ ∃ text, given = some text ∧ LogLevel.read? text = none := by
  cases given with
  | none => cases h
  | some text =>
    simp only [checkLogLevel] at h
    split at h
    · cases h
    · next hnone =>
      cases h
      exact ⟨rfl, text, rfl, hnone⟩

theorem checkLogLevel_eq_ok {level : LogLevel} (h : checkLogLevel given = .ok level) :
    ∀ text, given = some text → LogLevel.read? text = some level := by
  rintro text rfl
  simp only [checkLogLevel] at h
  split at h
  · next hread =>
    cases h
    exact hread
  · cases h

theorem slash_mem_trim {text : String} :
    '/' ∈ (Text.trim text).toList ↔ '/' ∈ text.toList := Text.mem_trim rfl text

theorem isNested_iff {name : String} : isNested name = true ↔ '/' ∈ name.toList := by
  simp [isNested]

/-- The name of a folder is refused if it is empty or has a slash. The default has neither. -/
theorem checkFolder_eq_error (hdefault : IsFolderName default)
    (h : checkFolder key default given = .error r) :
    ∃ text, given = some text ∧ (r = .emptyFolder key ∧ Text.trim text = "" ∨
      r = .nestedFolder key ∧ '/' ∈ text.toList) := by
  simp only [checkFolder, isNested_iff] at h
  cases given with
  | none => simp [hdefault.1, hdefault.2] at h
  | some text =>
    refine ⟨text, rfl, ?_⟩
    simp only [Option.map_some, Option.getD_some, slash_mem_trim] at h
    split at h
    · next hempty =>
      cases h
      exact .inl ⟨rfl, hempty⟩
    · split at h
      · next hnested =>
        cases h
        exact .inr ⟨rfl, hnested⟩
      · cases h

theorem checkFolder_eq_ok {name : String} (h : checkFolder key default given = .ok name) :
    IsFolderName name ∧ ∀ text, given = some text → name = Text.trim text := by
  simp only [checkFolder, isNested_iff] at h
  split at h
  · cases h
  · next hne =>
    split at h
    · cases h
    · next hnested =>
      cases h
      refine ⟨⟨hne, hnested⟩, ?_⟩
      rintro text rfl
      rfl

theorem checkOptionalFolder_eq_error (hdefault : '/' ∉ default.toList)
    (h : checkOptionalFolder key default given = .error r) :
    r = .nestedFolder key ∧ ∃ text, given = some text ∧ '/' ∈ text.toList := by
  simp only [checkOptionalFolder, isNested_iff] at h
  cases given with
  | none => simp [hdefault] at h
  | some text =>
    simp only [Option.map_some, Option.getD_some, slash_mem_trim] at h
    split at h
    · next hnested =>
      cases h
      exact ⟨rfl, text, rfl, hnested⟩
    · cases h

theorem checkOptionalFolder_eq_ok {name : String}
    (h : checkOptionalFolder key default given = .ok name) :
    '/' ∉ name.toList ∧ ∀ text, given = some text → name = Text.trim text := by
  simp only [checkOptionalFolder, isNested_iff] at h
  split at h
  · cases h
  · next hnested =>
    cases h
    refine ⟨hnested, ?_⟩
    rintro text rfl
    rfl

theorem checkExtension_eq_error (hdefault : IsDottedName default)
    (h : checkExtension default given = .error r) :
    ∃ text, given = some text ∧ r = .extension (Text.trim text) ∧
      ¬IsDottedName (Text.trim text) := by
  simp only [checkExtension] at h
  split at h
  · cases h
  · next hundotted =>
    cases h
    rw [isExtension_iff] at hundotted
    cases given with
    | none => exact absurd hdefault hundotted
    | some text => exact ⟨text, rfl, rfl, hundotted⟩

theorem checkExtension_eq_ok {extension : String}
    (h : checkExtension default given = .ok extension) :
    IsDottedName extension ∧ ∀ text, given = some text → extension = Text.trim text := by
  simp only [checkExtension] at h
  split at h
  · next hdotted =>
    cases h
    refine ⟨isExtension_iff.1 hdotted, ?_⟩
    rintro text rfl
    rfl
  · cases h

theorem isKeyPrefix_trim {text : String} :
    isKeyPrefix (Text.trim text) = true ↔ Text.trim text ≠ "" ∧ ':' ∉ text.toList := by
  simp [isKeyPrefix, Text.mem_trim (c := ':') rfl]

theorem checkKeyPrefix_eq_error (h : checkKeyPrefix given = .error r) :
    r = .keyPrefix ∧ ∃ text, given = some text ∧ (Text.trim text = "" ∨ ':' ∈ text.toList) := by
  cases given with
  | none => cases h
  | some text =>
    simp only [checkKeyPrefix, isKeyPrefix_trim] at h
    split at h
    · cases h
    · next hunfit =>
      cases h
      refine ⟨rfl, text, rfl, ?_⟩
      by_contra hfit
      exact hunfit (not_or.1 hfit)

theorem checkKeyPrefix_eq_ok {kept : Option String} (h : checkKeyPrefix given = .ok kept) :
    kept = given.map Text.trim ∧
      ∀ text, given = some text → Text.trim text ≠ "" ∧ ':' ∉ text.toList := by
  cases given with
  | none =>
    cases h
    exact ⟨rfl, nofun⟩
  | some text =>
    simp only [checkKeyPrefix, isKeyPrefix_trim] at h
    split at h
    · next hfit =>
      cases h
      refine ⟨rfl, ?_⟩
      rintro _ ⟨⟩
      exact hfit
    · cases h

theorem checkPositive_eq_error {default : Nat} {given : Option Nat} (hdefault : 0 < default)
    (h : checkPositive key default given = .error r) : r = .zero key ∧ given = some 0 := by
  unfold checkPositive at h
  split at h
  · next hzero =>
    cases h
    cases given with
    | none => exact absurd hzero (Nat.ne_of_gt hdefault)
    | some n => exact ⟨rfl, congrArg some hzero⟩
  · cases h

theorem checkPositive_eq_ok {default n : Nat} {given : Option Nat}
    (h : checkPositive key default given = .ok n) : 0 < n ∧ given ≠ some 0 := by
  unfold checkPositive at h
  split at h
  · cases h
  · next hpositive =>
    cases h
    refine ⟨Nat.pos_of_ne_zero hpositive, ?_⟩
    rintro rfl
    exact hpositive rfl

end Checks

/-! ## Drafts -/

theorem ok_of_bind {ε α β : Type} {x : Except ε α} {f : α → Except ε β} {b : β}
    (h : (x >>= f) = .ok b) : ∃ a, x = .ok a ∧ f a = .ok b := by
  cases x with
  | error e => cases h
  | ok a => exact ⟨a, rfl, h⟩

theorem error_of_bind {ε α β : Type} {x : Except ε α} {f : α → Except ε β} {e : ε}
    (h : (x >>= f) = .error e) : x = .error e ∨ ∃ a, x = .ok a ∧ f a = .error e := by
  cases x with
  | error e' =>
    cases h
    exact .inl rfl
  | ok a => exact .inr ⟨a, rfl, h⟩

section Drafts

variable {d : Draft} {r : Refusal}

theorem Draft.fault_of_folder {key default : String} {given : Option String}
    (hgiven : (key, given) ∈ d.namedFolders) (hdefault : IsFolderName default)
    (h : checkFolder key default given = .error r) : d.Fault r := by
  obtain ⟨text, rfl, ⟨rfl, hempty⟩ | ⟨rfl, hnested⟩⟩ := checkFolder_eq_error hdefault h
  · exact .emptyFolder hgiven hempty
  · exact .nestedFolder (List.mem_cons_of_mem _ hgiven) hnested

theorem checkFolders_eq_error (h : checkFolders d = .error r) : d.Fault r := by
  rcases error_of_bind h with h | ⟨views, -, h⟩
  · exact Draft.fault_of_folder (by simp [Draft.namedFolders]) (by decide) h
  rcases error_of_bind h with h | ⟨areas, -, h⟩
  · exact Draft.fault_of_folder (by simp [Draft.namedFolders]) (by decide) h
  rcases error_of_bind h with h | ⟨partials, -, h⟩
  · exact Draft.fault_of_folder (by simp [Draft.namedFolders]) (by decide) h
  rcases error_of_bind h with h | ⟨layouts, -, h⟩
  · exact Draft.fault_of_folder (by simp [Draft.namedFolders]) (by decide) h
  rcases error_of_bind h with h | ⟨shared, -, h⟩
  · obtain ⟨rfl, text, hgiven, hnested⟩ := checkOptionalFolder_eq_error (by decide) h
    exact .nestedFolder (by simp [Draft.folders, hgiven]) hnested
  · cases h

theorem checkFolders_eq_ok {names : FolderNames} (h : checkFolders d = .ok names) :
    names.Proper ∧
      (∀ key text, (key, some text) ∈ d.namedFolders → IsFolderName (Text.trim text)) ∧
      ∀ text, d.sharedFolder = some text → '/' ∉ text.toList := by
  obtain ⟨views, hviews, h⟩ := ok_of_bind h
  obtain ⟨areas, hareas, h⟩ := ok_of_bind h
  obtain ⟨partials, hpartials, h⟩ := ok_of_bind h
  obtain ⟨layouts, hlayouts, h⟩ := ok_of_bind h
  obtain ⟨shared, hshared, h⟩ := ok_of_bind h
  cases h
  obtain ⟨hviews, hviews'⟩ := checkFolder_eq_ok hviews
  obtain ⟨hareas, hareas'⟩ := checkFolder_eq_ok hareas
  obtain ⟨hpartials, hpartials'⟩ := checkFolder_eq_ok hpartials
  obtain ⟨hlayouts, hlayouts'⟩ := checkFolder_eq_ok hlayouts
  obtain ⟨hshared, hshared'⟩ := checkOptionalFolder_eq_ok hshared
  refine ⟨⟨hviews, hareas, hpartials, hlayouts, hshared⟩, fun key text hgiven => ?_,
    fun text htext => ?_⟩
  · simp only [Draft.namedFolders, List.mem_cons, Prod.mk.injEq, List.not_mem_nil, or_false]
      at hgiven
    rcases hgiven with ⟨-, hgiven⟩ | ⟨-, hgiven⟩ | ⟨-, hgiven⟩ | ⟨-, hgiven⟩
    · exact hviews' text hgiven.symm ▸ hviews
    · exact hareas' text hgiven.symm ▸ hareas
    · exact hpartials' text hgiven.symm ▸ hpartials
    · exact hlayouts' text hgiven.symm ▸ hlayouts
  · rw [hshared' text htext, slash_mem_trim] at hshared
    exact hshared

/-- Every timing is more than nothing. -/
structure IsPositive (t : Timings) : Prop where
  poll : 0 < t.pollMs
  missingRetry : 0 < t.missingRetryMs
  missingSliding : 0 < t.missingSlidingSecs
  viewRecheck : 0 < t.viewRecheckMs
  compileFailureRetry : 0 < t.compileFailureRetryMs
  sweep : 0 < t.sweepMs

theorem Draft.fault_of_timing {key : String} {default : Nat} {given : Option Nat}
    (hgiven : (key, given) ∈ d.timings) (hdefault : 0 < default)
    (h : checkPositive key default given = .error r) : d.Fault r := by
  obtain ⟨rfl, rfl⟩ := checkPositive_eq_error hdefault h
  exact .zero hgiven

theorem checkTimings_eq_error (h : checkTimings d = .error r) : d.Fault r := by
  rcases error_of_bind h with h | ⟨poll, -, h⟩
  · exact Draft.fault_of_timing (by simp [Draft.timings]) (by decide) h
  rcases error_of_bind h with h | ⟨missingRetry, -, h⟩
  · exact Draft.fault_of_timing (by simp [Draft.timings]) (by decide) h
  rcases error_of_bind h with h | ⟨missingSliding, -, h⟩
  · exact Draft.fault_of_timing (by simp [Draft.timings]) (by decide) h
  rcases error_of_bind h with h | ⟨viewRecheck, -, h⟩
  · exact Draft.fault_of_timing (by simp [Draft.timings]) (by decide) h
  rcases error_of_bind h with h | ⟨compileFailureRetry, -, h⟩
  · exact Draft.fault_of_timing (by simp [Draft.timings]) (by decide) h
  rcases error_of_bind h with h | ⟨sweep, -, h⟩
  · exact Draft.fault_of_timing (by simp [Draft.timings]) (by decide) h
  · cases h

theorem checkTimings_eq_ok {t : Timings} (h : checkTimings d = .ok t) :
    IsPositive t ∧ ∀ key, (key, some 0) ∉ d.timings := by
  obtain ⟨poll, hpoll, h⟩ := ok_of_bind h
  obtain ⟨missingRetry, hmissingRetry, h⟩ := ok_of_bind h
  obtain ⟨missingSliding, hmissingSliding, h⟩ := ok_of_bind h
  obtain ⟨viewRecheck, hviewRecheck, h⟩ := ok_of_bind h
  obtain ⟨compileFailureRetry, hcompileFailureRetry, h⟩ := ok_of_bind h
  obtain ⟨sweep, hsweep, h⟩ := ok_of_bind h
  cases h
  obtain ⟨hpoll, hpoll'⟩ := checkPositive_eq_ok hpoll
  obtain ⟨hmissingRetry, hmissingRetry'⟩ := checkPositive_eq_ok hmissingRetry
  obtain ⟨hmissingSliding, hmissingSliding'⟩ := checkPositive_eq_ok hmissingSliding
  obtain ⟨hviewRecheck, hviewRecheck'⟩ := checkPositive_eq_ok hviewRecheck
  obtain ⟨hcompileFailureRetry, hcompileFailureRetry'⟩ := checkPositive_eq_ok hcompileFailureRetry
  obtain ⟨hsweep, hsweep'⟩ := checkPositive_eq_ok hsweep
  refine ⟨⟨hpoll, hmissingRetry, hmissingSliding, hviewRecheck, hcompileFailureRetry, hsweep⟩,
    fun key hgiven => ?_⟩
  simp only [Draft.timings, List.mem_cons, Prod.mk.injEq, eq_comm (a := some 0), hpoll',
    hmissingRetry', hmissingSliding', hviewRecheck', hcompileFailureRetry', hsweep', and_false,
    List.not_mem_nil, or_self] at hgiven

/-- **A draft is refused for a fault that it has.** -/
theorem ofDraft_eq_error (h : ofDraft d = .error r) : d.Fault r := by
  rcases error_of_bind h with h | ⟨logLevel, -, h⟩
  · obtain ⟨rfl, text, hgiven, hunparsable⟩ := checkLogLevel_eq_error h
    exact .logLevel hgiven hunparsable
  rcases error_of_bind h with h | ⟨folders, -, h⟩
  · exact checkFolders_eq_error h
  rcases error_of_bind h with h | ⟨extension, -, h⟩
  · obtain ⟨text, hgiven, rfl, hundotted⟩ :=
      checkExtension_eq_error (isExtension_iff.1 (by decide)) h
    exact .extension hgiven hundotted
  rcases error_of_bind h with h | ⟨keyPrefix, -, h⟩
  · obtain ⟨rfl, text, hgiven, hunfit⟩ := checkKeyPrefix_eq_error h
    exact .keyPrefix hgiven hunfit
  rcases error_of_bind h with h | ⟨timings, -, h⟩
  · exact checkTimings_eq_error h
  · cases h

/-- What checks leave: names that folders can be put together from, an extension, a prefix that can
stand in front of keys, and timings that are more than nothing. -/
structure Sound (s : Settings) : Prop where
  folders : s.folders.Proper
  extension : IsDottedName s.extension
  keyPrefix : ∀ text, s.keyPrefix = some text → text ≠ "" ∧ ':' ∉ text.toList
  timings : IsPositive s.timings

/-- **A draft without a fault is accepted**, and what is made of it is sound. -/
theorem ofDraft_eq_ok {s : Settings} (h : ofDraft d = .ok s) : s.Sound ∧ ∀ r, ¬d.Fault r := by
  obtain ⟨logLevel, hlogLevel, h⟩ := ok_of_bind h
  obtain ⟨folders, hfolders, h⟩ := ok_of_bind h
  obtain ⟨extension, hextension, h⟩ := ok_of_bind h
  obtain ⟨keyPrefix, hkeyPrefix, h⟩ := ok_of_bind h
  obtain ⟨timings, htimings, h⟩ := ok_of_bind h
  cases h
  obtain ⟨hproper, hnamed, hshared⟩ := checkFolders_eq_ok hfolders
  obtain ⟨hdotted, hextension'⟩ := checkExtension_eq_ok hextension
  obtain ⟨rfl, hfit⟩ := checkKeyPrefix_eq_ok hkeyPrefix
  obtain ⟨hpositive, hnonzero⟩ := checkTimings_eq_ok htimings
  refine ⟨⟨hproper, hdotted, fun text htext => ?_, hpositive⟩, fun r hfault => ?_⟩
  · obtain ⟨given, hgiven, rfl⟩ := Option.map_eq_some_iff.1 htext
    obtain ⟨hne, hcolon⟩ := hfit given hgiven
    exact ⟨hne, fun hmem => hcolon ((Text.mem_trim rfl given).1 hmem)⟩
  · cases hfault with
    | logLevel given unparsable =>
      rw [checkLogLevel_eq_ok hlogLevel _ given] at unparsable
      cases unparsable
    | emptyFolder given empty => exact (hnamed _ _ given).1 empty
    | nestedFolder given nested =>
      rcases List.mem_cons.1 given with hgiven | hgiven
      · exact hshared _ (Prod.mk.inj hgiven).2.symm nested
      · exact (hnamed _ _ hgiven).2 (slash_mem_trim.2 nested)
    | extension given undotted => exact undotted (hextension' _ given ▸ hdotted)
    | keyPrefix given unfit => exact unfit.elim (hfit _ given).1 (hfit _ given).2
    | zero given => exact hnonzero _ given

end Drafts

/-! ## Engines -/

theorem checkOptions_of_sound {s : Settings} (h : s.Sound) :
    Engine.checkOptions s.engineOptions = .ok () := by
  obtain ⟨name, hname, hne, -⟩ := h.extension
  have hsize := (utf8ByteSize_of_cons hname).2 hne
  have hprefix : s.keyPrefix ≠ some "" := fun hsome => (h.keyPrefix "" hsome).1 rfl
  simp [Engine.checkOptions, engineOptions, hname, hprefix, Nat.not_lt.2 hsize]

/-- An engine takes what the checks leave, and keeps to the prefix if there is one. -/
theorem create_of_sound {W : Type} {s : Settings} (h : s.Sound) (source : Source W)
    (site : Template.Library) (now : Instant) (session : Session Entry (Poller W) W) :
    ∃ keys session', Engine.create source site s.engineOptions now session =
      (.ok ⟨source, site, s.engineOptions, keys⟩, session') ∧
        ∀ text, s.keyPrefix = some text → keys = ⟨text⟩ := by
  unfold Engine.create
  rw [checkOptions_of_sound h]
  cases hprefix : s.keyPrefix with
  | none =>
    simp only [engineOptions, hprefix]
    exact ⟨_, _, rfl, nofun⟩
  | some text =>
    simp only [engineOptions, hprefix]
    refine ⟨⟨text⟩, _, rfl, ?_⟩
    rintro _ ⟨⟩
    rfl

/-- **Accepted settings always make a working engine.** Whatever is given in the draft and on the
command line, what the checks accept an engine accepts too, over any source and at any time, with
just these options; all timings are more than nothing, a prefix is a text without a colon, and for
every group every folder for views, layouts and partials starts at the root, ends in a slash, and
has nothing empty in it. The checks refuse a draft if and only if there is a fault in it: a log
level that cannot be read; the name of a folder with a slash, or an empty one that is not of the
shared folder; an extension that is not a dot and a name; a blank prefix or one with a colon; a
timing of nothing. The refusal names a fault of the draft. -/
theorem accepted_settings_work (draft : Draft) (overrides : Overrides) :
    let d := draft.override overrides
    (∀ s, ofDraft d = .ok s →
      (∀ (W : Type) (source : Source W) (site : Template.Library) (now : Instant)
        (session : Session Entry (Poller W) W), ∃ keys session',
          Engine.create source site s.engineOptions now session =
            (.ok ⟨source, site, s.engineOptions, keys⟩, session') ∧
          ∀ text, s.keyPrefix = some text → keys = ⟨text⟩) ∧
      IsPositive s.timings ∧
      (∀ text, s.keyPrefix = some text → text ≠ "" ∧ ':' ∉ text.toList) ∧
      ∀ area controller g, Group.make area controller = .ok g →
        ∀ folder ∈ s.folders.viewFolders g ++ s.folders.layoutFolders g ++
          s.folders.partialFolders g, IsFolderPath folder) ∧
    ((∃ r, ofDraft d = .error r) ↔ ∃ r, d.Fault r) ∧
    ∀ r, ofDraft d = .error r → d.Fault r := by
  intro d
  refine ⟨fun s hs => ?_, ⟨fun ⟨r, hr⟩ => ⟨r, ofDraft_eq_error hr⟩, fun ⟨r, hfault⟩ => ?_⟩,
    fun r => ofDraft_eq_error⟩
  · obtain ⟨h, -⟩ := ofDraft_eq_ok hs
    refine ⟨fun W source site now session => create_of_sound h source site now session, h.timings,
      h.keyPrefix, fun area controller g hg folder hfolder => ?_⟩
    have hnamed : g.WellNamed := ⟨area, controller, hg⟩
    rcases List.mem_append.1 hfolder with hfolder | hfolder
    · rcases List.mem_append.1 hfolder with hfolder | hfolder
      · exact (h.folders.viewFolders hnamed folder hfolder).isFolderPath
      · exact (h.folders.special hnamed h.folders.layouts folder hfolder).isFolderPath
    · exact (h.folders.special hnamed h.folders.partials folder hfolder).isFolderPath
  · cases hs : ofDraft d with
    | error r' => exact ⟨r', rfl⟩
    | ok s => exact absurd hfault ((ofDraft_eq_ok hs).2 r)

/-- Folders of other names, no shared folder, and an extension without its dot. -/
def renamed : Draft :=
  { viewsFolder := some " Pages ", sharedFolder := some " ", extension := some "html",
    keyPrefix := some "site " }

/-- The command line puts the extension right. -/
def withDot : Overrides := { extension := some ".html" }

theorem ofDraft_renamed : ofDraft (renamed.override withDot) = .ok
    { folders := { views := "Pages", shared := "" }, extension := ".html",
      keyPrefix := some "site" } := by
  decide +kernel

theorem accepted_settings_work_renamed :
    (∃ s, ofDraft (renamed.override withDot) = .ok s ∧
      (∃ keys session', Engine.create Memory.source {} s.engineOptions 0
          ⟨{ epoch := 0, flag := ⟨0⟩ }, { world := { push := true } }⟩ =
        (.ok ⟨Memory.source, {}, s.engineOptions, keys⟩, session') ∧ keys = ⟨"site"⟩) ∧
      IsPositive s.timings ∧ IsFolderPath "~/Areas/Admin/Pages/Home/_Partials/") ∧
    ∃ r, (renamed.override {}).Fault r ∧ ofDraft (renamed.override {}) = .error r := by
  obtain ⟨haccepted, -, -⟩ := accepted_settings_work renamed withDot
  obtain ⟨hengine, hpositive, -, hfolders⟩ := haccepted _ ofDraft_renamed
  obtain ⟨keys, session', hcreate, hkeys⟩ := hengine Memory Memory.source {} 0
    ⟨{ epoch := 0, flag := ⟨0⟩ }, { world := { push := true } }⟩
  obtain ⟨-, -, hfault⟩ := accepted_settings_work renamed {}
  refine ⟨⟨_, ofDraft_renamed, ⟨keys, session', hcreate, hkeys "site" rfl⟩, hpositive,
    hfolders "Admin" "Home" ⟨"Admin", "Home"⟩ (by decide +kernel) _ (by decide +kernel)⟩,
    .extension "html", ?_, by decide +kernel⟩
  exact hfault _ (by decide +kernel)

end Settings

end Templating
