import Mathlib.Data.List.Sort
import Templating.Proofs.Sorted
import Templating.Source.Memory

/-!
# What a folder of files in memory holds

Files in memory are kept in ascending order, and a folder is read off as the stretch of paths that
start with its name. `listing` is the same without the order: the paths that lie in the folder
itself (`Memory.list_eq_listing`). From it follows what later proofs use: a folder's listing depends
on the paths below the folder alone (`listing_congr`), and no path lies in two folders
(`folder_unique`).
-/

namespace Templating

/-! ## Prefixes and their order -/

theorem Text.startsWith_iff {mark s : String} :
    Text.startsWith mark s = true ↔ mark.toList <+: s.toList := by
  unfold Text.startsWith
  rw [Option.isSome_iff_exists]
  apply exists_congr
  intro rest
  rw [Text.dropMark_eq_some]
  exact eq_comm

theorem not_lt_of_prefix {a b : List Char} (h : a <+: b) : ¬b < a := by
  induction a generalizing b with
  | nil => exact List.not_lt_nil b
  | cons c a ih =>
    obtain ⟨rest, rfl⟩ := h
    rw [List.cons_append, List.cons_lt_cons_iff]
    rintro (hlt | ⟨-, hlt⟩)
    · exact lt_irrefl c hlt
    · exact ih (List.prefix_append a rest) hlt

/-- What lies between a text and a continuation of it continues it too. -/
theorem prefix_of_between {a b c : List Char} (hab : ¬b < a) (hbc : b < c) (h : a <+: c) :
    a <+: b := by
  induction a generalizing b c with
  | nil => exact List.nil_prefix
  | cons x a ih =>
    obtain ⟨rest, rfl⟩ := h
    cases b with
    | nil => exact absurd (List.nil_lt_cons x a) hab
    | cons y b =>
      rw [List.cons_append, List.cons_lt_cons_iff] at hbc
      rw [List.cons_lt_cons_iff, not_or] at hab
      rcases hbc with hlt | ⟨rfl, hlt⟩
      · exact absurd hlt hab.1
      · have hrest : ¬b < a := fun hba => hab.2 ⟨rfl, hba⟩
        exact List.cons_prefix_cons.2 ⟨rfl, ih hrest hlt (List.prefix_append a rest)⟩

theorem takeWhile_startsWith {folder : String} {paths : List String}
    (h : paths.Pairwise (· < ·)) (hfrom : ∀ p ∈ paths, ¬p < folder) :
    paths.takeWhile (Text.startsWith folder) = paths.filter (Text.startsWith folder) := by
  induction paths with
  | nil => rfl
  | cons p paths ih =>
    obtain ⟨hfirst, hrest⟩ := List.pairwise_cons.1 h
    rw [List.takeWhile_cons, List.filter_cons]
    cases hp : Text.startsWith folder p with
    | true =>
      rw [if_pos rfl, if_pos rfl, ih hrest fun q hq => hfrom q (List.mem_cons_of_mem _ hq)]
    | false =>
      -- Nothing behind `p` starts with `folder` either, since `p` would lie between.
      have hnone : ∀ q ∈ paths, ¬Text.startsWith folder q = true := by
        intro q hq hstart
        have hprefix := prefix_of_between (hfrom p List.mem_cons_self) (hfirst q hq)
          (Text.startsWith_iff.1 hstart)
        rw [Text.startsWith_iff.2 hprefix] at hp
        cases hp
      rw [if_neg Bool.false_ne_true, if_neg Bool.false_ne_true, List.filter_eq_nil_iff.2 hnone]

theorem stretch_eq_filter {folder : String} {paths : List String} (h : paths.Pairwise (· < ·)) :
    (paths.dropWhile (decide <| · < folder)).takeWhile (Text.startsWith folder) =
      paths.filter (Text.startsWith folder) := by
  induction paths with
  | nil => rfl
  | cons p paths ih =>
    rw [List.dropWhile_cons]
    by_cases hp : p < folder
    · have hnot : ¬Text.startsWith folder p = true := fun hstart =>
        not_lt_of_prefix (Text.startsWith_iff.1 hstart) hp
      rw [if_pos (decide_eq_true hp), ih (List.pairwise_cons.1 h).2, List.filter_cons, if_neg hnot]
    · rw [if_neg (by simpa using hp)]
      apply takeWhile_startsWith h
      intro q hq
      rcases List.mem_cons.1 hq with rfl | hq
      · exact hp
      · exact fun hlt => hp (lt_trans ((List.pairwise_cons.1 h).1 q hq) hlt)

/-- Ascending lists with the same members are the same. -/
theorem eq_of_ascending {l l' : List String} (h : l.Pairwise (· < ·)) (h' : l'.Pairwise (· < ·))
    (hmem : ∀ p, p ∈ l ↔ p ∈ l') : l = l' := by
  have hnodup : l.Nodup := h.imp ne_of_lt
  have hnodup' : l'.Nodup := h'.imp ne_of_lt
  have hperm : l.Perm l' := (List.perm_ext_iff_of_nodup hnodup hnodup').2 hmem
  exact hperm.eq_of_pairwise (fun a b _ _ hab hba => absurd hab (lt_asymm hba)) h h'

/-- To sort paths none of which is there twice makes them ascend. -/
theorem pairwise_sorted {paths : List String} (h : paths.Nodup) :
    (paths.mergeSort fun a b => decide (a ≤ b)).Pairwise (· < ·) := by
  have hsorted : (paths.mergeSort fun a b => decide (a ≤ b)).Pairwise
      fun a b => decide (a ≤ b) = true := by
    apply List.pairwise_mergeSort
    · intro a b c hab hbc
      exact decide_eq_true (le_trans (of_decide_eq_true hab) (of_decide_eq_true hbc))
    · intro a b
      rw [Bool.or_eq_true, decide_eq_true_iff, decide_eq_true_iff]
      exact le_total a b
  have hnodup := (List.mergeSort_perm paths fun a b => decide (a ≤ b)).nodup_iff.2 h
  exact (hsorted.and hnodup).imp fun ⟨hle, hne⟩ => lt_of_le_of_ne (of_decide_eq_true hle) hne

/-! ## Folders -/

/-- The paths of the files. -/
abbrev pathsOf (files : List (String × String)) : List String := files.map Prod.fst

/-- The files that lie in a folder, written with its slash, and not deeper. -/
def listing (files : List (String × String)) (folder : String) : List String :=
  (pathsOf files).filter (Memory.isDirectChild folder)

theorem isDirectChild_iff {folder path : String} :
    Memory.isDirectChild folder path = true ↔
      ∃ rest, path.toList = folder.toList ++ rest ∧ '/' ∉ rest := by
  unfold Memory.isDirectChild Text.stripStart
  rw [Option.any_map, Option.any_eq_true_iff_get]
  constructor
  · rintro ⟨hsome, hslash⟩
    have hdrop := Text.dropMark_eq_some.1 (Option.some_get hsome).symm
    exact ⟨_, hdrop, by simpa using hslash⟩
  · rintro ⟨rest, happend, hslash⟩
    have hdrop := Text.dropMark_eq_some.2 happend
    refine ⟨by rw [hdrop]; rfl, ?_⟩
    simpa [hdrop] using hslash

theorem startsWith_of_isDirectChild {folder path : String}
    (h : Memory.isDirectChild folder path = true) : Text.startsWith folder path = true := by
  obtain ⟨rest, happend, -⟩ := isDirectChild_iff.1 h
  exact Text.startsWith_iff.2 ⟨rest, happend.symm⟩

/-- The stretch of paths that is read off has in it all that start with the name. -/
theorem Memory.below_eq_filter (m : Memory) (h : Sorted.Ascending m.files) (folder : String) :
    m.below folder = (pathsOf m.files).filter (Text.startsWith folder) :=
  stretch_eq_filter h.pairwise_keys

theorem Memory.list_eq_listing (m : Memory) (h : Sorted.Ascending m.files) (folder : String) :
    m.list folder = listing m.files (asFolder folder) := by
  unfold Memory.list listing
  rw [m.below_eq_filter h, List.filter_filter]
  apply List.filter_congr
  intro p _
  cases hchild : Memory.isDirectChild (asFolder folder) p with
  | false => rfl
  | true => rw [startsWith_of_isDirectChild hchild, Bool.and_true]

/-- A folder that is not there has no files. -/
theorem Memory.list_of_not_isFolder (m : Memory) {folder : String} (h : m.isFolder folder = false) :
    m.list folder = [] := by
  unfold Memory.isFolder at h
  unfold Memory.list
  have hnil : m.below (asFolder folder) = [] := by simpa using h
  rw [hnil]
  rfl

theorem mem_pathsOf {files : List (String × String)} {path : String} :
    path ∈ pathsOf files ↔ (files.lookup path).isSome = true := by
  rw [← not_iff_not, ← lookup_eq_none, Bool.not_eq_true, Option.isSome_eq_false_iff,
    Option.isNone_iff_eq_none]

/-- **A folder is there** if and only if some file's path starts with its name. -/
theorem Memory.isFolder_iff (m : Memory) (h : Sorted.Ascending m.files) (folder : String) :
    m.isFolder folder = true ↔ ∃ path, (m.files.lookup path).isSome = true ∧
      Text.startsWith (asFolder folder) path = true := by
  unfold Memory.isFolder
  rw [m.below_eq_filter h, Bool.not_eq_true', List.isEmpty_eq_false_iff_exists_mem]
  apply exists_congr
  intro path
  rw [List.mem_filter, mem_pathsOf]

theorem mem_listing {files : List (String × String)} {folder path : String} :
    path ∈ listing files folder ↔
      (files.lookup path).isSome = true ∧ Memory.isDirectChild folder path = true := by
  rw [listing, List.mem_filter, mem_pathsOf]

theorem pairwise_listing {files : List (String × String)} (h : Sorted.Ascending files)
    (folder : String) : (listing files folder).Pairwise (· < ·) :=
  h.pairwise_keys.filter _

/-- The listing of a folder depends on the files below it. -/
theorem listing_congr {files files' : List (String × String)} (h : Sorted.Ascending files)
    (h' : Sorted.Ascending files') {folder : String}
    (hsame : ∀ p, Text.startsWith folder p = true →
      ((files.lookup p).isSome = true ↔ (files'.lookup p).isSome = true)) :
    listing files folder = listing files' folder := by
  apply eq_of_ascending (pairwise_listing h folder) (pairwise_listing h' folder)
  intro p
  rw [mem_listing, mem_listing]
  apply and_congr_left
  intro hchild
  exact hsame p (startsWith_of_isDirectChild hchild)

/-! ## A path lies in one folder -/

/-- The text ends in a slash. -/
def EndsInSlash (folder : String) : Prop := ∃ stem, folder.toList = stem ++ ['/']

theorem asFolder_of_endsInSlash {folder : String} (h : EndsInSlash folder) :
    asFolder folder = folder := by
  obtain ⟨stem, hstem⟩ := h
  unfold asFolder
  rw [hstem, List.getLast?_concat, if_pos rfl]

theorem endsInSlash_append (stem : String) : EndsInSlash (stem ++ "/") :=
  ⟨stem.toList, String.toList_append⟩

theorem toList_fileName {path : String} {stem rest : List Char}
    (h : path.toList = stem ++ ['/'] ++ rest) (hslash : '/' ∉ rest) :
    (fileName path).toList = rest := by
  have htake : path.toList.reverse.takeWhile (· != '/') = rest.reverse := by
    rw [h, List.reverse_append, List.reverse_append, List.takeWhile_append_of_pos]
    · simp
    · intro c hc
      have hmem : c ∈ rest := List.mem_reverse.1 hc
      exact bne_iff_ne.2 fun heq => hslash (heq ▸ hmem)
  rw [fileName, String.toList_ofList, htake, List.reverse_reverse]

/-- No file lies in two folders. -/
theorem folder_unique {folder folder' path : String} (h : EndsInSlash folder)
    (h' : EndsInSlash folder') (hchild : Memory.isDirectChild folder path = true)
    (hchild' : Memory.isDirectChild folder' path = true) : folder = folder' := by
  obtain ⟨rest, happend, hslash⟩ := isDirectChild_iff.1 hchild
  obtain ⟨rest', happend', hslash'⟩ := isDirectChild_iff.1 hchild'
  obtain ⟨stem, hstem⟩ := h
  obtain ⟨stem', hstem'⟩ := h'
  have hrest : rest = rest' := by
    rw [← toList_fileName (hstem ▸ happend) hslash, ← toList_fileName (hstem' ▸ happend') hslash']
  rw [happend, hrest] at happend'
  exact String.toList_inj.1 (List.append_cancel_right happend')

end Templating
