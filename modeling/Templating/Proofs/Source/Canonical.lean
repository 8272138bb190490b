import Mathlib.Data.List.Basic
import Templating.Folders
import Templating.Proofs.Source.Listing
import Templating.Source.Directory

/-!
# Canonical paths

The canonical path of a file is the root mark and names with slashes between them, none of them
empty, `.` or `..`; the canonical path of a folder is the root mark alone, or the path of a file
with a slash behind. Such a path is one and the same thing as the names that it leads along
(`stepsOf`): no two paths of files lead along the same names (`IsFilePath.stepsOf_inj`), and a file
lies below a folder if its names continue those of the folder (`IsFolderPath.eq_append_iff`).
-/

namespace Templating

/-! ## Taking a text apart -/

namespace Text

theorem splitChars_eq_splitOn (sep : Char) (cs : List Char) :
    splitChars sep cs = cs.splitOn sep := by
  induction cs with
  | nil => rfl
  | cons c cs ih =>
    rw [splitChars, List.splitOn_cons_eq_if_modifyHead, ih]
    by_cases h : c = sep
    · rw [if_pos h, if_pos (beq_iff_eq.2 h)]
    · rw [if_neg h, if_neg (mt beq_iff_eq.1 h)]
      cases hparts : cs.splitOn sep with
      | nil => exact absurd hparts (List.splitOn_ne_nil sep cs)
      | cons part parts => rfl

theorem splitChars_inj {sep : Char} {cs cs' : List Char}
    (h : splitChars sep cs = splitChars sep cs') : cs = cs' := by
  rw [splitChars_eq_splitOn, splitChars_eq_splitOn] at h
  have hjoined : [sep].intercalate (cs.splitOn sep) = cs := List.intercalate_splitOn sep
  rw [← hjoined, h, List.intercalate_splitOn]

theorem not_mem_of_mem_splitChars {sep : Char} {cs part : List Char}
    (h : part ∈ splitChars sep cs) : sep ∉ part := by
  fun_induction splitChars sep cs generalizing part with
  | case1 =>
    rw [List.mem_singleton.1 h]
    exact List.not_mem_nil
  | case2 cs ih =>
    rcases List.mem_cons.1 h with rfl | h
    · exact List.not_mem_nil
    · exact ih h
  | case3 c cs hc hparts ih =>
    rw [List.mem_singleton.1 h]
    simpa using Ne.symm hc
  | case4 c cs hc part parts hparts ih =>
    rw [hparts] at ih
    rcases List.mem_cons.1 h with rfl | h
    · simpa using ⟨Ne.symm hc, ih List.mem_cons_self⟩
    · exact ih (List.mem_cons_of_mem _ h)

theorem split_ne_nil (sep : Char) (s : String) : split sep s ≠ [] := by
  rw [split, splitChars_eq_splitOn]
  exact mt List.map_eq_nil_iff.1 (List.splitOn_ne_nil sep _)

theorem split_inj {sep : Char} {s s' : String} (h : split sep s = split sep s') : s = s' := by
  have hparts : splitChars sep s.toList = splitChars sep s'.toList :=
    List.map_injective_iff.2 (fun _ _ heq => String.ofList_inj.1 heq) h
  exact String.toList_inj.1 (splitChars_inj hparts)

theorem split_append_sep (sep : Char) (s rest : String) :
    split sep (s ++ String.ofList [sep] ++ rest) = split sep s ++ split sep rest := by
  have hchars : (s ++ String.ofList [sep] ++ rest).toList = s.toList ++ sep :: rest.toList := by
    simp
  rw [split, split, split, hchars]
  simp only [splitChars_eq_splitOn]
  rw [List.splitOn_append_cons_self, List.map_append]

theorem split_of_not_mem {sep : Char} {s : String} (h : sep ∉ s.toList) : split sep s = [s] := by
  rw [split, splitChars_eq_splitOn, List.splitOn_eq_singleton h, List.map_singleton,
    String.ofList_toList]

theorem not_mem_of_mem_split {sep : Char} {s part : String} (h : part ∈ split sep s) :
    sep ∉ part.toList := by
  obtain ⟨chars, hmem, rfl⟩ := List.mem_map.1 h
  rw [String.toList_ofList]
  exact not_mem_of_mem_splitChars hmem

/-- Names without the separator are the parts of some text. -/
theorem exists_split {sep : Char} {names : List String} (hne : names ≠ [])
    (h : ∀ name ∈ names, sep ∉ name.toList) : ∃ s, split sep s = names := by
  refine ⟨String.ofList ([sep].intercalate (names.map String.toList)), ?_⟩
  have hparts : ∀ part ∈ names.map String.toList, sep ∉ part := by
    intro part hpart
    obtain ⟨name, hname, rfl⟩ := List.mem_map.1 hpart
    exact h name hname
  rw [split, String.toList_ofList, splitChars_eq_splitOn,
    List.splitOn_intercalate sep hparts (mt List.map_eq_nil_iff.1 hne), List.map_map]
  exact List.map_id'' (fun _ => String.ofList_toList) names

theorem startsWith_iff_append {mark s : String} :
    startsWith mark s = true ↔ ∃ rest, s = mark ++ rest := by
  rw [startsWith_iff]
  constructor
  · rintro ⟨rest, hrest⟩
    exact ⟨String.ofList rest, String.toList_inj.1 (by simp [hrest])⟩
  · rintro ⟨rest, rfl⟩
    exact ⟨rest.toList, String.toList_append.symm⟩

theorem stripStart_append (mark rest : String) : stripStart mark (mark ++ rest) = some rest := by
  rw [stripStart, dropMark_eq_some.2 String.toList_append, Option.map_some, String.ofList_toList]

end Text

theorem isDirectChild_iff_append {folder path : String} :
    Memory.isDirectChild folder path = true ↔
      ∃ name, path = folder ++ name ∧ '/' ∉ name.toList := by
  rw [isDirectChild_iff]
  constructor
  · rintro ⟨rest, happend, hslash⟩
    refine ⟨String.ofList rest, String.toList_inj.1 (by simp [happend]), ?_⟩
    rwa [String.toList_ofList]
  · rintro ⟨name, rfl, hslash⟩
    exact ⟨name.toList, String.toList_append, hslash⟩

/-! ## Canonical paths -/

/-- A name that leads further in. -/
structure IsInward (name : String) : Prop where
  nonempty : name ≠ ""
  moves : name ≠ "."
  inward : name ≠ ".."

instance (name : String) : Decidable (IsInward name) :=
  decidable_of_iff (name ≠ "" ∧ name ≠ "." ∧ name ≠ "..")
    ⟨fun h => ⟨h.1, h.2.1, h.2.2⟩, fun h => ⟨h.1, h.2, h.3⟩⟩

namespace Directory

/-- The names that a path leads along, seen from the folder. -/
def stepsOf (path : String) : List String := Tree.steps (relative path)

/-- The canonical path of a file. -/
structure IsFilePath (path : String) : Prop where
  marked : Text.startsWith rootMark path = true
  inward : ∀ name ∈ Text.split '/' (relative path), IsInward name

instance (path : String) : Decidable (IsFilePath path) :=
  decidable_of_iff (Text.startsWith rootMark path = true ∧
      ∀ name ∈ Text.split '/' (relative path), IsInward name)
    ⟨fun h => ⟨h.1, h.2⟩, fun h => ⟨h.1, h.2⟩⟩

/-- The canonical path of a folder, with the slash at its end. -/
inductive IsFolderPath : String → Prop
  | root : IsFolderPath rootMark
  | below {path : String} : IsFilePath path → IsFolderPath (path ++ "/")

theorem relative_mark (inner : String) : relative (rootMark ++ inner) = inner := by
  have hstrip : Text.stripStart "~/" (rootMark ++ inner) = some inner :=
    Text.stripStart_append rootMark inner
  rw [relative, hstrip, Option.getD_some]

theorem eq_mark_relative {path : String} (h : Text.startsWith rootMark path = true) :
    path = rootMark ++ relative path := by
  obtain ⟨inner, rfl⟩ := Text.startsWith_iff_append.1 h
  rw [relative_mark]

/-- Inward names all count as steps. -/
theorem filter_inward {names : List String} (h : ∀ name ∈ names, IsInward name) :
    (names.filter fun name => name != "" && name != ".") = names := by
  apply List.filter_eq_self.2
  intro name hmem
  have hname := h name hmem
  simp [hname.nonempty, hname.moves]

theorem stepsOf_rootMark : stepsOf rootMark = [] := rfl

namespace IsFilePath

variable {path path' : String} (h : IsFilePath path)
include h

theorem split_relative : Text.split '/' (relative path) = stepsOf path :=
  (filter_inward h.inward).symm

theorem isInward : ∀ name ∈ stepsOf path, IsInward name := h.split_relative ▸ h.inward

theorem stepsOf_ne_nil : stepsOf path ≠ [] := h.split_relative ▸ Text.split_ne_nil '/' _

/-- **A path of a file is known by its names.** -/
theorem stepsOf_inj (h' : IsFilePath path') (heq : stepsOf path = stepsOf path') :
    path = path' := by
  rw [← h.split_relative, ← h'.split_relative] at heq
  rw [eq_mark_relative h.marked, eq_mark_relative h'.marked, Text.split_inj heq]

theorem split_below (rest : String) :
    Text.split '/' (relative (path ++ "/" ++ rest)) = stepsOf path ++ Text.split '/' rest := by
  have hpath : path ++ "/" ++ rest = rootMark ++ (relative path ++ "/" ++ rest) := by
    conv_lhs => rw [eq_mark_relative h.marked]
    simp only [String.append_assoc]
  have hsep : "/" = String.ofList ['/'] := rfl
  rw [hpath, relative_mark, hsep, Text.split_append_sep, h.split_relative]

/-- The folder that has the name of the file is reached along the same names. -/
theorem stepsOf_below : stepsOf (path ++ "/") = stepsOf path := by
  have hsplit := h.split_below ""
  rw [String.append_empty] at hsplit
  rw [stepsOf, Tree.steps, hsplit, List.filter_append, filter_inward h.isInward]
  exact List.append_nil _

theorem asFolder_eq : asFolder path = path ++ "/" := by
  apply if_neg
  intro hlast
  obtain ⟨stem, hstem⟩ := List.getLast?_eq_some_iff.1 hlast
  have hinner : rootMark.toList ++ (relative path).toList = stem ++ ['/'] := by
    rw [← String.toList_append, ← eq_mark_relative h.marked, hstem]
  -- A slash at the end leaves an empty name behind it.
  have hempty : "" ∈ Text.split '/' (relative path) := by
    rcases List.eq_nil_or_concat (relative path).toList with hnil | ⟨front, c, hfront⟩
    · rw [String.toList_eq_nil_iff.1 hnil]
      exact List.mem_cons_self
    · rw [List.concat_eq_append] at hfront
      have hc : c = '/' := by
        rw [hfront, ← List.append_assoc] at hinner
        exact List.singleton_inj.1 (List.append_inj_right' hinner rfl)
      have hends : relative path = String.ofList front ++ String.ofList ['/'] ++ "" := by
        apply String.toList_inj.1
        simp [hfront, hc]
      rw [hends, Text.split_append_sep]
      exact List.mem_append_right _ List.mem_cons_self
  exact (h.inward "" hempty).nonempty rfl

end IsFilePath

namespace IsFolderPath

variable {folder path : String} (h : IsFolderPath folder)
include h

theorem marked (rest : String) : Text.startsWith rootMark (folder ++ rest) = true := by
  cases h with
  | root => exact Text.startsWith_iff_append.2 ⟨rest, rfl⟩
  | @below path hpath =>
    obtain ⟨inner, rfl⟩ := Text.startsWith_iff_append.1 hpath.marked
    exact Text.startsWith_iff_append.2 ⟨inner ++ "/" ++ rest, by simp only [String.append_assoc]⟩

theorem split_append (rest : String) :
    Text.split '/' (relative (folder ++ rest)) = stepsOf folder ++ Text.split '/' rest := by
  cases h with
  | root => rw [relative_mark, stepsOf_rootMark, List.nil_append]
  | below hpath => rw [hpath.split_below, hpath.stepsOf_below]

theorem split_relative : Text.split '/' (relative folder) = stepsOf folder ++ [""] := by
  have happend := h.split_append ""
  rwa [String.append_empty] at happend

theorem isInward : ∀ name ∈ stepsOf folder, IsInward name := by
  cases h with
  | root =>
    rw [stepsOf_rootMark]
    exact fun _ hmem => absurd hmem List.not_mem_nil
  | below hpath =>
    rw [hpath.stepsOf_below]
    exact hpath.isInward

theorem asFolder_eq : asFolder folder = folder := by
  apply asFolder_of_endsInSlash
  cases h with
  | root => exact ⟨['~'], rfl⟩
  | below hpath => exact endsInSlash_append _

/-- **What is below a folder** continues its names. -/
theorem eq_append_iff (hpath : IsFilePath path) (rest : String) :
    path = folder ++ rest ↔ stepsOf path = stepsOf folder ++ Text.split '/' rest := by
  rw [← hpath.split_relative, ← h.split_append]
  constructor
  · rintro rfl
    rfl
  · intro hsplit
    rw [eq_mark_relative hpath.marked, Text.split_inj hsplit, ← eq_mark_relative (h.marked rest)]

theorem startsWith_of_stepsOf (hpath : IsFilePath path) {rest : List String} (hne : rest ≠ [])
    (hsteps : stepsOf path = stepsOf folder ++ rest) : Text.startsWith folder path = true := by
  have hslash : ∀ name ∈ rest, '/' ∉ name.toList := by
    intro name hmem
    apply Text.not_mem_of_mem_split (s := relative path)
    rw [hpath.split_relative, hsteps]
    exact List.mem_append_right _ hmem
  obtain ⟨inner, hinner⟩ := Text.exists_split hne hslash
  apply Text.startsWith_iff_append.2
  exact ⟨inner, (h.eq_append_iff hpath inner).2 (by rw [hinner, hsteps])⟩

theorem not_isFilePath : ¬IsFilePath folder := by
  intro hfile
  have hempty : "" ∈ Text.split '/' (relative folder) := by
    rw [h.split_relative]
    exact List.mem_append_right _ List.mem_cons_self
  exact (hfile.inward "" hempty).nonempty rfl

end IsFolderPath

/-- A canonical path. -/
def IsCanonical (path : String) : Prop := IsFilePath path ∨ IsFolderPath path

namespace IsCanonical

variable {path : String} (h : IsCanonical path)
include h

theorem isInward : ∀ name ∈ stepsOf path, IsInward name := h.elim (·.isInward) (·.isInward)

/-- Behind the names of a folder's path there is an empty one. -/
theorem split_relative : Text.split '/' (relative path) = stepsOf path ∨
    Text.split '/' (relative path) = stepsOf path ++ [""] :=
  h.imp (·.split_relative) (·.split_relative)

theorem not_startsWith_slash : Text.startsWith "/" (relative path) = false := by
  apply Bool.eq_false_iff.2
  intro hslash
  obtain ⟨rest, hrest⟩ := Text.startsWith_iff_append.1 hslash
  have hsplit : Text.split '/' (relative path) = "" :: Text.split '/' rest := by
    have hempty := Text.split_append_sep '/' "" rest
    rwa [String.empty_append, show String.ofList ['/'] = "/" from rfl, ← hrest] at hempty
  obtain hsteps | hsteps := h.split_relative <;> rw [hsteps] at hsplit
  · exact (h.isInward "" (by rw [hsplit]; exact List.mem_cons_self)).nonempty rfl
  · cases hnames : stepsOf path with
    | nil =>
      rw [hnames] at hsplit
      exact Text.split_ne_nil '/' rest (List.tail_eq_of_cons_eq hsplit).symm
    | cons name names =>
      rw [hnames] at hsplit
      have hname : name = "" := List.head_eq_of_cons_eq hsplit
      exact (h.isInward name (by rw [hnames]; exact List.mem_cons_self)).nonempty hname

/-- A canonical path does not lead out of the folder. -/
theorem resolve_eq : resolve path = .ok (relative path) := by
  have hup : ".." ∉ Text.split '/' (relative path) := by
    intro hmem
    obtain hsteps | hsteps := h.split_relative <;> rw [hsteps] at hmem
    · exact (h.isInward ".." hmem).inward rfl
    · rcases List.mem_append.1 hmem with hmem | hmem
      · exact (h.isInward ".." hmem).inward rfl
      · exact absurd (List.mem_singleton.1 hmem) (by decide)
  have hescapes : escapes (relative path) = false := by
    rw [escapes, h.not_startsWith_slash, Bool.false_or]
    simpa using hup
  rw [resolve, hescapes]
  rfl

/-- With a slash at its end the path is that of a folder, with the same names. -/
theorem asFolder_spec :
    IsFolderPath (asFolder path) ∧ stepsOf (asFolder path) = stepsOf path := by
  rcases h with hfile | hfolder
  · rw [hfile.asFolder_eq]
    exact ⟨.below hfile, hfile.stepsOf_below⟩
  · rw [hfolder.asFolder_eq]
    exact ⟨hfolder, rfl⟩

/-- A path can be asked for if one behind it can. -/
theorem isUsable_of_append {rest : String}
    (husable : Tree.isUsable (relative (asFolder path ++ rest)) = true) :
    Tree.isUsable (relative path) = true := by
  have hmarked : Text.startsWith rootMark path = true := by
    rcases h with hfile | hfolder
    · exact hfile.marked
    · have hempty := hfolder.marked ""
      rwa [String.append_empty] at hempty
  obtain ⟨tail, htail⟩ : ∃ tail, asFolder path ++ rest = path ++ tail := by
    rcases h with hfile | hfolder
    · exact ⟨"/" ++ rest, by rw [hfile.asFolder_eq, String.append_assoc]⟩
    · exact ⟨rest, by rw [hfolder.asFolder_eq]⟩
  rw [htail, eq_mark_relative hmarked, String.append_assoc, relative_mark] at husable
  simp only [Tree.isUsable, Bool.and_eq_true, Bool.not_eq_true', decide_eq_true_iff,
    String.toList_append, String.utf8ByteSize_append, List.contains_append, Bool.or_eq_false_iff]
    at husable ⊢
  exact ⟨husable.1.1, by omega⟩

end IsCanonical

end Directory

end Templating
