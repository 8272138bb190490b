import Templating.Engine.Partials
import Templating.Proofs.Casing
import Templating.Proofs.Cutting
import Templating.Proofs.Source.Canonical

/-!
# Extensions and the names of partials

A path carries an extension if it is something followed by the extension in some case
(`hasExtension_iff`). A file name can be such that as many bytes as the extension has cannot be cut
off without splitting a character. `ByBytes` finds extensions and names by positions in the bytes,
where a wrong position is a failure: it never comes to that (`ByBytes.hasExtension?_eq`,
`ByBytes.partialName?_eq`). An extension without a slash is one of the file name alone, and what is
left of the file name is the name of the partial but for spaces and hyphens (`Parting.respelt`).
-/

namespace Templating

open Text (Recased splitAt?)

/-! ## Extensions -/

/-- The path is something followed by the extension in some case. -/
def EndsAs (extension path : String) : Prop :=
  ∃ stem tail, path = stem ++ tail ∧ Recased tail extension

section Extension

variable {extension path stem tail : String}

theorem withoutExtension?_append (h : tail.utf8ByteSize = extension.utf8ByteSize) :
    withoutExtension? extension (stem ++ tail) =
      if Text.sameIgnoringCase tail extension then some stem else none := by
  have hcut : Text.cutAfter stem.utf8ByteSize (stem ++ tail).toList =
      some (stem.toList, tail.toList) :=
    Text.cutAfter_eq_some_iff.2 ⟨String.toList_append, String.utf8Len_toList stem⟩
  have hsize : (stem ++ tail).utf8ByteSize = stem.utf8ByteSize + extension.utf8ByteSize := by
    rw [String.utf8ByteSize_append, h]
  rw [withoutExtension?, hsize, if_pos (Nat.le_add_left ..), Nat.add_sub_cancel, hcut]
  simp only [String.ofList_toList]

/-- A path that does not end in that many bytes of whole characters does not carry the extension. -/
theorem withoutExtension?_of_uncut
    (h : ∀ stem tail, path = stem ++ tail → tail.utf8ByteSize ≠ extension.utf8ByteSize) :
    withoutExtension? extension path = none := by
  unfold withoutExtension?
  split
  · next hle =>
    split
    · next front back hcut =>
      obtain ⟨happend, hlen⟩ := Text.cutAfter_eq_some_iff.1 hcut
      have hpath : path = String.ofList front ++ String.ofList back := by
        rw [← String.ofList_append, ← happend, String.ofList_toList]
      have hsize := congrArg String.utf8ByteSize hpath
      rw [String.utf8ByteSize_append, String.utf8ByteSize_ofList, hlen] at hsize
      exact absurd (by omega) (h _ _ hpath)
    · rfl
  · rfl

theorem withoutExtension?_eq_some_iff :
    withoutExtension? extension path = some stem ↔
      ∃ tail, path = stem ++ tail ∧ Recased tail extension := by
  constructor
  · intro h
    by_cases hcut : ∃ front tail, path = front ++ tail ∧ tail.utf8ByteSize = extension.utf8ByteSize
    · obtain ⟨front, tail, rfl, hsize⟩ := hcut
      rw [withoutExtension?_append hsize] at h
      split at h
      · next hsame =>
        cases h
        exact ⟨tail, rfl, Text.sameIgnoringCase_iff_recased.1 hsame⟩
      · cases h
    · have hnone : withoutExtension? extension path = none :=
        withoutExtension?_of_uncut fun front tail happend hsize =>
          hcut ⟨front, tail, happend, hsize⟩
      cases hnone.symm.trans h
  · rintro ⟨tail, rfl, hsame⟩
    rw [withoutExtension?_append hsame.utf8ByteSize_eq,
      if_pos (Text.sameIgnoringCase_iff_recased.2 hsame)]

theorem hasExtension_iff : hasExtension extension path = true ↔ EndsAs extension path := by
  rw [hasExtension, Option.isSome_iff_exists]
  exact exists_congr fun stem => withoutExtension?_eq_some_iff

end Extension

/-! ## The same by bytes -/

namespace ByBytes

/-- The byte of a text at which an extension would start. The extension must not be longer. -/
def start? (extension text : String) : Option Nat :=
  if extension.utf8ByteSize ≤ text.utf8ByteSize then
    some (text.utf8ByteSize - extension.utf8ByteSize)
  else none

/-- Whether a path carries an extension. It is split only where a character starts. -/
def hasExtension? (extension path : String) : Option Bool :=
  if extension.utf8ByteSize ≤ path.utf8ByteSize then do
    let start ← start? extension path
    if (String.Pos.Raw.mk start).isValid path then
      let (_, tail) ← splitAt? start path
      return Text.sameBytesIgnoringCase tail extension
    else return false
  else return false

/-- The name of a partial. The extension is split off where the file name carries it. -/
def partialName? (extension path : String) : Option String := do
  let file := fileName path
  let stem ←
    if ← hasExtension? extension file then do
      let (stem, _) ← splitAt? (← start? extension file) file
      pure stem
    else pure file
  return String.ofList (stem.toList.map underscored)

theorem start?_append {extension stem tail : String}
    (h : tail.utf8ByteSize = extension.utf8ByteSize) :
    start? extension (stem ++ tail) = some stem.utf8ByteSize := by
  rw [start?, String.utf8ByteSize_append, h, if_pos (Nat.le_add_left ..), Nat.add_sub_cancel]

/-- **No split fails** when an extension is looked for. -/
theorem hasExtension?_eq (extension path : String) :
    hasExtension? extension path = some (hasExtension extension path) := by
  by_cases hcut : ∃ stem tail, path = stem ++ tail ∧ tail.utf8ByteSize = extension.utf8ByteSize
  · obtain ⟨stem, tail, rfl, hsize⟩ := hcut
    have hle : extension.utf8ByteSize ≤ (stem ++ tail).utf8ByteSize := by
      rw [String.utf8ByteSize_append, hsize]
      exact Nat.le_add_left ..
    have hvalid : (String.Pos.Raw.mk stem.utf8ByteSize).isValid (stem ++ tail) = true :=
      String.Pos.Raw.isValid_eq_true_iff.2 (Text.isValid_iff.2 ⟨stem, tail, rfl, rfl⟩)
    rw [hasExtension?, if_pos hle, start?_append hsize, hasExtension, withoutExtension?_append hsize]
    simp only [Option.bind_eq_bind, Option.bind_some, hvalid, if_true, Text.splitAt?_append,
      Text.sameBytesIgnoringCase_eq]
    cases Text.sameIgnoringCase tail extension <;> rfl
  · have huncut : ∀ stem tail, path = stem ++ tail →
        tail.utf8ByteSize ≠ extension.utf8ByteSize := fun stem tail happend hsize =>
      hcut ⟨stem, tail, happend, hsize⟩
    rw [hasExtension, withoutExtension?_of_uncut huncut, hasExtension?]
    split
    · next hle =>
      -- What is behind a start of a character there would have as many bytes as the extension.
      have hinvalid : (String.Pos.Raw.mk (path.utf8ByteSize - extension.utf8ByteSize)).isValid path =
          false := by
        refine Bool.eq_false_iff.2 fun hvalid => ?_
        obtain ⟨stem, tail, happend, hsize⟩ :=
          Text.isValid_iff.1 (String.Pos.Raw.isValid_eq_true_iff.1 hvalid)
        have htotal := congrArg String.utf8ByteSize happend
        rw [String.utf8ByteSize_append] at htotal
        exact huncut stem tail happend (by omega)
      rw [start?, if_pos hle]
      simp only [Option.bind_eq_bind, Option.bind_some, hinvalid]
      rfl
    · rfl

/-- **No split fails** when a partial is named. -/
theorem partialName?_eq (extension path : String) :
    partialName? extension path = some (partialName extension path) := by
  unfold partialName? partialName
  simp only [hasExtension?_eq, Option.bind_eq_bind, Option.bind_some, hasExtension]
  cases hstem : withoutExtension? extension (fileName path) with
  | none => rfl
  | some stem =>
    obtain ⟨tail, hfile, hsame⟩ := withoutExtension?_eq_some_iff.1 hstem
    rw [hfile, start?_append hsame.utf8ByteSize_eq]
    simp only [Option.isSome_some, if_true, Option.bind_some, Text.splitAt?_append]
    rfl

end ByBytes

/-! ## File names -/

theorem fileName_append {front rest : String} (h : '/' ∉ rest.toList) :
    fileName (front ++ rest) = fileName front ++ rest := by
  have hall : ∀ c ∈ rest.toList.reverse, (c != '/') = true := fun c hc =>
    bne_iff_ne.2 fun heq => h (heq ▸ List.mem_reverse.1 hc)
  apply String.toList_inj.1
  rw [fileName, String.toList_append, List.reverse_append, List.takeWhile_append_of_pos hall,
    List.reverse_append, List.reverse_reverse, String.ofList_append, String.ofList_toList, fileName]

/-- Nothing is behind the slash of a folder. -/
theorem fileName_folder {folder : String} (h : folder = "" ∨ EndsInSlash folder) :
    fileName folder = "" := by
  rcases h with rfl | ⟨stem, hstem⟩
  · rfl
  · exact String.toList_inj.1 (toList_fileName (hstem.trans (List.append_nil _).symm) nofun)

/-- Every path is that of a folder, or nothing, and a file name. -/
theorem exists_folder_append (path : String) : ∃ folder,
    (folder = "" ∨ EndsInSlash folder) ∧ path = folder ++ fileName path ∧
      '/' ∉ (fileName path).toList := by
  let back := path.toList.reverse
  have happend : (back.dropWhile (· != '/')).reverse ++ (back.takeWhile (· != '/')).reverse =
      path.toList := by
    rw [← List.reverse_append, List.takeWhile_append_dropWhile, List.reverse_reverse]
  refine ⟨String.ofList (back.dropWhile (· != '/')).reverse, ?_, ?_, ?_⟩
  · cases hdrop : back.dropWhile (· != '/') with
    | nil => exact .inl rfl
    | cons c rest =>
      have hhead := List.head?_dropWhile_not (· != '/') back
      rw [hdrop] at hhead
      have hc : c = '/' := by simpa using hhead
      exact .inr ⟨rest.reverse, by rw [String.toList_ofList, List.reverse_cons, hc]⟩
  · apply String.toList_inj.1
    rw [String.toList_append, fileName, String.toList_ofList, String.toList_ofList, happend]
  · rw [fileName, String.toList_ofList, List.mem_reverse]
    intro hmem
    exact absurd (List.mem_takeWhile_imp hmem) (by simp)

/-! ## Names of partials -/

/-- A path taken apart: the folder that the file is in, the stem of the file's name, and the
extension as it is spelt there, which is missing where the path does not carry it. -/
structure Parting (extension path folder stem tail : String) : Prop where
  whole : path = folder ++ (stem ++ tail)
  folder : folder = "" ∨ EndsInSlash folder
  file : '/' ∉ (stem ++ tail).toList
  tail : Recased tail extension ∨ tail = "" ∧ ¬EndsAs extension path

/-- The name has an underscore for each space and hyphen, and every other character of the stem. -/
def Respelt (stem name : String) : Prop :=
  List.Forall₂ (fun c d => (c = ' ' ∨ c = '-' → d = '_') ∧ (c ≠ ' ' → c ≠ '-' → d = c))
    stem.toList name.toList

theorem respelt_underscored (stem : String) :
    Respelt stem (String.ofList (stem.toList.map underscored)) := by
  rw [Respelt, String.toList_ofList, List.forall₂_map_right_iff, List.forall₂_same]
  intro c _
  unfold underscored
  exact ⟨fun hc => if_pos hc, fun hspace hhyphen => if_neg (not_or.2 ⟨hspace, hhyphen⟩)⟩

namespace Parting

variable {extension path folder stem tail : String} (h : Parting extension path folder stem tail)
include h

theorem withoutExtension?_getD :
    (withoutExtension? extension (stem ++ tail)).getD (stem ++ tail) = stem := by
  rcases h.tail with hsame | ⟨rfl, hnot⟩
  · rw [withoutExtension?_eq_some_iff.2 ⟨tail, rfl, hsame⟩, Option.getD_some]
  · have hnone : withoutExtension? extension (stem ++ "") = none := by
      refine Option.eq_none_iff_forall_ne_some.2 fun front hsome => hnot ?_
      obtain ⟨tail, happend, hsame⟩ := withoutExtension?_eq_some_iff.1 hsome
      exact ⟨folder ++ front, tail, by rw [h.whole, happend, String.append_assoc], hsame⟩
    rw [hnone, Option.getD_none, String.append_empty]

/-- **A partial is named for the stem** of its file's name. -/
theorem respelt : Respelt stem (partialName extension path) := by
  unfold partialName
  simp only [h.whole, fileName_append h.file, fileName_folder h.folder, String.empty_append,
    h.withoutExtension?_getD]
  exact respelt_underscored stem

end Parting

/-- An extension without a slash is behind the last slash of each path that carries it. -/
theorem exists_parting {extension : String} (hslash : '/' ∉ extension.toList) (path : String) :
    ∃ folder stem tail, Parting extension path folder stem tail := by
  by_cases hends : EndsAs extension path
  · obtain ⟨front, tail, rfl, hsame⟩ := hends
    obtain ⟨folder, hfolder, hfront, hfile⟩ := exists_folder_append front
    have htail : '/' ∉ tail.toList := fun hmem => hslash (hsame.mem_of_mem (by decide) hmem)
    refine ⟨folder, fileName front, tail, ?_, hfolder, ?_, .inl hsame⟩
    · rw [← String.append_assoc, ← hfront]
    · rw [String.toList_append, List.mem_append, not_or]
      exact ⟨hfile, htail⟩
  · obtain ⟨folder, hfolder, hpath, hfile⟩ := exists_folder_append path
    refine ⟨folder, fileName path, "", ?_, hfolder, ?_, .inr ⟨rfl, hends⟩⟩
    · rwa [String.append_empty]
    · rwa [String.append_empty]

/-- **An extension is told exactly, and taken off between characters.** A path carries it if it is
something followed by the extension in some case; no split by bytes fails; and if the extension has
no slash, a partial has the name of its file without it, with underscores for spaces and hyphens. -/
theorem extension_cut_exact (extension path : String) :
    (hasExtension extension path = true ↔ EndsAs extension path) ∧
    ByBytes.hasExtension? extension path = some (hasExtension extension path) ∧
    ByBytes.partialName? extension path = some (partialName extension path) ∧
    ('/' ∉ extension.toList →
      (∃ folder stem tail, Parting extension path folder stem tail) ∧
      ∀ folder stem tail, Parting extension path folder stem tail →
        Respelt stem (partialName extension path)) :=
  ⟨hasExtension_iff, ByBytes.hasExtension?_eq extension path,
    ByBytes.partialName?_eq extension path, fun hslash =>
      ⟨exists_parting hslash path, fun _ _ _ h => h.respelt⟩⟩

/-- The extension is spelt in another case, but for a letter that ASCII does not have. -/
theorem parting_accented : Parting ".ÉX" "~/a-b/Nav Bar-€.Éx" "~/a-b/" "Nav Bar-€" ".Éx" where
  whole := by decide
  folder := .inr ⟨"~/a-b".toList, by decide⟩
  file := by decide
  tail := .inl (by unfold Recased; decide)

theorem extension_cut_exact_accented :
    '/' ∉ ".ÉX".toList ∧ Parting ".ÉX" "~/a-b/Nav Bar-€.Éx" "~/a-b/" "Nav Bar-€" ".Éx" ∧
      Respelt "Nav Bar-€" (partialName ".ÉX" "~/a-b/Nav Bar-€.Éx") := by
  have hslash : '/' ∉ ".ÉX".toList := by decide
  obtain ⟨-, -, -, hname⟩ := extension_cut_exact ".ÉX" "~/a-b/Nav Bar-€.Éx"
  exact ⟨hslash, parting_accented, (hname hslash).2 _ _ _ parting_accented⟩

end Templating
