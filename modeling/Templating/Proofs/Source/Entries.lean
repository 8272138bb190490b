import Templating.Proofs.ByteOrder
import Templating.Proofs.Source.Formed

/-!
# What a folder lists

A folder lists the entries that are files themselves (`Directory.append_mem_list_iff`); whether
there is a file at a path is asked of what the entry leads to. So both agree on everything but
links (`Directory.listed_iff_isFile`): a link to a file can be read and is not listed
(`Directory.link_unlisted`).
-/

namespace Templating

open Text (bytes)

namespace Directory

variable {d : Directory}

/-! ## Listings -/

theorem pairwise_list (hdistinct : (d.tree.nodes.map Prod.fst).Nodup) (path : String) :
    (d.list path).Pairwise (· < ·) := by
  unfold list
  split
  · next inner _ =>
    exact pairwise_sorted ((Tree.nodup_fileNames hdistinct d.root inner).map
      fun name other heq => (String.append_right_inj _).1 heq)
  · exact .nil

theorem mem_list_iff (hdistinct : (d.tree.nodes.map Prod.fst).Nodup) {path other : String} :
    other ∈ d.list path ↔ ∃ inner name place content, resolve path = .ok inner ∧
      d.tree.find d.root inner = .ok (.folder place) ∧
      d.tree.node? (place ++ [name]) = some (.file content) ∧ other = asFolder path ++ name := by
  unfold list
  cases hresolve : resolve path with
  | error fault => simp
  | ok inner =>
    simp only [List.mem_mergeSort, List.mem_map, Tree.mem_fileNames_iff hdistinct]
    constructor
    · rintro ⟨name, ⟨place, content, hfind, hnode⟩, rfl⟩
      exact ⟨inner, name, place, content, rfl, hfind, hnode, rfl⟩
    · rintro ⟨inner', name, place, content, heq, hfind, hnode, rfl⟩
      cases heq
      exact ⟨name, ⟨place, content, hfind, hnode⟩, rfl⟩

/-! ## Entries of a folder -/

/-- The node that a folder has under a name. Of a link it is the link itself. -/
def entry? (d : Directory) (folder name : String) : Option Node :=
  match d.tree.find d.root (relative folder) with
  | .ok (.folder place) => d.tree.node? (place ++ [name])
  | _ => none

theorem entry?_of_find {folder : String} {place : List String}
    (h : d.tree.find d.root (relative folder) = .ok (.folder place)) (name : String) :
    d.entry? folder name = d.tree.node? (place ++ [name]) := by
  unfold entry?
  rw [h]

section Canonical

variable {folder name : String} (hfolder : IsCanonical folder)
include hfolder

/-- A canonical path leads to a folder if its names do. -/
theorem find_eq_folder_iff {place : List String} :
    d.tree.find d.root (relative folder) = .ok (.folder place) ↔
      Tree.isUsable (relative folder) = true ∧
        d.tree.follow Tree.maxLinks d.root (stepsOf folder) = .ok (.folder place) := by
  rw [Tree.find_eq_ok_iff hfolder.not_startsWith_slash]
  apply and_congr_right
  intro _
  rcases hfolder.split_relative with hsplit | hsplit
  · rw [hsplit]
  · rw [hsplit, Tree.follow_blank]
    rcases d.tree.follow Tree.maxLinks d.root (stepsOf folder) with fault | ⟨at', content⟩ | at' <;>
      simp

/-- **What is listed** are the entries that are files. -/
theorem append_mem_list_iff (hdistinct : (d.tree.nodes.map Prod.fst).Nodup) :
    asFolder folder ++ name ∈ d.list folder ↔
      ∃ content, d.entry? folder name = some (.file content) := by
  rw [mem_list_iff hdistinct]
  constructor
  · rintro ⟨inner, other, place, content, hresolve, hfind, hnode, happend⟩
    cases hfolder.resolve_eq.symm.trans hresolve
    obtain rfl := (String.append_right_inj _).1 happend
    exact ⟨content, (entry?_of_find hfind name).trans hnode⟩
  · rintro ⟨content, hentry⟩
    unfold entry? at hentry
    split at hentry
    · next place hfind =>
      exact ⟨_, name, place, content, hfolder.resolve_eq, hfind, hentry, rfl⟩
    · cases hentry

theorem split_relative_append (hslash : '/' ∉ name.toList) :
    Text.split '/' (relative (asFolder folder ++ name)) = stepsOf folder ++ [name] := by
  obtain ⟨hpath, hsteps⟩ := hfolder.asFolder_spec
  rw [hpath.split_append, hsteps, Text.split_of_not_mem hslash]

variable (hname : IsInward name)
include hname

/-- An entry that is a file is found behind the names of its folder. -/
theorem follow_of_entry (hformed : d.tree.Formed) {content : ByteArray}
    (hentry : d.entry? folder name = some (.file content)) :
    ∃ place, d.tree.follow Tree.maxLinks d.root (stepsOf folder ++ [name]) =
      .ok (.file place content) := by
  unfold entry? at hentry
  split at hentry
  · next place hfind =>
    obtain ⟨-, hfollow⟩ := (find_eq_folder_iff hfolder).1 hfind
    obtain ⟨left, -, hnext⟩ := Tree.follow_append_of_folder hfollow (List.cons_ne_nil name [])
    have hsome : (d.tree.node? (place ++ [name])).isSome = true := by rw [hentry]; rfl
    have hnew : Tree.isNewName name = true :=
      hformed.isNewName_of_isSome hsome name (List.mem_append_right _ List.mem_cons_self)
    refine ⟨place ++ [name], ?_⟩
    rw [hnext, Tree.follow_cons _ _ _ hname, if_neg (not_lt.2 (Tree.isNewName_iff.1 hnew).2),
      hentry]
    rfl
  · cases hentry

/-- A file that is found behind the names of a folder is an entry of the folder, or what a link
leads to. -/
theorem entry_of_follow (husable : Tree.isUsable (relative folder) = true) {place : List String}
    {content : ByteArray}
    (hfollow : d.tree.follow Tree.maxLinks d.root (stepsOf folder ++ [name]) =
      .ok (.file place content)) :
    (∃ found, d.entry? folder name = some (.file found)) ∨
      ∃ target, d.entry? folder name = some (.link target) := by
  obtain ⟨parent, hparent⟩ := Tree.folder_of_follow_append hfollow (List.cons_ne_nil name [])
  obtain ⟨left, -, hnext⟩ := Tree.follow_append_of_folder hparent (List.cons_ne_nil name [])
  rw [entry?_of_find ((find_eq_folder_iff hfolder).2 ⟨husable, hparent⟩)]
  rw [hnext] at hfollow
  rcases Tree.follow_cons_ok hname hfollow with
    ⟨-, hfollow⟩ | ⟨found, hnode, -, -⟩ | ⟨target, hnode⟩
  · simp only [Tree.follow] at hfollow
    cases hfollow
  · exact .inl ⟨found, hnode⟩
  · exact .inr ⟨target, hnode⟩

variable (hslash : '/' ∉ name.toList)
include hslash

/-- With a name behind it a folder's path is that of a file. -/
theorem isFilePath_append : IsFilePath (asFolder folder ++ name) where
  marked := hfolder.asFolder_spec.1.marked name
  inward other hmem := by
    rw [split_relative_append hfolder hslash] at hmem
    rcases List.mem_append.1 hmem with hmem | hmem
    · exact hfolder.isInward other hmem
    · rwa [List.mem_singleton.1 hmem]

theorem isFile_append_iff :
    d.isFile (asFolder folder ++ name) = true ↔
      Tree.isUsable (relative (asFolder folder ++ name)) = true ∧ ∃ place content,
        d.tree.follow Tree.maxLinks d.root (stepsOf folder ++ [name]) =
          .ok (.file place content) := by
  have hpath : IsCanonical (asFolder folder ++ name) :=
    .inl (isFilePath_append hfolder hname hslash)
  have hfind (e : Tree.End) : d.tree.find d.root (relative (asFolder folder ++ name)) = .ok e ↔
      Tree.isUsable (relative (asFolder folder ++ name)) = true ∧
        d.tree.follow Tree.maxLinks d.root (stepsOf folder ++ [name]) = .ok e := by
    rw [Tree.find_eq_ok_iff hpath.not_startsWith_slash, split_relative_append hfolder hslash]
  unfold isFile Tree.isFile
  rw [hpath.resolve_eq]
  simp only
  constructor
  · intro hfile
    split at hfile
    · next place content hfound =>
      obtain ⟨husable, hfollow⟩ := (hfind _).1 hfound
      exact ⟨husable, place, content, hfollow⟩
    · cases hfile
  · rintro ⟨husable, place, content, hfollow⟩
    rw [(hfind _).2 ⟨husable, hfollow⟩]

end Canonical

/-- **A file is listed where it is found**, but for links. The path of an entry is listed and can be
asked for just if there is a file at it and the entry is not a link. Listings ascend by bytes, and
nothing is listed twice. -/
theorem listed_iff_isFile {d : Directory} (hformed : d.tree.Formed) {folder : String}
    (hfolder : IsCanonical folder) {name : String} (hname : IsInward name)
    (hslash : '/' ∉ name.toList) :
    (asFolder folder ++ name ∈ d.list folder ∧
        Tree.isUsable (relative (asFolder folder ++ name)) = true ↔
      d.isFile (asFolder folder ++ name) = true ∧
        ∀ target, d.entry? folder name ≠ some (.link target)) ∧
    (d.list folder).Pairwise fun a b => bytes a < bytes b := by
  refine ⟨?_, (pairwise_list hformed.distinct folder).imp Text.lt_iff_bytes_lt.1⟩
  rw [append_mem_list_iff hfolder hformed.distinct, isFile_append_iff hfolder hname hslash]
  constructor
  · rintro ⟨⟨content, hentry⟩, husable⟩
    obtain ⟨place, hfollow⟩ := follow_of_entry hfolder hname hformed hentry
    refine ⟨⟨husable, place, content, hfollow⟩, fun target hlink => ?_⟩
    cases hentry.symm.trans hlink
  · rintro ⟨⟨husable, place, content, hfollow⟩, hlink⟩
    refine ⟨?_, husable⟩
    obtain hfile | ⟨target, hentry⟩ :=
      entry_of_follow hfolder hname (hfolder.isUsable_of_append husable) hfollow
    · exact hfile
    · exact absurd hentry (hlink target)

/-! ### A link beside its file -/

/-- A folder with a file in it and a link to this file. -/
def aliased : Directory where
  root := ["root"]
  tree := ⟨[(["root"], .folder), (["root", "real.hbs"], .file "text".toUTF8),
    (["root", "alias.hbs"], .link ["root", "real.hbs"])]⟩

theorem formed_aliased : aliased.tree.Formed := ⟨by decide, by decide⟩

theorem entry?_aliased (name : String) :
    aliased.entry? "~/" name = aliased.tree.node? ["root", name] := by
  have hfind : aliased.tree.find aliased.root (relative "~/") = .ok (.folder ["root"]) :=
    (find_eq_folder_iff (.inr .root)).2 ⟨by decide, Tree.follow.eq_1 _ _ _⟩
  exact entry?_of_find hfind name

/-- The link is followed to the file. -/
theorem follow_alias :
    aliased.tree.follow Tree.maxLinks aliased.root ["alias.hbs"] =
      .ok (.file ["root", "real.hbs"] "text".toUTF8) := by
  have hroot : aliased.tree.node? ([] ++ ["root"]) = some .folder := rfl
  have hreal : aliased.tree.node? ([] ++ ["root"] ++ ["real.hbs"]) =
      some (.file "text".toUTF8) := rfl
  have halias : aliased.tree.node? (aliased.root ++ ["alias.hbs"]) =
      some (.link ["root", "real.hbs"]) := rfl
  rw [Tree.follow_cons _ _ _ (by decide), if_neg (by decide), halias]
  change aliased.tree.follow 39 [] ["root", "real.hbs"] = _
  rw [Tree.follow_cons _ _ _ (by decide), if_neg (by decide), hroot]
  change aliased.tree.follow 39 ([] ++ ["root"]) ["real.hbs"] = _
  rw [Tree.follow_cons _ _ _ (by decide), if_neg (by decide), hreal]
  rfl

/-- **A link to a file is not listed**, though there is a file at its path. -/
theorem link_unlisted :
    IsCanonical "~/" ∧ IsInward "alias.hbs" ∧ aliased.isFile "~/alias.hbs" = true ∧
      "~/alias.hbs" ∉ aliased.list "~/" := by
  have hroot : IsCanonical "~/" := .inr .root
  have hname : IsInward "alias.hbs" := by decide
  have hfile : aliased.isFile (asFolder "~/" ++ "alias.hbs") = true :=
    (isFile_append_iff hroot hname (by decide)).2 ⟨by decide, _, _, follow_alias⟩
  have hlist : asFolder "~/" ++ "alias.hbs" ∉ aliased.list "~/" := by
    rw [append_mem_list_iff hroot formed_aliased.distinct, entry?_aliased]
    rintro ⟨content, hentry⟩
    cases hentry
  have hpath : asFolder "~/" ++ "alias.hbs" = "~/alias.hbs" := by decide
  rw [hpath] at hfile hlist
  exact ⟨hroot, hname, hfile, hlist⟩

theorem listed_iff_isFile_aliased :
    aliased.tree.Formed ∧ IsCanonical "~/" ∧ IsInward "real.hbs" ∧ '/' ∉ "real.hbs".toList ∧
      ("~/real.hbs" ∈ aliased.list "~/" ↔ aliased.isFile "~/real.hbs" = true) ∧
      "~/real.hbs" ∈ aliased.list "~/" := by
  have hroot : IsCanonical "~/" := .inr .root
  have hname : IsInward "real.hbs" := by decide
  have hslash : '/' ∉ "real.hbs".toList := by decide
  have hpath : asFolder "~/" ++ "real.hbs" = "~/real.hbs" := by decide
  obtain ⟨hiff, -⟩ := listed_iff_isFile formed_aliased hroot hname hslash
  have hlink : ∀ target, aliased.entry? "~/" "real.hbs" ≠ some (.link target) := by
    intro target hentry
    rw [entry?_aliased] at hentry
    cases hentry
  have hlisted : "~/real.hbs" ∈ aliased.list "~/" := by
    rw [← hpath, append_mem_list_iff hroot formed_aliased.distinct, entry?_aliased]
    exact ⟨_, rfl⟩
  have husable : Tree.isUsable (relative "~/real.hbs") = true := by decide
  rw [hpath] at hiff
  exact ⟨formed_aliased, hroot, hname, hslash,
    ⟨fun hmem => (hiff.1 ⟨hmem, husable⟩).1, fun hfile => (hiff.2 ⟨hfile, hlink⟩).1⟩, hlisted⟩

end Directory

end Templating
