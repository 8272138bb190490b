import Templating.Proofs.Engine.Reporting
import Templating.Proofs.Source.Entries

/-!
# Files in memory and in a folder

Files in memory and files in a folder of a file tree are kept in quite different ways: the one store
has a list of paths in which folders are implicit, the other a tree in which emptied folders stay.
Asked for canonical paths they cannot be told apart, as long as neither hands out tokens
(`polling_stores_alike`): whatever was written and removed, both find, list and read the same, and
the same partials are scanned. That no path is used for a file and for a folder above another file
is assumed, since a file system does not allow it; and what it cannot hold is written to neither.

The tree stands to the list as `Mirrors` says. Writing and removing a file keeps this
(`Mirrors.write`, `Mirrors.remove`), and each answer of the folder is read off the list
(`Mirrors.isFile_eq`, `Mirrors.list_eq`, `Mirrors.toOption_read`, `Mirrors.toOption_fingerprint`).
-/

namespace Templating

open Directory (IsFilePath IsFolderPath IsCanonical stepsOf)

theorem Text.Utf8.decode_toUTF8 (s : String) : decode s.toUTF8 = .ok s := by
  have hdecode : String.fromUTF8? s.toUTF8 = some s := by
    unfold String.fromUTF8?
    have hvalid : s.toUTF8.IsValidUTF8 := s.isValidUTF8
    rw [dif_pos hvalid]
    rfl
  rw [decode, hdecode]

namespace Directory

/-- Whether the file system can hold a file at a path: no name is too long, and the path can be
asked for. -/
def holds (path : String) : Bool :=
  Tree.isUsable (relative path) && (stepsOf path).all (·.utf8ByteSize ≤ Tree.maxName)

theorem holds_iff {path : String} (h : IsFilePath path) :
    holds path = true ↔
      Tree.isUsable (relative path) = true ∧ ∀ name ∈ stepsOf path, Tree.isNewName name = true := by
  rw [holds, Bool.and_eq_true, List.all_eq_true]
  apply and_congr_right
  intro _
  apply forall₂_congr
  intro name hmem
  rw [decide_eq_true_iff, Tree.isNewName_iff, and_iff_right (h.isInward name hmem)]

end Directory

/-! ## Plain answers -/

theorem Memory.toOption_read (m : Memory) (path : String) :
    (m.read path).toOption = m.files.lookup path := by
  rw [Memory.read]
  cases m.files.lookup path <;> rfl

theorem Memory.toOption_fingerprint (m : Memory) (path : String) :
    ((m.read path).map digest).toOption = (m.files.lookup path).map digest := by
  rw [Memory.read]
  cases m.files.lookup path <;> rfl

/-- A folder that is not there has no files. -/
theorem Memory.list_if_isFolder (m : Memory) (folder : String) :
    (if m.isFolder folder then m.list folder else []) = m.list folder := by
  cases hfolder : m.isFolder folder with
  | true => rfl
  | false => exact (m.list_of_not_isFolder hfolder).symm

theorem Directory.list_if_isFolder (d : Directory) (folder : String) :
    (if d.isFolder folder then d.list folder else []) = d.list folder := by
  unfold Directory.isFolder Directory.list
  cases resolve folder with
  | error _ => rfl
  | ok inner =>
    cases hfolder : d.tree.isFolder d.root inner with
    | true => simp only [hfolder, if_true]
    | false =>
      simp [hfolder, Tree.fileNames_of_not_isFolder hfolder]

/-- The paths of files that a run of changes is about: canonical, and none of them also that of a
folder with another of them in it. -/
structure Apart (used : List String) : Prop where
  canonical : ∀ path ∈ used, IsFilePath path
  apart : ∀ path ∈ used, ∀ other ∈ used, Text.startsWith (path ++ "/") other = false

/-- The folder holds the same files. The folders in it are on the way to some path of `used`. -/
structure Mirrors (used : List String) (d : Directory) (files : List (String × String)) : Prop where
  sheltered : d.tree.Sheltered d.root
  ascending : Sorted.Ascending files
  held : ∀ path, (files.lookup path).isSome = true → path ∈ used ∧ Directory.holds path = true
  file_iff : ∀ path ∈ used, ∀ content,
    d.tree.node? (d.root ++ stepsOf path) = some (.file content) ↔
      (files.lookup path).map String.toUTF8 = some content
  named : ∀ names content, d.tree.node? (d.root ++ names) = some (.file content) →
    ∃ path ∈ used, names = stepsOf path
  folder : ∀ names, d.tree.node? (d.root ++ names) = some .folder →
    names = [] ∨ ∃ path ∈ used, ∃ rest, rest ≠ [] ∧ stepsOf path = names ++ rest

namespace Apart

variable {used : List String} (h : Apart used) {path other : String}
include h

theorem not_below (hpath : path ∈ used) (hother : other ∈ used) {rest : List String}
    (hne : rest ≠ []) : stepsOf other ≠ stepsOf path ++ rest := by
  intro hsteps
  have hfile := h.canonical path hpath
  rw [← hfile.stepsOf_below] at hsteps
  have hstarts := (IsFolderPath.below hfile).startsWith_of_stepsOf (h.canonical other hother) hne
    hsteps
  rw [h.apart path hpath other hother] at hstarts
  cases hstarts

end Apart

namespace Mirrors

variable {used : List String} (hused : Apart used) {d : Directory} {files : List (String × String)}
  (h : Mirrors used d files) {path : String}
include h

/-! ## Changes -/

theorem paved {t : Tree} (hpath : path ∈ used)
    (hpaved : Tree.Paved d.tree t d.root (stepsOf path)) :
    Mirrors used { d with tree := t } files where
  sheltered := hpaved.sheltered
  ascending := h.ascending
  held := h.held
  file_iff other hother content := by
    rw [← h.file_iff other hother, hpaved.file_iff]
  named names content hnode := h.named names content (hpaved.file_iff.1 hnode)
  folder names hnode := by
    cases hold : d.tree.node? (d.root ++ names) with
    | some node =>
      have hkept := hpaved.kept _ _ hold
      rw [hnode] at hkept
      exact h.folder names (hold.trans hkept.symm)
    | none =>
      obtain ⟨-, n, hn, heq⟩ := hpaved.laid _ hold (by rw [hnode]; rfl)
      obtain rfl := List.append_cancel_left heq
      refine .inr ⟨path, hpath, (stepsOf path).drop n, ?_, (List.take_append_drop n _).symm⟩
      exact mt List.drop_eq_nil_iff.1 (by omega)

include hused

theorem put {front : List String} {name : String} (hpath : path ∈ used)
    (hholds : Directory.holds path = true) (hsteps : stepsOf path = front ++ [name])
    (hfront : d.tree.node? (d.root ++ front) = some .folder)
    (hplace : d.tree.node? (d.root ++ front ++ [name]) ≠ some .folder) (content : String) :
    Mirrors used { d with tree := d.tree.put (d.root ++ front ++ [name]) (.file content.toUTF8) }
      (Sorted.put path content files) where
  sheltered := by
    have hname := ((Directory.holds_iff (hused.canonical path hpath)).1 hholds).2 name
      (by rw [hsteps]; exact List.mem_append_right _ List.mem_cons_self)
    exact h.sheltered.put hfront hname (fun _ => nofun) fun hfolder => absurd hfolder hplace
  ascending := h.ascending.put path content
  held other hother := by
    rw [Sorted.lookup_put] at hother
    split at hother
    · next heq => exact heq ▸ ⟨hpath, hholds⟩
    · exact h.held other hother
  file_iff other hother content' := by
    rw [Tree.node?_put _ (Tree.append_singleton_ne_nil _ _), Sorted.lookup_put, List.append_assoc,
      ← hsteps]
    by_cases heq : other = path
    · rw [if_pos heq, heq, if_pos rfl, Option.map_some, Option.some_inj, Option.some_inj,
        Node.file.injEq]
    · have hother' : stepsOf other ≠ stepsOf path := fun hsame =>
        heq ((hused.canonical other hother).stepsOf_inj (hused.canonical path hpath) hsame)
      rw [if_neg heq, if_neg (mt List.append_cancel_left hother'), h.file_iff other hother]
  named names content' hnode := by
    rw [Tree.node?_put _ (Tree.append_singleton_ne_nil _ _), List.append_assoc, ← hsteps] at hnode
    split at hnode
    · next heq => exact ⟨path, hpath, List.append_cancel_left heq⟩
    · exact h.named names content' hnode
  folder names hnode := by
    rw [Tree.node?_put _ (Tree.append_singleton_ne_nil _ _)] at hnode
    split at hnode
    · cases hnode
    · exact h.folder names hnode

theorem filter {front : List String} {name : String} {content : ByteArray}
    (hpath : path ∈ used) (hsteps : stepsOf path = front ++ [name])
    (hnode : d.tree.node? (d.root ++ front ++ [name]) = some (.file content)) :
    Mirrors used
      { d with tree := ⟨d.tree.nodes.filter fun n => n.1 != d.root ++ front ++ [name]⟩ }
      (files.filter fun f => f.1 != path) where
  sheltered := h.sheltered.filter hnode
  ascending := h.ascending.filter _
  held other hother := by
    rw [lookup_filter_key files fun p => p != path] at hother
    split at hother
    · exact h.held other hother
    · cases hother
  file_iff other hother content' := by
    rw [Tree.node?_filter _ (Tree.append_singleton_ne_nil _ _),
      lookup_filter_key files fun p => p != path, List.append_assoc, ← hsteps]
    by_cases heq : other = path
    · simp [heq]
    · have hother' : stepsOf other ≠ stepsOf path := fun hsame =>
        heq ((hused.canonical other hother).stepsOf_inj (hused.canonical path hpath) hsame)
      rw [if_neg (mt List.append_cancel_left hother'), if_pos (bne_iff_ne.2 heq),
        h.file_iff other hother]
  named names content' hnode' := by
    rw [Tree.node?_filter _ (Tree.append_singleton_ne_nil _ _)] at hnode'
    split at hnode'
    · cases hnode'
    · exact h.named names content' hnode'
  folder names hnode' := by
    rw [Tree.node?_filter _ (Tree.append_singleton_ne_nil _ _)] at hnode'
    split at hnode'
    · cases hnode'
    · exact h.folder names hnode'

/-- What the store in memory holds after a write that the file system can hold. -/
theorem write (hpath : path ∈ used) (content : String) :
    Mirrors used (d.write path content.toUTF8)
      (if Directory.holds path then Sorted.put path content files else files) := by
  have hfile := hused.canonical path hpath
  have hinward := hfile.isInward
  split
  · next hholds =>
    obtain ⟨husable, hnames⟩ := (Directory.holds_iff hfile).1 hholds
    obtain ⟨front, name, hsteps⟩ :=
      (List.eq_nil_or_concat' (stepsOf path)).resolve_left hfile.stepsOf_ne_nil
    have hway : ∀ n content, n ≤ front.length →
        d.tree.node? (d.root ++ front.take n) ≠ some (.file content) := by
      intro n content hn hnode
      obtain ⟨other, hother, heq⟩ := h.named _ _ hnode
      have hbelow : stepsOf path = stepsOf other ++ (front.drop n ++ [name]) := by
        rw [hsteps, ← heq, ← List.append_assoc, List.take_append_drop]
      exact hused.not_below hother hpath (Tree.append_singleton_ne_nil _ _) hbelow
    have hplace : d.tree.node? (d.root ++ front ++ [name]) ≠ some .folder := by
      intro hfolder
      rw [List.append_assoc, ← hsteps] at hfolder
      rcases h.folder _ hfolder with hnil | ⟨other, hother, rest, hrest, heq⟩
      · exact hfile.stepsOf_ne_nil hnil
      · exact hused.not_below hpath hother hrest heq
    obtain ⟨t, hpaved, hfront, hplace', hwritten⟩ :=
      h.sheltered.write_accepted hsteps husable hnames hway hplace content.toUTF8
    rw [Directory.write, hwritten]
    exact (h.paved hpath hpaved).put hused hpath hholds hsteps hfront hplace' content
  · next hholds =>
    rw [Directory.holds_iff hfile] at hholds
    exact h.paved hpath (h.sheltered.write_refused hinward hholds content.toUTF8)

/-- What it holds after a removal. -/
theorem remove (hpath : path ∈ used) :
    Mirrors used (d.remove path).2
      (if (files.lookup path).isSome then files.filter fun f => f.1 != path else files) := by
  have hfile := hused.canonical path hpath
  obtain ⟨front, name, hsteps⟩ :=
    (List.eq_nil_or_concat' (stepsOf path)).resolve_left hfile.stepsOf_ne_nil
  have hremoved (t : Tree) : d.tree.remove? d.root (Directory.relative path) = some t ↔ _ :=
    h.sheltered.remove?_eq_some_iff (hfile.split_relative.trans hsteps) hfile.inward
  have hnode (content : ByteArray) := h.file_iff path hpath content
  rw [hsteps, ← List.append_assoc] at hnode
  cases hlookup : files.lookup path with
  | some content =>
    have hheld := (h.held path (by rw [hlookup]; rfl)).2
    have hthere := (hnode content.toUTF8).2 (by rw [hlookup]; rfl)
    have hgone := (hremoved _).2 ⟨((Directory.holds_iff hfile).1 hheld).1, ⟨_, hthere⟩, rfl⟩
    unfold Directory.remove
    rw [hgone]
    exact h.filter hused hpath hsteps hthere
  | none =>
    have hnone : d.tree.remove? d.root (Directory.relative path) = none := by
      rw [Option.eq_none_iff_forall_ne_some]
      intro t hsome
      obtain ⟨-, ⟨content, hthere⟩, -⟩ := (hremoved t).1 hsome
      rw [hnode, hlookup] at hthere
      cases hthere
    unfold Directory.remove
    rw [hnone]
    exact h

/-! ## Answers -/

omit hused in
/-- **Where a canonical path leads.** -/
theorem find_iff (hpath : IsCanonical path) {e : Tree.End} :
    d.tree.find d.root (Directory.relative path) = .ok e ↔
      Tree.isUsable (Directory.relative path) = true ∧ e.place = d.root ++ stepsOf path ∧
        d.tree.node? (d.root ++ stepsOf path) = some e.node ∧
        (IsFolderPath path → e.node = .folder) := by
  rw [Tree.find_eq_ok_iff hpath.not_startsWith_slash]
  apply and_congr_right
  intro _
  rcases hpath with hfile | hfolder
  · have hnot : ¬IsFolderPath path := fun hfolder => hfolder.not_isFilePath hfile
    rw [hfile.split_relative, h.sheltered.follow_iff hfile.isInward]
    simp [hnot]
  · rw [hfolder.split_relative, h.sheltered.follow_blank_iff hfolder.isInward]
    simp [hfolder]

theorem content_iff (hpath : IsFilePath path) {content : ByteArray} :
    d.tree.node? (d.root ++ stepsOf path) = some (.file content) ↔
      (files.lookup path).map String.toUTF8 = some content := by
  constructor
  · intro hnode
    obtain ⟨other, hother, hsteps⟩ := h.named _ _ hnode
    obtain rfl := hpath.stepsOf_inj (hused.canonical other hother) hsteps
    exact (h.file_iff path hother content).1 hnode
  · intro hlookup
    have hsome : (files.lookup path).isSome = true := by
      rw [← Option.isSome_map, hlookup]
      rfl
    exact (h.file_iff path (h.held path hsome).1 content).2 hlookup

theorem toOption_read_tree (hpath : IsCanonical path) :
    (d.tree.read d.root (Directory.relative path)).toOption =
      (files.lookup path).map String.toUTF8 := by
  apply Option.ext
  intro content
  rw [Tree.toOption_read_eq_some_iff]
  constructor
  · rintro ⟨place, hfind⟩
    obtain ⟨-, -, hnode, hfolder⟩ := (h.find_iff hpath).1 hfind
    have hfile : IsFilePath path := hpath.resolve_right fun hfolderPath =>
      nomatch hfolder hfolderPath
    exact (h.content_iff hused hfile).1 hnode
  · intro hlookup
    have hsome : (files.lookup path).isSome = true := by
      rw [← Option.isSome_map, hlookup]
      rfl
    obtain ⟨hmem, hholds⟩ := h.held path hsome
    have hfile := hused.canonical path hmem
    refine ⟨d.root ++ stepsOf path, (h.find_iff hpath).2 ?_⟩
    refine ⟨((Directory.holds_iff hfile).1 hholds).1, rfl, ?_, fun hfolder => ?_⟩
    · exact (h.content_iff hused hfile).2 hlookup
    · exact absurd hfile hfolder.not_isFilePath

theorem isFile_eq (hpath : IsCanonical path) : d.isFile path = (files.lookup path).isSome := by
  unfold Directory.isFile
  rw [hpath.resolve_eq]
  simp only
  rw [Tree.isFile_eq, h.toOption_read_tree hused hpath, Option.isSome_map]

theorem toOption_readBytes (hpath : IsCanonical path) :
    (d.readBytes path).toOption = (files.lookup path).map String.toUTF8 := by
  rw [← h.toOption_read_tree hused hpath, Directory.readBytes, hpath.resolve_eq]
  simp only [bind, Except.bind]
  rcases d.tree.read d.root (Directory.relative path) with fault | content
  · cases fault <;> rfl
  · rfl

theorem toOption_read (hpath : IsCanonical path) :
    (d.read path).toOption = files.lookup path := by
  have hbytes := h.toOption_readBytes hused hpath
  rw [Directory.read]
  cases hread : d.readBytes path with
  | error fault =>
    rw [hread] at hbytes
    exact (Option.map_eq_none_iff.1 hbytes.symm).symm
  | ok bytes =>
    rw [hread] at hbytes
    obtain ⟨content, hlookup, rfl⟩ := Option.map_eq_some_iff.1 hbytes.symm
    rw [hlookup]
    simp only [bind, Except.bind, Text.Utf8.decode_toUTF8]
    rfl

theorem toOption_fingerprint (hpath : IsCanonical path) :
    (d.fingerprint path).toOption = (files.lookup path).map Memory.digest := by
  have hbytes := h.toOption_readBytes hused hpath
  have hdigest : (d.fingerprint path).toOption =
      (d.readBytes path).toOption.map fun bytes => Digest.Sha256.hexDigest bytes.toList := by
    rw [Directory.fingerprint]
    cases d.readBytes path <;> rfl
  rw [hdigest, hbytes]
  cases files.lookup path with
  | none => rfl
  | some content => simp only [Option.map_some, Memory.digest]

/-! ### Listings -/

theorem mem_list_iff (hpath : IsCanonical path) {other : String} :
    other ∈ d.list path ↔ other ∈ listing files (asFolder path) := by
  obtain ⟨hfolder, hsteps⟩ := hpath.asFolder_spec
  rw [mem_listing, Directory.mem_list_iff h.sheltered.distinct]
  constructor
  · rintro ⟨inner, name, place, content, hresolve, hfind, hnode, rfl⟩
    cases hpath.resolve_eq.symm.trans hresolve
    obtain ⟨-, hplace, -⟩ := (h.find_iff hpath).1 hfind
    obtain rfl : place = d.root ++ stepsOf path := hplace
    rw [List.append_assoc] at hnode
    obtain ⟨found, hmem, hfound⟩ := h.named _ _ hnode
    have hfile := hused.canonical found hmem
    have hslash : '/' ∉ name.toList := by
      apply Text.not_mem_of_mem_split (s := Directory.relative found)
      rw [hfile.split_relative, ← hfound]
      exact List.mem_append_right _ List.mem_cons_self
    have heq : found = asFolder path ++ name := by
      rw [hfolder.eq_append_iff hfile, Text.split_of_not_mem hslash, hsteps, hfound]
    rw [← heq]
    refine ⟨?_, isDirectChild_iff_append.2 ⟨name, heq, hslash⟩⟩
    rw [hfound] at hnode
    have hlookup := (h.file_iff found hmem content).1 hnode
    rw [← Option.isSome_map, hlookup]
    rfl
  · rintro ⟨hsome, hchild⟩
    obtain ⟨name, rfl, hslash⟩ := isDirectChild_iff_append.1 hchild
    obtain ⟨hmem, hholds⟩ := h.held _ hsome
    have hfile := hused.canonical _ hmem
    have hother : stepsOf (asFolder path ++ name) = stepsOf path ++ [name] := by
      rw [← hsteps, ← Text.split_of_not_mem hslash]
      exact (hfolder.eq_append_iff hfile name).1 rfl
    have hnode (content : ByteArray) := h.file_iff _ hmem content
    rw [hother, ← List.append_assoc] at hnode
    obtain ⟨content, hlookup⟩ := Option.isSome_iff_exists.1 hsome
    have hthere := (hnode content.toUTF8).2 (by rw [hlookup]; rfl)
    have husable : Tree.isUsable (Directory.relative path) = true :=
      hpath.isUsable_of_append ((Directory.holds_iff hfile).1 hholds).1
    refine ⟨_, name, d.root ++ stepsOf path, content.toUTF8, hpath.resolve_eq,
      (h.find_iff hpath).2 ?_, hthere, rfl⟩
    exact ⟨husable, rfl, (h.sheltered.hung _ name (by rw [hthere]; rfl)).1, fun _ => rfl⟩

/-- **A folder is listed alike.** -/
theorem list_eq (hpath : IsCanonical path) : d.list path = listing files (asFolder path) := by
  exact eq_of_ascending (Directory.pairwise_list h.sheltered.distinct path)
    (pairwise_listing h.ascending _) fun other => h.mem_list_iff hused hpath

end Mirrors

/-! ## Runs of changes -/

/-- A change to the files of a store. -/
inductive FileChange
  | write (path content : String)
  | remove (path : String)

namespace FileChange

def path : FileChange → String
  | write path _ => path
  | remove path => path

/-- Nothing is written where the file system cannot hold the file. -/
def isPossible : FileChange → Bool
  | write path _ => Directory.holds path
  | remove _ => true

def perform {W : Type} (store : Store W) : FileChange → Scene W → Scene W
  | write path content, scene => (store.write path content scene).2
  | remove path, scene => (store.remove path scene).2

end FileChange

def Store.run {W : Type} (store : Store W) (changes : List FileChange) (scene : Scene W) :
    Scene W :=
  changes.foldl (fun scene change => change.perform store scene) scene

/-- A folder with nothing in it, to which no link leads. -/
structure Directory.IsEmpty (d : Directory) : Prop where
  distinct : (d.tree.nodes.map Prod.fst).Nodup
  way : ∀ front, front <+: d.root → d.tree.node? front = some .folder
  wayNames : ∀ name ∈ d.root, Tree.isNewName name = true
  empty : ∀ names, names ≠ [] → d.tree.node? (d.root ++ names) = none

/-- A folder and a store in memory that hands out no tokens, with the same files. -/
structure Counterparts (used : List String) (d : Scene Directory) (m : Scene Memory) : Prop where
  mirrors : Mirrors used d.world m.world.files
  silent : m.world.push = false

namespace Counterparts

variable {used : List String} {d : Scene Directory} {m : Scene Memory}

theorem of_isEmpty (hd : d.world.IsEmpty) (hfiles : m.world.files = [])
    (hsilent : m.world.push = false) : Counterparts used d m where
  silent := hsilent
  mirrors := by
    have hroot : d.world.tree.node? d.world.root = some .folder := hd.way _ List.prefix_rfl
    have honly {names : List String} {node : Node}
        (hnode : d.world.tree.node? (d.world.root ++ names) = some node) :
        names = [] ∧ node = .folder := by
      by_cases hnil : names = []
      · subst hnil
        rw [List.append_nil, hroot] at hnode
        exact ⟨rfl, (Option.some.inj hnode).symm⟩
      · rw [hd.empty names hnil] at hnode
        cases hnode
    rw [hfiles]
    refine ⟨⟨hd.distinct, hd.way, hd.wayNames, ?noLink, ?hung⟩, .nil, nofun, ?file_iff, ?named,
      fun names hnode => .inl (honly hnode).1⟩
    case noLink => exact fun names target hnode => nomatch (honly hnode).2
    case hung =>
      intro names name hsome
      rw [List.append_assoc, hd.empty _ (Tree.append_singleton_ne_nil _ _)] at hsome
      cases hsome
    case file_iff =>
      intro path _ content
      constructor
      · exact fun hnode => nomatch (honly hnode).2
      · exact fun hlookup => nomatch hlookup
    case named => exact fun names content hnode => nomatch (honly hnode).2

theorem perform (hused : Apart used) (h : Counterparts used d m) {change : FileChange}
    (hpath : change.path ∈ used) :
    Counterparts used (change.perform Directory.store d)
      (if change.isPossible then change.perform Memory.store m else m) := by
  cases change with
  | write path content =>
    have hwritten : Mirrors used (d.world.write path content.toUTF8)
        (if Directory.holds path then Sorted.put path content m.world.files else m.world.files) :=
      h.mirrors.write hused hpath content
    have hpossible : (FileChange.write path content).isPossible = Directory.holds path := rfl
    rw [hpossible]
    cases hholds : Directory.holds path with
    | true =>
      rw [hholds, if_pos rfl] at hwritten
      rw [if_pos rfl]
      exact ⟨hwritten, h.silent⟩
    | false =>
      rw [hholds, if_neg Bool.false_ne_true] at hwritten
      rw [if_neg Bool.false_ne_true]
      exact ⟨hwritten, h.silent⟩
  | remove path =>
    have hremoved : Mirrors used (d.world.remove path).2
        (if (m.world.files.lookup path).isSome then m.world.files.filter fun f => f.1 != path
          else m.world.files) := h.mirrors.remove hused hpath
    have hmemory : (FileChange.remove path).perform Memory.store m = (Memory.remove path m).2 := rfl
    have hdirectory : ((FileChange.remove path).perform Directory.store d).world =
        (d.world.remove path).2 := rfl
    rw [if_pos (show (FileChange.remove path).isPossible = true from rfl), hmemory]
    cases hlookup : (m.world.files.lookup path).isSome with
    | true =>
      rw [hlookup, if_pos rfl] at hremoved
      rw [Memory.remove_present hlookup]
      exact ⟨hdirectory ▸ hremoved, h.silent⟩
    | false =>
      rw [hlookup, if_neg Bool.false_ne_true] at hremoved
      rw [Memory.remove_absent hlookup]
      exact ⟨hdirectory ▸ hremoved, h.silent⟩

theorem run (hused : Apart used) (h : Counterparts used d m) {changes : List FileChange}
    (hpaths : ∀ change ∈ changes, change.path ∈ used) :
    Counterparts used (Directory.store.run changes d)
      (Memory.store.run (changes.filter (·.isPossible)) m) := by
  induction changes generalizing d m with
  | nil => exact h
  | cons change changes ih =>
    have hnext := h.perform hused (hpaths change List.mem_cons_self)
    have hrest := fun other hmem => hpaths other (List.mem_cons_of_mem change hmem)
    rw [List.filter_cons]
    cases hpossible : change.isPossible with
    | true =>
      rw [hpossible, if_pos rfl] at hnext
      exact ih hnext hrest
    | false =>
      rw [hpossible, if_neg Bool.false_ne_true] at hnext
      exact ih hnext hrest

end Counterparts

/-- Two stores answer alike for canonical paths, but for the texts of errors. -/
structure Alike {W W' : Type} (s : Source W) (s' : Source W') (scene : Scene W)
    (scene' : Scene W') : Prop where
  isFile : ∀ path, IsCanonical path → (s.isFile path scene).1 = (s'.isFile path scene').1
  list : ∀ path, IsCanonical path → (s.list path scene).1 = (s'.list path scene').1
  watch : ∀ path, IsCanonical path → (s.watch path scene).1 = (s'.watch path scene').1
  read : ∀ path, IsCanonical path →
    (s.read path scene).1.toOption = (s'.read path scene').1.toOption
  fingerprint : ∀ path, IsCanonical path →
    (s.fingerprint path scene).1.toOption = (s'.fingerprint path scene').1.toOption
  scanPartials : ∀ extension folders, (∀ folder ∈ folders, IsCanonical folder) →
    (scanPartials s extension folders scene).1 = (scanPartials s' extension folders scene').1

theorem Counterparts.alike {used : List String} {d : Scene Directory} {m : Scene Memory}
    (h : Counterparts used d m) (hused : Apart used) :
    Alike Directory.store.toSource Memory.store.toSource d m := by
  have hlist (path : String) (hpath : IsCanonical path) :
      d.world.list path = m.world.list path := by
    rw [h.mirrors.list_eq hused hpath, Memory.list_eq_listing _ h.mirrors.ascending]
  refine ⟨?isFile, hlist, ?watch, ?read, ?fingerprint, ?scanPartials⟩
  case isFile => exact fun path hpath => h.mirrors.isFile_eq hused hpath
  case watch =>
    intro path _
    change Except.ok none = Except.ok (Memory.watch path m).1
    rw [Memory.watch, h.silent]
    rfl
  case read =>
    intro path hpath
    exact (h.mirrors.toOption_read hused hpath).trans (m.world.toOption_read path).symm
  case fingerprint =>
    intro path hpath
    have hdirectory := h.mirrors.toOption_fingerprint hused hpath
    exact hdirectory.trans (m.world.toOption_fingerprint path).symm
  case scanPartials =>
    intro extension folders hfolders
    have hfolder (folder : String) (hfolder : folder ∈ folders) :
        (if d.world.isFolder folder then d.world.list folder else []) =
          if m.world.isFolder folder then m.world.list folder else [] := by
      rw [d.world.list_if_isFolder, m.world.list_if_isFolder,
        hlist folder (hfolders folder hfolder)]
    have hscan : d.world.report.scan extension folders = m.world.report.scan extension folders :=
      List.flatMap_congr fun folder hmem =>
        congrArg (List.filter (hasExtension extension)) (hfolder folder hmem)
    have hdirectory : (Templating.scanPartials Directory.source extension folders d).1 =
        d.world.report.scan extension folders :=
      (Directory.reports d.world).scanPartials rfl folders
    have hmemory : (Templating.scanPartials Memory.source extension folders m).1 =
        m.world.report.scan extension folders :=
      (Memory.reports m.world).scanPartials ⟨rfl, rfl⟩ folders
    exact hdirectory.trans (hscan.trans hmemory.symm)

/-- **Files in a folder and in memory.** -/
theorem polling_stores_alike {changes : List FileChange}
    (hcanonical : ∀ change ∈ changes, IsFilePath change.path)
    (hapart : ∀ change ∈ changes, ∀ other ∈ changes,
      Text.startsWith (change.path ++ "/") other.path = false)
    {d : Scene Directory} {m : Scene Memory} (hd : d.world.IsEmpty) (hm : m.world.files = [])
    (hsilent : m.world.push = false) :
    Alike Directory.store.toSource Memory.store.toSource (Directory.store.run changes d)
      (Memory.store.run (changes.filter (·.isPossible)) m) := by
  have hused : Apart (changes.map (·.path)) := by
    constructor
    · intro path hpath
      obtain ⟨change, hchange, rfl⟩ := List.mem_map.1 hpath
      exact hcanonical change hchange
    · intro path hpath other hother
      obtain ⟨change, hchange, rfl⟩ := List.mem_map.1 hpath
      obtain ⟨change', hchange', rfl⟩ := List.mem_map.1 hother
      exact hapart change hchange change' hchange'
  have hstart : Counterparts (changes.map (·.path)) d m := .of_isEmpty hd hm hsilent
  exact (hstart.run hused fun change hchange => List.mem_map_of_mem hchange).alike hused

theorem polling_stores_alike_emptied :
    Alike Directory.store.toSource Memory.store.toSource
      (Directory.store.run [.write "~/Views/a.hbs" "1", .write "~/Views/Home/b.hbs" "2",
        .remove "~/Views/Home/b.hbs"] { world := { root := [] } })
      (Memory.store.run ([.write "~/Views/a.hbs" "1", .write "~/Views/Home/b.hbs" "2",
        .remove "~/Views/Home/b.hbs"].filter (·.isPossible)) { world := { push := false } }) :=
  polling_stores_alike (by decide) (by decide)
    { distinct := List.nodup_nil
      way := fun front hfront => by rw [List.prefix_nil.1 hfront]; rfl
      wayNames := nofun
      empty := fun names hne => if_neg hne }
    rfl rfl

end Templating
