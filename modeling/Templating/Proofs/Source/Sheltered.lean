import Mathlib.Data.List.Induction
import Templating.Proofs.Source.Canonical

/-!
# A folder without links

Below a folder that no link is in, following names is looking at one place (`Sheltered.follow_iff`).
Making folders adds folders on the way and nothing else (`Paved`), writing a file puts one node
behind that (`Sheltered.write_accepted`), or none when the file system cannot hold the name
(`Sheltered.write_refused`), and removing a file takes one node away (`Sheltered.remove?_eq`).
-/

namespace Templating.Tree

/-! ## Nodes -/

theorem node?_nil (t : Tree) : t.node? [] = some .folder := if_pos rfl

theorem node?_of_ne_nil (t : Tree) {place : List String} (h : place ≠ []) :
    t.node? place = t.nodes.lookup place := if_neg h

theorem append_singleton_ne_nil (place : List String) (name : String) : place ++ [name] ≠ [] :=
  List.append_ne_nil_of_right_ne_nil _ (List.cons_ne_nil name [])

theorem node?_put (t : Tree) {place : List String} (h : place ≠ []) (node : Node)
    (other : List String) :
    (t.put place node).node? other = if other = place then some node else t.node? other := by
  by_cases hother : other = []
  · subst hother
    rw [node?_nil, node?_nil, if_neg (Ne.symm h)]
  · rw [node?_of_ne_nil _ hother, node?_of_ne_nil _ hother, put, lookup_cons_key,
      lookup_filter_key t.nodes fun p => p != place]
    by_cases heq : other = place <;> simp [heq]

theorem node?_filter (t : Tree) {place : List String} (h : place ≠ []) (other : List String) :
    Tree.node? ⟨t.nodes.filter fun n => n.1 != place⟩ other =
      if other = place then none else t.node? other := by
  by_cases hother : other = []
  · subst hother
    rw [node?_nil, node?_nil, if_neg (Ne.symm h)]
  · rw [node?_of_ne_nil _ hother, node?_of_ne_nil _ hother,
      lookup_filter_key t.nodes fun p => p != place]
    by_cases heq : other = place <;> simp [heq]

theorem distinct_filter {t : Tree} (h : (t.nodes.map Prod.fst).Nodup)
    (p : List String × Node → Bool) : ((t.nodes.filter p).map Prod.fst).Nodup :=
  h.sublist (List.filter_sublist.map _)

theorem distinct_put {t : Tree} (h : (t.nodes.map Prod.fst).Nodup) (place : List String)
    (node : Node) : ((t.put place node).nodes.map Prod.fst).Nodup := by
  rw [put, List.map_cons, List.nodup_cons]
  refine ⟨?_, distinct_filter h _⟩
  simp

/-! ## Following names -/

theorem isNewName_iff {name : String} :
    isNewName name = true ↔ IsInward name ∧ name.utf8ByteSize ≤ maxName := by
  rw [isNewName, Bool.and_eq_true, Bool.and_eq_true, Bool.and_eq_true, bne_iff_ne, bne_iff_ne,
    bne_iff_ne, decide_eq_true_iff]
  exact and_congr_left fun _ => ⟨fun ⟨⟨h, h'⟩, h''⟩ => ⟨h, h', h''⟩, fun h => ⟨⟨h.1, h.2⟩, h.3⟩⟩

/-- Following a name that leads further in. -/
theorem follow_cons (t : Tree) (links : Nat) (here : List String) {name : String}
    (h : IsInward name) (rest : List String) :
    t.follow links here (name :: rest) =
      if maxName < name.utf8ByteSize then .error .nameTooLong
      else
        match t.node? (here ++ [name]) with
        | none => .error .missing
        | some .folder => t.follow links (here ++ [name]) rest
        | some (.file content) =>
          if rest = [] then .ok (.file (here ++ [name]) content) else .error .notFolder
        | some (.link target) =>
          match links with
          | 0 => .error .tooManyLinks
          | links + 1 => t.follow links [] (target ++ rest) := by
  conv_lhs => rw [follow]
  refine (if_neg (not_or.2 ⟨h.nonempty, h.moves⟩)).trans ((if_neg h.inward).trans ?_)
  rfl

/-- Where names are followed to an end, the first of them is that of a folder, of the file that is
the end, or of a link. -/
theorem follow_cons_ok {t : Tree} {links : Nat} {here rest : List String} {name : String} {e : End}
    (hname : IsInward name) (h : t.follow links here (name :: rest) = .ok e) :
    (t.node? (here ++ [name]) = some .folder ∧ t.follow links (here ++ [name]) rest = .ok e) ∨
      (∃ content, t.node? (here ++ [name]) = some (.file content) ∧ rest = [] ∧
        e = .file (here ++ [name]) content) ∨
      ∃ target, t.node? (here ++ [name]) = some (.link target) := by
  rw [follow_cons _ _ _ hname] at h
  split at h
  · cases h
  · cases hnode : t.node? (here ++ [name]) with
    | none =>
      rw [hnode] at h
      cases h
    | some node =>
      rw [hnode] at h
      cases node with
      | folder => exact .inl ⟨rfl, h⟩
      | file content =>
        simp only at h
        split at h
        · next hnil =>
          cases h
          exact .inr (.inl ⟨content, rfl, hnil, rfl⟩)
        · cases h
      | link target => exact .inr (.inr ⟨target, rfl⟩)

theorem follow_folders {t : Tree} {links : Nat} {names : List String}
    (hnames : ∀ name ∈ names, isNewName name = true) {here : List String}
    (h : ∀ front, front <+: names → t.node? (here ++ front) = some .folder) (rest : List String) :
    t.follow links here (names ++ rest) = t.follow links (here ++ names) rest := by
  induction names generalizing here with
  | nil => rw [List.nil_append, List.append_nil]
  | cons name names ih =>
    obtain ⟨hinward, hshort⟩ := isNewName_iff.1 (hnames name List.mem_cons_self)
    have hfolder : t.node? (here ++ [name]) = some .folder :=
      h [name] (List.prefix_append [name] names)
    rw [List.cons_append, follow_cons _ _ _ hinward, if_neg (not_lt.2 hshort), hfolder]
    have hnext : ∀ front, front <+: names →
        t.node? (here ++ [name] ++ front) = some .folder := by
      intro front hfront
      rw [List.append_assoc]
      exact h (name :: front) (List.cons_prefix_cons.2 ⟨rfl, hfront⟩)
    have hrest := ih (fun other hmem => hnames other (List.mem_cons_of_mem _ hmem)) hnext
    rw [List.append_assoc] at hrest
    exact hrest

/-- With an empty name behind them names lead to the same folder, and to no file. -/
theorem follow_blank (t : Tree) (links : Nat) (here names : List String) :
    t.follow links here (names ++ [""]) =
      match t.follow links here names with
      | .ok (.file ..) => .error .notFolder
      | answer => answer := by
  fun_induction follow t links here names with
  | case1 links here => simp [follow]
  | case2 links here name rest hstay ih =>
    rw [List.cons_append, follow, if_pos hstay, ih]
  | case3 links here rest hstay ih =>
    rw [List.cons_append, follow, if_neg hstay, if_pos rfl, ih]
  | case4 links here name rest hmoves hin hlong =>
    rw [List.cons_append, follow, if_neg hmoves, if_neg hin, if_pos hlong]
  | case5 links here name rest hmoves hin hshort hnode =>
    rw [List.cons_append, follow, if_neg hmoves, if_neg hin, if_neg hshort, hnode]
  | case6 links here name rest hmoves hin hshort hnode ih =>
    rw [List.cons_append, follow, if_neg hmoves, if_neg hin, if_neg hshort, hnode]
    exact ih
  | case7 links here name hmoves hin hshort content hnode =>
    rw [List.cons_append, follow, if_neg hmoves, if_neg hin, if_neg hshort, hnode]
    rfl
  | case8 links here name rest hmoves hin hshort content hnode hrest =>
    rw [List.cons_append, follow, if_neg hmoves, if_neg hin, if_neg hshort, hnode]
    simp
  | case9 here name rest hmoves hin hshort target hnode =>
    rw [List.cons_append, follow, if_neg hmoves, if_neg hin, if_neg hshort, hnode]
  | case10 here name rest hmoves hin hshort target hnode links ih =>
    rw [List.cons_append, follow, if_neg hmoves, if_neg hin, if_neg hshort, hnode]
    rw [List.append_assoc] at ih
    exact ih

theorem find_eq_ok_iff {t : Tree} {base : List String} {path : String} {e : End}
    (h : Text.startsWith "/" path = false) :
    t.find base path = .ok e ↔
      isUsable path = true ∧ t.follow maxLinks base (Text.split '/' path) = .ok e := by
  rw [find, isUsable, Bool.and_eq_true, decide_eq_true_iff, Bool.not_eq_true', h]
  cases path.toList.contains '\x00' with
  | true => simp
  | false =>
    by_cases hlong : path.utf8ByteSize ≤ maxPath
    · simp [hlong, not_lt.2 hlong]
    · simp [hlong, not_le.1 hlong]

theorem toOption_read_eq_some_iff {t : Tree} {base : List String} {path : String}
    {content : ByteArray} :
    (t.read base path).toOption = some content ↔
      ∃ place, t.find base path = .ok (.file place content) := by
  rw [read]
  rcases t.find base path with fault | ⟨place, found⟩ | place <;> simp [Except.toOption, eq_comm]

theorem isFile_eq (t : Tree) (base : List String) (path : String) :
    t.isFile base path = (t.read base path).toOption.isSome := by
  rw [isFile, read]
  rcases t.find base path with fault | ⟨place, found⟩ | place <;> rfl

/-- The file of this name, if the node is one in the folder. -/
theorem fileName_eq_some_iff {place p : List String} {node : Node} {name : String} :
    (match (p, node) with
      | (p, .file _) => if p.dropLast = place then p.getLast? else none
      | _ => none) = some name ↔ p = place ++ [name] ∧ ∃ content, node = .file content := by
  cases node with
  | file content =>
    simp only [Node.file.injEq, exists_eq', and_true]
    constructor
    · intro hname
      split at hname
      · next hplace =>
        obtain ⟨front, rfl⟩ := List.getLast?_eq_some_iff.1 hname
        rw [List.dropLast_concat] at hplace
        rw [hplace]
      · cases hname
    · rintro rfl
      rw [List.dropLast_concat, if_pos rfl, List.getLast?_concat]
  | folder => simp
  | link target => simp

theorem mem_fileNames_iff {t : Tree} (hdistinct : (t.nodes.map Prod.fst).Nodup)
    {base : List String} {path name : String} :
    name ∈ t.fileNames base path ↔
      ∃ place content, t.find base path = .ok (.folder place) ∧
        t.node? (place ++ [name]) = some (.file content) := by
  rw [fileNames]
  split
  · next place hfind =>
    rw [List.mem_filterMap]
    constructor
    · rintro ⟨⟨p, node⟩, hmem, hname⟩
      obtain ⟨rfl, content, rfl⟩ := fileName_eq_some_iff.1 hname
      refine ⟨place, content, hfind, ?_⟩
      rw [node?_of_ne_nil _ (append_singleton_ne_nil _ _)]
      exact lookup_of_mem hdistinct hmem
    · rintro ⟨place', content, hfind', hnode⟩
      cases hfind.symm.trans hfind'
      rw [node?_of_ne_nil _ (append_singleton_ne_nil _ _)] at hnode
      exact ⟨_, mem_of_lookup hnode, fileName_eq_some_iff.2 ⟨rfl, content, rfl⟩⟩
  · next hnot =>
    constructor
    · exact fun hmem => absurd hmem List.not_mem_nil
    · rintro ⟨place, -, hfind, -⟩
      exact absurd hfind (hnot place)

theorem fileNames_of_not_isFolder {t : Tree} {base : List String} {path : String}
    (h : t.isFolder base path = false) : t.fileNames base path = [] := by
  rw [isFolder] at h
  rw [fileNames]
  split at h
  · cases h
  · rfl

theorem nodup_fileNames {t : Tree} (hdistinct : (t.nodes.map Prod.fst).Nodup) (base : List String)
    (path : String) : (t.fileNames base path).Nodup := by
  rw [fileNames]
  split
  · next place hfind =>
    rw [List.Nodup, List.pairwise_filterMap]
    refine (List.pairwise_map.1 hdistinct).imp fun {a b} hne n hn n' hn' heq => ?_
    subst heq
    exact hne ((fileName_eq_some_iff.1 hn).1.trans (fileName_eq_some_iff.1 hn').1.symm)
  · exact List.nodup_nil

/-! ## Sheltered folders -/

/-- The folder at `base`: nothing leads away from it, and all below hangs together. -/
structure Sheltered (t : Tree) (base : List String) : Prop where
  distinct : (t.nodes.map Prod.fst).Nodup
  /-- There are folders on the whole way to it. -/
  way : ∀ front, front <+: base → t.node? front = some .folder
  wayNames : ∀ name ∈ base, isNewName name = true
  noLink : ∀ names target, t.node? (base ++ names) ≠ some (.link target)
  /-- What is below it is in a folder. -/
  hung : ∀ names name, (t.node? (base ++ names ++ [name])).isSome = true →
    t.node? (base ++ names) = some .folder ∧ isNewName name = true

/-- The place where following ended. -/
def End.place : End → List String
  | .file place _ => place
  | .folder place => place

/-- The node where following ended. -/
def End.node : End → Node
  | .file _ content => .file content
  | .folder _ => .folder

namespace Sheltered

variable {t : Tree} {base : List String} (h : t.Sheltered base)
include h

theorem folder_of_append {names : List String} {rest : List String} (hrest : rest ≠ [])
    (hsome : (t.node? (base ++ (names ++ rest))).isSome = true) :
    t.node? (base ++ names) = some .folder := by
  induction rest using List.reverseRecOn with
  | nil => exact absurd rfl hrest
  | append_singleton rest name ih =>
    rw [← List.append_assoc names, ← List.append_assoc base] at hsome
    obtain ⟨hfolder, -⟩ := h.hung _ _ hsome
    by_cases hnil : rest = []
    · subst hnil
      rwa [List.append_nil] at hfolder
    · exact ih hnil (by rw [hfolder]; rfl)

theorem isNewName_of_isSome {names : List String}
    (hsome : (t.node? (base ++ names)).isSome = true) : ∀ name ∈ names, isNewName name = true := by
  induction names using List.reverseRecOn with
  | nil => exact fun _ hmem => absurd hmem List.not_mem_nil
  | append_singleton names last ih =>
    rw [← List.append_assoc] at hsome
    obtain ⟨hfolder, hlast⟩ := h.hung _ _ hsome
    intro name hmem
    rcases List.mem_append.1 hmem with hmem | hmem
    · exact ih (by rw [hfolder]; rfl) name hmem
    · rwa [List.mem_singleton.1 hmem]

/-- The names of the way to the folder can be left out, as can those of the way to a folder in
it. -/
theorem follow_base (links : Nat) (names : List String) :
    t.follow links [] (base ++ names) = t.follow links base names := by
  have hway : t.follow links [] (base ++ names) = t.follow links ([] ++ base) names :=
    follow_folders h.wayNames h.way names
  rwa [List.nil_append] at hway

theorem follow_append (links : Nat) {front : List String}
    (hfront : t.node? (base ++ front) = some .folder) (names : List String) :
    t.follow links base (front ++ names) = t.follow links (base ++ front) names := by
  apply follow_folders (h.isNewName_of_isSome (by rw [hfront]; rfl))
  rintro before ⟨rest, rfl⟩
  by_cases hrest : rest = []
  · rwa [hrest, List.append_nil] at hfront
  · exact h.folder_of_append hrest (by rw [hfront]; rfl)

theorem end_of_follow {links : Nat} {front names : List String} {e : End}
    (hfront : t.node? (base ++ front) = some .folder) (hnames : ∀ name ∈ names, IsInward name)
    (hfollow : t.follow links (base ++ front) names = .ok e) :
    e.place = base ++ front ++ names ∧ t.node? e.place = some e.node := by
  induction names generalizing front with
  | nil =>
    rw [follow] at hfollow
    cases hfollow
    exact ⟨(List.append_nil _).symm, hfront⟩
  | cons name names ih =>
    rcases follow_cons_ok (hnames name List.mem_cons_self) hfollow with
      ⟨hnode, hfollow⟩ | ⟨content, hnode, rfl, rfl⟩ | ⟨target, hnode⟩
    · rw [List.append_assoc] at hfollow hnode
      have hrest := fun other hmem => hnames other (List.mem_cons_of_mem name hmem)
      have hend := ih hnode hrest hfollow
      rwa [← List.append_assoc, ← List.append_cons] at hend
    · exact ⟨rfl, hnode⟩
    · rw [List.append_assoc] at hnode
      exact absurd hnode (h.noLink _ _)

/-- **Following inward names** ends at the place they name, with the node that is there. -/
theorem follow_iff {links : Nat} {names : List String} (hnames : ∀ name ∈ names, IsInward name)
    {e : End} :
    t.follow links base names = .ok e ↔
      e.place = base ++ names ∧ t.node? (base ++ names) = some e.node := by
  have hbase : t.node? (base ++ []) = some .folder := by
    rw [List.append_nil]
    exact h.way base List.prefix_rfl
  constructor
  · intro hfollow
    rw [← List.append_nil base] at hfollow
    obtain ⟨hplace, hnode⟩ := h.end_of_follow hbase hnames hfollow
    rw [List.append_nil] at hplace
    exact ⟨hplace, hplace ▸ hnode⟩
  · rintro ⟨hplace, hnode⟩
    have hnew : ∀ name ∈ names, isNewName name = true :=
      h.isNewName_of_isSome (by rw [hnode]; rfl)
    cases e with
    | folder place =>
      have hfollow := h.follow_append links hnode []
      rw [List.append_nil] at hfollow
      obtain rfl : place = base ++ names := hplace
      rw [hfollow, follow]
    | file place content =>
      obtain rfl : place = base ++ names := hplace
      obtain rfl | ⟨front, name, rfl⟩ := List.eq_nil_or_concat' names
      · rw [hbase] at hnode
        cases hnode
      · obtain ⟨hinward, hshort⟩ :=
          isNewName_iff.1 (hnew name (List.mem_append_right _ List.mem_cons_self))
        have hfront : t.node? (base ++ front) = some .folder :=
          h.folder_of_append (List.cons_ne_nil name []) (by rw [hnode]; rfl)
        rw [← List.append_assoc] at hnode
        rw [h.follow_append links hfront, follow_cons _ _ _ hinward, if_neg (not_lt.2 hshort),
          hnode, ← List.append_assoc]
        rfl

/-- With an empty name at the end it ends at folders only. -/
theorem follow_blank_iff {links : Nat} {names : List String}
    (hnames : ∀ name ∈ names, IsInward name) {e : End} :
    t.follow links base (names ++ [""]) = .ok e ↔
      e.place = base ++ names ∧ t.node? (base ++ names) = some e.node ∧ e.node = .folder := by
  rw [follow_blank]
  cases hfollow : t.follow links base names with
  | error fault =>
    constructor
    · exact fun heq => nomatch heq
    · rintro ⟨hplace, hnode, -⟩
      rw [(h.follow_iff hnames).2 ⟨hplace, hnode⟩] at hfollow
      cases hfollow
  | ok e' =>
    obtain ⟨hplace', hnode'⟩ := (h.follow_iff hnames).1 hfollow
    cases e' with
    | file place content =>
      constructor
      · exact fun heq => nomatch heq
      · rintro ⟨-, hnode, hfolder⟩
        rw [hnode', hfolder] at hnode
        cases hnode
    | folder place =>
      constructor
      · rintro heq
        cases heq
        exact ⟨hplace', hnode', rfl⟩
      · rintro ⟨hplace, -, hfolder⟩
        cases e with
        | file => cases hfolder
        | folder place' =>
          obtain rfl : place' = place := hplace.trans hplace'.symm
          rfl

/-- What is not there is missing, unless a file is in the way. -/
theorem follow_missing {links : Nat} {front names : List String}
    (hfront : t.node? (base ++ front) = some .folder)
    (hnames : ∀ name ∈ names, isNewName name = true)
    (hway : ∀ before content, before <+: names →
      t.node? (base ++ front ++ before) ≠ some (.file content))
    (hnone : t.node? (base ++ front ++ names) = none) :
    t.follow links (base ++ front) names = .error .missing := by
  induction names generalizing front with
  | nil =>
    rw [List.append_nil, hfront] at hnone
    cases hnone
  | cons name names ih =>
    obtain ⟨hinward, hshort⟩ := isNewName_iff.1 (hnames name List.mem_cons_self)
    rw [follow_cons _ _ _ hinward, if_neg (not_lt.2 hshort)]
    cases hnode : t.node? (base ++ front ++ [name]) with
    | none => rfl
    | some node =>
      cases node with
      | folder =>
        rw [List.append_assoc] at hnode ⊢
        apply ih hnode fun other hmem => hnames other (List.mem_cons_of_mem _ hmem)
        · intro before content hbefore
          rw [← List.append_assoc base, List.append_assoc _ [name]]
          exact hway (name :: before) content (List.cons_prefix_cons.2 ⟨rfl, hbefore⟩)
        · rwa [← List.append_assoc base, List.append_assoc _ [name]]
      | file content =>
        exact absurd hnode (hway [name] content (List.prefix_append [name] names))
      | link target =>
        rw [List.append_assoc] at hnode
        exact absurd hnode (h.noLink _ _)

/-! ### Changing what is below -/

omit h in
theorem ne_place_above {before : List String} (hbefore : before <+: base) (front : List String)
    (name : String) : before ≠ base ++ front ++ [name] := by
  rintro rfl
  have hlength := hbefore.length_le
  simp only [List.length_append, List.length_singleton] at hlength
  omega

/-- A node is put into a folder; the place of a folder keeps a folder. -/
theorem put {front : List String} {name : String} {node : Node}
    (hfront : t.node? (base ++ front) = some .folder) (hname : isNewName name = true)
    (hlink : ∀ target, node ≠ .link target)
    (hkeep : t.node? (base ++ front ++ [name]) = some .folder → node = .folder) :
    (t.put (base ++ front ++ [name]) node).Sheltered base where
  distinct := distinct_put h.distinct _ _
  way before hbefore := by
    rw [node?_put _ (append_singleton_ne_nil _ _), if_neg (ne_place_above hbefore _ _)]
    exact h.way before hbefore
  wayNames := h.wayNames
  noLink names target := by
    rw [node?_put _ (append_singleton_ne_nil _ _)]
    split
    · exact fun hsome => hlink target (Option.some.inj hsome)
    · exact h.noLink names target
  hung names last hsome := by
    rw [node?_put _ (append_singleton_ne_nil _ _)] at hsome ⊢
    have hold : t.node? (base ++ names) = some .folder ∧ isNewName last = true := by
      split at hsome
      · next heq =>
        obtain ⟨hnames, hlast⟩ := List.append_inj' heq rfl
        rw [hnames, List.singleton_inj.1 hlast]
        exact ⟨hfront, hname⟩
      · exact h.hung names last hsome
    refine ⟨?_, hold.2⟩
    split
    · next heq => rw [hkeep (heq ▸ hold.1)]
    · exact hold.1

/-- A file is taken away. -/
theorem filter {front : List String} {name : String} {content : ByteArray}
    (hnode : t.node? (base ++ front ++ [name]) = some (.file content)) :
    Tree.Sheltered ⟨t.nodes.filter fun n => n.1 != base ++ front ++ [name]⟩ base where
  distinct := distinct_filter h.distinct _
  way before hbefore := by
    rw [node?_filter _ (append_singleton_ne_nil _ _), if_neg (ne_place_above hbefore _ _)]
    exact h.way before hbefore
  wayNames := h.wayNames
  noLink names target := by
    rw [node?_filter _ (append_singleton_ne_nil _ _)]
    split
    · exact fun hsome => nomatch hsome
    · exact h.noLink names target
  hung names last hsome := by
    rw [node?_filter _ (append_singleton_ne_nil _ _)] at hsome ⊢
    split at hsome
    · cases hsome
    · obtain ⟨hfolder, hlast⟩ := h.hung names last hsome
      have hne : base ++ names ≠ base ++ front ++ [name] := by
        intro heq
        rw [heq, hnode] at hfolder
        cases hfolder
      rw [if_neg hne]
      exact ⟨hfolder, hlast⟩

end Sheltered

/-! ## Making folders -/

/-- `t'` is `t` with folders made on the way along `names`, short of their end. -/
structure Paved (t t' : Tree) (base names : List String) : Prop where
  sheltered : t'.Sheltered base
  kept : ∀ place node, t.node? place = some node → t'.node? place = some node
  laid : ∀ place, t.node? place = none → (t'.node? place).isSome = true →
    t'.node? place = some .folder ∧ ∃ n < names.length, place = base ++ names.take n

namespace Paved

variable {t t' t'' : Tree} {base names : List String}

theorem refl (h : t.Sheltered base) : Paved t t base names where
  sheltered := h
  kept _ _ hnode := hnode
  laid _ hnone hsome := by
    rw [hnone] at hsome
    cases hsome

theorem trans (h : Paved t t' base names) (h' : Paved t' t'' base names) :
    Paved t t'' base names where
  sheltered := h'.sheltered
  kept place node hnode := h'.kept place node (h.kept place node hnode)
  laid place hnone hsome := by
    cases hmid : t'.node? place with
    | none => exact h'.laid place hmid hsome
    | some node =>
      obtain ⟨hfolder, hway⟩ := h.laid place hnone (by rw [hmid]; rfl)
      exact ⟨h'.kept place _ hfolder, hway⟩

/-- No file comes or goes. -/
theorem file_iff (h : Paved t t' base names) {place : List String} {content : ByteArray} :
    t'.node? place = some (.file content) ↔ t.node? place = some (.file content) := by
  refine ⟨fun hnode => ?_, h.kept place _⟩
  cases hold : t.node? place with
  | some node =>
    rw [← h.kept place node hold, hnode]
  | none =>
    obtain ⟨hfolder, -⟩ := h.laid place hold (by rw [hnode]; rfl)
    rw [hnode] at hfolder
    cases hfolder

theorem put {front : List String} {name : String} (h : t.Sheltered base)
    (hfront : t.node? (base ++ front) = some .folder) (hname : isNewName name = true)
    (hnone : t.node? (base ++ front ++ [name]) = none)
    (hway : ∃ n < names.length, front ++ [name] = names.take n) :
    Paved t (t.put (base ++ front ++ [name]) .folder) base names where
  sheltered := h.put hfront hname (fun _ => nofun) (fun _ => rfl)
  kept place node hnode := by
    rw [node?_put _ (append_singleton_ne_nil _ _), if_neg, hnode]
    rintro rfl
    rw [hnone] at hnode
    cases hnode
  laid place hplace hsome := by
    rw [node?_put _ (append_singleton_ne_nil _ _)] at hsome ⊢
    split at hsome
    · next heq =>
      obtain ⟨n, hn, htake⟩ := hway
      rw [if_pos heq, heq]
      exact ⟨rfl, n, hn, by rw [← htake, List.append_assoc]⟩
    · rw [hplace] at hsome
      cases hsome

end Paved

namespace Sheltered

variable {t : Tree} {base : List String} (h : t.Sheltered base)
include h

theorem makeFolder_base : t.makeFolder base = .ok t := by
  have hfollow : t.follow maxLinks [] base = .ok (.folder base) := by
    have hbase := h.follow_base maxLinks []
    rw [List.append_nil] at hbase
    rw [hbase, follow]
  rw [makeFolder, hfollow]

/-- Making a folder, by what is there and where the names above lead. -/
theorem makeFolder_eq {front : List String} {name : String}
    (hfront : ∀ other ∈ front, IsInward other) (hname : IsInward name) :
    t.makeFolder (base ++ front ++ [name]) =
      match t.node? (base ++ front ++ [name]) with
      | some .folder => .ok t
      | some _ => .error .notFolder
      | none =>
        match t.follow maxLinks base front with
        | .ok (.folder _) =>
          if maxName < name.utf8ByteSize then .error .nameTooLong
          else .ok (t.put (base ++ front ++ [name]) .folder)
        | .ok (.file ..) => .error .notFolder
        | .error fault => .error fault := by
  have hinward : ∀ other ∈ front ++ [name], IsInward other := by
    intro other hmem
    rcases List.mem_append.1 hmem with hmem | hmem
    · exact hfront other hmem
    · rwa [List.mem_singleton.1 hmem]
  rw [makeFolder, List.dropLast_concat, List.getLast?_concat, Option.getD_some, h.follow_base,
    List.append_assoc, h.follow_base]
  cases hnode : t.node? (base ++ (front ++ [name])) with
  | some node =>
    cases node with
    | folder =>
      have hfollow : t.follow maxLinks base (front ++ [name]) =
          .ok (.folder (base ++ (front ++ [name]))) := (h.follow_iff hinward).2 ⟨rfl, hnode⟩
      rw [hfollow]
    | file content =>
      have hfollow : t.follow maxLinks base (front ++ [name]) =
          .ok (.file (base ++ (front ++ [name])) content) := (h.follow_iff hinward).2 ⟨rfl, hnode⟩
      rw [hfollow]
    | link target => exact absurd hnode (h.noLink _ _)
  | none =>
    cases hfollow : t.follow maxLinks base (front ++ [name]) with
    | ok e =>
      have hsome := ((h.follow_iff hinward).1 hfollow).2
      rw [hnode] at hsome
      cases hsome
    | error fault =>
      cases hup : t.follow maxLinks base front with
      | error fault => rfl
      | ok e =>
        cases e with
        | file place content => rfl
        | folder place =>
          obtain rfl : place = base ++ front := ((h.follow_iff hfront).1 hup).1
          simp only [bind, Except.bind]
          rw [List.append_assoc, hnode]
          rfl

theorem makeFolder_paved {names : List String} (hnames : ∀ name ∈ names, IsInward name) {n : Nat}
    (hn : n < names.length) {t' : Tree} (hmade : t.makeFolder (base ++ names.take n) = .ok t') :
    Paved t t' base names := by
  cases n with
  | zero =>
    rw [List.take_zero, List.append_nil, h.makeFolder_base] at hmade
    cases hmade
    exact .refl h
  | succ n =>
    have hlt : n < names.length := by omega
    have htake : names.take (n + 1) = names.take n ++ [names[n]] :=
      List.take_succ_eq_append_getElem hlt
    have hname : IsInward names[n] := hnames _ (List.getElem_mem hlt)
    have hfront : ∀ other ∈ names.take n, IsInward other := fun other hmem =>
      hnames other (List.mem_of_mem_take hmem)
    rw [htake, ← List.append_assoc, h.makeFolder_eq hfront hname] at hmade
    split at hmade
    · cases hmade
      exact .refl h
    · cases hmade
    · next hnone =>
      split at hmade
      · next hup =>
        split at hmade
        · cases hmade
        · next hshort =>
          cases hmade
          have hnode := ((h.follow_iff hfront).1 hup).2
          have hnew := isNewName_iff.2 ⟨hname, not_lt.1 hshort⟩
          exact .put h hnode hnew hnone ⟨n + 1, hn, htake.symm⟩
      · cases hmade
      · cases hmade

end Sheltered

/-- The first `k` folders on the way along `names`, the innermost first. -/
def waysTo (base names : List String) (k : Nat) : List (List String) :=
  (List.range k).reverse.map fun n => base ++ names.take n

theorem waysTo_succ (base names : List String) (k : Nat) :
    waysTo base names (k + 1) = (base ++ names.take k) :: waysTo base names k := by
  rw [waysTo, List.range_succ, List.reverse_append, List.reverse_singleton, List.map_append]
  rfl

namespace Sheltered

variable {t : Tree} {base : List String} (h : t.Sheltered base)
include h

theorem makeFirst_paved {names : List String} (hnames : ∀ name ∈ names, IsInward name) {k : Nat}
    (hk : k ≤ names.length) : Paved t (t.makeFirst (waysTo base names k)).2 base names := by
  induction k with
  | zero => exact .refl h
  | succ k ih =>
    rw [waysTo_succ, makeFirst]
    split
    · next t' hmade => exact h.makeFolder_paved hnames hk hmade
    · have habove := ih (by omega)
      simp only
      split
      · next t' _ hmade => exact habove.trans (habove.sheltered.makeFolder_paved hnames hk hmade)
      · exact habove
    · exact .refl h

/-- In a folder that is there another can be made, unless a file has the name. -/
theorem makeFolder_reaches {front : List String} {name : String}
    (hfront : t.node? (base ++ front) = some .folder) (hname : isNewName name = true)
    (hfile : ∀ content, t.node? (base ++ front ++ [name]) ≠ some (.file content)) :
    ∃ t', t.makeFolder (base ++ front ++ [name]) = .ok t' ∧
      t'.node? (base ++ front ++ [name]) = some .folder := by
  obtain ⟨hinward, hshort⟩ := isNewName_iff.1 hname
  have hnames : ∀ other ∈ front, IsInward other := fun other hmem =>
    (isNewName_iff.1 (h.isNewName_of_isSome (by rw [hfront]; rfl) other hmem)).1
  rw [h.makeFolder_eq hnames hinward]
  cases hnode : t.node? (base ++ front ++ [name]) with
  | some node =>
    cases node with
    | folder => exact ⟨t, rfl, hnode⟩
    | file content => exact absurd hnode (hfile content)
    | link target =>
      rw [List.append_assoc] at hnode
      exact absurd hnode (h.noLink _ _)
  | none =>
    have hup : t.follow maxLinks base front = .ok (.folder (base ++ front)) :=
      (h.follow_iff hnames).2 ⟨rfl, hfront⟩
    simp only [hup, if_neg (not_lt.2 hshort)]
    exact ⟨_, rfl, by rw [node?_put _ (append_singleton_ne_nil _ _), if_pos rfl]⟩

/-- **The way is paved** where no file is in it and every name can be given to a folder. -/
theorem makeFirst_reaches {names : List String} (hinward : ∀ name ∈ names, IsInward name) {k : Nat}
    (hk : k < names.length) (hnames : ∀ name ∈ names.take k, isNewName name = true)
    (hway : ∀ n content, n ≤ k → t.node? (base ++ names.take n) ≠ some (.file content)) :
    (t.makeFirst (waysTo base names (k + 1))).1 = true ∧
      (t.makeFirst (waysTo base names (k + 1))).2.node? (base ++ names.take k) = some .folder := by
  induction k with
  | zero =>
    rw [waysTo_succ, List.take_zero, List.append_nil, makeFirst, h.makeFolder_base]
    exact ⟨rfl, h.way base List.prefix_rfl⟩
  | succ k ih =>
    have hlt : k < names.length := by omega
    have htake : names.take (k + 1) = names.take k ++ [names[k]] :=
      List.take_succ_eq_append_getElem hlt
    have hlast : isNewName names[k] = true :=
      hnames _ (by rw [htake]; exact List.mem_append_right _ List.mem_cons_self)
    have hbefore : ∀ name ∈ names.take k, isNewName name = true := fun name hmem =>
      hnames name (by rw [htake]; exact List.mem_append_left _ hmem)
    have hfile (content : ByteArray) :
        t.node? (base ++ names.take k ++ [names[k]]) ≠ some (.file content) := by
      rw [List.append_assoc, ← htake]
      exact hway (k + 1) content le_rfl
    rw [waysTo_succ, makeFirst, htake, ← List.append_assoc]
    cases hup : t.node? (base ++ names.take k) with
    | some node =>
      cases node with
      | folder =>
        obtain ⟨t', hmade, hthere⟩ := h.makeFolder_reaches hup hlast hfile
        rw [hmade]
        exact ⟨rfl, hthere⟩
      | file content => exact absurd hup (hway k content (by omega))
      | link target => exact absurd hup (h.noLink _ _)
    | none =>
      -- The folder above is missing as well, and made first.
      have hnone : t.node? (base ++ names.take k ++ [names[k]]) = none := by
        rw [List.append_assoc]
        by_contra hsome
        have hfolder := h.folder_of_append (List.cons_ne_nil names[k] [])
          (Option.isSome_iff_ne_none.2 hsome)
        rw [hup] at hfolder
        cases hfolder
      have hmissing : t.follow maxLinks base (names.take k) = .error .missing := by
        have hbase : t.node? (base ++ []) = some .folder := by
          rw [List.append_nil]
          exact h.way base List.prefix_rfl
        rw [← List.append_nil base]
        apply h.follow_missing hbase hbefore
        case hnone => rwa [List.append_nil]
        intro front content hfront
        rw [List.append_nil]
        have htaken : front = names.take (min front.length k) := by
          rw [← List.take_take]
          exact List.prefix_iff_eq_take.1 hfront
        rw [htaken]
        exact hway _ content (by omega)
      obtain ⟨hmade, hthere⟩ := ih hlt hbefore fun n content hn => hway n content (by omega)
      have hpaved := h.makeFirst_paved hinward (k := k + 1) (by omega)
      have hfile' : ∀ content, (t.makeFirst (waysTo base names (k + 1))).2.node?
          (base ++ names.take k ++ [names[k]]) ≠ some (.file content) := by
        intro content hnode
        obtain ⟨hfolder, -⟩ := hpaved.laid _ hnone (by rw [hnode]; rfl)
        rw [hnode] at hfolder
        cases hfolder
      obtain ⟨t', hmade', hthere'⟩ := hpaved.sheltered.makeFolder_reaches hthere hlast hfile'
      rw [h.makeFolder_eq (fun other hmem => hinward other (List.mem_of_mem_take hmem))
        (hinward _ (List.getElem_mem hlt)), hnone, hmissing]
      simp only [hmade, hmade']
      exact ⟨trivial, hthere'⟩

/-! ### Files -/

theorem newPlace?_eq_some_iff {front : List String} {name : String}
    (hfront : ∀ other ∈ front, IsInward other) {place : List String} :
    t.newPlace? (base ++ front ++ [name]) = some place ↔
      t.node? (base ++ front) = some .folder ∧ isNewName name = true ∧
        place = base ++ front ++ [name] := by
  rw [newPlace?, List.getLast?_concat, List.dropLast_concat, h.follow_base]
  constructor
  · intro hplace
    split at hplace
    · next hname hup =>
      cases hname
      obtain ⟨rfl, hfolder⟩ := (h.follow_iff hfront).1 hup
      split at hplace
      · next hnew =>
        cases hplace
        exact ⟨hfolder, hnew, rfl⟩
      · cases hplace
    · cases hplace
  · rintro ⟨hfolder, hnew, rfl⟩
    have hup : t.follow maxLinks base front = .ok (.folder (base ++ front)) :=
      (h.follow_iff hfront).2 ⟨rfl, hfolder⟩
    simp only [hup, hnew, if_true]

/-- A file is written into a folder that is there, in place of a file or of nothing. -/
theorem writeFile_eq_some_iff {links : Nat} {front : List String} {name : String}
    (hfront : ∀ other ∈ front, IsInward other) (hname : IsInward name) {content : ByteArray}
    {t' : Tree} :
    t.writeFile links (base ++ front ++ [name]) content = some t' ↔
      t.node? (base ++ front) = some .folder ∧ isNewName name = true ∧
        t.node? (base ++ front ++ [name]) ≠ some .folder ∧
        t' = t.put (base ++ front ++ [name]) (.file content) := by
  have hinward : ∀ other ∈ front ++ [name], IsInward other := by
    intro other hmem
    rcases List.mem_append.1 hmem with hmem | hmem
    · exact hfront other hmem
    · rwa [List.mem_singleton.1 hmem]
  have hfollow (e : End) : t.follow maxLinks base (front ++ [name]) = .ok e ↔
      e.place = base ++ (front ++ [name]) ∧ t.node? (base ++ (front ++ [name])) = some e.node :=
    h.follow_iff hinward
  rw [← List.append_assoc, ← h.follow_base, ← List.append_assoc] at hfollow
  rw [writeFile]
  constructor
  · intro hwritten
    split at hwritten
    · next place old hend =>
      cases hwritten
      obtain ⟨rfl, hold⟩ := (hfollow _).1 hend
      have hsome : (t.node? (base ++ front ++ [name])).isSome = true := by rw [hold]; rfl
      obtain ⟨hfolder, hnew⟩ := h.hung front name hsome
      have hnot : t.node? (base ++ front ++ [name]) ≠ some .folder := by
        rw [hold]
        exact nofun
      exact ⟨hfolder, hnew, hnot, rfl⟩
    · split at hwritten
      · cases hwritten
      · next place hplace =>
        obtain ⟨hfolder, hnew, rfl⟩ := (h.newPlace?_eq_some_iff hfront).1 hplace
        split at hwritten
        · next hnone =>
          cases hwritten
          have hnot : t.node? (base ++ front ++ [name]) ≠ some .folder := by
            rw [hnone]
            exact nofun
          exact ⟨hfolder, hnew, hnot, rfl⟩
        · next target hlink =>
          rw [List.append_assoc] at hlink
          exact absurd hlink (h.noLink _ _)
        · cases hwritten
    · cases hwritten
  · rintro ⟨hfolder, hnew, hnot, rfl⟩
    cases hnode : t.node? (base ++ front ++ [name]) with
    | some node =>
      cases node with
      | folder => exact absurd hnode hnot
      | link target =>
        rw [List.append_assoc] at hnode
        exact absurd hnode (h.noLink _ _)
      | file old => rw [(hfollow (.file _ old)).2 ⟨rfl, hnode⟩]
    | none =>
      have hmissing : t.follow maxLinks [] (base ++ front ++ [name]) = .error .missing := by
        rw [List.append_assoc, h.follow_base, h.follow_append _ hfolder, follow_cons _ _ _ hname,
          if_neg (not_lt.2 (isNewName_iff.1 hnew).2), hnode]
      have hplace := (h.newPlace?_eq_some_iff hfront).2 ⟨hfolder, hnew, rfl⟩
      simp only [hmissing, hplace, hnode]

/-! ### Whole paths -/

omit h in
theorem write_of_isUsable {path : String} (husable : isUsable path = true) (content : ByteArray) :
    t.write base path content =
      ((t.makeFirst (waysTo base (steps path) (steps path).length)).2.writeFile maxLinks
        (base ++ steps path) content).getD
          (t.makeFirst (waysTo base (steps path) (steps path).length)).2 := by
  rw [write, if_pos husable]
  rfl

/-- **A write that the file system can hold** puts the file into its folder, behind the folders
made on the way. -/
theorem write_accepted {path : String} {front : List String} {name : String}
    (hsteps : steps path = front ++ [name]) (husable : isUsable path = true)
    (hnames : ∀ other ∈ steps path, isNewName other = true)
    (hway : ∀ n content, n ≤ front.length →
      t.node? (base ++ front.take n) ≠ some (.file content))
    (hplace : t.node? (base ++ front ++ [name]) ≠ some .folder) (content : ByteArray) :
    ∃ t', Paved t t' base (steps path) ∧ t'.node? (base ++ front) = some .folder ∧
      t'.node? (base ++ front ++ [name]) ≠ some .folder ∧
      t.write base path content = t'.put (base ++ front ++ [name]) (.file content) := by
  have hinward : ∀ other ∈ steps path, IsInward other := fun other hmem =>
    (isNewName_iff.1 (hnames other hmem)).1
  have hlength : (steps path).length = front.length + 1 := by rw [hsteps, List.length_append]; rfl
  have htake (n : Nat) (hn : n ≤ front.length) : (steps path).take n = front.take n := by
    rw [hsteps, List.take_append_of_le_length hn]
  have hpaved := h.makeFirst_paved hinward (k := front.length + 1) hlength.ge
  have hreached := (h.makeFirst_reaches hinward (k := front.length) (by omega)
    (fun other hmem => hnames other (List.mem_of_mem_take hmem))
    (fun n old hn => by rw [htake n hn]; exact hway n old hn)).2
  rw [htake _ le_rfl, List.take_length] at hreached
  rw [write_of_isUsable husable, hlength]
  generalize (t.makeFirst (waysTo base (steps path) (front.length + 1))).2 = t' at hpaved hreached ⊢
  have hplace' : t'.node? (base ++ front ++ [name]) ≠ some .folder := by
    intro hfolder
    cases hnode : t.node? (base ++ front ++ [name]) with
    | some node =>
      have hkept := hpaved.kept _ _ hnode
      rw [hfolder] at hkept
      exact hplace (hnode.trans hkept.symm)
    | none =>
      obtain ⟨-, n, hn, heq⟩ := hpaved.laid _ hnode (by rw [hfolder]; rfl)
      have hlengths := congrArg List.length heq
      simp only [List.length_append, List.length_take, List.length_singleton] at hlengths
      omega
  have hwritten : t'.writeFile maxLinks (base ++ front ++ [name]) content =
      some (t'.put (base ++ front ++ [name]) (.file content)) := by
    apply (hpaved.sheltered.writeFile_eq_some_iff _ _).2
    · exact ⟨hreached, hnames name (by rw [hsteps]; simp), hplace', rfl⟩
    · exact fun other hmem => hinward other (by rw [hsteps]; exact List.mem_append_left _ hmem)
    · exact hinward name (by rw [hsteps]; simp)
  refine ⟨t', hpaved, hreached, hplace', ?_⟩
  rw [hsteps, ← List.append_assoc, hwritten, Option.getD_some]

/-- **A write that it cannot hold** makes folders at most. -/
theorem write_refused {path : String} (hinward : ∀ name ∈ steps path, IsInward name)
    (hrefused : ¬(isUsable path = true ∧ ∀ name ∈ steps path, isNewName name = true))
    (content : ByteArray) : Paved t (t.write base path content) base (steps path) := by
  by_cases husable : isUsable path = true
  · rw [write_of_isUsable husable]
    have hpaved := h.makeFirst_paved hinward le_rfl
    cases hwritten : (t.makeFirst (waysTo base (steps path) (steps path).length)).2.writeFile
        maxLinks (base ++ steps path) content with
    | none => exact hpaved
    | some t' =>
      exfalso
      apply hrefused
      refine ⟨husable, ?_⟩
      obtain hnil | ⟨front, name, hsteps⟩ := List.eq_nil_or_concat' (steps path)
      · rw [hnil]
        exact fun _ hmem => absurd hmem List.not_mem_nil
      · rw [hsteps] at hinward ⊢
        have hfront : ∀ other ∈ front, IsInward other := fun other hmem =>
          hinward other (List.mem_append_left _ hmem)
        rw [hsteps] at hpaved hwritten
        rw [← List.append_assoc] at hwritten
        obtain ⟨hfolder, hname, -⟩ := (hpaved.sheltered.writeFile_eq_some_iff hfront
          (hinward name (by simp))).1 hwritten
        intro other hmem
        rcases List.mem_append.1 hmem with hmem | hmem
        · exact hpaved.sheltered.isNewName_of_isSome (by rw [hfolder]; rfl) other hmem
        · rwa [List.mem_singleton.1 hmem]
  · rw [write, if_neg husable]
    exact .refl h

/-- **A file is removed** if there is one at the place. -/
theorem remove?_eq_some_iff {path : String} {front : List String} {name : String}
    (hsplit : Text.split '/' path = front ++ [name])
    (hinward : ∀ other ∈ Text.split '/' path, IsInward other) {t' : Tree} :
    t.remove? base path = some t' ↔
      isUsable path = true ∧ (∃ content, t.node? (base ++ front ++ [name]) = some (.file content)) ∧
        t' = ⟨t.nodes.filter fun n => n.1 != base ++ front ++ [name]⟩ := by
  have hfront : ∀ other ∈ front, IsInward other := fun other hmem =>
    hinward other (by rw [hsplit]; exact List.mem_append_left _ hmem)
  have hplace (place : List String) : t.newPlace? (base ++ front ++ [name]) = some place ↔
      t.node? (base ++ front) = some .folder ∧ isNewName name = true ∧
        place = base ++ front ++ [name] := h.newPlace?_eq_some_iff hfront
  rw [remove?, hsplit, ← List.append_assoc]
  by_cases husable : isUsable path = true
  · simp only [husable, guard_true, pure_bind, true_and]
    cases hnew : t.newPlace? (base ++ front ++ [name]) with
    | none =>
      constructor
      · exact fun hnone => nomatch hnone
      · rintro ⟨⟨content, hnode⟩, -⟩
        obtain ⟨hfolder, hname⟩ := h.hung front name (by rw [hnode]; rfl)
        rw [(hplace _).2 ⟨hfolder, hname, rfl⟩] at hnew
        cases hnew
    | some place =>
      obtain ⟨-, -, rfl⟩ := (hplace place).1 hnew
      simp only [Option.bind_eq_bind, Option.bind_some]
      cases hnode : t.node? (base ++ front ++ [name]) with
      | none => simp
      | some node =>
        cases node with
        | folder => simp
        | file content => simp [eq_comm]
        | link target =>
          rw [List.append_assoc] at hnode
          exact absurd hnode (h.noLink _ _)
  · simp [husable]

end Sheltered

end Templating.Tree
