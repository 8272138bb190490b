import Templating.Proofs.Source.Entries

/-!
# A folder is not left

Whatever path it is asked for, a folder without links tells of nothing outside itself
(`Directory.stays_inside`). A path is refused if it starts with a slash behind the root mark, which
would lead to the root of the tree, or has a name `..`. Names that are left lead further in or stay
(`Tree.LinkFree.place_of_follow`), so that following them is determined by what is at the folder and
below it (`Tree.LinkFree.follow_congr`).
-/

namespace Templating

namespace Tree

/-- There is no link at `base` or below it. -/
def LinkFree (t : Tree) (base : List String) : Prop :=
  ∀ names target, t.node? (base ++ names) ≠ some (.link target)

theorem follow_stay (t : Tree) (links : Nat) (here : List String) {name : String}
    (h : name = "" ∨ name = ".") (rest : List String) :
    t.follow links here (name :: rest) = t.follow links here rest := by
  rw [follow, if_pos h]

/-- A tree without links has none in any folder. -/
theorem linkFree_of_nodes {t : Tree} (h : ∀ node ∈ t.nodes, ∀ target, node.2 ≠ .link target)
    (base : List String) : t.LinkFree base := by
  intro names target hnode
  by_cases hroot : base ++ names = []
  · rw [hroot, node?_nil] at hnode
    cases hnode
  · rw [node?_of_ne_nil _ hroot] at hnode
    exact h _ (mem_of_lookup hnode) target rfl

namespace LinkFree

variable {t : Tree} {base : List String} (h : t.LinkFree base)
include h

/-- Without links and `..`, following names ends where the names that do not stay lead. -/
theorem place_of_follow {links : Nat} {names : List String} (hup : ".." ∉ names)
    {inner : List String} {e : End} (hfollow : t.follow links (base ++ inner) names = .ok e) :
    e.place = base ++ inner ++ names.filter fun name => name != "" && name != "." := by
  induction names generalizing inner with
  | nil =>
    rw [follow] at hfollow
    cases hfollow
    exact (List.append_nil _).symm
  | cons name rest ih =>
    have hrest : ".." ∉ rest := fun hmem => hup (List.mem_cons_of_mem _ hmem)
    by_cases hstay : name = "" ∨ name = "."
    · rw [follow_stay _ _ _ hstay] at hfollow
      have hdropped : ¬(name != "" && name != ".") = true := by
        rcases hstay with rfl | rfl <;> simp
      rw [List.filter_cons, if_neg hdropped]
      exact ih hrest hfollow
    · have hname : IsInward name :=
        isInward_of_moves hstay fun heq => hup (heq ▸ List.mem_cons_self)
      have hkept : (name != "" && name != ".") = true := by simp [hname.nonempty, hname.moves]
      rw [List.filter_cons, if_pos hkept]
      rcases follow_cons_ok hname hfollow with
        ⟨-, hfollow⟩ | ⟨content, -, rfl, rfl⟩ | ⟨target, hnode⟩
      · rw [List.append_assoc] at hfollow
        rw [ih hrest hfollow]
        simp only [List.append_assoc, List.singleton_append]
      · rw [List.filter_nil]
        rfl
      · rw [List.append_assoc] at hnode
        exact absurd hnode (h _ _)

/-- What names lead to is determined by what is at the folder and below it. -/
theorem follow_congr {t' : Tree}
    (hsame : ∀ names, t'.node? (base ++ names) = t.node? (base ++ names)) {links : Nat}
    {names : List String} (hup : ".." ∉ names) (inner : List String) :
    t'.follow links (base ++ inner) names = t.follow links (base ++ inner) names := by
  induction names generalizing inner with
  | nil => rw [follow, follow]
  | cons name rest ih =>
    have hrest : ".." ∉ rest := fun hmem => hup (List.mem_cons_of_mem _ hmem)
    by_cases hstay : name = "" ∨ name = "."
    · rw [follow_stay _ _ _ hstay, follow_stay _ _ _ hstay, ih hrest]
    · have hname : IsInward name :=
        isInward_of_moves hstay fun heq => hup (heq ▸ List.mem_cons_self)
      rw [follow_cons _ _ _ hname, follow_cons _ _ _ hname, List.append_assoc, hsame, ih hrest]
      cases hnode : t.node? (base ++ (inner ++ [name])) with
      | none => rfl
      | some node =>
        cases node with
        | folder => rfl
        | file content => rfl
        | link target => exact absurd hnode (h _ _)

end LinkFree

end Tree

namespace Directory

/-! ## Refused paths -/

/-- The characters of a path behind one root mark, or all of them if there is none in front. -/
def behindMark (path : String) : List Char :=
  if ['~', '/'] <+: path.toList then path.toList.drop 2 else path.toList

/-- Behind the root mark the path starts with a slash, or one of its segments is `..`. -/
def LeadsOut (path : String) : Prop :=
  (behindMark path).head? = some '/' ∨ ['.', '.'] ∈ (behindMark path).splitOn '/'

theorem toList_relative (path : String) : (relative path).toList = behindMark path := by
  rw [relative, behindMark]
  cases hstrip : Text.stripStart "~/" path with
  | some inner =>
    obtain ⟨rest, hdrop, rfl⟩ := Option.map_eq_some_iff.1 hstrip
    have happend : path.toList = ['~', '/'] ++ rest := Text.dropMark_eq_some.1 hdrop
    rw [happend, if_pos (List.prefix_append _ rest)]
    exact String.toList_ofList
  | none =>
    rw [if_neg, Option.getD_none]
    rintro ⟨rest, happend⟩
    have hdrop : Text.dropMark "~/".toList path.toList = some rest :=
      Text.dropMark_eq_some.2 happend.symm
    rw [Text.stripStart, hdrop] at hstrip
    cases hstrip

theorem escapes_relative_iff {path : String} :
    escapes (relative path) = true ↔ LeadsOut path := by
  have hslash : Text.startsWith "/" (relative path) = true ↔
      (behindMark path).head? = some '/' := by
    rw [Text.startsWith_iff, toList_relative]
    cases behindMark path with
    | nil => exact ⟨fun hprefix => absurd (List.prefix_nil.1 hprefix) (by decide), nofun⟩
    | cons c rest =>
      rw [List.head?_cons, Option.some.injEq, show "/".toList = ['/'] from rfl,
        List.cons_prefix_cons, eq_comm]
      exact and_iff_left List.nil_prefix
  have hup : (Text.split '/' (relative path)).contains ".." = true ↔
      ['.', '.'] ∈ (behindMark path).splitOn '/' := by
    rw [List.contains_iff_mem, Text.split, Text.splitChars_eq_splitOn, toList_relative,
      List.mem_map]
    constructor
    · rintro ⟨segment, hmem, hsegment⟩
      rwa [String.ofList_inj.1 (hsegment.trans (show ".." = String.ofList ['.', '.'] from rfl))]
        at hmem
    · exact fun hmem => ⟨_, hmem, rfl⟩
  rw [escapes, Bool.or_eq_true, hslash, hup, LeadsOut]

/-! ## Answers -/

/-- All that a folder answers for a path. -/
def answers (d : Directory) (path : String) :
    Bool × Bool × List String × Except StoreError String × Except StoreError String :=
  (d.isFile path, d.isFolder path, d.list path, d.read path, d.fingerprint path)

/-- The answer to a path that leads out of the folder. -/
def refusal (path : String) : StoreError := .unsupported path "path escapes the store root"

theorem answers_of_leadsOut (d : Directory) {path : String} (h : LeadsOut path) :
    d.answers path = (false, false, [], .error (refusal path), .error (refusal path)) := by
  have hresolve : resolve path = .error (refusal path) := if_pos (escapes_relative_iff.2 h)
  unfold answers isFile isFolder list fingerprint read readBytes
  rw [hresolve]
  rfl

section Inside

variable {path : String} (h : ¬LeadsOut path)
include h

theorem resolve_of_inside : resolve path = .ok (relative path) :=
  if_neg fun hescapes => h (escapes_relative_iff.1 hescapes)

theorem not_startsWith_slash : Text.startsWith "/" (relative path) = false := by
  have hescapes : escapes (relative path) = false :=
    Bool.eq_false_iff.2 fun hescapes => h (escapes_relative_iff.1 hescapes)
  exact (Bool.or_eq_false_iff.1 hescapes).1

theorem up_not_mem : ".." ∉ Text.split '/' (relative path) := by
  intro hmem
  apply h
  rw [← escapes_relative_iff, escapes, List.contains_iff_mem.2 hmem, Bool.or_true]

/-- What is told of a path inside comes from where it leads. -/
theorem answers_congr {d d' : Directory}
    (hfind : d'.tree.find d'.root (relative path) = d.tree.find d.root (relative path))
    (hlist : d'.list path = d.list path) : d'.answers path = d.answers path := by
  have hread : d'.tree.read d'.root (relative path) = d.tree.read d.root (relative path) := by
    rw [Tree.read, Tree.read, hfind]
  have hbytes : d'.readBytes path = d.readBytes path := by
    unfold readBytes
    rw [resolve_of_inside h]
    simp only [bind, Except.bind, hread]
  unfold answers isFile isFolder Tree.isFile Tree.isFolder fingerprint read
  rw [resolve_of_inside h, hlist, hbytes]
  simp only [hfind]

/-- A path inside is not refused, whatever else may fail. -/
theorem readBytes_ne_unsupported (d : Directory) (other reason : String) :
    d.readBytes path ≠ .error (.unsupported other reason) := by
  unfold readBytes
  rw [resolve_of_inside h]
  simp only [bind, Except.bind]
  split <;> exact nofun

theorem read_ne_unsupported (d : Directory) (other reason : String) :
    d.read path ≠ .error (.unsupported other reason) := by
  have hbytes := readBytes_ne_unsupported h d other reason
  unfold read
  cases hcontent : d.readBytes path with
  | error fault =>
    rw [hcontent] at hbytes
    intro heq
    cases heq
    exact hbytes rfl
  | ok bytes =>
    change (Text.Utf8.decode bytes).mapError _ ≠ _
    cases Text.Utf8.decode bytes <;> exact nofun

theorem fingerprint_ne_unsupported (d : Directory) (other reason : String) :
    d.fingerprint path ≠ .error (.unsupported other reason) := by
  have hbytes := readBytes_ne_unsupported h d other reason
  unfold fingerprint
  cases hcontent : d.readBytes path with
  | error fault =>
    rw [hcontent] at hbytes
    intro heq
    cases heq
    exact hbytes rfl
  | ok bytes => exact nofun

end Inside

theorem mem_list_congr {d d' : Directory} (hdistinct : (d.tree.nodes.map Prod.fst).Nodup)
    (hdistinct' : (d'.tree.nodes.map Prod.fst).Nodup) {path : String}
    (hfind : d'.tree.find d'.root (relative path) = d.tree.find d.root (relative path))
    (hplace : ∀ place, d.tree.find d.root (relative path) = .ok (.folder place) →
      ∀ name, d'.tree.node? (place ++ [name]) = d.tree.node? (place ++ [name])) (other : String) :
    other ∈ d'.list path ↔ other ∈ d.list path := by
  rw [mem_list_iff hdistinct, mem_list_iff hdistinct']
  have hinner : ∀ inner, resolve path = .ok inner → inner = relative path := by
    intro inner hresolve
    rw [resolve] at hresolve
    split at hresolve
    · cases hresolve
    · cases hresolve
      rfl
  constructor
  · rintro ⟨inner, name, place, content, hresolve, hfolder, hnode, rfl⟩
    cases hinner inner hresolve
    rw [hfind] at hfolder
    rw [hplace place hfolder] at hnode
    exact ⟨_, name, place, content, hresolve, hfolder, hnode, rfl⟩
  · rintro ⟨inner, name, place, content, hresolve, hfolder, hnode, rfl⟩
    cases hinner inner hresolve
    rw [← hplace place hfolder] at hnode
    rw [← hfind] at hfolder
    exact ⟨_, name, place, content, hresolve, hfolder, hnode, rfl⟩

/-- **A folder is not left.** In a tree with one node at a place and no link in the folder, all
answers for any path are determined by the nodes at the folder and below it: with the same nodes
there, another tree gives the same answers, whatever is elsewhere. What a path leads to is where
its segments lead from the folder. A path that leads out is refused by reading and fingerprinting
and answered as if there were nothing; no other path is refused. -/
theorem stays_inside {d : Directory} (hdistinct : (d.tree.nodes.map Prod.fst).Nodup)
    (hlinks : d.tree.LinkFree d.root) (path : String) :
    (∀ d' : Directory, (d'.tree.nodes.map Prod.fst).Nodup → d'.root = d.root →
      (∀ names, d'.tree.node? (d.root ++ names) = d.tree.node? (d.root ++ names)) →
      d'.answers path = d.answers path) ∧
    (∀ inner e, resolve path = .ok inner → d.tree.find d.root inner = .ok e →
      e.place = d.root ++ stepsOf path) ∧
    (LeadsOut path →
      d.answers path = (false, false, [], .error (refusal path), .error (refusal path))) ∧
    (¬LeadsOut path → ∀ other reason, d.read path ≠ .error (.unsupported other reason) ∧
      d.fingerprint path ≠ .error (.unsupported other reason)) := by
  have hplace : ¬LeadsOut path → ∀ e, d.tree.find d.root (relative path) = .ok e →
      e.place = d.root ++ stepsOf path := by
    intro hinside e hfind
    obtain ⟨-, hfollow⟩ := (Tree.find_eq_ok_iff (not_startsWith_slash hinside)).1 hfind
    rw [← List.append_nil d.root] at hfollow
    rw [hlinks.place_of_follow (up_not_mem hinside) hfollow, List.append_nil]
    rfl
  refine ⟨?_, ?_, d.answers_of_leadsOut, ?_⟩
  · intro d' hdistinct' hroot hsame
    by_cases hout : LeadsOut path
    · rw [d.answers_of_leadsOut hout, d'.answers_of_leadsOut hout]
    · have hfollow : d'.tree.follow Tree.maxLinks d.root (Text.split '/' (relative path)) =
          d.tree.follow Tree.maxLinks d.root (Text.split '/' (relative path)) := by
        rw [← List.append_nil d.root]
        exact hlinks.follow_congr hsame (up_not_mem hout) []
      have hfind : d'.tree.find d'.root (relative path) = d.tree.find d.root (relative path) := by
        rw [Tree.find, Tree.find, hroot, not_startsWith_slash hout, hfollow,
          if_neg Bool.false_ne_true, if_neg Bool.false_ne_true]
      apply answers_congr hout hfind
      apply eq_of_ascending (pairwise_list hdistinct' path) (pairwise_list hdistinct path)
      apply mem_list_congr hdistinct hdistinct' hfind
      intro place hfolder name
      have heq : place = d.root ++ stepsOf path := hplace hout _ hfolder
      rw [heq, List.append_assoc, hsame]
  · intro inner e hresolve hfind
    by_cases hout : LeadsOut path
    · rw [resolve, if_pos (escapes_relative_iff.2 hout)] at hresolve
      cases hresolve
    · rw [resolve_of_inside hout] at hresolve
      cases hresolve
      exact hplace hout e hfind
  · intro hinside other reason
    exact ⟨read_ne_unsupported hinside d other reason,
      fingerprint_ne_unsupported hinside d other reason⟩

/-- A folder with one file, in a tree with other nodes. -/
def walled (outside : List (List String × Node)) : Directory where
  root := ["root"]
  tree := ⟨outside ++ [(["root"], .folder), (["root", "page.hbs"], .file "text".toUTF8)]⟩

theorem linkFree_walled {outside : List (List String × Node)}
    (h : ∀ node ∈ outside, ∀ target, node.2 ≠ .link target) :
    (walled outside).tree.LinkFree (walled outside).root := by
  apply Tree.linkFree_of_nodes
  intro node hmem target
  rcases List.mem_append.1 hmem with hmem | hmem
  · exact h node hmem target
  · rcases List.mem_cons.1 hmem with rfl | hmem
    · exact nofun
    · rw [List.mem_singleton.1 hmem]
      exact nofun

/-- A file outside the folder. -/
def secret : List String × Node := (["secret"], .file "key".toUTF8)

theorem stays_inside_walled :
    (walled [secret]).answers "~/.//page.hbs" = (walled []).answers "~/.//page.hbs" ∧
      LeadsOut "~/../secret" ∧ LeadsOut "~//secret" ∧ ¬LeadsOut "~/.//page.hbs" ∧
      (walled [secret]).read "~/../secret" = .error (refusal "~/../secret") := by
  have hlinks : (walled [secret]).tree.LinkFree (walled [secret]).root :=
    linkFree_walled (List.forall_mem_singleton.2 fun _ => nofun)
  have hlinks' : (walled []).tree.LinkFree (walled []).root :=
    linkFree_walled fun _ hmem => absurd hmem List.not_mem_nil
  have hsame : ∀ names, (walled [secret]).tree.node? (["root"] ++ names) =
      (walled []).tree.node? (["root"] ++ names) := by
    intro names
    have hne : ["root"] ++ names ≠ [] := List.cons_ne_nil "root" names
    have hother : ["root"] ++ names ≠ ["secret"] := fun heq =>
      absurd (List.head_eq_of_cons_eq heq) (by decide)
    rw [Tree.node?_of_ne_nil _ hne, Tree.node?_of_ne_nil _ hne]
    exact (lookup_cons_key ..).trans (if_neg hother)
  have hup : LeadsOut "~/../secret" := by
    unfold LeadsOut behindMark
    decide
  have hslash : LeadsOut "~//secret" := by
    unfold LeadsOut behindMark
    decide
  have hinside : ¬LeadsOut "~/.//page.hbs" := by
    unfold LeadsOut behindMark
    decide
  have halike := (stays_inside (by decide) hlinks' "~/.//page.hbs").1
  have hrefused := (stays_inside (by decide) hlinks "~/../secret").2.2.1
  have hread := congrArg (fun answers => answers.2.2.2.1) (hrefused hup)
  exact ⟨halike _ (by decide) rfl hsame, hup, hslash, hinside, hread⟩

end Directory

end Templating
