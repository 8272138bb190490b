import Templating.Proofs.Source.Sheltered
import Templating.Source.Store

/-!
# Trees as a file system keeps them

In the tree of a file system there is one node at a place, and every name in a place is one that a
node can have (`Tree.Formed`). Whatever is made, written, linked or removed keeps it so
(`Directory.formed_run`): what is new is put under a new name into a place that following names has
led to. Links may lead anywhere, in circles as well; following names past a folder goes on from the
folder (`Tree.follow_append`).
-/

namespace Templating

namespace Tree

/-! ## Following names past a folder -/

/-- Names behind others are followed from the folder that those lead to, with the links that are
left there; if those lead to no folder, nothing is behind them. -/
theorem follow_append (t : Tree) (links : Nat) (here names : List String) {rest : List String}
    (hrest : rest ≠ []) :
    (∃ place, t.follow links here names = .ok (.folder place) ∧
      ∃ left ≤ links, t.follow links here (names ++ rest) = t.follow left place rest) ∨
    ((∀ place, t.follow links here names ≠ .ok (.folder place)) ∧
      ∃ fault, t.follow links here (names ++ rest) = .error fault) := by
  fun_induction follow t links here names with
  | case1 links here => exact .inl ⟨here, rfl, links, le_rfl, rfl⟩
  | case2 links here name names hstay ih =>
    rw [List.cons_append, follow, if_pos hstay]
    exact ih
  | case3 links here names hstay ih =>
    rw [List.cons_append, follow, if_neg hstay, if_pos rfl]
    exact ih
  | case4 links here name names hmoves hin hlong =>
    rw [List.cons_append, follow, if_neg hmoves, if_neg hin, if_pos hlong]
    exact .inr ⟨by rintro place ⟨⟩, _, rfl⟩
  | case5 links here name names hmoves hin hshort hnode =>
    rw [List.cons_append, follow, if_neg hmoves, if_neg hin, if_neg hshort, hnode]
    exact .inr ⟨by rintro place ⟨⟩, _, rfl⟩
  | case6 links here name names hmoves hin hshort hnode ih =>
    rw [List.cons_append, follow, if_neg hmoves, if_neg hin, if_neg hshort, hnode]
    exact ih
  | case7 links here name hmoves hin hshort content hnode =>
    rw [List.cons_append, follow, if_neg hmoves, if_neg hin, if_neg hshort, hnode]
    exact .inr ⟨by rintro place ⟨⟩, _, if_neg hrest⟩
  | case8 links here name names hmoves hin hshort content hnode hnames =>
    rw [List.cons_append, follow, if_neg hmoves, if_neg hin, if_neg hshort, hnode]
    exact .inr ⟨by rintro place ⟨⟩, _, if_neg (List.append_ne_nil_of_left_ne_nil hnames rest)⟩
  | case9 here name names hmoves hin hshort target hnode =>
    rw [List.cons_append, follow, if_neg hmoves, if_neg hin, if_neg hshort, hnode]
    exact .inr ⟨by rintro place ⟨⟩, _, rfl⟩
  | case10 here name names hmoves hin hshort target hnode links ih =>
    rw [List.cons_append, follow, if_neg hmoves, if_neg hin, if_neg hshort, hnode]
    rw [List.append_assoc] at ih
    obtain ⟨place, hfolder, left, hleft, hfollow⟩ | hnot := ih
    · exact .inl ⟨place, hfolder, left, by omega, hfollow⟩
    · exact .inr hnot

theorem follow_append_of_folder {t : Tree} {links : Nat} {here names place : List String}
    (h : t.follow links here names = .ok (.folder place)) {rest : List String} (hrest : rest ≠ []) :
    ∃ left ≤ links, t.follow links here (names ++ rest) = t.follow left place rest := by
  obtain ⟨other, hother, hfollow⟩ | ⟨hnot, -⟩ := t.follow_append links here names hrest
  · cases h.symm.trans hother
    exact hfollow
  · exact absurd h (hnot place)

/-- What lies behind names lies behind a folder. -/
theorem folder_of_follow_append {t : Tree} {links : Nat} {here names rest : List String} {e : End}
    (h : t.follow links here (names ++ rest) = .ok e) (hrest : rest ≠ []) :
    ∃ place, t.follow links here names = .ok (.folder place) := by
  obtain ⟨place, hfolder, -⟩ | ⟨-, fault, hfault⟩ := t.follow_append links here names hrest
  · exact ⟨place, hfolder⟩
  · cases h.symm.trans hfault

theorem isInward_of_moves {name : String} (hmoves : ¬(name = "" ∨ name = "."))
    (hin : name ≠ "..") : IsInward name :=
  ⟨fun hempty => hmoves (.inl hempty), fun hdot => hmoves (.inr hdot), hin⟩

/-- Where nothing is found in a folder, the name is one that leads further in. -/
theorem isInward_of_follow {t : Tree} {links : Nat} {here front place : List String} {name : String}
    {fault : PathFault} (hfront : t.follow links here front = .ok (.folder place))
    (hfollow : t.follow links here (front ++ [name]) = .error fault) : IsInward name := by
  obtain ⟨left, -, hname⟩ := follow_append_of_folder hfront (List.cons_ne_nil name [])
  rw [hname, follow] at hfollow
  split at hfollow
  · rw [follow] at hfollow
    cases hfollow
  · next hmoves =>
    split at hfollow
    · rw [follow] at hfollow
      cases hfollow
    · next hin => exact isInward_of_moves hmoves hin

/-! ## Formed trees -/

/-- One node at a place, and only names that a node can have. -/
structure Formed (t : Tree) : Prop where
  distinct : (t.nodes.map Prod.fst).Nodup
  named : ∀ place ∈ t.nodes.map Prod.fst, ∀ name ∈ place, isNewName name = true

theorem formed_empty : Formed {} := ⟨List.nodup_nil, nofun⟩

namespace Formed

variable {t : Tree} (h : t.Formed)
include h

theorem isNewName_of_isSome {place : List String} (hsome : (t.node? place).isSome = true) :
    ∀ name ∈ place, isNewName name = true := by
  by_cases hroot : place = []
  · rw [hroot]
    exact fun _ hmem => absurd hmem List.not_mem_nil
  · rw [node?_of_ne_nil _ hroot] at hsome
    apply h.named
    by_contra hnot
    rw [lookup_eq_none.2 hnot] at hsome
    cases hsome

theorem isNewName_of_follow {links : Nat} {here names : List String} {e : End}
    (hhere : ∀ name ∈ here, isNewName name = true) (hfollow : t.follow links here names = .ok e) :
    ∀ name ∈ e.place, isNewName name = true := by
  fun_induction follow t links here names with
  | case1 links here =>
    cases hfollow
    exact hhere
  | case2 links here name names hstay ih => exact ih hhere hfollow
  | case3 links here names hstay ih =>
    exact ih (fun name hmem => hhere name (List.dropLast_subset here hmem)) hfollow
  | case6 links here name names hmoves hin hshort hnode ih =>
    exact ih (h.isNewName_of_isSome (by rw [hnode]; rfl)) hfollow
  | case7 links here name hmoves hin hshort content hnode =>
    cases hfollow
    have hsome : (t.node? (here ++ [name])).isSome = true := by rw [hnode]; rfl
    exact h.isNewName_of_isSome hsome
  | case10 here name names hmoves hin hshort target hnode links ih =>
    exact ih (fun _ hmem => absurd hmem List.not_mem_nil) hfollow
  | case4 | case5 | case8 | case9 => cases hfollow

theorem put {place : List String} (hplace : ∀ name ∈ place, isNewName name = true) (node : Node) :
    (t.put place node).Formed where
  distinct := distinct_put h.distinct place node
  named other hmem := by
    rw [Tree.put, List.map_cons, List.mem_cons] at hmem
    rcases hmem with rfl | hmem
    · exact hplace
    · exact h.named other ((List.filter_sublist.map _).subset hmem)

theorem filter (p : List String × Node → Bool) : Formed ⟨t.nodes.filter p⟩ where
  distinct := distinct_filter h.distinct p
  named other hmem := h.named other ((List.filter_sublist.map _).subset hmem)

/-! ### Changes -/

theorem isNewName_of_newPlace? {names place : List String} (hplace : t.newPlace? names = some place) :
    ∀ name ∈ place, isNewName name = true := by
  rw [newPlace?] at hplace
  split at hplace
  · next name folder _ hfollow =>
    split at hplace
    · next hname =>
      cases hplace
      have hfolder := h.isNewName_of_follow (fun _ hmem => absurd hmem List.not_mem_nil) hfollow
      intro other hmem
      rcases List.mem_append.1 hmem with hmem | hmem
      · exact hfolder other hmem
      · rwa [List.mem_singleton.1 hmem]
    · cases hplace
  · cases hplace

theorem makeFolder {names : List String} {t' : Tree} (hmade : t.makeFolder names = .ok t') :
    t'.Formed := by
  have hroot : ∀ name ∈ ([] : List String), isNewName name = true :=
    fun _ hmem => absurd hmem List.not_mem_nil
  rw [Tree.makeFolder] at hmade
  split at hmade
  · cases hmade
    exact h
  · cases hmade
  · next fault hmissing =>
    cases hup : t.follow maxLinks [] names.dropLast with
    | error fault =>
      rw [hup] at hmade
      cases hmade
    | ok e =>
      rw [hup] at hmade
      cases e with
      | file => cases hmade
      | folder place =>
        obtain rfl | ⟨front, name, rfl⟩ := List.eq_nil_or_concat' names
        · rw [follow] at hmissing
          cases hmissing
        · rw [List.dropLast_concat] at hup
          have hinward := isInward_of_follow hup hmissing
          simp only [bind, Except.bind, List.getLast?_concat, Option.getD_some] at hmade
          split at hmade
          · cases hmade
          · next hshort =>
            split at hmade
            · cases hmade
            · cases hmade
              apply h.put
              intro other hmem
              rcases List.mem_append.1 hmem with hmem | hmem
              · exact h.isNewName_of_follow hroot hup other hmem
              · rw [List.mem_singleton.1 hmem]
                exact isNewName_iff.2 ⟨hinward, not_lt.1 hshort⟩

theorem makeFirst (paths : List (List String)) : (t.makeFirst paths).2.Formed := by
  induction paths with
  | nil => exact h
  | cons names above ih =>
    rw [Tree.makeFirst]
    split
    · next t' hmade => exact h.makeFolder hmade
    · simp only
      split
      · next t' _ hmade => exact ih.makeFolder hmade
      · exact ih
    · exact h

theorem writeFile {links : Nat} {names : List String} {content : ByteArray} {t' : Tree}
    (hwritten : t.writeFile links names content = some t') : t'.Formed := by
  fun_induction Tree.writeFile t links names content with
  | case1 links names place old hfollow =>
    cases hwritten
    exact h.put (h.isNewName_of_follow (fun _ hmem => absurd hmem List.not_mem_nil) hfollow) _
  | case3 links names hmissing place hplace hnone =>
    cases hwritten
    exact h.put (h.isNewName_of_newPlace? hplace) _
  | case5 names hmissing place hplace target hlink links ih => exact ih hwritten
  | case2 | case4 | case6 | case7 => cases hwritten

theorem write (base : List String) (path : String) (content : ByteArray) :
    (t.write base path content).Formed := by
  rw [Tree.write]
  split
  · have hmade := h.makeFirst (above base path)
    simp only
    cases hwritten : (t.makeFirst (above base path)).2.writeFile maxLinks (base ++ steps path)
        content with
    | none => exact hmade
    | some t' => exact hmade.writeFile hwritten
  · exact h

theorem remove? {base : List String} {path : String} {t' : Tree}
    (hremoved : t.remove? base path = some t') : t'.Formed := by
  rw [Tree.remove?] at hremoved
  simp only [Option.bind_eq_bind, Option.bind_eq_some_iff] at hremoved
  obtain ⟨-, -, place, -, hfiltered⟩ := hremoved
  split at hfiltered
  · cases hfiltered
    exact h.filter _
  · cases hfiltered
    exact h.filter _
  · cases hfiltered

theorem link? {base : List String} {path target : String} {t' : Tree}
    (hlinked : t.link? base path target = some t') : t'.Formed := by
  rw [Tree.link?] at hlinked
  simp only [Option.bind_eq_bind, Option.bind_eq_some_iff] at hlinked
  obtain ⟨-, -, place, hplace, hput⟩ := hlinked
  split at hput
  · cases hput
  · cases hput
    exact h.put (h.isNewName_of_newPlace? hplace) _

end Formed

end Tree

namespace Directory

variable {d : Directory} (h : d.tree.Formed)
include h

theorem formed_write (path : String) (content : ByteArray) : (d.write path content).tree.Formed :=
  h.write ..

theorem formed_remove (path : String) : (d.remove path).2.tree.Formed := by
  unfold remove
  cases hremoved : d.tree.remove? d.root (relative path) with
  | none => exact h
  | some tree => exact h.remove? hremoved

theorem formed_makeFolder (path : String) : (d.makeFolder path).2.tree.Formed := by
  rw [makeFolder]
  simp only [Tree.makeFolders]
  split
  · exact h.makeFirst _
  · exact h

theorem formed_link (path target : String) : (d.link path target).2.tree.Formed := by
  unfold link
  cases hlinked : d.tree.link? d.root (relative path) (relative target) with
  | none => exact h
  | some tree => exact h.link? hlinked

/-- A change to what is in a folder. -/
inductive Edit
  | write (path : String) (content : ByteArray)
  | remove (path : String)
  | makeFolder (path : String)
  | link (path target : String)

def Edit.perform (d : Directory) : Edit → Directory
  | .write path content => d.write path content
  | .remove path => (d.remove path).2
  | .makeFolder path => (d.makeFolder path).2
  | .link path target => (d.link path target).2

theorem formed_perform (edit : Edit) : (edit.perform d).tree.Formed := by
  cases edit with
  | write path content => exact formed_write h path content
  | remove path => exact formed_remove h path
  | makeFolder path => exact formed_makeFolder h path
  | link path target => exact formed_link h path target

theorem formed_run (edits : List Edit) : (edits.foldl Edit.perform d).tree.Formed := by
  induction edits generalizing d with
  | nil => exact h
  | cons edit edits ih => exact ih (formed_perform h edit)

end Directory

end Templating
