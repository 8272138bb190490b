import Mathlib.Data.Finset.Basic
import Templating.Proofs.ByteOrder
import Templating.Proofs.Source.Canonical
import Templating.Proofs.Source.Handouts

/-!
# The files that a run leaves in memory

Writes and removals leave a set of paths with files (`Memory.pathsAfter`). The files are kept in the
order of their paths, and to look into a folder a stretch of them is walked, up to the first path
that does not start with the folder's name. `Memory.lists_exactly`: nothing is missed by this. After
any run a folder is there if some path starts with its name, and it lists the paths that do and have
no slash behind the name, each of them once, in ascending order of their bytes.
-/

namespace Templating.Memory

/-- The paths that have a file after a deed, from those that had one before it. -/
def Deed.pathsFrom (paths : Finset String) : Deed → Finset String
  | .write path _ => insert path paths
  | .remove path => paths.erase path
  | .watch _ | .release _ => paths

/-- The paths that have a file after a run from an empty store. -/
def pathsAfter (deeds : List Deed) : Finset String := deeds.foldl Deed.pathsFrom ∅

/-- There is a file at each of the paths and at no other, and files are in ascending order. -/
structure Inventory (scene : Scene Memory) (paths : Finset String) : Prop where
  ascending : Sorted.Ascending scene.world.files
  isSome_iff : ∀ path, (scene.world.files.lookup path).isSome = true ↔ path ∈ paths

theorem inventory_empty (push : Bool) : Inventory { world := { push } } ∅ :=
  ⟨List.Pairwise.nil, fun path => iff_of_false nofun (Finset.notMem_empty path)⟩

namespace Inventory

variable {scene : Scene Memory} {paths : Finset String} (h : Inventory scene paths)
include h

theorem write (path content : String) :
    Inventory (Memory.write path content scene).2 (insert path paths) where
  ascending := (changed_write path content scene).ascending h.ascending
  isSome_iff other := by
    rw [lookup_write, Finset.mem_insert]
    split
    · next heq => exact iff_of_true rfl (.inl heq)
    · next hne => rw [h.isSome_iff, or_iff_right hne]

theorem remove (path : String) : Inventory (Memory.remove path scene).2 (paths.erase path) where
  ascending := by
    cases hfile : (scene.world.files.lookup path).isSome with
    | true => exact (changed_remove_present hfile).ascending h.ascending
    | false =>
      rw [remove_absent hfile]
      exact h.ascending
  isSome_iff other := by
    rw [lookup_remove, Finset.mem_erase]
    split
    · next heq => exact iff_of_false Bool.false_ne_true fun hmem => hmem.1 heq
    · next hne => rw [h.isSome_iff, and_iff_right hne]

theorem watch (path : String) : Inventory (Memory.watch path scene).2 paths := by
  have hfiles := (undisturbed_watch path scene).files
  exact ⟨hfiles ▸ h.ascending, hfiles ▸ h.isSome_iff⟩

/-- **A deed does to the files** what it does to the set of their paths. -/
theorem perform (deed : Deed) : Inventory (deed.perform scene) (deed.pathsFrom paths) := by
  cases deed with
  | write path content => exact h.write path content
  | remove path => exact h.remove path
  | watch path => exact h.watch path
  | release t => exact ⟨h.ascending, h.isSome_iff⟩

theorem run (deeds : List Deed) :
    Inventory (Memory.run scene deeds) (deeds.foldl Deed.pathsFrom paths) := by
  induction deeds generalizing scene paths with
  | nil => exact h
  | cons deed deeds ih => exact ih (h.perform deed)

/-! ### What folders hold -/

theorem isFolder_iff (folder : String) :
    scene.world.isFolder folder = true ↔ ∃ path ∈ paths, ∃ rest, path = asFolder folder ++ rest := by
  rw [Memory.isFolder_iff scene.world h.ascending]
  apply exists_congr
  intro path
  rw [h.isSome_iff, Text.startsWith_iff_append]

theorem mem_list_iff (folder path : String) :
    path ∈ scene.world.list folder ↔
      path ∈ paths ∧ ∃ name, path = asFolder folder ++ name ∧ '/' ∉ name.toList := by
  rw [scene.world.list_eq_listing h.ascending, mem_listing, h.isSome_iff, isDirectChild_iff_append]

theorem pairwise_list (folder : String) :
    (scene.world.list folder).Pairwise fun a b => Text.bytes a < Text.bytes b := by
  rw [scene.world.list_eq_listing h.ascending]
  exact (pairwise_listing h.ascending _).imp Text.lt_iff_bytes_lt.1

end Inventory

/-- **A folder lists what lies in it**: it is there if a path starts with its name, and of the paths
that do it lists those without a slash behind the name, each once, in ascending order of bytes. -/
theorem lists_exactly (push : Bool) (deeds : List Deed) (folder : String) :
    let scene := run { world := { push } } deeds
    ((source.isFolder folder scene).1 = true ↔
      ∃ path ∈ pathsAfter deeds, ∃ rest, path = asFolder folder ++ rest) ∧
    (∀ path, path ∈ (source.list folder scene).1 ↔
      path ∈ pathsAfter deeds ∧ ∃ name, path = asFolder folder ++ name ∧ '/' ∉ name.toList) ∧
    (source.list folder scene).1.Pairwise fun a b => Text.bytes a < Text.bytes b := by
  intro scene
  have h : Inventory scene (pathsAfter deeds) := (inventory_empty push).run deeds
  exact ⟨h.isFolder_iff folder, h.mem_list_iff folder, h.pairwise_list folder⟩

/-- Files of a folder further in stand between those of the folder itself. -/
example :
    let deeds : List Deed := [.write "~/v/z" "", .write "~/v/n/b" "", .write "~/v0" "",
      .write "~/v/a" "", .write "~/v/m" "", .remove "~/v/m"]
    (source.list "~/v" (run { world := { push := false } } deeds)).1 = ["~/v/a", "~/v/z"] := by
  decide

end Templating.Memory
