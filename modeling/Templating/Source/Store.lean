import Templating.Source.Directory
import Templating.Source.Memory

/-!
# Stores

A `Store` is a source whose files can also be changed. `Files` are kept either in memory or in a
folder of a file tree.
-/

namespace Templating

/-- A source with the means to change its files. -/
structure Store (W : Type) extends Source W where
  /-- Creates a file or replaces its content. -/
  write : (path content : String) → Act W Unit
  /-- Removes a file; whether there was one. -/
  remove : String → Act W Bool

def Memory.store : Store Memory :=
  { Memory.source with write := Memory.write, remove := Memory.remove }

namespace Directory

/-- Writes a file, with the folders above it. -/
def write (d : Directory) (path : String) (content : ByteArray) : Directory :=
  { d with tree := d.tree.write d.root (relative path) content }

/-- Removes a file; whether there was one. -/
def remove (d : Directory) (path : String) : Bool × Directory :=
  match d.tree.remove? d.root (relative path) with
  | some tree => (true, { d with tree })
  | none => (false, d)

/-- Creates a folder, with the folders above it; whether it is there now. -/
def makeFolder (d : Directory) (path : String) : Bool × Directory :=
  let (made, tree) := d.tree.makeFolders d.root (relative path)
  (made, { d with tree })

/-- Creates a link to another path of the folder; whether that was possible. -/
def link (d : Directory) (path target : String) : Bool × Directory :=
  match d.tree.link? d.root (relative path) (relative target) with
  | some tree => (true, { d with tree })
  | none => (false, d)

def store : Store Directory :=
  { source with
    write := fun path content =>
      modify fun scene => { scene with world := scene.world.write path content.toUTF8 }
    remove := fun path =>
      modifyGet fun scene =>
        let (found, d) := scene.world.remove path
        (found, { scene with world := d }) }

end Directory

/-- Template files of one kind or the other. -/
inductive Files
  | memory (files : Memory)
  | directory (folder : Directory)

namespace Files

def act {α : Type} (onMemory : Act Memory α) (onDirectory : Act Directory α) : Act Files α :=
  fun scene =>
    match scene.world with
    | .memory m =>
      let (a, inner) := onMemory { scene with world := m }
      (a, { inner with world := .memory inner.world })
    | .directory d =>
      let (a, inner) := onDirectory { scene with world := d }
      (a, { inner with world := .directory inner.world })

def store : Store Files where
  isFile path := act (Memory.store.isFile path) (Directory.store.isFile path)
  isFolder path := act (Memory.store.isFolder path) (Directory.store.isFolder path)
  list path := act (Memory.store.list path) (Directory.store.list path)
  read path := act (Memory.store.read path) (Directory.store.read path)
  fingerprint path := act (Memory.store.fingerprint path) (Directory.store.fingerprint path)
  watch path := act (Memory.store.watch path) (Directory.store.watch path)
  capacity
    | .memory m => Memory.store.capacity m
    | .directory d => Directory.store.capacity d
  write path content := act (Memory.store.write path content) (Directory.store.write path content)
  remove path := act (Memory.store.remove path) (Directory.store.remove path)

end Files

end Templating
