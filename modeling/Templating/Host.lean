import Templating.Source.Tree

/-!
# The host

What the program sees of the machine it runs on: the file tree, the folder it was started in and
its environment.
-/

namespace Templating

/-- Files, working folder and environment. -/
structure Host where
  tree : Tree := {}
  /-- The place of the working folder. -/
  folder : List String := []
  /-- The values of the environment under their names. -/
  environment : List (String × String) := []

namespace Host

def isFile (h : Host) (path : String) : Bool := h.tree.isFile h.folder path

def isFolder (h : Host) (path : String) : Bool := h.tree.isFolder h.folder path

def read (h : Host) (path : String) : Except PathFault ByteArray := h.tree.read h.folder path

end Host

end Templating
