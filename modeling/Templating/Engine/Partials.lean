import Templating.Source.Basic
import Templating.Source.Path

/-!
# Partial files

The partials of a group are the files with the template extension directly in its partial folders,
in the order of the folders. A partial is named for its file, without the extension and with spaces
and hyphens turned into underscores.
-/

namespace Templating

/-- A space or hyphen becomes an underscore. -/
def underscored (c : Char) : Char := if c = ' ' ∨ c = '-' then '_' else c

def partialName (extension path : String) : String :=
  let file := fileName path
  String.ofList (((withoutExtension? extension file).getD file).toList.map underscored)

variable {W : Type}

/-- The partial files in the given folders. Each folder is listed right after it was found to
exist. -/
def scanPartials (s : Source W) (extension : String) : List String → Act W (List String)
  | [] => return []
  | folder :: folders => do
    let files ← if ← s.isFolder folder then s.list folder else pure []
    return files.filter (hasExtension extension) ++ (← scanPartials s extension folders)

end Templating
