import Templating.Text.Case
import Templating.Text.Cut

/-!
# Names of files

A path ends in a file name, and a file name in an extension, which is compared without regard to
ASCII case. The extension is measured in bytes of UTF-8, so a path may be such that no extension of
this length can be cut off without splitting a character; then it does not carry the extension.
-/

namespace Templating

/-- `path` without `extension`, if it ends so. -/
def withoutExtension? (extension path : String) : Option String :=
  if extension.utf8ByteSize ≤ path.utf8ByteSize then
    match Text.cutAfter (path.utf8ByteSize - extension.utf8ByteSize) path.toList with
    | some (stem, tail) =>
      if Text.sameIgnoringCase (String.ofList tail) extension then some (String.ofList stem)
      else none
    | none => none
  else none

def hasExtension (extension path : String) : Bool := (withoutExtension? extension path).isSome

/-- What follows the last slash of a path. -/
def fileName (path : String) : String :=
  String.ofList ((path.toList.reverse.takeWhile (· != '/')).reverse)

/-- The path of a folder, with the slash that ends it. -/
def asFolder (path : String) : String :=
  if path.toList.getLast? = some '/' then path else path ++ "/"

/-- Whether a change at `changed` concerns one who watches `watched`: the same path, or a folder,
written with its slash, above it. -/
def covers (watched changed : String) : Bool :=
  watched == changed ||
    (watched.toList.getLast? == some '/' && Text.startsWith watched changed)

end Templating
