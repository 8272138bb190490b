/-!
# ASCII letter case

Names of data entries and file extensions are compared without regard to the case of ASCII
letters. All other characters, also letters such as `é`, are compared as they are.
-/

namespace Templating.Text

/-- The characters of `s` with ASCII capitals made small. -/
def foldedChars (s : String) : List Char := s.toList.map Char.toLower

/-- `s` with ASCII capitals made small. -/
def lower (s : String) : String := String.ofList (foldedChars s)

/-- Equality without regard to the case of ASCII letters. -/
def sameIgnoringCase (a b : String) : Bool := foldedChars a == foldedChars b

theorem sameIgnoringCase_iff {a b : String} :
    sameIgnoringCase a b = true ↔ foldedChars a = foldedChars b := by
  simp [sameIgnoringCase]

theorem sameIgnoringCase_refl (a : String) : sameIgnoringCase a a = true := by
  simp [sameIgnoringCase]

end Templating.Text
