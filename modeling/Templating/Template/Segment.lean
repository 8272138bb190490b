import Templating.Template.Lexeme

/-!
# The segments of a template

A template is text with tags in it. A tag starts with two characters that say what it is: a value
to be printed, a statement, or a comment. Comments leave nothing behind. A hyphen next to a
delimiter removes the blanks on that side of the tag. One line break at the very end of the source
is not part of the template.
-/

namespace Templating.Template

inductive Marker
  | output
  | statement
  | comment
  deriving DecidableEq

namespace Marker

/-- The marker that a text starts with, and what is behind it. -/
def read? : List Char → Option (Marker × List Char)
  | '\x7b' :: '\x7b' :: rest => some (.output, rest)
  | '\x7b' :: '%' :: rest => some (.statement, rest)
  | '\x7b' :: '#' :: rest => some (.comment, rest)
  | _ => none

theorem length_of_read? {cs rest : List Char} {m : Marker} (h : read? cs = some (m, rest)) :
    rest.length < cs.length := by
  unfold read? at h
  split at h <;> simp_all only [Option.some.injEq, Prod.mk.injEq, reduceCtorEq, List.length_cons]
  all_goals omega

end Marker

/-- The text up to the first marker, that marker, and what is behind it. -/
def breakOnMarker : List Char → List Char × Option (Marker × List Char)
  | [] => ([], none)
  | c :: cs =>
    match Marker.read? (c :: cs) with
    | some tag => ([], some tag)
    | none =>
      let (before, tag) := breakOnMarker cs
      (c :: before, tag)

theorem length_of_breakOnMarker {cs before rest : List Char} {m : Marker}
    (h : breakOnMarker cs = (before, some (m, rest))) : rest.length < cs.length := by
  fun_induction breakOnMarker cs generalizing before with
  | case1 => simp at h
  | case2 c cs tag htag =>
    simp only [Prod.mk.injEq, Option.some.injEq] at h
    exact Marker.length_of_read? (h.2 ▸ htag)
  | case3 c cs _ before' tag hb ih =>
    simp only [Prod.mk.injEq] at h
    have := ih (h.2 ▸ hb)
    exact Nat.lt_succ_of_lt this

inductive Segment
  /-- Text that starts on the given line. -/
  | text (line : Nat) (content : String)
  /-- A value to be printed, in a tag that starts on the given line. -/
  | output (line : Nat) (code : List Token)
  | statement (code : List Token)

namespace Segment

/-- The text segment of some characters, unless there are none. -/
def ofText (line : Nat) (cs : List Char) : List Segment :=
  if cs = [] then [] else [.text line (String.ofList cs)]

/-- The text in front of a tag, given what is behind the tag's marker: without the blanks at its
end if a hyphen follows. -/
def lead (cs inside : List Char) : List Char :=
  if inside.head? = some '-' then Text.trimEndChars cs else cs

/-- What is behind a marker without the sign that may follow. -/
def unsigned : List Char → List Char
  | '-' :: cs | '+' :: cs => cs
  | cs => cs

theorem length_unsigned_le (cs : List Char) : (unsigned cs).length ≤ cs.length := by
  unfold unsigned
  split <;> simp

def outputClosers : List Code.Closer := [⟨['-', '\x7d', '\x7d'], true⟩, ⟨['\x7d', '\x7d'], false⟩]

def statementClosers : List Code.Closer :=
  [⟨['-', '%', '\x7d'], true⟩, ⟨['+', '%', '\x7d'], false⟩, ⟨['%', '\x7d'], false⟩]

/-- Text without the blanks at its start if the tag before it asked for that, and the lines that
these go down. -/
def afterTag (trim : Bool) (cs : List Char) : List Char × Nat :=
  if trim then (cs.dropWhile Text.isBlank, newlines (cs.takeWhile Text.isBlank)) else (cs, 0)

theorem length_afterTag_le (trim : Bool) (cs : List Char) :
    (afterTag trim cs).1.length ≤ cs.length := by
  unfold afterTag
  split
  · exact (List.dropWhile_sublist _).length_le
  · exact Nat.le_refl _

/-- Cuts a text that starts on the given line into segments. -/
def cut (line : Nat) (trim : Bool) (cs : List Char) : Option (List Segment) :=
  let start := afterTag trim cs
  match _h : breakOnMarker start.1 with
  | (before, none) => some (ofText (line + start.2) before)
  | (before, some (marker, inside)) =>
    let segments := ofText (line + start.2) (lead before inside)
    let line := line + start.2 + newlines before
    match marker with
    | .comment =>
      match _hc : Text.breakOn Declaration.closer (unsigned inside) with
      | none => none
      | some (comment, rest) =>
        (cut (line + newlines comment) (comment.getLast? == some '-') rest).map (segments ++ ·)
    | .output =>
      match _hc : Code.read? outputClosers line (unsigned inside) with
      | none => none
      | some code =>
        (cut code.line code.trim code.rest).map (segments ++ .output line code.tokens :: ·)
    | .statement =>
      match _hc : Code.read? statementClosers line (unsigned inside) with
      | none => none
      | some code =>
        (cut code.line code.trim code.rest).map (segments ++ .statement code.tokens :: ·)
termination_by cs.length
decreasing_by
  · have := length_of_breakOnMarker _h
    have : start.1.length ≤ cs.length := length_afterTag_le trim cs
    have := Text.length_of_breakOn _hc
    have := length_unsigned_le inside
    omega
  all_goals
    have := length_of_breakOnMarker _h
    have : start.1.length ≤ cs.length := length_afterTag_le trim cs
    have := Code.length_of_read? _hc
    have := length_unsigned_le inside
    omega

/-- A source without the line break at its end. -/
def withoutFinalBreak (cs : List Char) : List Char :=
  match cs.reverse with
  | '\n' :: '\r' :: rest => rest.reverse
  | '\n' :: rest => rest.reverse
  | '\r' :: rest => rest.reverse
  | _ => cs

def ofSource (source : String) : Option (List Segment) :=
  cut 1 false (withoutFinalBreak source.toList)

end Segment

end Templating.Template
