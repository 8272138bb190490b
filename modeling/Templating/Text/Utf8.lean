/-!
# Reading UTF-8

A file read as text must be well-formed UTF-8. When it is not, `firstFault` says where the longest
well-formed beginning ends and how many bytes from there can never be part of a character; when
the bytes merely stop inside a character there is no such number.
-/

namespace Templating.Text.Utf8

/-- Where a byte sequence stops being UTF-8. -/
structure Fault where
  /-- Number of bytes in front that are well formed. -/
  index : Nat
  /-- Number of bytes that must be skipped, absent when the sequence ends inside a character. -/
  length : Option Nat
  deriving DecidableEq

namespace Fault

def message : Fault → String
  | ⟨index, some length⟩ => s!"invalid utf-8 sequence of {length} bytes from index {index}"
  | ⟨index, none⟩ => s!"incomplete utf-8 byte sequence from index {index}"

end Fault

/-- What a lead byte asks of the bytes behind it: the range of the second byte, and how many
bytes of any continuation value follow that. -/
structure Lead where
  low : UInt8
  high : UInt8
  further : Nat

/-- The well-formed lead bytes of characters of two to four bytes. -/
def lead (b : UInt8) : Option Lead :=
  if 0xC2 ≤ b ∧ b ≤ 0xDF then some ⟨0x80, 0xBF, 0⟩
  else if b = 0xE0 then some ⟨0xA0, 0xBF, 1⟩
  else if b = 0xED then some ⟨0x80, 0x9F, 1⟩
  else if 0xE1 ≤ b ∧ b ≤ 0xEF then some ⟨0x80, 0xBF, 1⟩
  else if b = 0xF0 then some ⟨0x90, 0xBF, 2⟩
  else if b = 0xF4 then some ⟨0x80, 0x8F, 2⟩
  else if 0xF1 ≤ b ∧ b ≤ 0xF3 then some ⟨0x80, 0xBF, 2⟩
  else none

def isContinuation (b : UInt8) : Bool := 0x80 ≤ b && b ≤ 0xBF

/-- What the next bytes still have to be. -/
inductive Expecting
  /-- A new character starts. -/
  | start
  /-- The second byte of a character that started at `index`. -/
  | second (index : Nat) (lead : Lead)
  /-- `left` more bytes of a character of which `seen` bytes were read. -/
  | more (index seen left : Nat)

def scan (offset : Nat) : Expecting → List UInt8 → Option Fault
  | .start, [] => none
  | .second index _, [] => some ⟨index, none⟩
  | .more index _ _, [] => some ⟨index, none⟩
  | .start, b :: bytes =>
    if b < 0x80 then scan (offset + 1) .start bytes
    else
      match lead b with
      | some l => scan (offset + 1) (.second offset l) bytes
      | none => some ⟨offset, some 1⟩
  | .second index l, b :: bytes =>
    if l.low ≤ b ∧ b ≤ l.high then
      if l.further = 0 then scan (offset + 1) .start bytes
      else scan (offset + 1) (.more index 2 l.further) bytes
    else some ⟨index, some 1⟩
  | .more index seen left, b :: bytes =>
    if isContinuation b then
      if left ≤ 1 then scan (offset + 1) .start bytes
      else scan (offset + 1) (.more index (seen + 1) (left - 1)) bytes
    else some ⟨index, some seen⟩

/-- The first fault of a byte sequence, if it is not UTF-8. -/
def firstFault (bytes : List UInt8) : Option Fault := scan 0 .start bytes

/-- The text that `bytes` encode, or where they stop being UTF-8. -/
def decode (bytes : ByteArray) : Except Fault String :=
  match String.fromUTF8? bytes with
  | some s => .ok s
  | none => .error ((firstFault bytes.toList).getD ⟨0, none⟩)

end Templating.Text.Utf8
