import Mathlib.Data.List.Forall2
import Templating.Proofs.ByteOrder
import Templating.Text.Case

/-!
# Letters in either case

Texts are the same up to the case of ASCII letters if they are so character by character
(`Text.sameIgnoringCase_iff_recased`). In UTF-8 the ASCII letters are single bytes, which no other
character has in it, so this can be told from the bytes as well (`Text.sameBytesIgnoringCase_eq`),
and texts that differ in case alone have equally many bytes.
-/

namespace Templating.Text

/-- The same character, or an ASCII capital and its small letter. -/
def SameLetter (a b : Char) : Prop :=
  a = b ∨ a.isUpper = true ∧ b.toNat = a.toNat + 32 ∨ b.isUpper = true ∧ a.toNat = b.toNat + 32

instance : DecidableRel SameLetter := fun a b =>
  inferInstanceAs (Decidable (a = b ∨ a.isUpper = true ∧ b.toNat = a.toNat + 32 ∨
    b.isUpper = true ∧ a.toNat = b.toNat + 32))

/-- The same text up to the case of ASCII letters. -/
def Recased (a b : String) : Prop := List.Forall₂ SameLetter a.toList b.toList

/-! ## Characters -/

theorem isUpper_iff {c : Char} : c.isUpper = true ↔ 65 ≤ c.toNat ∧ c.toNat ≤ 90 := by
  unfold Char.isUpper
  rw [decide_eq_true_iff]
  exact and_congr UInt32.le_iff_toNat_le UInt32.le_iff_toNat_le

theorem toNat_toLower (c : Char) :
    c.toLower.toNat = if c.isUpper then c.toNat + 32 else c.toNat := by
  have hcapital : (c.val ≥ 'A'.val ∧ c.val ≤ 'Z'.val) ↔ c.isUpper = true := decide_eq_true_iff.symm
  unfold Char.toLower
  by_cases hc : c.isUpper = true
  · have hle : c.val.toNat ≤ 90 := (isUpper_iff.1 hc).2
    rw [dif_pos (hcapital.2 hc), if_pos hc]
    change (c.val.toNat + 32) % 2 ^ 32 = c.val.toNat + 32
    omega
  · rw [dif_neg (mt hcapital.1 hc), if_neg hc]

theorem toLower_eq_iff {a b : Char} : a.toLower = b.toLower ↔ SameLetter a b := by
  rw [← Char.toNat_inj, toNat_toLower, toNat_toLower, SameLetter, ← Char.toNat_inj]
  simp only [isUpper_iff]
  split_ifs <;> omega

/-- **Case is ignored letter by letter.** -/
theorem sameIgnoringCase_iff_recased {a b : String} :
    sameIgnoringCase a b = true ↔ Recased a b := by
  rw [sameIgnoringCase_iff, foldedChars, foldedChars, ← List.forall₂_eq_eq_eq,
    List.forall₂_map_left_iff, List.forall₂_map_right_iff]
  simp only [toLower_eq_iff]
  rfl

theorem SameLetter.eq_of_not_isAlpha {c d : Char} (h : SameLetter c d) (hc : c.isAlpha = false) :
    d = c := by
  obtain ⟨hupper, hlower⟩ := Bool.or_eq_false_iff.1 hc
  rcases h with rfl | ⟨hcapital, -⟩ | ⟨hcapital, hshift⟩
  · rfl
  · cases hupper.symm.trans hcapital
  · obtain ⟨hle, hge⟩ := isUpper_iff.1 hcapital
    have hsmall : c.isLower = true := by
      unfold Char.isLower
      rw [Bool.and_eq_true, decide_eq_true_iff, decide_eq_true_iff]
      exact ⟨UInt32.le_iff_toNat_le.2 (show 97 ≤ c.toNat by omega),
        UInt32.le_iff_toNat_le.2 (show c.toNat ≤ 122 by omega)⟩
    cases hlower.symm.trans hsmall

/-- What is no ASCII letter is in both texts. -/
theorem Recased.mem_of_mem {a b : String} (h : Recased a b) {c : Char} (hc : c.isAlpha = false)
    (hmem : c ∈ a.toList) : c ∈ b.toList := by
  rw [← sameIgnoringCase_iff_recased, sameIgnoringCase_iff] at h
  have hfolded : c.toLower ∈ foldedChars b := h ▸ List.mem_map_of_mem hmem
  obtain ⟨d, hd, heq⟩ := List.mem_map.1 hfolded
  rwa [(toLower_eq_iff.1 heq.symm).eq_of_not_isAlpha hc] at hd

/-! ## Bytes -/

/-- A byte, with an ASCII capital made small. -/
def lowerByte (b : UInt8) : UInt8 := if 65 ≤ b ∧ b ≤ 90 then b + 32 else b

/-- Equality of bytes without regard to the case of ASCII letters. -/
def sameBytesIgnoringCase (a b : String) : Bool :=
  (bytes a).map lowerByte == (bytes b).map lowerByte

theorem encode_of_ascii {c : Char} (h : c.toNat ≤ 127) :
    String.utf8EncodeChar c = [UInt8.ofNat c.toNat] := by
  have hle : c.val.toNat ≤ 127 := h
  unfold String.utf8EncodeChar
  simp only [hle, if_true]
  rfl

/-- No byte of another character is one of ASCII. -/
theorem le_of_mem_encode {c : Char} (h : 127 < c.toNat) :
    ∀ b ∈ String.utf8EncodeChar c, 128 ≤ b := by
  have hlt : 127 < c.val.toNat := h
  have hbound : c.val.toNat < 0x110000 := c.valid.elim (lt_trans · (by decide)) And.right
  unfold String.utf8EncodeChar
  generalize c.val.toNat = n at hlt hbound
  simp only [UInt8.le_iff_toNat_le]
  split_ifs <;> simp [UInt8.toNat_ofNat'] <;> omega

theorem lowerByte_of_le {b : UInt8} (h : 128 ≤ b) : lowerByte b = b := by
  unfold lowerByte
  rw [if_neg]
  rintro ⟨-, hle⟩
  rw [UInt8.le_iff_toNat_le] at h hle
  have hcontra : 128 ≤ 90 := h.trans hle
  omega

theorem lowerByte_ofNat {n : Nat} (h : n ≤ 127) :
    lowerByte (UInt8.ofNat n) = UInt8.ofNat (if 65 ≤ n ∧ n ≤ 90 then n + 32 else n) := by
  have hiff : (65 ≤ UInt8.ofNat n ∧ UInt8.ofNat n ≤ 90) ↔ 65 ≤ n ∧ n ≤ 90 := by
    rw [UInt8.le_iff_toNat_le, UInt8.le_iff_toNat_le, UInt8.toNat_ofNat',
      Nat.mod_eq_of_lt (show n < 256 by omega)]
    rfl
  unfold lowerByte
  by_cases hn : 65 ≤ n ∧ n ≤ 90
  · rw [if_pos (hiff.2 hn), if_pos hn, UInt8.ofNat_add]
    rfl
  · rw [if_neg (mt hiff.1 hn), if_neg hn]

theorem encode_toLower (c : Char) :
    String.utf8EncodeChar c.toLower = (String.utf8EncodeChar c).map lowerByte := by
  have hlower := toNat_toLower c
  simp only [isUpper_iff] at hlower
  by_cases hascii : c.toNat ≤ 127
  · have hascii' : c.toLower.toNat ≤ 127 := by
      rw [hlower]
      split_ifs <;> omega
    rw [encode_of_ascii hascii, encode_of_ascii hascii', hlower, List.map_singleton,
      lowerByte_ofNat hascii]
  · have hsame : c.toLower = c := Char.toNat_inj.1 (by rw [hlower, if_neg (by omega)])
    have hbytes : ∀ b ∈ String.utf8EncodeChar c, lowerByte b = b := fun b hb =>
      lowerByte_of_le (le_of_mem_encode (not_le.1 hascii) b hb)
    rw [hsame, List.map_congr_left hbytes, List.map_id']

theorem bytes_lower (s : String) : bytes (lower s) = (bytes s).map lowerByte := by
  rw [bytes_eq_flatMap, bytes_eq_flatMap, lower, foldedChars, String.toList_ofList, List.flatMap_map,
    List.map_flatMap]
  exact List.flatMap_congr fun c _ => encode_toLower c

theorem bytes_inj {a b : String} : bytes a = bytes b ↔ a = b :=
  ⟨fun h => String.toByteArray_inj.1 (ByteArray.ext (Array.toList_inj.1 h)), congrArg bytes⟩

/-- **Case is ignored byte by byte** to the same effect. -/
theorem sameBytesIgnoringCase_eq (a b : String) :
    sameBytesIgnoringCase a b = sameIgnoringCase a b := by
  rw [Bool.eq_iff_iff, sameIgnoringCase_iff, sameBytesIgnoringCase, beq_iff_eq, ← bytes_lower,
    ← bytes_lower, bytes_inj, lower, lower, String.ofList_inj]

theorem Recased.utf8ByteSize_eq {a b : String} (h : Recased a b) :
    a.utf8ByteSize = b.utf8ByteSize := by
  have hlength (s : String) : ((bytes s).map lowerByte).length = s.utf8ByteSize := by
    rw [List.length_map]
    rfl
  rw [← sameIgnoringCase_iff_recased, ← sameBytesIgnoringCase_eq, sameBytesIgnoringCase,
    beq_iff_eq] at h
  rw [← hlength, ← hlength, h]

end Templating.Text
