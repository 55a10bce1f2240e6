import Mathlib.Data.Nat.Basic
import Mathlib.Data.String.Basic
import Mathlib.Tactic.Common

/-!
# Texts and words as bytes

A byte of an encoded character is the code of the character or is not an ASCII
byte, so a text holds an ASCII byte exactly where it holds the character.  The
bytes of a word are its digits, and determine it.
-/

namespace Encoding

/-! ## Texts -/

/-- A byte of a character is its code, or is not an ASCII byte. -/
theorem toNat_of_mem_utf8EncodeChar
    {char : Char} {byte : UInt8}
    (member : byte ∈ String.utf8EncodeChar char) :
    byte.toNat = char.val.toNat ∨ 0x80 ≤ byte.toNat := by
  unfold String.utf8EncodeChar at member
  dsimp only at member
  split at member
  case isTrue ascii =>
    rw [List.mem_singleton.mp member, UInt8.toNat_ofNat']
    exact .inl (Nat.mod_eq_of_lt (by omega))
  case isFalse wide =>
    refine .inr ?_
    split_ifs at member <;>
      simp only [List.mem_cons, List.not_mem_nil, or_false] at member <;>
      rcases member with rfl | rfl | rfl | rfl <;>
      rw [UInt8.toNat_ofNat'] <;> omega

/-- The bytes of a text are those of its characters. -/
theorem toList_toUTF8 (text : String) :
    text.toUTF8.data.toList = text.toList.flatMap String.utf8EncodeChar := by
  have encoded : text.toUTF8 =
      (text.toList.flatMap String.utf8EncodeChar).toByteArray := by
    rw [String.toUTF8_eq_toByteArray, ← String.utf8Encode_toList,
      List.utf8Encode]
  rw [encoded, List.data_toByteArray]

/-- A text holds an ASCII byte exactly where it holds the character. -/
theorem mem_toUTF8_iff
    {char : Char}
    (ascii : char.val ≤ 127)
    (text : String) :
    char.val.toUInt8 ∈ text.toUTF8.data.toList ↔ char ∈ text.toList := by
  have atMost : char.val.toNat ≤ 127 := UInt32.le_iff_toNat_le.mp ascii
  have code : char.val.toUInt8.toNat = char.val.toNat := by
    rw [UInt32.toNat_toUInt8]
    exact Nat.mod_eq_of_lt (by omega)
  rw [toList_toUTF8, List.mem_flatMap]
  constructor
  · rintro ⟨other, member, byteOf⟩
    have sameOrWide := toNat_of_mem_utf8EncodeChar byteOf
    have same : char.val.toNat = other.val.toNat := by omega
    rwa [Char.ext (UInt32.toNat_inj.mp same)]
  · intro member
    refine ⟨char, member, ?_⟩
    rw [String.utf8EncodeChar_eq_singleton (Char.utf8Size_eq_one_iff.mpr ascii)]
    exact List.mem_singleton_self _

/-! ## Words -/

/-- The last digits of a number determine its remainder. -/
theorem mod_pow_eq_of_digits
    {base width left right : Nat}
    (same : ∀ index < width,
      left / base ^ index % base = right / base ^ index % base) :
    left % base ^ width = right % base ^ width := by
  induction width with
  | zero => rw [pow_zero, Nat.mod_one, Nat.mod_one]
  | succ width inductionHypothesis =>
      rw [Nat.mod_pow_succ, Nat.mod_pow_succ, same width (Nat.lt_succ_self _),
        inductionHypothesis fun index below => same index (by omega)]

/-- A byte of a word is a digit of it. -/
theorem toNat_byte (word : UInt64) {index : Nat} (below : index < 8) :
    (word >>> (8 * .ofNat index)).toUInt8.toNat =
      word.toNat / 256 ^ index % 256 := by
  have shift : (8 * UInt64.ofNat index).toNat % 64 = 8 * index := by
    simp only [UInt64.toNat_mul, UInt64.toNat_ofNat', UInt64.reduceToNat]
    omega
  rw [UInt64.toNat_toUInt8, UInt64.toNat_shiftRight, shift,
    Nat.shiftRight_eq_div_pow, pow_mul]
  rfl

/-- A word is determined by its bytes. -/
theorem word_eq_of_bytes
    {left right : UInt64}
    (same : ∀ index < 8,
      (left >>> (8 * .ofNat index)).toUInt8 =
        (right >>> (8 * .ofNat index)).toUInt8) :
    left = right := by
  have digits : ∀ index < 8,
      left.toNat / 256 ^ index % 256 = right.toNat / 256 ^ index % 256 := by
    intro index below
    rw [← toNat_byte left below, ← toNat_byte right below, same index below]
  have remainders := mod_pow_eq_of_digits digits
  have below : ∀ word : UInt64, word.toNat < 256 ^ 8 := UInt64.toNat_lt
  rw [Nat.mod_eq_of_lt (below left), Nat.mod_eq_of_lt (below right)]
    at remainders
  exact UInt64.toNat_inj.mp remainders

end Encoding
