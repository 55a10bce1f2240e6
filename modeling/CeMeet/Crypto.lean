import CeMeet.Foundation.Encoding
import CeMeet.Proto

/-!
# Cryptographic primitives

The hash, the keyed digest and the hexadecimal coding are parameters of the
model.  The comparison of digests is the program's own.
-/

namespace CeMeet

/-- The hash, the keyed digest and the hexadecimal coding. -/
structure Crypto where
  /-- Write bytes in hexadecimal. -/
  hexEncode : Bytes → String
  /-- Read hexadecimal digits. -/
  hexDecode : Bytes → Option Bytes
  /-- The hash of a concatenation of updates. -/
  sha256 : Bytes → Bytes
  /-- The keyed digest of a concatenation of updates, unless the key is
  refused. -/
  hmacSha256 : Bytes → Option (Bytes → Bytes)

/-- The bytes of a word, least significant first. -/
def toLeBytes (word : UInt64) : Bytes :=
  (List.range 8).map fun index => (word >>> (8 * .ofNat index)).toUInt8

@[simp] theorem length_toLeBytes (word : UInt64) :
    (toLeBytes word).length = 8 := by
  rw [toLeBytes, List.length_map, List.length_range]

theorem toLeBytes_inj {left right : UInt64} :
    toLeBytes left = toLeBytes right ↔ left = right := by
  refine ⟨fun same => ?_, fun same => by rw [same]⟩
  rw [toLeBytes, toLeBytes, List.map_inj_left] at same
  exact Encoding.word_eq_of_bytes fun index below =>
    same index (List.mem_range.mpr below)

/-- A word at the end of a byte string is told apart from what stands before
it. -/
theorem append_toLeBytes_inj {front back : Bytes} {left right : UInt64} :
    front ++ toLeBytes left = back ++ toLeBytes right ↔
      front = back ∧ left = right := by
  constructor
  · intro same
    obtain ⟨sameFront, sameWord⟩ := List.append_inj' same (by simp)
    exact ⟨sameFront, toLeBytes_inj.mp sameWord⟩
  · rintro ⟨rfl, rfl⟩
    rfl

/-- Compare two byte strings without an early exit. -/
def ctEq (left right : Bytes) : Bool :=
  if left.length ≠ right.length then false
  else
    (left.zip right).foldl (fun diff pair => diff ||| (pair.1 ^^^ pair.2)) 0 = 0

theorem foldl_diff_eq_zero_iff (pairs : List (UInt8 × UInt8)) (diff : UInt8) :
    pairs.foldl (fun diff pair => diff ||| (pair.1 ^^^ pair.2)) diff = 0 ↔
      diff = 0 ∧ ∀ pair ∈ pairs, pair.1 = pair.2 := by
  induction pairs generalizing diff with
  | nil => simp
  | cons pair pairs inductionHypothesis =>
      rw [List.foldl_cons, inductionHypothesis, UInt8.or_eq_zero_iff,
        UInt8.xor_eq_zero_iff, List.forall_mem_cons, and_assoc]

/-- No difference accumulates exactly if two byte strings agree wherever both
have a byte. -/
theorem zip_diff_eq_zero_iff {left right : Bytes} :
    (left.zip right).foldl (fun diff pair => diff ||| (pair.1 ^^^ pair.2)) 0 = 0 ↔
      ∀ (index : Nat) (inLeft : index < left.length)
        (inRight : index < right.length), left[index] = right[index] := by
  rw [foldl_diff_eq_zero_iff, and_iff_right rfl, List.forall_mem_iff_getElem]
  simp only [List.length_zip, lt_min_iff, List.getElem_zip]
  exact ⟨fun agree index inLeft inRight => agree index ⟨inLeft, inRight⟩,
    fun agree index inBoth => agree index inBoth.1 inBoth.2⟩

theorem ctEq_iff {left right : Bytes} :
    ctEq left right = true ↔ left = right := by
  unfold ctEq
  split
  case isTrue otherLength =>
    exact iff_of_false Bool.false_ne_true fun same =>
      otherLength (congrArg List.length same)
  case isFalse sameLength =>
    rw [not_not] at sameLength
    rw [decide_eq_true_iff, zip_diff_eq_zero_iff]
    constructor
    · exact List.ext_getElem sameLength
    · rintro rfl index inLeft inRight
      rfl

@[simp] theorem ctEq_self (bytes : Bytes) : ctEq bytes bytes = true :=
  ctEq_iff.mpr rfl

namespace Crypto

/-! ## Tabulated primitives -/

/-- A hexadecimal digit. -/
def hexDigit (nibble : UInt8) : Char :=
  if nibble < 10 then .ofNat (48 + nibble.toNat)
  else .ofNat (87 + nibble.toNat)

/-- The value of a hexadecimal digit in either case. -/
def hexValue (digit : UInt8) : Option UInt8 :=
  if 48 ≤ digit ∧ digit ≤ 57 then some (digit - 48)
  else if 97 ≤ digit ∧ digit ≤ 102 then some (digit - 87)
  else if 65 ≤ digit ∧ digit ≤ 70 then some (digit - 55)
  else none

/-- Read pairs of hexadecimal digits. -/
def hexPairs : Bytes → Option Bytes
  | [] => some []
  | [_] => none
  | high :: low :: rest =>
      match hexValue high, hexValue low, hexPairs rest with
      | some high, some low, some bytes => some ((high <<< 4 ||| low) :: bytes)
      | _, _, _ => none

/-- The hash and the keyed digest restricted to tables of their values. -/
def ofTables (digests : List (Bytes × Bytes))
    (macs : List ((Bytes × Bytes) × Bytes)) : Crypto where
  hexEncode bytes :=
    .ofList (bytes.flatMap fun byte : UInt8 =>
      [hexDigit (byte >>> 4), hexDigit (byte &&& 15)])
  hexDecode := hexPairs
  sha256 message := (digests.lookup message).getD []
  hmacSha256 key := some fun message => (macs.lookup (key, message)).getD []

end Crypto

end CeMeet
