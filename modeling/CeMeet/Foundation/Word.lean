import Mathlib.Algebra.Group.Nat.Defs
import Mathlib.Data.Nat.Basic
import Mathlib.Order.SuccPred.Basic

/-!
# The order of 64-bit machine words

Unsigned words are linearly ordered with a least and a greatest element, and
saturating increment is the successor of that order: it is strict below the top
word and stationary there.  Stating the increment as `Order.succ` makes the
general successor lemmas available to every counter built on it.
-/

namespace UInt64

instance wordLinearOrder : LinearOrder UInt64 where
  le_refl _ := UInt64.le_refl _
  le_trans _ _ _ := UInt64.le_trans
  lt_iff_le_not_ge left right := by
    simp only [UInt64.le_iff_toNat_le, UInt64.lt_iff_toNat_lt]
    omega
  le_antisymm _ _ := UInt64.le_antisymm
  le_total := UInt64.le_total
  toDecidableLE := inferInstance
  toDecidableLT := inferInstance
  toDecidableEq := inferInstance
  max := max
  min := min
  max_def _ _ := rfl
  min_def _ _ := rfl
  compare := compare
  compare_eq_compareOfLessAndEq _ _ := rfl

/-- The greatest machine word. -/
def maxValue : UInt64 := 18446744073709551615

@[simp] theorem toNat_maxValue : maxValue.toNat = 2 ^ 64 - 1 := rfl

theorem le_maxValue (word : UInt64) : word ≤ maxValue := by
  rw [UInt64.le_iff_toNat_le, toNat_maxValue]
  have bound := word.toNat_lt
  omega

instance wordBoundedOrder : BoundedOrder UInt64 where
  top := maxValue
  le_top := le_maxValue
  bot := 0
  bot_le _ := UInt64.zero_le

instance wordNontrivial : Nontrivial UInt64 where
  exists_pair_ne := ⟨0, 1, by decide⟩

theorem bot_eq_zero : (⊥ : UInt64) = 0 := rfl

/-- Addition that stops at the top word instead of wrapping. -/
def saturatingAdd (left right : UInt64) : UInt64 :=
  if left.toNat + right.toNat < 2 ^ 64 then left + right else maxValue

/-- Subtraction that stops at zero instead of wrapping. -/
def saturatingSub (left right : UInt64) : UInt64 :=
  if right ≤ left then left - right else 0

theorem toNat_saturatingAdd (left right : UInt64) :
    (left.saturatingAdd right).toNat =
      min (left.toNat + right.toNat) (2 ^ 64 - 1) := by
  unfold saturatingAdd
  split
  case isTrue fits =>
    rw [UInt64.toNat_add, Nat.mod_eq_of_lt fits]
    omega
  case isFalse overflows =>
    rw [toNat_maxValue]
    omega

theorem toNat_saturatingSub (left right : UInt64) :
    (left.saturatingSub right).toNat = left.toNat - right.toNat := by
  unfold saturatingSub
  split
  case isTrue fits => exact UInt64.toNat_sub_of_le left right fits
  case isFalse negative =>
    rw [UInt64.le_iff_toNat_le] at negative
    rw [UInt64.toNat_zero]
    omega

theorem le_saturatingAdd (word other : UInt64) :
    word ≤ word.saturatingAdd other := by
  rw [UInt64.le_iff_toNat_le, toNat_saturatingAdd]
  have bound := word.toNat_lt
  omega

instance wordSuccOrder : SuccOrder UInt64 where
  succ word := word.saturatingAdd 1
  le_succ word := le_saturatingAdd word 1
  max_of_succ_le := by
    intro word succLe other _
    rw [UInt64.le_iff_toNat_le, toNat_saturatingAdd] at succLe
    rw [UInt64.le_iff_toNat_le]
    have bound := other.toNat_lt
    simp only [UInt64.toNat_one] at succLe
    omega
  succ_le_of_lt := by
    intro left right lt
    rw [UInt64.lt_iff_toNat_lt] at lt
    rw [UInt64.le_iff_toNat_le, toNat_saturatingAdd]
    simp only [UInt64.toNat_one]
    omega

/-- Saturating increment is the successor of the word order. -/
@[simp] theorem saturatingAdd_one (word : UInt64) :
    word.saturatingAdd 1 = Order.succ word := rfl

theorem isMax_iff_eq_maxValue {word : UInt64} :
    IsMax word ↔ word = maxValue :=
  isMax_iff_eq_top

theorem toNat_add_one_of_ne {word : UInt64} (available : word ≠ maxValue) :
    (word + 1).toNat = word.toNat + 1 := by
  have below := lt_of_le_of_ne (le_maxValue word) available
  rw [UInt64.lt_iff_toNat_lt, toNat_maxValue] at below
  rw [UInt64.toNat_add, UInt64.toNat_one, Nat.mod_eq_of_lt (by omega)]

theorem toNat_succ_of_lt {word limit : UInt64} (lt : word < limit) :
    (Order.succ word).toNat = word.toNat + 1 := by
  rw [← saturatingAdd_one, toNat_saturatingAdd]
  rw [UInt64.lt_iff_toNat_lt] at lt
  have bound := limit.toNat_lt
  simp only [UInt64.toNat_one]
  omega

theorem succ_of_ne {word : UInt64} (available : word ≠ maxValue) :
    Order.succ word = word + 1 := by
  rw [← UInt64.toNat_inj, toNat_add_one_of_ne available]
  exact toNat_succ_of_lt (lt_of_le_of_ne (le_maxValue word) available)

end UInt64
