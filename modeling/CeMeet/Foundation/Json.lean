import Mathlib.Data.Nat.Digits.Lemmas

/-!
# The size of a JSON text

JSON values, the compact text of a value with the standard escapes, and the
number of bytes of that text, computed from the value without writing it.
-/

/-- A JSON value.  Numbers are natural. -/
inductive Json
  | null
  | bool (value : Bool)
  | number (value : Nat)
  | string (text : String)
  | array (items : List Json)
  | object (fields : List (String × Json))

namespace Json

/-! ## Texts -/

/-- A hexadecimal digit. -/
def hexDigit (digit : UInt8) : UInt8 :=
  if digit < 10 then 0x30 + digit else 0x57 + digit

/-- The bytes of a character within a string. -/
def escapeChar (char : Char) : List UInt8 :=
  if char = '"' then [0x5c, 0x22]
  else if char = '\\' then [0x5c, 0x5c]
  else if char = '\x08' then [0x5c, 0x62]
  else if char = '\x0c' then [0x5c, 0x66]
  else if char = '\n' then [0x5c, 0x6e]
  else if char = '\r' then [0x5c, 0x72]
  else if char = '\t' then [0x5c, 0x74]
  else if char < ' ' then
    let byte := char.val.toUInt8
    [0x5c, 0x75, 0x30, 0x30, hexDigit (byte >>> 4), hexDigit (byte &&& 15)]
  else
    String.utf8EncodeChar char

/-- The text of a string, with its quotes. -/
def quote (text : String) : List UInt8 :=
  [0x22] ++ text.toList.flatMap escapeChar ++ [0x22]

/-- The decimal digits of a number. -/
def decimal (value : Nat) : List UInt8 :=
  if value = 0 then [0x30]
  else (Nat.digits 10 value).reverse.map fun digit => 0x30 + .ofNat digit

/-- Texts with commas in between. -/
def commas : List (List UInt8) → List UInt8
  | [] => []
  | [text] => text
  | text :: texts => text ++ [0x2c] ++ commas texts

mutual

/-- The compact text of a value. -/
def render : Json → List UInt8
  | null => [0x6e, 0x75, 0x6c, 0x6c]
  | bool true => [0x74, 0x72, 0x75, 0x65]
  | bool false => [0x66, 0x61, 0x6c, 0x73, 0x65]
  | number value => decimal value
  | string text => quote text
  | array items => [0x5b] ++ commas (renderItems items) ++ [0x5d]
  | object fields => [0x7b] ++ commas (renderFields fields) ++ [0x7d]

/-- The texts of the items of an array. -/
def renderItems : List Json → List (List UInt8)
  | [] => []
  | item :: items => render item :: renderItems items

/-- The texts of the fields of an object. -/
def renderFields : List (String × Json) → List (List UInt8)
  | [] => []
  | (name, value) :: fields =>
      (quote name ++ [0x3a] ++ render value) :: renderFields fields

end

/-! ## Sizes -/

/-- The number of bytes of a character within a string. -/
def escapedWidth (char : Char) : Nat :=
  if char ∈ ['"', '\\', '\x08', '\x0c', '\n', '\r', '\t'] then 2
  else if char < ' ' then 6
  else char.utf8Size

/-- The number of bytes of a string with its quotes. -/
def quotedSize (text : String) : Nat :=
  (text.toList.map escapedWidth).sum + 2

/-- The number of decimal digits of a number. -/
def decimalSize (value : Nat) : Nat :=
  Nat.log 10 value + 1

mutual

/-- The number of bytes of the text of a value. -/
def size : Json → Nat
  | null => 4
  | bool value => if value then 4 else 5
  | number value => decimalSize value
  | string text => quotedSize text
  | array items => sizeItems items + (items.length - 1) + 2
  | object fields => sizeFields fields + (fields.length - 1) + 2

/-- The number of bytes of the items of an array. -/
def sizeItems : List Json → Nat
  | [] => 0
  | item :: items => size item + sizeItems items

/-- The number of bytes of the fields of an object. -/
def sizeFields : List (String × Json) → Nat
  | [] => 0
  | (name, value) :: fields =>
      quotedSize name + 1 + size value + sizeFields fields

end

theorem length_escapeChar (char : Char) :
    (escapeChar char).length = escapedWidth char := by
  unfold escapeChar escapedWidth
  simp only [List.mem_cons, List.not_mem_nil, or_false]
  split_ifs <;> simp_all

theorem length_quote (text : String) :
    (quote text).length = quotedSize text := by
  simp [quote, quotedSize, List.length_flatMap, length_escapeChar]

theorem length_decimal (value : Nat) :
    (decimal value).length = decimalSize value := by
  unfold decimal decimalSize
  split
  case isTrue zero => simp [zero]
  case isFalse nonzero =>
    rw [List.length_map, List.length_reverse,
      Nat.length_digits 10 value (by decide) nonzero]

theorem length_commas (texts : List (List UInt8)) :
    (commas texts).length =
      (texts.map List.length).sum + (texts.length - 1) := by
  induction texts with
  | nil => rfl
  | cons text texts inductionHypothesis =>
      cases texts with
      | nil => simp [commas]
      | cons next texts =>
          change (text ++ [0x2c] ++ commas (next :: texts)).length = _
          rw [List.length_append, List.length_append, inductionHypothesis]
          simp only [List.length_cons, List.length_nil, List.map_cons,
            List.sum_cons]
          omega

theorem length_renderItems (items : List Json) :
    (renderItems items).length = items.length := by
  induction items with
  | nil => rfl
  | cons item items inductionHypothesis =>
      rw [renderItems, List.length_cons, List.length_cons, inductionHypothesis]

theorem length_renderFields (fields : List (String × Json)) :
    (renderFields fields).length = fields.length := by
  induction fields with
  | nil => rfl
  | cons field fields inductionHypothesis =>
      rw [renderFields, List.length_cons, List.length_cons, inductionHypothesis]

mutual

/-- The size of a value is the length of its text. -/
theorem length_render : (value : Json) → (render value).length = size value
  | null => rfl
  | bool true => rfl
  | bool false => rfl
  | number value => length_decimal value
  | string text => length_quote text
  | array items => by
      rw [render, size, List.length_append, List.length_append, length_commas,
        sum_renderItems items, length_renderItems, List.length_singleton,
        List.length_singleton]
      omega
  | object fields => by
      rw [render, size, List.length_append, List.length_append, length_commas,
        sum_renderFields fields, length_renderFields, List.length_singleton,
        List.length_singleton]
      omega

theorem sum_renderItems : (items : List Json) →
    ((renderItems items).map List.length).sum = sizeItems items
  | [] => rfl
  | item :: items => by
      rw [renderItems, List.map_cons, List.sum_cons, length_render item,
        sum_renderItems items, sizeItems]

theorem sum_renderFields : (fields : List (String × Json)) →
    ((renderFields fields).map List.length).sum = sizeFields fields
  | [] => rfl
  | (name, value) :: fields => by
      rw [renderFields, List.map_cons, List.sum_cons, List.length_append,
        List.length_append, List.length_singleton, length_quote,
        length_render value, sum_renderFields fields, sizeFields]

end

end Json
