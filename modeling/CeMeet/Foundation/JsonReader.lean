import CeMeet.Foundation.Encoding
import CeMeet.Foundation.Json

/-!
# Reading JSON texts

A reader of compact JSON texts with natural numbers.  It reads back every value
from its text, whatever follows the text.  White space, signs, fractions,
exponents and pairs of surrogate escapes are not read.
-/

namespace Json

/-! ## Strings -/

/-- The value of a hexadecimal digit. -/
def hexValue (byte : UInt8) : Option Nat :=
  if 0x30 ≤ byte ∧ byte ≤ 0x39 then some (byte - 0x30).toNat
  else if 0x61 ≤ byte ∧ byte ≤ 0x66 then some (byte - 0x57).toNat
  else if 0x41 ≤ byte ∧ byte ≤ 0x46 then some (byte - 0x37).toNat
  else none

/-- The bytes of the character with a code of four hexadecimal digits. -/
def codeBytes (first second third fourth : UInt8) : Option (List UInt8) := do
  let first ← hexValue first
  let second ← hexValue second
  let third ← hexValue third
  let fourth ← hexValue fourth
  let code := ((first * 16 + second) * 16 + third) * 16 + fourth
  if code.isValidChar then some (String.utf8EncodeChar (Char.ofNat code))
  else none

/-- The byte that an escape of one letter stands for. -/
def shortEscape (letter : UInt8) : Option UInt8 :=
  if letter = 0x22 ∨ letter = 0x5c ∨ letter = 0x2f then some letter
  else if letter = 0x62 then some 0x08
  else if letter = 0x66 then some 0x0c
  else if letter = 0x6e then some 0x0a
  else if letter = 0x72 then some 0x0d
  else if letter = 0x74 then some 0x09
  else none

/-- What an escape stands for, and the text after it. -/
def unescape : List UInt8 → Option (List UInt8 × List UInt8)
  | [] => none
  | letter :: text =>
      if letter = 0x75 then
        match text with
        | first :: second :: third :: fourth :: text =>
            (codeBytes first second third fourth).map (·, text)
        | _ => none
      else
        (shortEscape letter).map ([·], text)

/-- The bytes of a string up to its closing quote, and the text after it. -/
def readChars : Nat → List UInt8 → Option (List UInt8 × List UInt8)
  | 0, _ | _, [] => none
  | fuel + 1, byte :: text =>
      if byte = 0x22 then
        some ([], text)
      else if byte = 0x5c then do
        let (piece, text) ← unescape text
        let (bytes, text) ← readChars fuel text
        some (piece ++ bytes, text)
      else if byte < 0x20 then
        none
      else do
        let (bytes, text) ← readChars fuel text
        some (byte :: bytes, text)

/-- The text after a byte. -/
def expect (byte : UInt8) : List UInt8 → Option (List UInt8)
  | [] => none
  | next :: text => if next = byte then some text else none

/-- A string, and the text after it. -/
def readString (text : List UInt8) : Option (String × List UInt8) := do
  let text ← expect 0x22 text
  let (bytes, text) ← readChars text.length text
  let string ← String.fromUTF8? bytes.toByteArray
  some (string, text)

/-- A character that is written as it is has no byte that ends a string or
begins an escape. -/
theorem plain_of_mem_utf8EncodeChar
    {char : Char}
    (printable : ¬char < ' ')
    (notQuote : char ≠ '"')
    (notBackslash : char ≠ '\\')
    {byte : UInt8}
    (member : byte ∈ String.utf8EncodeChar char) :
    byte ≠ 0x22 ∧ byte ≠ 0x5c ∧ ¬byte < 0x20 := by
  have atLeast : 0x20 ≤ char.val.toNat := by
    simpa [Char.lt_def, UInt32.lt_iff_toNat_lt] using printable
  have code : char.val.toNat ≠ 0x22 ∧ char.val.toNat ≠ 0x5c :=
    ⟨fun same => notQuote (Char.ext (UInt32.toNat_inj.mp same)),
      fun same => notBackslash (Char.ext (UInt32.toNat_inj.mp same))⟩
  have codeOrWide := Encoding.toNat_of_mem_utf8EncodeChar member
  simp only [ne_eq, ← UInt8.toNat_inj, UInt8.lt_iff_toNat_lt,
    UInt8.reduceToNat]
  omega

/-- The code of a control character stands for the character. -/
theorem codeBytes_control
    {char : Char}
    (control : char < ' ') :
    codeBytes 0x30 0x30 (hexDigit (char.val.toUInt8 >>> 4))
        (hexDigit (char.val.toUInt8 &&& 15)) =
      some (String.utf8EncodeChar char) := by
  have codes : ∀ code < 0x20,
      codeBytes 0x30 0x30
          (hexDigit ((Char.ofNat code).val.toUInt8 >>> 4))
          (hexDigit ((Char.ofNat code).val.toUInt8 &&& 15)) =
        some (String.utf8EncodeChar (Char.ofNat code)) := by
    decide
  have small : char.toNat < 0x20 := by
    simpa [Char.lt_def, UInt32.lt_iff_toNat_lt] using control
  rw [← Char.ofNat_toNat char]
  exact codes char.toNat small

/-- A character is written as its bytes, none of which ends a string or begins
an escape, or as an escape that stands for them. -/
theorem escapeChar_cases (char : Char) :
    (escapeChar char = String.utf8EncodeChar char ∧
      ∀ byte ∈ String.utf8EncodeChar char,
        byte ≠ 0x22 ∧ byte ≠ 0x5c ∧ ¬byte < 0x20) ∨
      ∃ escape, escapeChar char = 0x5c :: escape ∧
        ∀ tail, unescape (escape ++ tail) =
          some (String.utf8EncodeChar char, tail) := by
  unfold escapeChar
  split_ifs with quote backslash backspace formFeed lineFeed carriageReturn tab
    control
  any_goals
    subst char
    exact .inr ⟨_, rfl, fun tail => rfl⟩
  · refine .inr ⟨_, rfl, fun tail => ?_⟩
    change (codeBytes 0x30 0x30 _ _).map _ = _
    rw [codeBytes_control control]
    rfl
  · exact .inl ⟨rfl, fun byte => plain_of_mem_utf8EncodeChar control quote
      backslash⟩

section Scanning

variable {tail bytes rest : List UInt8} {bound : Nat}

/-- Bytes that neither end a string nor begin an escape are read as they
are. -/
theorem readChars_plain
    {plain : List UInt8}
    (allPlain : ∀ byte ∈ plain, byte ≠ 0x22 ∧ byte ≠ 0x5c ∧ ¬byte < 0x20)
    (continues : ∀ fuel, bound < fuel →
      readChars fuel tail = some (bytes, rest))
    (fuel : Nat)
    (enough : bound + plain.length < fuel) :
    readChars fuel (plain ++ tail) = some (plain ++ bytes, rest) := by
  induction plain generalizing fuel with
  | nil => exact continues fuel enough
  | cons byte plain inductionHypothesis =>
      obtain ⟨fuel, rfl⟩ := Nat.exists_eq_succ_of_ne_zero (by omega : fuel ≠ 0)
      obtain ⟨notQuote, notBackslash, printable⟩ :=
        allPlain byte List.mem_cons_self
      have read := inductionHypothesis
        (fun other member => allPlain other (List.mem_cons_of_mem byte member))
        fuel (by rw [List.length_cons] at enough; omega)
      simp [readChars, notQuote, notBackslash, printable, read]

/-- A character in front of what can be read is read as its bytes. -/
theorem readChars_escapeChar
    (char : Char)
    (continues : ∀ fuel, bound < fuel →
      readChars fuel tail = some (bytes, rest))
    (fuel : Nat)
    (enough : bound + (escapeChar char).length < fuel) :
    readChars fuel (escapeChar char ++ tail) =
      some (String.utf8EncodeChar char ++ bytes, rest) := by
  obtain ⟨written, plain⟩ | ⟨escape, written, unescapes⟩ :=
    escapeChar_cases char
  · rw [written] at enough ⊢
    exact readChars_plain plain continues fuel enough
  · obtain ⟨fuel, rfl⟩ := Nat.exists_eq_succ_of_ne_zero (by omega : fuel ≠ 0)
    rw [written, List.length_cons] at enough
    rw [written, List.cons_append]
    simp [readChars, unescapes tail, continues fuel (by omega)]

end Scanning

/-- The characters of a string are read up to its closing quote. -/
theorem readChars_flatMap
    (chars : List Char)
    (rest : List UInt8)
    (fuel : Nat)
    (enough : (chars.flatMap escapeChar).length < fuel) :
    readChars fuel (chars.flatMap escapeChar ++ 0x22 :: rest) =
      some (chars.flatMap String.utf8EncodeChar, rest) := by
  induction chars generalizing fuel with
  | nil =>
      obtain ⟨fuel, rfl⟩ := Nat.exists_eq_succ_of_ne_zero (by omega : fuel ≠ 0)
      rfl
  | cons char chars inductionHypothesis =>
      rw [List.flatMap_cons, List.length_append] at enough
      rw [List.flatMap_cons, List.flatMap_cons, List.append_assoc]
      exact readChars_escapeChar char inductionHypothesis fuel (by omega)

/-- A string is read back from its quoted text. -/
theorem readString_quote (string : String) (rest : List UInt8) :
    readString (quote string ++ rest) = some (string, rest) := by
  have scanned := readChars_flatMap string.toList rest
    (string.toList.flatMap escapeChar ++ 0x22 :: rest).length (by simp)
  have decoded : String.fromUTF8?
      (string.toList.flatMap String.utf8EncodeChar).toByteArray =
        some string := by
    change String.fromUTF8? string.toList.utf8Encode = some string
    rw [String.utf8Encode_toList, String.fromUTF8?,
      dif_pos string.isValidUTF8]
    rfl
  have opened : expect 0x22 (quote string ++ rest) =
      some (string.toList.flatMap escapeChar ++ 0x22 :: rest) := by
    simp [quote, expect]
  simp only [readString, opened, Option.bind_eq_bind, Option.bind_some,
    scanned, decoded]

/-! ## Numbers -/

/-- Whether a byte is a decimal digit. -/
def isDigit (byte : UInt8) : Bool :=
  0x30 ≤ byte && byte ≤ 0x39

/-- The number that continues a number, and the text after its digits. -/
def readDigits (value : Nat) : List UInt8 → Nat × List UInt8
  | [] => (value, [])
  | byte :: text =>
      if isDigit byte then readDigits (value * 10 + (byte - 0x30).toNat) text
      else (value, byte :: text)

/-- A text that does not continue a number. -/
def EndsNumber (text : List UInt8) : Prop :=
  ∀ byte ∈ text.head?, isDigit byte = false

theorem readDigits_of_endsNumber
    {text : List UInt8}
    (ends : EndsNumber text)
    (value : Nat) :
    readDigits value text = (value, text) := by
  cases text with
  | nil => rfl
  | cons byte text => simp [readDigits, ends byte rfl]

theorem isDigit_ofNat {digit : Nat} (small : digit < 10) :
    isDigit (0x30 + .ofNat digit) = true := by
  have digits : ∀ digit < 10, isDigit (0x30 + .ofNat digit) = true := by
    decide
  exact digits digit small

theorem toNat_ofNat_digit {digit : Nat} (small : digit < 10) :
    (0x30 + UInt8.ofNat digit - 0x30).toNat = digit := by
  have digits : ∀ digit < 10,
      (0x30 + UInt8.ofNat digit - 0x30).toNat = digit := by
    decide
  exact digits digit small

/-- Digits are read from the most significant one on. -/
theorem readDigits_map
    {digits : List Nat}
    (small : ∀ digit ∈ digits, digit < 10)
    (value : Nat)
    {rest : List UInt8}
    (ends : EndsNumber rest) :
    readDigits value (digits.map (fun digit => 0x30 + .ofNat digit) ++ rest) =
      (digits.foldl (fun value digit => value * 10 + digit) value, rest) := by
  induction digits generalizing value with
  | nil => exact readDigits_of_endsNumber ends value
  | cons digit digits inductionHypothesis =>
      have head := small digit List.mem_cons_self
      have read := inductionHypothesis
        fun other member => small other (List.mem_cons_of_mem digit member)
      simp only [List.map_cons, List.cons_append, readDigits,
        isDigit_ofNat head, if_true, toNat_ofNat_digit head, read,
        List.foldl_cons]

/-- The digits of a number, the most significant one first. -/
def bigDigits (value : Nat) : List Nat :=
  if value = 0 then [0] else (Nat.digits 10 value).reverse

theorem decimal_eq_map (value : Nat) :
    decimal value = (bigDigits value).map fun digit => 0x30 + .ofNat digit := by
  unfold decimal bigDigits
  split <;> rfl

theorem bigDigits_lt {value digit : Nat} (member : digit ∈ bigDigits value) :
    digit < 10 := by
  unfold bigDigits at member
  split at member
  case isTrue zero =>
    rw [List.mem_singleton.mp member]
    decide
  case isFalse nonzero =>
    exact Nat.digits_lt_base (by decide) (List.mem_reverse.mp member)

theorem foldl_bigDigits (value : Nat) :
    (bigDigits value).foldl (fun value digit => value * 10 + digit) 0 =
      value := by
  unfold bigDigits
  split
  case isTrue zero => rw [zero]; rfl
  case isFalse nonzero =>
    calc
      _ = Nat.ofDigits 10 (Nat.digits 10 value) := by
        rw [List.foldl_reverse, Nat.ofDigits_eq_foldr]
        congr 1
        funext digit total
        push_cast
        ring
      _ = value := Nat.ofDigits_digits 10 value

/-- A number is read back from its decimal digits. -/
theorem readDigits_decimal
    (value : Nat)
    {rest : List UInt8}
    (ends : EndsNumber rest) :
    readDigits 0 (decimal value ++ rest) = (value, rest) := by
  rw [decimal_eq_map, readDigits_map (fun _ => bigDigits_lt) 0 ends,
    foldl_bigDigits]

/-- A decimal text begins with a digit. -/
theorem exists_decimal_eq_cons (value : Nat) :
    ∃ byte digits, decimal value = byte :: digits ∧ isDigit byte = true := by
  have nonempty : decimal value ≠ [] := by
    rw [← List.length_pos_iff, length_decimal]
    exact Nat.succ_pos _
  obtain ⟨byte, digits, written⟩ := List.exists_cons_of_ne_nil nonempty
  refine ⟨byte, digits, written, ?_⟩
  have member : byte ∈ decimal value := by
    rw [written]
    exact List.mem_cons_self
  rw [decimal_eq_map, List.mem_map] at member
  obtain ⟨digit, digitMember, rfl⟩ := member
  exact isDigit_ofNat (bigDigits_lt digitMember)

/-! ## Values -/

/-- A value whose text is a fixed word, and the text after it. -/
def readWord (word : List UInt8) (value : Json) (text : List UInt8) :
    Option (Json × List UInt8) :=
  if word.isPrefixOf text then some (value, text.drop word.length) else none

mutual

/-- A value, and the text after it. -/
def readValue : Nat → List UInt8 → Option (Json × List UInt8)
  | 0, _ | _, [] => none
  | fuel + 1, byte :: text =>
      if byte = 0x22 then
        (readString (byte :: text)).map fun read => (.string read.1, read.2)
      else if byte = 0x5b then
        if text.head? = some 0x5d then some (.array [], text.tail)
        else (readItems fuel text).map fun read => (.array read.1, read.2)
      else if byte = 0x7b then
        if text.head? = some 0x7d then some (.object [], text.tail)
        else (readFields fuel text).map fun read => (.object read.1, read.2)
      else if isDigit byte then
        let read := readDigits 0 (byte :: text)
        some (.number read.1, read.2)
      else
        readWord [0x6e, 0x75, 0x6c, 0x6c] .null (byte :: text) <|>
          readWord [0x74, 0x72, 0x75, 0x65] (.bool true) (byte :: text) <|>
          readWord [0x66, 0x61, 0x6c, 0x73, 0x65] (.bool false) (byte :: text)

/-- The items of an array up to its closing bracket, and the text after it. -/
def readItems : Nat → List UInt8 → Option (List Json × List UInt8)
  | 0, _ => none
  | fuel + 1, text => do
      let (item, text) ← readValue fuel text
      match text with
      | [] => none
      | byte :: text =>
          if byte = 0x5d then
            some ([item], text)
          else if byte = 0x2c then do
            let (items, text) ← readItems fuel text
            some (item :: items, text)
          else
            none

/-- The fields of an object up to its closing brace, and the text after it. -/
def readFields : Nat → List UInt8 → Option (List (String × Json) × List UInt8)
  | 0, _ => none
  | fuel + 1, text => do
      let (name, text) ← readString text
      let text ← expect 0x3a text
      let (value, text) ← readValue fuel text
      match text with
      | [] => none
      | byte :: text =>
          if byte = 0x7d then
            some ([(name, value)], text)
          else if byte = 0x2c then do
            let (fields, text) ← readFields fuel text
            some ((name, value) :: fields, text)
          else
            none

end

theorem endsNumber_cons {byte : UInt8} (other : isDigit byte = false)
    (text : List UInt8) : EndsNumber (byte :: text) := by
  intro first same
  cases same
  exact other

theorem endsNumber_nil : EndsNumber [] :=
  nofun

/-- No text of a value begins with a closing bracket. -/
theorem head?_render_ne (value : Json) (rest : List UInt8) :
    (render value ++ rest).head? ≠ some 0x5d := by
  cases value with
  | number value =>
      obtain ⟨byte, digits, written, digit⟩ := exists_decimal_eq_cons value
      rw [render, written]
      rintro ⟨⟩
      cases digit
  | bool value => cases value <;> nofun
  | _ => nofun

theorem commas_cons_cons (text next : List UInt8) (texts : List (List UInt8)) :
    commas (text :: next :: texts) = text ++ 0x2c :: commas (next :: texts) := by
  simp [commas]

theorem commas_renderItems (item next : Json) (items : List Json) :
    commas (renderItems (item :: next :: items)) =
      render item ++ 0x2c :: commas (renderItems (next :: items)) :=
  commas_cons_cons _ _ _

theorem commas_renderFields
    (name : String) (value : Json) (next : String × Json)
    (fields : List (String × Json)) :
    commas (renderFields ((name, value) :: next :: fields)) =
      quote name ++ 0x3a ::
        (render value ++ 0x2c :: commas (renderFields (next :: fields))) := by
  simp [renderFields, commas_cons_cons]

theorem head?_commas_renderItems_ne
    (item : Json) (items : List Json) (rest : List UInt8) :
    (commas (renderItems (item :: items)) ++ rest).head? ≠ some 0x5d := by
  cases items with
  | nil => exact head?_render_ne item rest
  | cons next items =>
      rw [commas_renderItems, List.append_assoc]
      exact head?_render_ne item _

theorem head?_commas_renderFields_ne
    (name : String) (value : Json) (fields : List (String × Json))
    (rest : List UInt8) :
    (commas (renderFields ((name, value) :: fields)) ++ rest).head? ≠
      some 0x7d := by
  cases fields with
  | nil => nofun
  | cons next fields =>
      rw [commas_renderFields]
      nofun

/-- A number is read up to a text that does not continue it. -/
theorem readValue_decimal
    (value fuel : Nat)
    {rest : List UInt8}
    (ends : EndsNumber rest) :
    readValue (fuel + 1) (decimal value ++ rest) =
      some (.number value, rest) := by
  have read := readDigits_decimal value ends
  obtain ⟨byte, digits, written, digit⟩ := exists_decimal_eq_cons value
  rw [written, List.cons_append] at read ⊢
  have other : ∀ byte', isDigit byte' = false → byte ≠ byte' :=
    fun byte' notDigit same => by simp [← same, digit] at notDigit
  simp only [readValue, if_neg (other 0x22 rfl), if_neg (other 0x5b rfl),
    if_neg (other 0x7b rfl), digit, if_true, read]

theorem readValue_array
    {text : List UInt8}
    (notEmpty : text.head? ≠ some 0x5d)
    (fuel : Nat) :
    readValue (fuel + 1) (0x5b :: text) =
      (readItems fuel text).map fun read => (.array read.1, read.2) :=
  if_neg notEmpty

theorem readValue_object
    {text : List UInt8}
    (notEmpty : text.head? ≠ some 0x7d)
    (fuel : Nat) :
    readValue (fuel + 1) (0x7b :: text) =
      (readFields fuel text).map fun read => (.object read.1, read.2) :=
  if_neg notEmpty

theorem size_pos (value : Json) : 0 < value.size := by
  cases value with
  | bool value => cases value <;> decide
  | number value => exact Nat.succ_pos _
  | _ => simp [size, quotedSize]

mutual

/-- A value is read back from its text, whatever does not continue it. -/
theorem readValue_render :
    (value : Json) → ∀ (fuel : Nat) (rest : List UInt8),
      value.size ≤ fuel → EndsNumber rest →
        readValue fuel (render value ++ rest) = some (value, rest)
  | value, 0, _, enough, _ => absurd value.size_pos (Nat.not_lt.mpr enough)
  | null, fuel + 1, rest, _, _ => rfl
  | bool true, fuel + 1, rest, _, _ => rfl
  | bool false, fuel + 1, rest, _, _ => rfl
  | number value, fuel + 1, rest, _, ends => readValue_decimal value fuel ends
  | string text, fuel + 1, rest, _, _ => by
      change (readString (quote text ++ rest)).map _ = _
      rw [readString_quote]
      rfl
  | array [], fuel + 1, rest, _, _ => rfl
  | array (item :: items), fuel + 1, rest, enough, _ => by
      have read := readItems_render item items fuel rest
        (by rw [size, List.length_cons] at enough; omega)
      have written : render (array (item :: items)) ++ rest =
          0x5b :: (commas (renderItems (item :: items)) ++ 0x5d :: rest) := by
        simp [render]
      rw [written, readValue_array (head?_commas_renderItems_ne item items _),
        read]
      rfl
  | object [], fuel + 1, rest, _, _ => rfl
  | object ((name, value) :: fields), fuel + 1, rest, enough, _ => by
      have read := readFields_render name value fields fuel rest
        (by rw [size, List.length_cons] at enough; omega)
      have written : render (object ((name, value) :: fields)) ++ rest =
          0x7b :: (commas (renderFields ((name, value) :: fields)) ++
            0x7d :: rest) := by
        simp [render]
      rw [written,
        readValue_object (head?_commas_renderFields_ne name value fields _),
        read]
      rfl

theorem readItems_render :
    (item : Json) → (items : List Json) → ∀ (fuel : Nat) (rest : List UInt8),
      sizeItems (item :: items) + (items.length + 1) ≤ fuel →
        readItems fuel (commas (renderItems (item :: items)) ++ 0x5d :: rest) =
          some (item :: items, rest)
  | _, _, 0, _, enough => by omega
  | item, [], fuel + 1, rest, enough => by
      have read := readValue_render item fuel (0x5d :: rest)
        (by rw [sizeItems] at enough; omega) (endsNumber_cons rfl rest)
      simp [renderItems, commas, readItems, read]
  | item, next :: items, fuel + 1, rest, enough => by
      rw [sizeItems, List.length_cons] at enough
      have readHead := readValue_render item fuel
        (0x2c :: (commas (renderItems (next :: items)) ++ 0x5d :: rest))
        (by omega) (endsNumber_cons rfl _)
      have readTail := readItems_render next items fuel rest (by omega)
      rw [commas_renderItems]
      simp [readItems, readHead, readTail]

theorem readFields_render :
    (name : String) → (value : Json) → (fields : List (String × Json)) →
      ∀ (fuel : Nat) (rest : List UInt8),
        sizeFields ((name, value) :: fields) + (fields.length + 1) ≤ fuel →
          readFields fuel
              (commas (renderFields ((name, value) :: fields)) ++
                0x7d :: rest) =
            some ((name, value) :: fields, rest)
  | _, _, _, 0, _, enough => by omega
  | name, value, [], fuel + 1, rest, enough => by
      have read := readValue_render value fuel (0x7d :: rest)
        (by rw [sizeFields] at enough; omega) (endsNumber_cons rfl rest)
      simp [renderFields, commas, readFields, readString_quote, expect, read]
  | name, value, (next, other) :: fields, fuel + 1, rest, enough => by
      rw [sizeFields, List.length_cons] at enough
      have readHead := readValue_render value fuel
        (0x2c :: (commas (renderFields ((next, other) :: fields)) ++
          0x7d :: rest))
        (by omega) (endsNumber_cons rfl _)
      have readTail := readFields_render next other fields fuel rest (by omega)
      rw [commas_renderFields]
      simp [readFields, readString_quote, expect, readHead, readTail]

end

/-! ## Texts -/

/-- Read a whole text. -/
def read (text : List UInt8) : Except String Json :=
  match readValue text.length text with
  | some (value, []) => .ok value
  | _ => .error "malformed text"

/-- Reading inverts writing. -/
theorem read_render (value : Json) : read (render value) = .ok value := by
  have whole := readValue_render value (render value).length []
    (length_render value).ge endsNumber_nil
  rw [List.append_nil] at whole
  rw [read, whole]

end Json
