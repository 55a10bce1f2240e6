import CeMeet.Foundation.Json

/-!
# Records in JSON values

Readers of scalars, of optional values and of lists, and of the fields of an
object.  A field is found by its name, wherever it stands.  Unknown fields are
ignored, a field that occurs twice is refused, and so is a missing field unless
something stands for it.
-/

namespace Json

/-! ## Values -/

/-- Read a string. -/
def asString : Json → Except String String
  | string text => .ok text
  | _ => .error "invalid type: expected a string"

/-- Read a flag. -/
def asBool : Json → Except String Bool
  | bool value => .ok value
  | _ => .error "invalid type: expected a boolean"

/-- Read a number of 32 bits. -/
def asU32 : Json → Except String UInt32
  | number value =>
      if value < 2 ^ 32 then .ok (.ofNat value)
      else .error "invalid value: expected u32"
  | _ => .error "invalid type: expected u32"

/-- Read a number of 64 bits. -/
def asU64 : Json → Except String UInt64
  | number value =>
      if value < 2 ^ 64 then .ok (.ofNat value)
      else .error "invalid value: expected u64"
  | _ => .error "invalid type: expected u64"

/-- Read a value that may be null. -/
def asOption {α : Type} (read : Json → Except String α) :
    Json → Except String (Option α)
  | null => .ok none
  | value => (read value).map some

/-- Read a list. -/
def asList {α : Type} (read : Json → Except String α) :
    Json → Except String (List α)
  | array items => items.mapM read
  | _ => .error "invalid type: expected a sequence"

/-- The fields of an object. -/
def asObject : Json → Except String (List (String × Json))
  | object fields => .ok fields
  | _ => .error "invalid type: expected a map"

@[simp] theorem asString_string (text : String) :
    asString (string text) = .ok text := rfl

@[simp] theorem asBool_bool (value : Bool) : asBool (bool value) = .ok value :=
  rfl

@[simp] theorem asObject_object (fields : List (String × Json)) :
    asObject (object fields) = .ok fields := rfl

@[simp] theorem asU32_toNat (value : UInt32) :
    asU32 (number value.toNat) = .ok value := by
  rw [asU32, if_pos value.toNat_lt, UInt32.ofNat_toNat]

@[simp] theorem asU64_toNat (value : UInt64) :
    asU64 (number value.toNat) = .ok value := by
  rw [asU64, if_pos value.toNat_lt, UInt64.ofNat_toNat]

/-- A list is read item by item. -/
theorem asList_map
    {α : Type} {write : α → Json} {read : Json → Except String α}
    (roundTrip : ∀ value, read (write value) = .ok value)
    (values : List α) :
    asList read (array (values.map write)) = .ok values := by
  change (values.map write).mapM read = .ok values
  induction values with
  | nil => rfl
  | cons value values inductionHypothesis =>
      rw [List.map_cons, List.mapM_cons, roundTrip, inductionHypothesis]
      rfl

/-! ## Fields -/

/-- The value of a field, if there is one. -/
def field (name : String) (fields : List (String × Json)) :
    Except String (Option Json) :=
  match fields.filter fun entry => entry.1 = name with
  | [] => .ok none
  | [entry] => .ok (some entry.2)
  | _ => .error s!"duplicate field `{name}`"

/-- Read a field that must be there. -/
def required {α : Type} (name : String) (read : Json → Except String α)
    (fields : List (String × Json)) : Except String α := do
  match ← field name fields with
  | some value => read value
  | none => .error s!"missing field `{name}`"

/-- Read a field that something stands for when it is missing. -/
def defaulted {α : Type} (name : String) (read : Json → Except String α)
    (absent : α) (fields : List (String × Json)) : Except String α := do
  match ← field name fields with
  | some value => read value
  | none => .ok absent

@[simp] theorem field_nil (name : String) : field name [] = .ok none := rfl

@[simp] theorem field_cons_of_ne
    {name : String} {entry : String × Json}
    (other : entry.1 ≠ name)
    (fields : List (String × Json)) :
    field name (entry :: fields) = field name fields := by
  rw [field, field, List.filter_cons_of_neg (by simpa using other)]

@[simp] theorem field_cons_self
    {name : String} {fields : List (String × Json)}
    (once : name ∉ fields.map Prod.fst)
    (value : Json) :
    field name ((name, value) :: fields) = .ok (some value) := by
  have others : fields.filter (fun entry => entry.1 = name) = [] := by
    rw [List.filter_eq_nil_iff]
    intro entry member same
    rw [← of_decide_eq_true same] at once
    exact once (List.mem_map_of_mem member)
  rw [field, List.filter_cons_of_pos (by simp), others]

@[simp] theorem ok_bind {α β : Type} (value : α)
    (next : α → Except String β) :
    (Except.ok value >>= next) = next value := rfl

@[simp] theorem pure_eq_ok {α : Type} (value : α) :
    (pure value : Except String α) = .ok value := rfl

end Json
