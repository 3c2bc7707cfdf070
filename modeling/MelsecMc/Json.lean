/-
JSON values.

`serde_json::Value`, as far as the crate uses it: the parameters of a request and the
decoded response are JSON objects.  A `Map` has each key at most once, and nothing here
depends on the order of its entries, so it is the list of them.
-/
import MelsecMc.Bytes
import MelsecMc.Text

namespace MelsecMc

/-- `serde_json::Value`; the three kinds of number are those of `serde_json::Number`, which
keeps in the second only what is below zero. -/
inductive JsonValue
  | null
  | bool (b : Bool)
  | posInt (n : UInt64)
  | negInt (n : { i : Int64 // i.toInt < 0 })
  /-- a finite `f64`, by its bit pattern -/
  | float (bits : UInt64)
  | string (s : String)
  | array (items : List JsonValue)
  | object (fields : List (String × JsonValue))

/-- `serde_json::Map` -/
abbrev JsonMap := List (String × JsonValue)

namespace JsonMap

/-- `Map::get` -/
def get (m : JsonMap) (key : String) : Option JsonValue :=
  List.lookup key m

/-- `Map::insert` -/
def insert : JsonMap → String → JsonValue → JsonMap
  | [], key, value => [(key, value)]
  | (k, v) :: m, key, value =>
      if k = key then (key, value) :: m else (k, v) :: insert m key value

@[simp] theorem get_nil (key : String) : get [] key = none := rfl

theorem get_cons (k : String) (v : JsonValue) (m : JsonMap) (key : String) :
    get ((k, v) :: m) key = if key = k then some v else get m key := by
  rw [get, List.lookup_cons]
  by_cases h : key = k
  · rw [if_pos h, beq_iff_eq.mpr h]
  · rw [if_neg h, beq_eq_false_iff_ne.mpr h]
    rfl

@[simp] theorem get_insert_self (m : JsonMap) (key : String) (value : JsonValue) :
    (m.insert key value).get key = some value := by
  induction m with
  | nil => rw [insert, get_cons, if_pos rfl]
  | cons kv m ih =>
      obtain ⟨k, v⟩ := kv
      rw [insert]
      split
      · rw [get_cons, if_pos rfl]
      · rename_i hne
        rw [get_cons, if_neg fun h => hne h.symm, ih]

theorem get_insert_of_ne (m : JsonMap) {key key' : String} (value : JsonValue) (h : key' ≠ key) :
    (m.insert key value).get key' = m.get key' := by
  induction m with
  | nil => rw [insert, get_cons, if_neg h, get_nil]
  | cons kv m ih =>
      obtain ⟨k, v⟩ := kv
      rw [insert, get_cons]
      split
      · rename_i heq
        rw [get_cons, if_neg h, if_neg (heq ▸ h)]
      · rw [get_cons, ih]

end JsonMap

namespace JsonValue

/-- `Value::get` with a string index. -/
def get (v : JsonValue) (key : String) : Option JsonValue :=
  match v with
  | .object fields => JsonMap.get fields key
  | _ => none

def asU64 : JsonValue → Option UInt64
  | .posInt n => some n
  | _ => none

def asI64 : JsonValue → Option Int64
  | .posInt n => if n.toNat < 2 ^ 63 then some (Int64.ofNat n.toNat) else none
  | .negInt n => some n.val
  | _ => none

def isNumber : JsonValue → Bool
  | .posInt _ | .negInt _ | .float _ => true
  | _ => false

def asStr : JsonValue → Option String
  | .string s => some s
  | _ => none

def asArray : JsonValue → Option (List JsonValue)
  | .array items => some items
  | _ => none

def asObject : JsonValue → Option JsonMap
  | .object fields => some fields
  | _ => none

/-- `Number::from` of an unsigned integer, in a `Value`. -/
def ofNat (n : Nat) : JsonValue := .posInt (UInt64.ofNat n)

@[simp] theorem get_object (fields : JsonMap) (key : String) :
    (JsonValue.object fields).get key = fields.get key := rfl

@[simp] theorem asU64_ofNat (n : Nat) : (ofNat n).asU64 = some (UInt64.ofNat n) := rfl

@[simp] theorem asArray_array (items : List JsonValue) :
    (JsonValue.array items).asArray = some items := rfl

end JsonValue

end MelsecMc
