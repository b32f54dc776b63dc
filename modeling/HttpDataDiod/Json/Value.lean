import HttpDataDiod.Lib.ByteText
import Mathlib.Algebra.Group.Nat.Defs

/-!
# JSON values

The part of `nlohmann::json` the program relies on, and the accessors of
`json_utils.hpp` over it.  A string is any byte string: the library checks the
encoding when a value is written out, not when it is built.  An object is the
list of its entries in the order of their keys, as the ordered map behind it
iterates them.

* `JsonValue`: the values.
* `find`, `setEntry`: an entry of an object, and the object with an entry replaced.
* `safeGetString`, `safeGetInt`: `JsonUtils::safe_get_string`,
  `JsonUtils::safe_get_int`.
-/

namespace HttpDataDiod

open ByteText

/-- A JSON value.  Signed and unsigned integers are two kinds, and a
floating-point number is kept as its bits. -/
inductive JsonValue where
  | null
  | bool (b : Bool)
  | int (n : ℤ)
  | uint (n : ℕ)
  | float (bits : UInt64)
  | string (s : Bytes)
  | array (elems : List JsonValue)
  | object (entries : List (Bytes × JsonValue))

namespace JsonValue

/-- `is_object`. -/
def isObject : JsonValue → Bool
  | .object _ => true
  | _ => false

/-- A null, a boolean, a number or a string. -/
def isScalar : JsonValue → Bool
  | .array _ => false
  | .object _ => false
  | _ => true

/-- `find`: the entry of a key; a value that is no object has no entries. -/
def find (key : Bytes) : JsonValue → Option JsonValue
  | .object entries => (entries.find? fun e => e.1 = key).map Prod.snd
  | _ => none

/-- The order of the keys: byte by byte, a proper beginning first. -/
def keyLt : Bytes → Bytes → Bool
  | [], [] => false
  | [], _ :: _ => true
  | _ :: _, [] => false
  | a :: s, b :: t => a < b || (a = b && keyLt s t)

/-- The entries after `operator[](key) = value`. -/
def setEntry (key : Bytes) (value : JsonValue) : List (Bytes × JsonValue) →
    List (Bytes × JsonValue)
  | [] => [(key, value)]
  | e :: es =>
    if e.1 = key then (key, value) :: es
    else if keyLt key e.1 then (key, value) :: e :: es
    else e :: setEntry key value es

/-- `safe_get_string`. -/
def safeGetString (j : JsonValue) (key : Bytes) (fallback : Bytes) : Bytes :=
  match j.find key with
  | some (.string s) => s
  | _ => fallback

/-- `safe_get_int`: `get<int>()` keeps the low 32 bits of an integer. -/
def safeGetInt (j : JsonValue) (key : Bytes) (fallback : ℤ) : ℤ :=
  match j.find key with
  | some (.int n) => n.bmod (2 ^ 32)
  | some (.uint n) => (n : ℤ).bmod (2 ^ 32)
  | _ => fallback

end JsonValue
end HttpDataDiod
