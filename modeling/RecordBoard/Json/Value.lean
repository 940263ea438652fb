import RecordBoard.Keyed
import RecordBoard.Number.Decimal

/-!
# JSON values

A record is a JSON object and everything in it is kept as it came, so the value type distinguishes
what a reader of the written form can distinguish. A number is an integer of sixty-four bits, signed
or unsigned, or else a finite double: `1` and `1.0` are different values. The fields of an object
are in key order without repetition when the value was read from a text, which `Value.IsOrdered`
states and the type leaves open, since it occurs inside itself.

## Main definitions

* `Json.Number`, `Json.Value` — numbers and values.
* `Value.member?` and the `Value.as…?` views — what a caller can ask of a value.
* `Value.sameValue` — equality with the two zeros identified.
-/

namespace RecordBoard.Json

-- Powers are those of the core library, whatever else an importing module knows: hence the
-- instance, and the type of each exponent.
attribute [local instance (2000)] instPowNat

/-- A JSON number. -/
inductive Number where
  /-- An integer that fits sixty-four bits, signed or unsigned. -/
  | integer (i : Int) (fits : -2 ^ (63 : Nat) ≤ i ∧ i < 2 ^ (64 : Nat))
  /-- A finite double. -/
  | double (d : Binary64)
deriving DecidableEq

namespace Number

/-- The integer that a word of sixty-four bits stands for. -/
def ofWord (n : UInt64) : Number :=
  .integer n.toNat ⟨by have := n.toNat_lt; omega, by have := n.toNat_lt; omega⟩

/-- The written form of a number. -/
def text : Number → String
  | .integer i _ => toString i
  | .double d => d.text

/-- The number as a double, rounded if it is an integer of more than fifty-three bits. -/
def toDouble? : Number → Option Binary64
  | .integer i _ => Binary64.ofInt? i
  | .double d => some d

/-- The number as a word, if it is an integer that is not negative. -/
def toWord? : Number → Option UInt64
  | .integer i _ => if 0 ≤ i then some (UInt64.ofNat i.toNat) else none
  | .double _ => none

/-- Whether two numbers are of one class and equal; the two zeros among the doubles are. -/
def sameValue : Number → Number → Bool
  | .integer i _, .integer j _ => i = j
  | .double d, .double e => d.sameNumber e
  | _, _ => false

end Number

/-- A JSON value. -/
inductive Value where
  /-- The value null. -/
  | null
  /-- A truth value. -/
  | boolean (b : Bool)
  /-- A number. -/
  | number (n : Number)
  /-- A text. -/
  | string (s : String)
  /-- A list of values. -/
  | array (items : List Value)
  /-- Values under field names. -/
  | object (fields : List (String × Value))

namespace Value

instance : Inhabited Value := ⟨.null⟩

/-! ## Views -/

/-- The field `name` of an object. -/
def member? (name : String) : Value → Option Value
  | .object fields => Keyed.get? name fields
  | _ => none

/-- The text of a string. -/
def asString? : Value → Option String
  | .string s => some s
  | _ => none

/-- The truth value of a boolean. -/
def asBool? : Value → Option Bool
  | .boolean b => some b
  | _ => none

/-- The items of an array. -/
def asArray? : Value → Option (List Value)
  | .array items => some items
  | _ => none

/-- The fields of an object. -/
def asObject? : Value → Option (Keyed Value)
  | .object fields => some fields
  | _ => none

/-- An integer that is not negative. -/
def asWord? : Value → Option UInt64
  | .number n => n.toWord?
  | _ => none

/-- A number as a double. -/
def asDouble? : Value → Option Binary64
  | .number n => n.toDouble?
  | _ => none

/-- Whether the value is null. -/
def isNull : Value → Bool
  | .null => true
  | _ => false

/-- The text of a string, or null where there is none. -/
def ofString? : Option String → Value
  | some s => .string s
  | none => .null

/-- The number of a word. -/
def ofWord (n : UInt64) : Value := .number (.ofWord n)

/-- The number of a count, which fits a word. -/
def ofCount (n : Nat) : Value := .ofWord (UInt64.ofNatClamp n)

/-! ## Recursive functions over a value and its parts -/

mutual

/-- Whether two values are equal, the two zeros among the doubles being one number. -/
def sameValue : Value → Value → Bool
  | .null, .null => true
  | .boolean a, .boolean b => a == b
  | .number a, .number b => a.sameValue b
  | .string a, .string b => a == b
  | .array a, .array b => sameItems a b
  | .object a, .object b => sameFields a b
  | _, _ => false

/-- Whether two lists of items are equal in the sense of `sameValue`. -/
def sameItems : List Value → List Value → Bool
  | [], [] => true
  | a :: as, b :: bs => sameValue a b && sameItems as bs
  | _, _ => false

/-- Whether two lists of fields are equal in the sense of `sameValue`. -/
def sameFields : List (String × Value) → List (String × Value) → Bool
  | [], [] => true
  | (k, a) :: as, (l, b) :: bs => k == l && sameValue a b && sameFields as bs
  | _, _ => false

end

mutual

/-- The fields of every object in the value are in key order, without repetition. -/
def IsOrdered : Value → Prop
  | .array items => ItemsOrdered items
  | .object fields => Keyed.IsSorted fields ∧ FieldsOrdered fields
  | _ => True

/-- Every item is ordered. -/
def ItemsOrdered : List Value → Prop
  | [] => True
  | v :: rest => v.IsOrdered ∧ ItemsOrdered rest

/-- Every field's value is ordered. -/
def FieldsOrdered : List (String × Value) → Prop
  | [] => True
  | (_, v) :: rest => v.IsOrdered ∧ FieldsOrdered rest

end

end Value

end RecordBoard.Json
