import RecordBoard.Text.Blank
import RecordBoard.Text.Quoted
import RecordBoard.Text.Utf8

/-!
# Headers

The headers of a request are names with values, in the order they came and possibly repeated. Names
are told apart without regard to the case of ASCII letters, and of a repeated name only the first
value counts. Values are octets; only a value of visible characters, spaces and tabs is taken for a
text.
-/

namespace RecordBoard.Http

/-- Names with values, in the order they came. -/
abbrev Headers := List (String × Bytes)

/-- A text with its ASCII capitals in lower case. -/
def lowerCase (s : String) : String := String.ofList (s.toList.map Char.toLower)

/-- Whether two texts are equal but for the case of ASCII letters. -/
def sameButCase (a b : String) : Bool := lowerCase a == lowerCase b

/-- Whether an octet may stand in a value that is a text. -/
def isVisible (b : UInt8) : Bool := b == 0x09 || (0x20 ≤ b && b ≤ 0x7E)

namespace Headers

/-- The first value under a name. -/
def first? (name : String) (headers : Headers) : Option Bytes :=
  (headers.find? fun e => sameButCase e.1 name).map (·.2)

/-- The text of a value, if it is one. -/
def visible? (value : Bytes) : Option String :=
  if value.all isVisible then some (String.ofList (value.map fun b => Char.ofNat b.toNat)) else none

/-- The text of the first value under a name. -/
def text? (name : String) (headers : Headers) : Option String := (headers.first? name).bind visible?

end Headers

/-! ## Names -/

/-- Whether a character may stand in a header name. -/
def isNameChar (c : Char) : Bool := c.isAlphanum || "!#$%&'*+-.^_`|~".toList.contains c

/-- The longest name that is accepted. -/
def maxNameLength : Nat := 65535

/-- A text as a header name, without the white space around it and in lower case. -/
def headerName? (s : String) : Option String :=
  let name := lowerCase (Text.trim s)
  if name ≠ "" ∧ name.length ≤ maxNameLength ∧ name.toList.all isNameChar then some name else none

end RecordBoard.Http
