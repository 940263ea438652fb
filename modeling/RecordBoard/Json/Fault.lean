import RecordBoard.Json.Value
import RecordBoard.Text.Quoted

/-!
# Why a text is not the JSON that was asked for

A refusal names its cause and a place in the text: a line, and a column counted in octets. The
reader knows the place as what is left to read, so it reports a `Stop`, the cause with the unread
octets; only where a whole text was read is that turned into a `Fault` with line and column.

A cause concerns either the last octet taken or the next one, which was looked at and left. In the
second case that octet counts as read for the place, unless the text has ended.

## Main definitions

* `Json.Found` — what stands where something else was asked for.
* `Json.Cause`, `Cause.message` — the causes and their wording.
* `Json.Stop`, `Json.Fault` — a cause with what was left to read, and with the place that follows
  from it.
-/

namespace RecordBoard.Json

/-- What stands in a text where a value of another kind was asked for. -/
inductive Found where
  /-- A value that has no parts. -/
  | scalar (v : Value)
  /-- The beginning of an array. -/
  | list
  /-- The beginning of an object. -/
  | map

/-- How a message names what was found. -/
def Found.text : Found → String
  | .scalar .null => "null"
  | .scalar (.boolean b) => s!"boolean `{b}`"
  | .scalar (.number (.integer i h)) => s!"integer `{Number.text (.integer i h)}`"
  | .scalar (.number (.double d)) => s!"floating point `{d.text}`"
  | .scalar (.string s) => s!"string {Text.quoted s}"
  | .scalar (.array _) | .list => "sequence"
  | .scalar (.object _) | .map => "map"

/-- Why reading stopped. -/
inductive Cause where
  /-- The text ends where a value must come or inside one. -/
  | endInValue
  /-- The text ends inside an object. -/
  | endInObject
  /-- The text ends inside a list. -/
  | endInList
  /-- The text ends inside a string. -/
  | endInString
  /-- No value begins here. -/
  | noValue
  /-- A word is none of the three. -/
  | noWord
  /-- No colon stands behind a field name. -/
  | noColon
  /-- Neither a comma nor the end of the object follows a field. -/
  | noObjectEnd
  /-- Neither a comma nor the end of the list follows an item. -/
  | noListEnd
  /-- A field name is not a string. -/
  | nameNotString
  /-- A bracket closes behind a comma. -/
  | trailingComma
  /-- Something stands behind the value. -/
  | trailingCharacters
  /-- A numeral is not well formed. -/
  | badNumeral
  /-- A number is larger than every double. -/
  | outOfRange
  /-- An escape is none of those known. -/
  | badEscape
  /-- A trailing surrogate comes first, or a leading one is followed by an escape that is no
  trailing one. -/
  | loneSurrogate
  /-- A leading surrogate is not followed by an escape. -/
  | unpairedSurrogate
  /-- A control character stands bare in a string. -/
  | controlCharacter
  /-- The octets of a string are no text. -/
  | notText
  /-- Too many brackets are open. -/
  | tooDeep
  /-- A value of another kind stands here. -/
  | wrongKind (found : Found) (expected : String)
  /-- A field is missing. -/
  | missingField (name : String)
  /-- A field comes twice. -/
  | repeatedField (name : String)
  /-- A list has no item where one is needed. -/
  | emptyList (expected : String)

/-- What a value of the wrong kind is told. -/
def wrongKindText (found : Found) (expected : String) : String :=
  s!"invalid type: {found.text}, expected {expected}"

/-- The wording of a cause. -/
def Cause.message : Cause → String
  | .endInValue => "EOF while parsing a value"
  | .endInObject => "EOF while parsing an object"
  | .endInList => "EOF while parsing a list"
  | .endInString => "EOF while parsing a string"
  | .noValue => "expected value"
  | .noWord => "expected ident"
  | .noColon => "expected `:`"
  | .noObjectEnd => "expected `,` or `\x7d`"
  | .noListEnd => "expected `,` or `]`"
  | .nameNotString => "key must be a string"
  | .trailingComma => "trailing comma"
  | .trailingCharacters => "trailing characters"
  | .badNumeral => "invalid number"
  | .outOfRange => "number out of range"
  | .badEscape => "invalid escape"
  | .loneSurrogate => "lone leading surrogate in hex escape"
  | .unpairedSurrogate => "unexpected end of hex escape"
  | .controlCharacter => "control character (\\u0000-\\u001F) found while parsing a string"
  | .notText => "invalid unicode code point"
  | .tooDeep => "recursion limit exceeded"
  | .wrongKind found expected => wrongKindText found expected
  | .missingField name => s!"missing field `{name}`"
  | .repeatedField name => s!"duplicate field `{name}`"
  | .emptyList expected => s!"invalid length 0, expected {expected} with 1 element"

/-! ## Places -/

/-- A cause with the octets that were not read. -/
structure Stop where
  /-- Why reading stopped. -/
  cause : Cause
  /-- What was left to read. -/
  unread : Bytes
  /-- Whether the next octet is the one at fault. -/
  atNext : Bool

/-- What reading the front of a text comes to: something, mostly with the rest of the text, or a
stop. -/
abbrev Reading := Except Stop

/-- Stops behind the last octet taken. -/
def stop {α : Type} (cause : Cause) (unread : Bytes) : Reading α := .error ⟨cause, unread, false⟩

/-- Stops at the next octet. -/
def stopAt {α : Type} (cause : Cause) (unread : Bytes) : Reading α := .error ⟨cause, unread, true⟩

/-- A cause with its place in a text. -/
structure Fault where
  /-- Why the text was refused. -/
  cause : Cause
  /-- The line, from one on. -/
  line : Nat
  /-- The number of octets in the line up to the place. -/
  column : Nat

/-- The wording of a fault. -/
def Fault.message (f : Fault) : String := s!"{f.cause.message} at line {f.line} column {f.column}"

/-- How many octets of `text` count as read at a stop. -/
def Stop.position (text : Bytes) (s : Stop) : Nat :=
  let read := text.length - s.unread.length
  if s.atNext then min (read + 1) text.length else read

/-- The place of a stop in the text that was read. -/
def Stop.locate (text : Bytes) (s : Stop) : Fault where
  cause := s.cause
  line := 1 + (text.take (s.position text)).count 0x0A
  column := ((text.take (s.position text)).reverse.takeWhile (· != 0x0A)).length

end RecordBoard.Json
