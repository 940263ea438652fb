import RecordBoard.Json.Value
import RecordBoard.Text.Hex

/-!
# The written form of JSON values

Values are written without white space. In a string the quote, the backslash and the characters
below the space are escaped, the common ones by letter and the others by number; everything else
stands for itself.
-/

namespace RecordBoard.Json

/-- How a character is written inside a string. -/
def escapedChar (c : Char) : List Char :=
  if c = '\x22' then ['\\', '\x22']
  else if c = '\\' then ['\\', '\\']
  else if c = '\x08' then ['\\', 'b']
  else if c = '\t' then ['\\', 't']
  else if c = '\n' then ['\\', 'n']
  else if c = '\x0c' then ['\\', 'f']
  else if c = '\r' then ['\\', 'r']
  else if c.toNat < 0x20 then
    ['\\', 'u', '0', '0', Hex.digit (c.toNat / 16), Hex.digit (c.toNat % 16)]
  else [c]

/-- The written form of a string. -/
def stringText (s : String) : String :=
  String.ofList ('\x22' :: s.toList.flatMap escapedChar ++ ['\x22'])

/-- Texts between brackets, with commas. -/
def commaSeparated (opening closing : String) (parts : List String) : String :=
  opening ++ ",".intercalate parts ++ closing

namespace Value

mutual

/-- The written form of a value. -/
def text : Value → String
  | .null => "null"
  | .boolean b => if b then "true" else "false"
  | .number n => n.text
  | .string s => stringText s
  | .array items => commaSeparated "[" "]" (itemTexts items)
  | .object fields => commaSeparated "\x7b" "\x7d" (fieldTexts fields)

/-- The written forms of items. -/
def itemTexts : List Value → List String
  | [] => []
  | v :: rest => v.text :: itemTexts rest

/-- The written forms of fields, each a name, a colon and a value. -/
def fieldTexts : List (String × Value) → List String
  | [] => []
  | (name, v) :: rest => (stringText name ++ ":" ++ v.text) :: fieldTexts rest

end

/-- The octets of the written form. -/
def encode (v : Value) : Bytes := Utf8.encode v.text

end Value

end RecordBoard.Json
