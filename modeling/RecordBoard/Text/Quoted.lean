import RecordBoard.Text.Hex
import RecordBoard.Text.Printable

/-!
# Quoted texts in messages

A message that repeats what it was given puts it in quotes and escapes what would confuse a reader:
the quote itself, the backslash, the usual controls by letter, and every other character that would
not show by its number. A text stands in double quotes and escapes those; a single character stands
in single quotes and escapes those.
-/

namespace RecordBoard.Text

/-- The escape of a character by its number, in lower-case digits without padding. -/
def byNumber (c : Char) : List Char :=
  "\\u\x7b".toList ++ Nat.toDigits 16 c.toNat ++ "\x7d".toList

/-- How a character is written between quotes of the kind `quote`. -/
def quotedChar (quote c : Char) : List Char :=
  if c = '\x00' then ['\\', '0']
  else if c = '\t' then ['\\', 't']
  else if c = '\r' then ['\\', 'r']
  else if c = '\n' then ['\\', 'n']
  else if c = '\\' then ['\\', '\\']
  else if c = quote then ['\\', quote]
  else if isShown c then [c]
  else byNumber c

/-- A text in double quotes. -/
def quoted (s : String) : String :=
  String.ofList ('\x22' :: s.toList.flatMap (quotedChar '\x22') ++ ['\x22'])

/-- A character in single quotes. -/
def quotedOne (c : Char) : String :=
  String.ofList ('\x27' :: quotedChar '\x27' c ++ ['\x27'])

end RecordBoard.Text
