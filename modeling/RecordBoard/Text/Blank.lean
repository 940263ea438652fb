/-!
# White space

Secrets, header names and page limits are trimmed of white space in the full sense of the character
standard: twenty-five characters, of which ASCII knows six. Core's `Char.isWhitespace` knows four.
-/

namespace RecordBoard.Text

/-- The characters with the property White_Space, as closed ranges of code points, ascending and
apart. -/
def blankRanges : List (Nat × Nat) :=
  [(0x09, 0x0D), (0x20, 0x20), (0x85, 0x85), (0xA0, 0xA0), (0x1680, 0x1680), (0x2000, 0x200A),
   (0x2028, 0x2029), (0x202F, 0x202F), (0x205F, 0x205F), (0x3000, 0x3000)]

/-- Whether a code point lies in one of the ranges. -/
def inRanges (ranges : List (Nat × Nat)) (n : Nat) : Bool :=
  ranges.any fun r => r.1 ≤ n && n ≤ r.2

/-- Whether a character is white space. -/
def isBlank (c : Char) : Bool := inRanges blankRanges c.toNat

/-- Characters without the blank ones at either end. -/
def trimChars (l : List Char) : List Char :=
  ((l.dropWhile isBlank).reverse.dropWhile isBlank).reverse

/-- A text without the white space at either end. -/
def trim (s : String) : String := String.ofList (trimChars s.toList)

end RecordBoard.Text
