import RecordBoard.Json.Reader

/-!
# Skipping JSON values

A field that a request body may carry but nobody asks for is skipped: its brackets and quotes must
match, its numerals and escapes must have the right shape, and nothing else is looked at. Numbers
have no range, strings need be no text, and brackets may nest without limit. That is why the open
brackets are a list here and a bound on the depth in the reader.

The wording of refusals differs from the reader's in a few places: behind a comma a closing bracket
is taken for a bad item or name, and a missing digit is always a bad numeral.
-/

namespace RecordBoard.Json

/-- The rest behind a string, from behind its opening quote on. A control character is left
unread. -/
def skipString : Bytes → Reading Bytes
  | [] => stop .endInString []
  | c :: rest =>
    if c = 0x22 then .ok rest
    else if c < 0x20 then stop .controlCharacter (c :: rest)
    else if c ≠ 0x5C then skipString rest
    else match rest with
      | [] => stop .endInString []
      | letter :: rest =>
        if letter ≠ 0x75 then
          match letterEscape? letter with
          | some _ => skipString rest
          | none => stop .badEscape rest
        else match rest with
          | a :: b :: c :: d :: rest =>
            match unit? a b c d with
            | some _ => skipString rest
            | none => stop .badEscape rest
          | _ => stop .endInString []

/-- The rest behind an exponent, from behind its letter on. -/
def skipExponent (input : Bytes) : Reading Bytes :=
  match (Numeral.exponentSign input).2 with
  | [] => stop .badNumeral []
  | c :: rest => if isDigit c then .ok (rest.dropWhile isDigit) else stop .badNumeral rest

/-- The rest behind an exponent, if one comes. -/
def skipExponentPart (input : Bytes) : Reading Bytes :=
  match input with
  | [] => .ok []
  | c :: rest => if c = 0x65 ∨ c = 0x45 then skipExponent rest else .ok (c :: rest)

/-- The rest behind what may follow the digits before the point. -/
def skipTailParts (input : Bytes) : Reading Bytes :=
  match input with
  | 0x2E :: rest =>
    match rest with
    | [] => stopAt .badNumeral []
    | c :: after =>
      if isDigit c then skipExponentPart (after.dropWhile isDigit)
      else stopAt .badNumeral (c :: after)
  | input => skipExponentPart input

/-- The rest behind a numeral without its sign. -/
def skipUnsigned (input : Bytes) : Reading Bytes :=
  match input with
  | [] => stop .badNumeral []
  | c :: rest =>
    match digit? c with
    | none => stop .badNumeral rest
    | some 0 =>
      match rest with
      | d :: after =>
        if isDigit d then stopAt .badNumeral (d :: after) else skipTailParts (d :: after)
      | [] => skipTailParts []
    | some _ => skipTailParts (rest.dropWhile isDigit)

/-- A bracket that is open. -/
inductive Bracket where
  /-- The bracket of a list. -/
  | list
  /-- The bracket of an object. -/
  | map
deriving DecidableEq

/-- What may come next while values are skipped. -/
inductive Awaiting where
  /-- A value. -/
  | value
  /-- The end of the innermost bracket, or else its first item or field. -/
  | first
  /-- The name of a field. -/
  | name
  /-- A comma or the end of the innermost bracket. -/
  | next
deriving DecidableEq

/-- The cause if the text ends inside a bracket. -/
def Bracket.endCause : Bracket → Cause
  | .list => .endInList
  | .map => .endInObject

/-- The cause if neither a comma nor the end follows an item or field. -/
def Bracket.separatorCause : Bracket → Cause
  | .list => .noListEnd
  | .map => .noObjectEnd

/-- The octet that closes a bracket. -/
def Bracket.closing : Bracket → UInt8
  | .list => 0x5D
  | .map => 0x7D

/-- What comes first behind a bracket that is not closed at once, and behind a comma. -/
def Bracket.item : Bracket → Awaiting
  | .list => .value
  | .map => .name

/-- The rest behind a value without parts, or the bracket that opens. -/
def skipHead (c : UInt8) (rest : Bytes) : Reading (Option Bracket × Bytes) :=
  if c = 0x6E then (expectWord [0x75, 0x6C, 0x6C] rest).map (none, ·)
  else if c = 0x74 then (expectWord [0x72, 0x75, 0x65] rest).map (none, ·)
  else if c = 0x66 then (expectWord [0x61, 0x6C, 0x73, 0x65] rest).map (none, ·)
  else if c = 0x22 then (skipString rest).map (none, ·)
  else if c = 0x5B then .ok (some .list, rest)
  else if c = 0x7B then .ok (some .map, rest)
  else if c = 0x2D then (skipUnsigned rest).map (none, ·)
  else if isDigit c then (skipUnsigned (c :: rest)).map (none, ·)
  else stopAt .noValue (c :: rest)

/-- The rest behind a field name and its colon. -/
def skipName (c : UInt8) (rest : Bytes) : Reading Bytes := do
  if c = 0x22 then skipColon (← skipString rest) else stopAt .nameNotString (c :: rest)

/-- The rest behind the values that the open brackets still ask for. -/
def skipLoop (fuel : Nat) (opened : List Bracket) (awaiting : Awaiting) (input : Bytes) :
    Reading Bytes :=
  match fuel with
  | 0 => stopAt .endInValue []
  | fuel + 1 =>
    match awaiting, opened with
    | .value, opened =>
      match skipSpace input with
      | [] => stopAt .endInValue []
      | c :: rest =>
        match skipHead c rest with
        | .error s => .error s
        | .ok (some bracket, rest) => skipLoop fuel (bracket :: opened) .first rest
        | .ok (none, rest) => skipLoop fuel opened .next rest
    | _, [] => .ok input
    | .name, bracket :: opened =>
      match skipSpace input with
      | [] => stopAt .endInObject []
      | c :: rest =>
        match skipName c rest with
        | .error s => .error s
        | .ok rest => skipLoop fuel (bracket :: opened) .value rest
    | .first, bracket :: opened =>
      match skipSpace input with
      | [] => stopAt bracket.endCause []
      | c :: rest =>
        if c = bracket.closing then skipLoop fuel opened .next rest
        else skipLoop fuel (bracket :: opened) bracket.item (c :: rest)
    | .next, bracket :: opened =>
      match skipSpace input with
      | [] => stopAt bracket.endCause []
      | c :: rest =>
        if c = bracket.closing then skipLoop fuel opened .next rest
        else if c = 0x2C then skipLoop fuel (bracket :: opened) bracket.item rest
        else stopAt bracket.separatorCause (c :: rest)

/-- The rest behind a value that is skipped. An octet is looked at no more than twice. -/
def skipValue (input : Bytes) : Reading Bytes := skipLoop (2 * input.length + 2) [] .value input

end RecordBoard.Json
