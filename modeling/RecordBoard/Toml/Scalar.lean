import RecordBoard.Number.Binary64
import RecordBoard.Toml.Value

/-!
# TOML scalars

Texts, numbers, truth values and moments, read off the front of a text. There is one reason for
refusing any of them, that the text is not TOML, so the readers give an option. Each takes as much
as belongs to its scalar; whether what follows may follow is for the caller to see.
-/

namespace RecordBoard.Toml

-- Powers are those of the core library, whatever else an importing module knows: hence the
-- instance, and the type of each exponent.
attribute [local instance (2000)] instPowNat

/-- Whether a character is a space or a tab. -/
def isBlank (c : Char) : Bool := c == ' ' || c == '\t'

/-- The rest of a text behind spaces and tabs. -/
def skipBlank (input : List Char) : List Char := input.dropWhile isBlank

/-- The rest behind a line end, if the text begins with one. -/
def lineEnd? : List Char → Option (List Char)
  | '\n' :: rest => some rest
  | '\r' :: '\n' :: rest => some rest
  | _ => none

/-- Whether a character may stand in a comment, and outside of escapes in a text: no control
character but the tab. -/
def isPlain (c : Char) : Bool := c == '\t' || (0x20 ≤ c.toNat && c.toNat ≠ 0x7F)

/-- The rest behind a comment, if the text begins with one. -/
def skipComment : List Char → List Char
  | '#' :: rest => rest.dropWhile isPlain
  | input => input

/-! ## Texts -/

/-- The value of a hexadecimal digit. -/
def hexDigit? (c : Char) : Option Nat :=
  if '0' ≤ c ∧ c ≤ '9' then some (c.toNat - '0'.toNat)
  else if 'a' ≤ c ∧ c ≤ 'f' then some (c.toNat - 'a'.toNat + 10)
  else if 'A' ≤ c ∧ c ≤ 'F' then some (c.toNat - 'A'.toNat + 10)
  else none

/-- The character whose number is spelt by `count` hexadecimal digits. -/
def numbered? (count : Nat) (input : List Char) : Option (Char × List Char) := do
  let ds ← (input.take count).mapM hexDigit?
  let n := ds.foldl (fun n d => n * 16 + d) 0
  if ds.length = count ∧ n.isValidChar then some (Char.ofNat n, input.drop count) else none

/-- The character that an escape names, from behind its backslash. -/
def escape? : List Char → Option (Char × List Char)
  | [] => none
  | c :: rest =>
    match c with
    | 'b' => some ('\x08', rest)
    | 't' => some ('\t', rest)
    | 'n' => some ('\n', rest)
    | 'f' => some ('\x0c', rest)
    | 'r' => some ('\r', rest)
    | '\x22' => some ('\x22', rest)
    | '\\' => some ('\\', rest)
    | 'u' => numbered? 4 rest
    | 'U' => numbered? 8 rest
    | _ => none

/-- A character in front of those that were read. -/
def before (c : Char) (r : Option (List Char × List Char)) : Option (List Char × List Char) :=
  r.map fun (cs, rest) => (c :: cs, rest)

/-- A text in double quotes, from behind the opening one. -/
def basicBody? (fuel : Nat) (input : List Char) : Option (List Char × List Char) :=
  match fuel, input with
  | 0, _ => none
  | _, [] => none
  | fuel + 1, c :: rest =>
    if c = '\x22' then some ([], rest)
    else if c = '\\' then (escape? rest).bind fun (named, rest) =>
      before named (basicBody? fuel rest)
    else if isPlain c then before c (basicBody? fuel rest)
    else none

/-- A text in single quotes, from behind the opening one. -/
def literalBody? : List Char → Option (List Char × List Char)
  | [] => none
  | c :: rest =>
    if c = '\x27' then some ([], rest)
    else if isPlain c then before c (literalBody? rest)
    else none

/-- The end of a text of many lines: three quotes, of which up to two more in front belong to the
text. -/
def closing? (quote : Char) (input : List Char) : Option (List Char × List Char) :=
  let run := (input.takeWhile (· == quote)).length
  if run < 3 then none
  else
    let inside := min (run - 3) 2
    some (List.replicate inside quote, input.drop (inside + 3))

/-- The rest behind the white space that a backslash at the end of a line takes away. -/
def skipBreak? (input : List Char) : Option (List Char) :=
  (lineEnd? (skipBlank input)).map go
where
  /-- The rest behind blank lines and the space in front of a text. -/
  go : List Char → List Char
    | '\r' :: '\n' :: rest => go rest
    | c :: rest => if c = '\n' ∨ isBlank c then go rest else c :: rest
    | [] => []

/-- A text of many lines in double quotes, from behind the opening ones. -/
def basicLines? (fuel : Nat) (input : List Char) : Option (List Char × List Char) :=
  match fuel, input with
  | 0, _ => none
  | _, [] => none
  | fuel + 1, c :: rest =>
    match closing? '\x22' (c :: rest) with
    | some closed => some closed
    | none =>
      match lineEnd? (c :: rest) with
      | some rest => before '\n' (basicLines? fuel rest)
      | none =>
        if c = '\\' then
          match skipBreak? rest with
          | some rest => basicLines? fuel rest
          | none => (escape? rest).bind fun (named, rest) => before named (basicLines? fuel rest)
        else if isPlain c then before c (basicLines? fuel rest)
        else none

/-- A text of many lines in single quotes, from behind the opening ones. -/
def literalLines? (fuel : Nat) (input : List Char) : Option (List Char × List Char) :=
  match fuel, input with
  | 0, _ => none
  | _, [] => none
  | fuel + 1, c :: rest =>
    match closing? '\x27' (c :: rest) with
    | some closed => some closed
    | none =>
      match lineEnd? (c :: rest) with
      | some rest => before '\n' (literalLines? fuel rest)
      | none => if isPlain c then before c (literalLines? fuel rest) else none

/-- A text of many lines begins behind the line end that may follow its opening quotes. -/
def dropFirstBreak (input : List Char) : List Char := (lineEnd? input).getD input

/-- A text on one line, from its opening quote on. -/
def lineText? (input : List Char) : Option (String × List Char) :=
  match input with
  | '\x22' :: rest => (basicBody? (rest.length + 1) rest).map fun (cs, rest) =>
    (String.ofList cs, rest)
  | '\x27' :: rest => (literalBody? rest).map fun (cs, rest) => (String.ofList cs, rest)
  | _ => none

/-- A text, from its opening quote on. -/
def text? (input : List Char) : Option (String × List Char) :=
  match input with
  | '\x22' :: '\x22' :: '\x22' :: rest =>
    (basicLines? (rest.length + 1) (dropFirstBreak rest)).map fun (cs, rest) =>
    (String.ofList cs, rest)
  | '\x27' :: '\x27' :: '\x27' :: rest =>
    (literalLines? (rest.length + 1) (dropFirstBreak rest)).map fun (cs, rest) =>
    (String.ofList cs, rest)
  | _ => lineText? input

/-! ## Numbers -/

/-- Whether a character is a decimal digit. -/
def isDigit (c : Char) : Bool := '0' ≤ c && c ≤ '9'

/-- Digits behind a first one. An underscore may stand between two of them. -/
def moreDigits? (accepts : Char → Bool) : List Char → Option (List Char × List Char)
  | [] => some ([], [])
  | '_' :: rest =>
    match rest with
    | c :: rest => if accepts c then before c (moreDigits? accepts rest) else none
    | [] => none
  | c :: rest => if accepts c then before c (moreDigits? accepts rest) else some ([], c :: rest)

/-- Digits, at least one. -/
def digits? (accepts : Char → Bool) : List Char → Option (List Char × List Char)
  | c :: rest => if accepts c then before c (moreDigits? accepts rest) else none
  | [] => none

/-- The number that digits spell. -/
def number (base : Nat) (ds : List Char) : Nat :=
  ds.foldl (fun n c => n * base + (hexDigit? c).getD 0) 0

/-- The digits of an integer: a zero alone, or digits of which the first is none. -/
def wholeDigits? : List Char → Option (List Char × List Char)
  | '0' :: rest => some (['0'], rest)
  | input => digits? isDigit input

/-- An integer, if it fits sixty-four bits with a sign. -/
def integer? (i : Int) : Option Value :=
  if -2 ^ (63 : Nat) ≤ i ∧ i < 2 ^ (63 : Nat) then some (.integer i) else none

/-- Whether `digits * 10 ^ exponent` is larger than every double; numbers far from the largest one
are told apart by their length. -/
def isTooLarge (digits : Nat) (exponent : Int) : Bool :=
  let magnitude := ((Nat.toDigits 10 digits).length : Int) + exponent
  if digits = 0 ∨ magnitude < 309 then false
  else if 309 < magnitude then true
  else
    (Binary64.ofQuotient? false (Binary64.unitsInOne * 10 ^ exponent.toNat * digits)
      (10 ^ (-exponent).toNat)).isNone

/-- A sign, if any. -/
def sign : List Char → List Char × List Char
  | '+' :: rest => (['+'], rest)
  | '-' :: rest => (['-'], rest)
  | input => ([], input)

/-- What may follow the digits of a whole number: a fraction and an exponent. Too large a number is
refused unless it is negative. -/
def decimal? (signs whole : List Char) (input : List Char) : Option (Value × List Char) := do
  let (fraction, rest) ← match input with
    | '.' :: rest => digits? isDigit rest
    | _ => some ([], input)
  let (exponent, marked, rest) ← match rest with
    | c :: after =>
      if c = 'e' ∨ c = 'E' then do
        let (minus, digits) := sign after
        let (ds, rest) ← digits? isDigit digits
        let n : Int := number 10 ds
        some (if minus = ['-'] then -n else n, true, rest)
      else some (0, false, rest)
    | [] => some (0, false, rest)
  if fraction = [] ∧ !marked then
    let n : Int := number 10 whole
    (integer? (if signs = ['-'] then -n else n)).map (·, rest)
  else if signs ≠ ['-'] ∧ isTooLarge (number 10 (whole ++ fraction))
    (exponent - fraction.length) then none
  else some (.float (String.ofList (input.take (input.length - rest.length))), rest)

/-- An integer in another base, from behind what marks the base. -/
def based? (base : Nat) (input : List Char) : Option (Value × List Char) := do
  let (ds, rest) ← digits? (fun c => (hexDigit? c).any (· < base)) input
  return (← integer? (number base ds), rest)

/-- A number that is written with digits, or one that is none. -/
def number? (input : List Char) : Option (Value × List Char) :=
  match input with
  | '0' :: 'x' :: rest => based? 16 rest
  | '0' :: 'o' :: rest => based? 8 rest
  | '0' :: 'b' :: rest => based? 2 rest
  | _ =>
    let (signs, rest) := sign input
    match rest with
    | 'i' :: 'n' :: 'f' :: rest => some (.float "inf", rest)
    | 'n' :: 'a' :: 'n' :: rest => some (.float "nan", rest)
    | _ => (wholeDigits? rest).bind fun (whole, rest) => decimal? signs whole rest

/-! ## Moments -/

/-- A number of exactly `count` digits, within bounds. -/
def fixed? (count low high : Nat) (input : List Char) : Option (Nat × List Char) :=
  let ds := input.take count
  let n := number 10 ds
  if ds.length = count ∧ ds.all isDigit ∧ low ≤ n ∧ n ≤ high then some (n, input.drop count)
  else none

/-- The rest behind a character. -/
def expect? (c : Char) : List Char → Option (List Char)
  | d :: rest => if d = c then some rest else none
  | [] => none

/-- The number of days of a month. -/
def daysIn (year month : Nat) : Nat :=
  if month = 2 then if year % 4 = 0 ∧ (year % 100 ≠ 0 ∨ year % 400 = 0) then 29 else 28
  else if month ∈ [4, 6, 9, 11] then 30
  else 31

/-- The rest behind a date. -/
def skipDate? (input : List Char) : Option (List Char) := do
  let (year, rest) ← fixed? 4 0 9999 input
  let (month, rest) ← fixed? 2 1 12 (← expect? '-' rest)
  let (_, rest) ← fixed? 2 1 (daysIn year month) (← expect? '-' rest)
  return rest

/-- The rest behind a time of day. -/
def skipTime? (input : List Char) : Option (List Char) := do
  let (_, rest) ← fixed? 2 0 23 input
  let (_, rest) ← fixed? 2 0 59 (← expect? ':' rest)
  let (_, rest) ← fixed? 2 0 60 (← expect? ':' rest)
  match rest with
  | '.' :: c :: rest => some (if isDigit c then rest.dropWhile isDigit else '.' :: c :: rest)
  | _ => some rest

/-- The rest behind a difference to universal time, if one comes. -/
def skipOffset? (input : List Char) : Option (List Char) :=
  match input with
  | [] => some []
  | c :: rest =>
    if c = 'Z' ∨ c = 'z' then some rest
    else if c = '+' ∨ c = '-' then do
      let (_, rest) ← fixed? 2 0 23 rest
      let (_, rest) ← fixed? 2 0 59 (← expect? ':' rest)
      return rest
    else some input

/-- The rest behind a moment: a date, a time of day, or a date with a time of day. -/
def skipMoment? (input : List Char) : Option (List Char) :=
  match skipDate? input with
  | none => skipTime? input
  | some afterDate =>
    match afterDate with
    | c :: rest =>
      if c = 'T' ∨ c = 't' ∨ c = ' ' then
        match skipTime? rest with
        | some rest => skipOffset? rest
        | none => some afterDate
      else some afterDate
    | [] => some []

/-- A moment, a number, or a truth value. -/
def word? (input : List Char) : Option (Value × List Char) :=
  match input with
  | 't' :: 'r' :: 'u' :: 'e' :: rest => some (.boolean true, rest)
  | 'f' :: 'a' :: 'l' :: 's' :: 'e' :: rest => some (.boolean false, rest)
  | _ =>
    match skipMoment? input with
    | some rest => some (.moment (String.ofList (input.take (input.length - rest.length))), rest)
    | none => number? input

end RecordBoard.Toml
