import RecordBoard.Toml.Scalar

/-!
# Reading TOML

A document is a sequence of lines, each empty, a header, or a key with a value, and possibly a
comment behind it. Only within an array, and within a text of many lines, may a value go over a line
end.

Values nest, and so do the tables of a dotted key; both may be at most so deep.

## Main definitions

* `Toml.value?` — a value.
* `Toml.lines?` — the lines of a document.
* `Toml.read?` — the table that a text spells.
-/

namespace RecordBoard.Toml

/-- How many brackets may be open at once, and how many parts a key may have. -/
def maxDepth : Nat := 79

/-! ## Keys -/

/-- Whether a character may stand in a key without quotes. -/
def isKeyChar (c : Char) : Bool := c.isAlphanum || c == '-' || c == '_'

/-- One part of a key, with the space around it. -/
def keyPart? (input : List Char) : Option (String × List Char) := do
  let (part, rest) ← match skipBlank input with
    | [] => none
    | c :: rest =>
      if c = '\x22' ∨ c = '\x27' then lineText? (c :: rest)
      else if isKeyChar c then
        some (String.ofList ((c :: rest).takeWhile isKeyChar), (c :: rest).dropWhile isKeyChar)
      else none
  return (part, skipBlank rest)

/-- A key of at most `room` parts. -/
def key? (room : Nat) (input : List Char) : Option (List String × List Char) :=
  match room with
  | 0 => none
  | room + 1 => do
    let (part, rest) ← keyPart? input
    match rest with
    | '.' :: rest => (key? room rest).map fun (path, rest) => (part :: path, rest)
    | _ => some ([part], rest)

/-- A key and the sign behind it. -/
def keySign? (input : List Char) : Option (List String × List Char) := do
  let (path, rest) ← key? maxDepth input
  return (path, ← expect? '=' rest)

/-! ## Values -/

/-- The rest behind white space, line ends and comments. -/
def skipLines (fuel : Nat) (input : List Char) : List Char :=
  match fuel with
  | 0 => input
  | fuel + 1 =>
    let rest := skipComment (skipBlank input)
    match lineEnd? rest with
    | some rest => skipLines fuel rest
    | none => rest

mutual

/-- A value, in which `room` brackets may be open at once. -/
def value? (fuel room : Nat) (input : List Char) : Option (Value × List Char) :=
  match fuel, input with
  | 0, _ => none
  | _, [] => none
  | fuel + 1, c :: rest =>
    if c = '\x22' ∨ c = '\x27' then (text? (c :: rest)).map fun (s, rest) => (.string s, rest)
    else if c = '[' then
      match room with
      | 0 => none
      | room + 1 => (items? fuel room rest).map fun (items, rest) => (.array items, rest)
    else if c = '{' then
      match room with
      | 0 => none
      | room + 1 =>
        match skipBlank rest with
        | '}' :: rest => some (.table .braces [], rest)
        | _ => do
          let (pairs, rest) ← pairs? fuel room rest
          return (.table .braces (← Entries.defineAll [] pairs), rest)
    else word? (c :: rest)

/-- The items of an array up to its closing bracket. -/
def items? (fuel room : Nat) (input : List Char) : Option (List Value × List Char) :=
  match fuel with
  | 0 => none
  | fuel + 1 =>
    match skipLines (input.length + 1) input with
    | ']' :: rest => some ([], rest)
    | start => do
      let (v, rest) ← value? fuel room start
      match skipLines (rest.length + 1) rest with
      | ']' :: rest => some ([v], rest)
      | ',' :: rest => (items? fuel room rest).map fun (items, rest) => (v :: items, rest)
      | _ => none

/-- The keys with values of a table in braces up to its closing one. -/
def pairs? (fuel room : Nat) (input : List Char) :
    Option (List (List String × Value) × List Char) :=
  match fuel with
  | 0 => none
  | fuel + 1 => do
    let (path, rest) ← keySign? input
    let (v, rest) ← value? fuel room (skipBlank rest)
    match skipBlank rest with
    | '}' :: rest => some ([(path, v)], rest)
    | ',' :: rest => (pairs? fuel room rest).map fun (pairs, rest) => ((path, v) :: pairs, rest)
    | _ => none

end

/-! ## Documents -/

/-- The rest behind the end of a line, where only space and a comment may stand in front of it. -/
def lineRest? (input : List Char) : Option (List Char) :=
  match skipComment (skipBlank input) with
  | [] => some []
  | rest => lineEnd? rest

/-- A line that holds something. -/
def line? (input : List Char) : Option (Line × List Char) :=
  match input with
  | '[' :: '[' :: rest => do
    let (path, rest) ← key? maxDepth rest
    return (.element path, ← expect? ']' (← expect? ']' rest))
  | '[' :: rest => do
    let (path, rest) ← key? maxDepth rest
    return (.table path, ← expect? ']' rest)
  | _ => do
    let (path, rest) ← keySign? input
    let (v, rest) ← value? (rest.length + 1) maxDepth (skipBlank rest)
    return (.entry path v, rest)

/-- The lines of a document that hold something. -/
def lines? (fuel : Nat) (input : List Char) : Option (List Line) :=
  match fuel with
  | 0 => none
  | fuel + 1 =>
    match skipLines (input.length + 1) input with
    | [] => some []
    | start => do
      let (line, rest) ← line? start
      let lines ← lines? fuel (← lineRest? rest)
      return line :: lines

/-- The text without the mark of its encoding that may stand in front. -/
def dropMark : List Char → List Char
  | '\uFEFF' :: rest => rest
  | input => input

/-- The table that a text spells. -/
def read? (s : String) : Option Entries :=
  let input := dropMark s.toList
  (lines? (input.length + 1) input).bind ofLines?

end RecordBoard.Toml
