import RecordBoard.Json.Numeral
import RecordBoard.Json.StringReader

/-!
# Reading JSON

A value begins with white space and a first octet that says what it is. `head` reads that much: a
value without parts completely, and of an array or object the opening bracket. Reading a whole
value, a record or a request body then differ only in what they do with the head.

Values nest. The reader carries how many more brackets may open, `room`, and a bound on the number
of steps, `fuel`. Two steps that follow each other take at least one octet, so `enough` steps for a
text are never used up.

Fields are read in the order they are written, repetitions included, and put into key order when the
object is complete. Of fields with one name the last stays.

## Main definitions

* `Json.head` — what a value is, from its first octet.
* `Json.readValue`, `Json.readItems`, `Json.readFields` — values, items up to the closing bracket,
  fields up to theirs.
* `Json.complete` — a whole text.
* `Json.decode` — the value that a text spells.
-/

namespace RecordBoard.Json

/-! ## The first octets of a value -/

/-- Whether an octet is white space. -/
def isSpace (b : UInt8) : Bool := b == 0x20 || b == 0x09 || b == 0x0A || b == 0x0D

/-- A text without the white space in front. -/
def skipSpace (input : Bytes) : Bytes := input.dropWhile isSpace

/-- The rest of a text behind the octets `word`. -/
def expectWord (word : Bytes) (input : Bytes) : Reading Bytes :=
  match word, input with
  | [], rest => .ok rest
  | _ :: _, [] => stop .endInValue []
  | w :: word, c :: rest => if c = w then expectWord word rest else stop .noWord rest

/-- The front of a value. -/
inductive Head where
  /-- A value without parts, and the rest. -/
  | scalar (v : Value) (rest : Bytes)
  /-- An array, from behind its bracket on. -/
  | list (inside : Bytes)
  /-- An object, from behind its bracket on. -/
  | map (inside : Bytes)

/-- The front of the value that the text begins with, white space aside. -/
def head (input : Bytes) : Reading Head :=
  match skipSpace input with
  | [] => stopAt .endInValue []
  | c :: rest =>
    if c = 0x6E then (expectWord [0x75, 0x6C, 0x6C] rest).map (.scalar .null)
    else if c = 0x74 then (expectWord [0x72, 0x75, 0x65] rest).map (.scalar (.boolean true))
    else if c = 0x66 then (expectWord [0x61, 0x6C, 0x73, 0x65] rest).map (.scalar (.boolean false))
    else if c = 0x22 then (stringBody rest).map fun (s, rest) => .scalar (.string s) rest
    else if c = 0x5B then .ok (.list rest)
    else if c = 0x7B then .ok (.map rest)
    else if c = 0x2D ∨ isDigit c then (Number.ofBytes (c :: rest)).map fun (n, rest) =>
      .scalar (.number n) rest
    else stopAt .noValue (c :: rest)

/-- Refuses a head because another kind of value was asked for. -/
def Head.refuse {α : Type} (expected : String) : Head → Reading α
  | .scalar v rest => stop (.wrongKind (.scalar v) expected) rest
  | .list inside => stop (.wrongKind .list expected) (0x5B :: inside)
  | .map inside => stop (.wrongKind .map expected) (0x7B :: inside)

/-! ## Values -/

/-- The number of brackets that may be open at once. -/
def maxDepth : Nat := 127

/-- The name of a field, which stands in quotes. -/
def fieldName (input : Bytes) : Reading (String × Bytes) :=
  match input with
  | [] => stopAt .endInValue []
  | c :: rest => if c = 0x22 then stringBody rest else stopAt .nameNotString (c :: rest)

/-- The rest behind the colon that follows the name of a field. -/
def skipColon (input : Bytes) : Reading Bytes :=
  match skipSpace input with
  | [] => stopAt .endInObject []
  | c :: rest => if c = 0x3A then .ok rest else stopAt .noColon (c :: rest)

mutual

/-- A value, in which `room` brackets may be open at once. -/
def readValue (fuel room : Nat) (input : Bytes) : Reading (Value × Bytes) :=
  match fuel with
  | 0 => stopAt .endInValue []
  | fuel + 1 => do
    match ← head input with
    | .scalar v rest => .ok (v, rest)
    | .list inside =>
      if room = 0 then stopAt .tooDeep (0x5B :: inside)
      else
        let (items, rest) ← readItems fuel (room - 1) inside
        .ok (.array items, rest)
    | .map inside =>
      if room = 0 then stopAt .tooDeep (0x7B :: inside)
      else
        let (fields, rest) ← readFields fuel (room - 1) inside
        .ok (.object (Keyed.ofList fields), rest)

/-- The items of a list, from behind its bracket on. -/
def readItems (fuel room : Nat) (input : Bytes) : Reading (List Value × Bytes) :=
  match fuel with
  | 0 => stopAt .endInList []
  | fuel + 1 =>
    match skipSpace input with
    | [] => stopAt .endInList []
    | c :: rest => do
      if c = 0x5D then .ok ([], rest)
      else
        let (v, rest) ← readValue fuel room (c :: rest)
        let (items, rest) ← readMoreItems fuel room rest
        .ok (v :: items, rest)

/-- The items of a list, from behind one of them on. -/
def readMoreItems (fuel room : Nat) (input : Bytes) : Reading (List Value × Bytes) :=
  match fuel with
  | 0 => stopAt .endInList []
  | fuel + 1 =>
    match skipSpace input with
    | [] => stopAt .endInList []
    | c :: rest => do
      if c = 0x5D then .ok ([], rest)
      else if c ≠ 0x2C then stopAt .noListEnd (c :: rest)
      else
        match skipSpace rest with
        | [] => stopAt .endInValue []
        | c :: rest =>
          if c = 0x5D then stopAt .trailingComma (c :: rest)
          else
            let (v, rest) ← readValue fuel room (c :: rest)
            let (items, rest) ← readMoreItems fuel room rest
            .ok (v :: items, rest)

/-- The fields of an object as they are written, from behind its bracket on. -/
def readFields (fuel room : Nat) (input : Bytes) : Reading (List (String × Value) × Bytes) :=
  match fuel with
  | 0 => stopAt .endInObject []
  | fuel + 1 =>
    match skipSpace input with
    | [] => stopAt .endInObject []
    | c :: rest => do
      if c = 0x7D then .ok ([], rest)
      else
        let (name, rest) ← fieldName (c :: rest)
        let (v, rest) ← readValue fuel room (← skipColon rest)
        let (fields, rest) ← readMoreFields fuel room rest
        .ok ((name, v) :: fields, rest)

/-- The fields of an object as they are written, from behind one of them on. -/
def readMoreFields (fuel room : Nat) (input : Bytes) : Reading (List (String × Value) × Bytes) :=
  match fuel with
  | 0 => stopAt .endInObject []
  | fuel + 1 =>
    match skipSpace input with
    | [] => stopAt .endInObject []
    | c :: rest => do
      if c = 0x7D then .ok ([], rest)
      else if c ≠ 0x2C then stopAt .noObjectEnd (c :: rest)
      else
        match skipSpace rest with
        | [] => stopAt .endInValue []
        | c :: rest =>
          if c = 0x7D then stopAt .trailingComma (c :: rest)
          else
            let (name, rest) ← fieldName (c :: rest)
            let (v, rest) ← readValue fuel room (← skipColon rest)
            let (fields, rest) ← readMoreFields fuel room rest
            .ok ((name, v) :: fields, rest)

end

/-! ## Whole texts -/

/-- Nothing but white space is left. -/
def expectEnd (rest : Bytes) : Reading Unit :=
  match skipSpace rest with
  | [] => .ok ()
  | c :: rest => stopAt .trailingCharacters (c :: rest)

/-- What is read from a whole text, with a stop at its place. -/
def located {α : Type} (text : Bytes) (reading : Reading α) : Except Fault α :=
  reading.mapError (Stop.locate text)

/-- What takes the whole text, white space behind it aside. -/
def complete {α : Type} (text : Bytes) (reader : Bytes → Reading (α × Bytes)) : Except Fault α :=
  located text do
    let (a, rest) ← reader text
    expectEnd rest
    return a

/-- A number of steps that no text of a given length uses up. -/
def enough (text : Bytes) : Nat := 2 * text.length + 2

/-- The value that a text spells. -/
def decode (text : Bytes) : Except Fault Value := complete text (readValue (enough text) maxDepth)

/-- The fields of an object, and of nothing else; `expected` is what a refusal says was asked
for. -/
def readObject (fuel : Nat) (expected : String) (input : Bytes) :
    Reading (Keyed Value × Bytes) := do
  match ← head input with
  | .map inside =>
    let (fields, rest) ← readFields fuel (maxDepth - 1) inside
    .ok (Keyed.ofList fields, rest)
  | other => other.refuse expected

/-- The fields of the object that a text spells. -/
def decodeObject (expected : String) (text : Bytes) : Except Fault (Keyed Value) :=
  complete text (readObject (enough text) expected)

end RecordBoard.Json
