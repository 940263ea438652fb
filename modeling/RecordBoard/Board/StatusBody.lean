import RecordBoard.Json.Skip

/-!
# The body of a status update

A status update asks for a name of a status. Its body is an object with a field `status`, or a list
of nothing but that name. Other fields are skipped, so they need not even be values that could be
read.
-/

namespace RecordBoard.Board.StatusBody

open Json (Reading stop stopAt head skipSpace)

/-- What a refusal says was asked for. -/
def expected : String := "struct StatusBody"

/-- The field that counts. -/
def field : String := "status"

/-- A string, and nothing else. -/
def readString (input : Bytes) : Reading (String × Bytes) := do
  match ← head input with
  | .scalar (.string s) rest => .ok (s, rest)
  | other => other.refuse "a string"

/-- A list of one string, from behind its bracket on. -/
def readList (input : Bytes) : Reading (String × Bytes) :=
  match skipSpace input with
  | [] => stopAt .endInList []
  | c :: rest => do
    if c = 0x5D then stop (.emptyList expected) rest
    else
      let (s, rest) ← readString (c :: rest)
      match skipSpace rest with
      | [] => stopAt .endInList []
      | c :: rest =>
        if c = 0x5D then .ok (s, rest)
        else if c ≠ 0x2C then stopAt .trailingCharacters (c :: rest)
        else
          let rest := skipSpace rest
          stopAt (if rest.head? = some 0x5D then .trailingComma else .trailingCharacters) rest

/-- The rest behind the closing bracket of an object, if that comes next. -/
def skipClosing (input : Bytes) : Bytes :=
  match skipSpace input with
  | [] => []
  | c :: rest => if c = 0x7D then rest else c :: rest

/-- A field, from its name on: the status found so far, and with it the one in this field. -/
def readField (found : Option String) (input : Bytes) : Reading (Option String × Bytes) := do
  let (name, rest) ← Json.fieldName input
  if name = field then
    if found.isSome then stop (.repeatedField field) (skipClosing rest)
    else
      let (s, rest) ← readString (← Json.skipColon rest)
      return (some s, rest)
  else return (found, ← Json.skipValue (← Json.skipColon rest))

/-- The end of an object. -/
def finish (found : Option String) (rest : Bytes) : Reading (String × Bytes) :=
  match found with
  | some s => .ok (s, rest)
  | none => stop (.missingField field) rest

/-- The fields of an object, from behind one of them on. -/
def readMore (fuel : Nat) (found : Option String) (input : Bytes) : Reading (String × Bytes) :=
  match fuel with
  | 0 => stopAt .endInObject []
  | fuel + 1 =>
    match skipSpace input with
    | [] => stopAt .endInObject []
    | c :: rest => do
      if c = 0x7D then finish found rest
      else if c ≠ 0x2C then stopAt .noObjectEnd (c :: rest)
      else
        match skipSpace rest with
        | [] => stopAt .endInValue []
        | c :: rest =>
          if c = 0x7D then stopAt .trailingComma (c :: rest)
          else
            let (found, rest) ← readField found (c :: rest)
            readMore fuel found rest

/-- The fields of an object, from behind its bracket on. -/
def readObject (input : Bytes) : Reading (String × Bytes) :=
  match skipSpace input with
  | [] => stopAt .endInObject []
  | c :: rest => do
    if c = 0x7D then finish none rest
    else
      let (found, rest) ← readField none (c :: rest)
      readMore (rest.length + 1) found rest

/-- The front of a text as the body of a status update. -/
def read (input : Bytes) : Reading (String × Bytes) := do
  match ← head input with
  | .map inside => readObject inside
  | .list inside => readList inside
  | other => other.refuse expected

/-- The name that the body of a status update asks for. -/
def decode (body : Bytes) : Except Json.Fault String := Json.complete body read

end RecordBoard.Board.StatusBody
