import RecordBoard.Http.Percent

/-!
# What a request is for

The target of a request is a path and possibly a query, both still encoded. It may be given with the
scheme and the host in front, which do not count, and with a fragment behind, which does not count
either. A target that names only a scheme and a host is for the root, and one that is no path at all
has the empty path.

A query is a list of fields with values. What is written between two ampersands is a field; without
an equals sign it has the empty value, and a plus sign in it is a space.
-/

namespace RecordBoard.Http

/-- A path and a query, encoded. -/
structure Target where
  /-- The path. -/
  path : String
  /-- The query, without the question mark. -/
  query : String
deriving DecidableEq

namespace Target

/-- The characters in front of the first `c`, and those behind it. -/
def cut (c : Char) (chars : List Char) : List Char × List Char :=
  (chars.takeWhile (· != c), (chars.dropWhile (· != c)).drop 1)

/-- The part of a target behind a scheme and a host, if it has these. -/
def behindHost? (chars : List Char) : Option (List Char) :=
  match chars.dropWhile fun c => c.isAlphanum || c == '+' || c == '-' || c == '.' with
  | ':' :: '/' :: '/' :: rest => some (rest.dropWhile fun c => c != '/' && c != '?')
  | _ => none

/-- The target that a text gives. -/
def ofText (s : String) : Target :=
  let chars := (cut '#' s.toList).1
  match chars with
  | '/' :: _ => ofPath chars
  | ['*'] => ⟨"*", ""⟩
  | _ =>
    match behindHost? chars with
    | some [] => ⟨"/", ""⟩
    | some ('?' :: rest) => ⟨"/", String.ofList rest⟩
    | some rest => ofPath rest
    | none => ⟨"", ""⟩
where
  /-- The target that a path and a query give. -/
  ofPath (chars : List Char) : Target :=
    let (path, query) := cut '?' chars
    ⟨String.ofList path, String.ofList query⟩

/-! ## Queries -/

/-- One side of a field, decoded. -/
def decodePart (chars : List Char) : String :=
  Utf8.decodeLossy
    (percentDecode (Utf8.encode (String.ofList (chars.map fun c => if c = '+' then ' ' else c))))

/-- The parts of a text between separators. -/
def parts (separator : Char) : List Char → List (List Char)
  | [] => [[]]
  | c :: rest =>
    if c = separator then [] :: parts separator rest
    else match parts separator rest with
      | [] => [[c]]
      | part :: others => (c :: part) :: others

/-- The fields of the query with their values, in the order they come. -/
def fields (t : Target) : List (String × String) :=
  ((parts '&' t.query.toList).filter fun part => part != []).map fun part =>
    let (name, value) := cut '=' part
    (decodePart name, decodePart value)

/-- The segments of the path, from behind its first slash on. -/
def segments (t : Target) : List String := ((parts '/' t.path.toList).map String.ofList).drop 1

end Target

end RecordBoard.Http
