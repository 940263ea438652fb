/-!
# Socket addresses

The address to listen on, an address of either length with a port. There is one way to write the
short ones, `1.2.3.4:80`. The long ones stand in brackets, `[2001:db8::1]:80`, and may leave out one
run of zero groups, write their last two groups like a short address, and name a scope. What is read
in any of these forms is written in one: lower case, with the longest run of zero groups left out,
and like a short address where one is embedded.
-/

namespace RecordBoard

/-- An address with a port. -/
inductive SocketAddress where
  /-- An address of four octets. -/
  | short (a b c d : UInt8) (port : UInt16)
  /-- An address of eight groups, in a scope. -/
  | long (groups : List UInt16) (scope : UInt32) (port : UInt16)
deriving DecidableEq

namespace SocketAddress

/-! ## Reading -/

/-- The value of a character as a digit. -/
def digit? (base : Nat) (c : Char) : Option Nat :=
  let value? :=
    if '0' ≤ c ∧ c ≤ '9' then some (c.toNat - '0'.toNat)
    else if 'a' ≤ c ∧ c ≤ 'f' then some (c.toNat - 'a'.toNat + 10)
    else if 'A' ≤ c ∧ c ≤ 'F' then some (c.toNat - 'A'.toNat + 10)
    else none
  value?.filter (· < base)

/-- The digits at the front of a text, with the rest. -/
def digits (base : Nat) : List Char → List Nat × List Char
  | [] => ([], [])
  | c :: rest =>
    match digit? base c with
    | some d => let (ds, rest) := digits base rest; (d :: ds, rest)
    | none => ([], c :: rest)

/-- A number below `bound`, of any number of digits unless `most` limits it. -/
def number? (base bound : Nat) (most : Option Nat) (input : List Char) : Option (Nat × List Char) :=
  let (ds, rest) := digits base input
  let n := ds.foldl (fun n d => n * base + d) 0
  if ds ≠ [] ∧ n < bound ∧ most.all (ds.length ≤ ·) then some (n, rest) else none

/-- The rest behind a character. -/
def expect? (c : Char) : List Char → Option (List Char)
  | d :: rest => if d = c then some rest else none
  | [] => none

/-- An octet of a short address, without leading zeros. -/
def octet? (input : List Char) : Option (UInt8 × List Char) :=
  match input with
  | '0' :: d :: rest => if (digit? 10 d).isSome then none else some (0, d :: rest)
  | _ => (number? 10 256 (some 3) input).map fun (n, rest) => (UInt8.ofNat n, rest)

/-- Four octets with points between them. -/
def octets? (input : List Char) : Option ((UInt8 × UInt8 × UInt8 × UInt8) × List Char) := do
  let (a, rest) ← octet? input
  let (b, rest) ← octet? (← expect? '.' rest)
  let (c, rest) ← octet? (← expect? '.' rest)
  let (d, rest) ← octet? (← expect? '.' rest)
  return ((a, b, c, d), rest)

/-- A colon and a port, up to the end. -/
def port? (input : List Char) : Option UInt16 := do
  let (n, rest) ← number? 10 65536 none (← expect? ':' input)
  if rest = [] then some (UInt16.ofNat n) else none

/-- A group made of two octets. -/
def group (a b : UInt8) : UInt16 := UInt16.ofNat (a.toNat * 256 + b.toNat)

/--
Groups with colons between them, as many as there are and at most `limit`. The last two may be
written like a short address, and nothing of the sort follows them; the flag tells whether they are.
-/
def groups (limit : Nat) (isFirst : Bool) (input : List Char) : List UInt16 × Bool × List Char :=
  match limit with
  | 0 => ([], false, input)
  | limit + 1 =>
    match if isFirst then some input else expect? ':' input with
    | none => ([], false, input)
    | some start =>
      match if limit = 0 then none else octets? start with
      | some ((a, b, c, d), rest) => ([group a b, group c d], true, rest)
      | none =>
        match number? 16 65536 (some 4) start with
        | none => ([], false, input)
        | some (n, rest) =>
          let (more, embedded, rest) := groups limit false rest
          (UInt16.ofNat n :: more, embedded, rest)

/-- Eight groups, some of which may be left out. -/
def eightGroups? (input : List Char) : Option (List UInt16 × List Char) := do
  let (front, embedded, rest) := groups 8 true input
  if front.length = 8 then some (front, rest)
  else if embedded then none
  else
    let rest ← expect? ':' (← expect? ':' rest)
    let (back, _, rest) := groups (7 - front.length) true rest
    some (front ++ List.replicate (8 - front.length - back.length) 0 ++ back, rest)

/-- The scope behind a percent sign, or none. -/
def scope? (input : List Char) : Option (UInt32 × List Char) :=
  match input with
  | '%' :: rest => (number? 10 UInt32.size none rest).map fun (n, rest) => (UInt32.ofNat n, rest)
  | _ => some (0, input)

/-- The address that a text spells. -/
def ofText? (s : String) : Option SocketAddress :=
  match s.toList with
  | '[' :: rest => do
    let (groups, rest) ← eightGroups? rest
    let (scope, rest) ← scope? rest
    return .long groups scope (← port? (← expect? ']' rest))
  | input => do
    let ((a, b, c, d), rest) ← octets? input
    return .short a b c d (← port? rest)

/-! ## Writing -/

/-- The written form of four octets. -/
def octetsText (a b c d : Nat) : String := s!"{a}.{b}.{c}.{d}"

/-- The written form of groups, with colons between them. -/
def groupsText (groups : List UInt16) : String :=
  ":".intercalate (groups.map fun g => String.ofList (Nat.toDigits 16 g.toNat))

/-- How many zero groups stand in front. -/
def zeros (groups : List UInt16) : Nat := (groups.takeWhile (· == 0)).length

/-- Where the first of the longest runs of zero groups begins, and how long it is. -/
def longestRun (groups : List UInt16) : Nat × Nat :=
  (List.range groups.length).foldl
    (fun best i => if best.2 < zeros (groups.drop i) then (i, zeros (groups.drop i)) else best)
    (0, 0)

/-- The written form of eight groups. -/
def longText (groups : List UInt16) : String :=
  match groups with
  | [0, 0, 0, 0, 0, 0xFFFF, g, h] =>
    "::ffff:" ++ octetsText (g.toNat / 256) (g.toNat % 256) (h.toNat / 256) (h.toNat % 256)
  | _ =>
    let (start, length) := longestRun groups
    if length < 2 then groupsText groups
    else groupsText (groups.take start) ++ "::" ++ groupsText (groups.drop (start + length))

/-- The written form of an address. -/
def text : SocketAddress → String
  | .short a b c d port => octetsText a.toNat b.toNat c.toNat d.toNat ++ s!":{port.toNat}"
  | .long groups scope port =>
    let scopeText := if scope = 0 then "" else s!"%{scope.toNat}"
    "[" ++ longText groups ++ scopeText ++ s!"]:{port.toNat}"

end SocketAddress

end RecordBoard
