import RecordBoard.Http.Header
import RecordBoard.Text.Sha256

/-!
# The guard

A request is let through if it carries the shared secret, either in a header of its own whose name
is configured, or as a bearer token. The guard does not keep the secret, only its digest; a
candidate is let through if its digest is the same, which is found out by looking at every octet
whatever the ones before it were.

## Main definitions

* `Guard`, `Guard.make?` — a guard, and the only way to one.
* `Guard.accepts` — whether a candidate is the secret.
* `Guard.admits` — whether a request may pass.
-/

namespace RecordBoard

/-- What a request must carry to pass. -/
structure Guard where
  /-- The digest of the secret. -/
  digest : Bytes
  /-- The name of the header that may carry it. -/
  header : String
deriving DecidableEq

namespace Guard

/-- The refusal of a name that no header can have. -/
def badHeaderMessage (header : String) : String :=
  s!"invalid auth header name {Text.quoted header}: invalid HTTP header name"

/-- The guard of a secret that a header may carry, if a header can have the name. -/
def make? (secret header : String) : Option Guard :=
  (Http.headerName? header).map fun name => ⟨Sha256.digest (Utf8.encode secret), name⟩

/-- Whether two sequences of octets are equal as far as both go, looking at all of them. -/
def sameOctets (a b : Bytes) : Bool := (List.zipWith (· ^^^ ·) a b).foldl (· ||| ·) 0 == 0

/-- Whether a candidate is the secret. -/
def accepts (g : Guard) (candidate : String) : Bool :=
  sameOctets (Sha256.digest (Utf8.encode candidate)) g.digest

/-- The token in the value of an authorization header: what follows the word `bearer` and a
space. -/
def bearerToken? (value : String) : Option String :=
  let chars := Text.trimChars value.toList
  let scheme := chars.takeWhile (· != ' ')
  match chars.dropWhile (· != ' ') with
  | [] => none
  | _ :: rest =>
    let token := String.ofList (Text.trimChars rest)
    if Http.sameButCase (String.ofList scheme) "bearer" ∧ token ≠ "" then some token else none

/-- Whether a request with these headers may pass. -/
def admits (g : Guard) (headers : Http.Headers) : Bool :=
  (headers.text? g.header).any g.accepts ||
  ((headers.text? "authorization").bind bearerToken?).any g.accepts

/-- A guard as a text, which shows nothing of the secret. -/
def debugText (g : Guard) : String :=
  "SharedSecret \x7b header: " ++ Text.quoted g.header ++ ", .. \x7d"

end Guard

end RecordBoard
