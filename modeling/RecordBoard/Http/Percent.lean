import RecordBoard.Text.Hex

/-!
# Percent encoding

In a path and in a query an octet may be written as a percent sign with two hexadecimal digits of
either case. A percent sign that is not followed by two digits stands for itself, so every text can
be decoded.
-/

namespace RecordBoard.Http

/-- The octets that a percent-encoded text stands for. -/
def percentDecode : Bytes → Bytes
  | [] => []
  | c :: rest =>
    if c ≠ 0x25 then c :: percentDecode rest
    else match rest with
      | a :: b :: after =>
        match Hex.value? a, Hex.value? b with
        | some x, some y => UInt8.ofNat (x * 16 + y) :: percentDecode after
        | _, _ => c :: percentDecode (a :: b :: after)
      | [a] => [c, a]
      | [] => [c]

end RecordBoard.Http
