import PeerCalls.Bytes

/-!
# Text out of bytes

`decode` reads a byte string as UTF-8. It accepts exactly the encodings of texts
(`decode_eq_ok_iff`); for anything else it says where the first sequence that is
not well formed begins, and how many of its bytes form the longest beginning of a
well-formed sequence.
-/

namespace PeerCalls.Utf8

/-- Where a byte string stops being UTF-8. Without a `length`, the bytes end
inside a sequence that is well formed so far. -/
structure Fault where
  index : Nat
  length : Option Nat
  deriving Repr, DecidableEq

/-- What the fault says. -/
def Fault.message (fault : Fault) : String :=
  match fault.length with
  | some length =>
    "invalid utf-8 sequence of " ++ toString length ++ " bytes from index "
      ++ toString fault.index
  | none => "incomplete utf-8 byte sequence from index " ++ toString fault.index

/-- The bytes that may follow a first byte, one range for each position: empty
for a byte that stands alone, `none` for a byte that begins nothing. The second
byte of a sequence is restricted where the first one would otherwise allow an
overlong form, a surrogate or a value past the last code point. -/
def continuations (first : UInt8) : Option (List (UInt8 × UInt8)) :=
  let tail : UInt8 × UInt8 := (0x80, 0xbf)
  if first < 0x80 then some []
  else if first < 0xc2 then none
  else if first ≤ 0xdf then some [tail]
  else if first = 0xe0 then some [(0xa0, 0xbf), tail]
  else if first = 0xed then some [(0x80, 0x9f), tail]
  else if first ≤ 0xef then some [tail, tail]
  else if first = 0xf0 then some [(0x90, 0xbf), tail, tail]
  else if first ≤ 0xf3 then some [tail, tail, tail]
  else if first = 0xf4 then some [(0x80, 0x8f), tail, tail]
  else none

/-- How far a byte string follows a list of ranges. -/
inductive Following where
  | complete (rest : Bytes)
  /-- A byte is outside its range, after `matched` bytes that were inside. -/
  | broken (matched : Nat)
  | ended

/-- Match the beginning of a byte string against ranges, one byte each. -/
def follow : List (UInt8 × UInt8) → (matched : Nat) → Bytes → Following
  | [], _, rest => .complete rest
  | _ :: _, _, [] => .ended
  | (low, high) :: ranges, matched, byte :: rest =>
    if low ≤ byte ∧ byte ≤ high then follow ranges (matched + 1) rest
    else .broken matched

/-- The first fault at or after a position. `fuel` bounds the number of
sequences, so the length of the input is always enough. -/
def firstFault : (fuel index : Nat) → Bytes → Option Fault
  | 0, _, _ => none
  | _, _, [] => none
  | fuel + 1, index, first :: rest =>
    match continuations first with
    | none => some ⟨index, some 1⟩
    | some ranges =>
      match follow ranges 1 rest with
      | .complete remaining => firstFault fuel (index + 1 + ranges.length) remaining
      | .broken matched => some ⟨index, some matched⟩
      | .ended => some ⟨index, none⟩

/-- The first fault of a byte string that is not UTF-8. -/
def faultOf (bytes : Bytes) : Fault :=
  (firstFault bytes.length 0 bytes).getD ⟨0, none⟩

/-- Read a byte string as text. -/
def decode (bytes : Bytes) : Except Fault String :=
  match String.fromUTF8? ⟨bytes.toArray⟩ with
  | some text => .ok text
  | none => .error (faultOf bytes)

/-- A byte string is read as a text exactly if it is that text's encoding. -/
theorem decode_eq_ok_iff {bytes : Bytes} {text : String} :
    decode bytes = .ok text ↔ bytes = Bytes.ofText text := by
  unfold decode String.fromUTF8?
  constructor
  · intro decoded
    split at decoded
    next value found =>
      split at found
      · cases found
        cases decoded
        simp [Bytes.ofText, String.fromUTF8]
      · cases found
    next => cases decoded
  · intro encoded
    subst encoded
    have whole : (⟨(Bytes.ofText text).toArray⟩ : ByteArray) = text.toByteArray := by
      simp [Bytes.ofText]
    simp [whole, text.isValidUTF8, String.fromUTF8]

@[simp] theorem decode_ofText (text : String) :
    decode (Bytes.ofText text) = .ok text :=
  decode_eq_ok_iff.mpr rfl

/-- What is no encoding of a text is refused, with the place of its first fault. -/
theorem decode_eq_error_iff {bytes : Bytes} {fault : Fault} :
    decode bytes = .error fault ↔ (∀ text, bytes ≠ Bytes.ofText text) ∧ fault = faultOf bytes := by
  have located {other : Fault} (refused : decode bytes = .error other) : other = faultOf bytes := by
    unfold decode at refused
    split at refused
    next => cases refused
    next => cases refused; rfl
  constructor
  · intro refused
    refine ⟨?_, located refused⟩
    rintro text rfl
    rw [decode_ofText] at refused
    cases refused
  · rintro ⟨noText, rfl⟩
    cases decoded : decode bytes with
    | ok text => exact absurd (decode_eq_ok_iff.mp decoded) (noText text)
    | error other => rw [located decoded]

end PeerCalls.Utf8
