/-!
# Byte strings and little-endian numbers

Everything that leaves the process is a list of bytes. Numbers are written with
their lowest byte first in a fixed width, and `ofLittleEndian` reads them back:
`ofLittleEndian_littleEndian` and `littleEndian_ofLittleEndian` say that the two
are inverse to each other on numbers that fit the width.
-/

namespace PeerCalls

/-- A byte string. -/
abbrev Bytes := List UInt8

namespace Bytes

/-- The `width` lowest bytes of a number, lowest byte first. -/
def littleEndian : (width : Nat) → Nat → Bytes
  | 0, _ => []
  | width + 1, number => UInt8.ofNat number :: littleEndian width (number / 256)

/-- The number written by a byte string, lowest byte first. -/
def ofLittleEndian : Bytes → Nat
  | [] => 0
  | byte :: rest => byte.toNat + 256 * ofLittleEndian rest

/-- How many numbers there are of a width. -/
def capacity : (width : Nat) → Nat
  | 0 => 1
  | width + 1 => 256 * capacity width

@[simp] theorem length_littleEndian (width number : Nat) :
    (littleEndian width number).length = width := by
  induction width generalizing number with
  | zero => rfl
  | succ width ih => simp [littleEndian, ih]

theorem ofLittleEndian_littleEndian (width number : Nat) :
    ofLittleEndian (littleEndian width number) = number % capacity width := by
  induction width generalizing number with
  | zero => simp [littleEndian, ofLittleEndian, capacity, Nat.mod_one]
  | succ width ih =>
    rw [littleEndian, ofLittleEndian, ih, capacity, Nat.mod_mul]
    simp

theorem littleEndian_ofLittleEndian (bytes : Bytes) :
    littleEndian bytes.length (ofLittleEndian bytes) = bytes := by
  induction bytes with
  | nil => rfl
  | cons byte rest ih =>
    have low : UInt8.ofNat (byte.toNat + 256 * ofLittleEndian rest) = byte := by
      apply UInt8.toNat_inj.mp
      simp
    have high : (byte.toNat + 256 * ofLittleEndian rest) / 256 = ofLittleEndian rest := by
      have bound := byte.toNat_lt
      omega
    rw [List.length_cons, ofLittleEndian, littleEndian, low, high, ih]

theorem ofLittleEndian_lt (bytes : Bytes) :
    ofLittleEndian bytes < capacity bytes.length := by
  induction bytes with
  | nil => simp [ofLittleEndian, capacity]
  | cons byte rest ih =>
    have bound := byte.toNat_lt
    rw [ofLittleEndian, List.length_cons, capacity]
    omega

/-- The bytes of an unsigned 64-bit word. -/
def ofWord (word : UInt64) : Bytes :=
  littleEndian 8 word.toNat

@[simp] theorem length_ofWord (word : UInt64) : (ofWord word).length = 8 :=
  length_littleEndian 8 word.toNat

/-- The bytes of a text in UTF-8. -/
def ofText (text : String) : Bytes :=
  text.toUTF8.data.toList

theorem length_ofText (text : String) : (ofText text).length = text.utf8ByteSize := by
  simp [ofText]

theorem length_ofText_append (first second : String) :
    (ofText (first ++ second)).length = (ofText first).length + (ofText second).length := by
  simp [ofText]

end Bytes

end PeerCalls
