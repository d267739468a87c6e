import PeerCalls.Bytes

/-!
# Byte strings in hexadecimal

Two digits stand for one byte. Digits are written in lower case and read in both;
`decode?_encode` says that what is written reads back.
-/

namespace PeerCalls.Hexadecimal

/-- The digit of a number below sixteen. -/
def digit (value : Nat) : Char := Nat.digitChar value

/-- The number of a digit. -/
def value? (character : Char) : Option Nat :=
  if '0' ≤ character ∧ character ≤ '9' then some (character.toNat - 48)
  else if 'a' ≤ character ∧ character ≤ 'f' then some (character.toNat - 87)
  else if 'A' ≤ character ∧ character ≤ 'F' then some (character.toNat - 55)
  else none

/-- Write a byte string. -/
def encode (bytes : Bytes) : List Char :=
  bytes.flatMap fun byte => [digit (byte.toNat / 16), digit (byte.toNat % 16)]

/-- Read a byte string. -/
def decode? : List Char → Option Bytes
  | [] => some []
  | [_] => none
  | high :: low :: rest => do
    let byte := UInt8.ofNat ((← value? high) * 16 + (← value? low))
    return byte :: (← decode? rest)

theorem value?_digit {number : Nat} (small : number < 16) : value? (digit number) = some number := by
  have every : ∀ number : Fin 16, value? (digit number) = some number.val := by decide
  exact every ⟨number, small⟩

theorem decode?_encode (bytes : Bytes) : decode? (encode bytes) = some bytes := by
  induction bytes with
  | nil => rfl
  | cons byte rest ih =>
    have bound := byte.toNat_lt
    have high : value? (digit (byte.toNat / 16)) = some (byte.toNat / 16) :=
      value?_digit (by omega)
    have low : value? (digit (byte.toNat % 16)) = some (byte.toNat % 16) :=
      value?_digit (by omega)
    have same : UInt8.ofNat (byte.toNat / 16 * 16 + byte.toNat % 16) = byte := by
      rw [Nat.div_add_mod']
      simp
    change decode? (digit (byte.toNat / 16) :: digit (byte.toNat % 16) :: encode rest) = _
    simp only [decode?, high, low, ih, bind, Option.bind, pure, same]

end PeerCalls.Hexadecimal
