/-!
# Unsigned words in decimal

The file names of stored calls begin with a number. `word?` reads it: an optional
plus sign, then digits only, with a value that fits 64 bits.
-/

namespace PeerCalls.Decimal

/-- The value of a decimal digit. -/
def digit? (character : Char) : Option Nat :=
  if '0' ≤ character ∧ character ≤ '9' then some (character.toNat - '0'.toNat)
  else none

/-- The value of a list of digits, each one shifting the value so far. -/
def digits? : (value : Nat) → List Char → Option Nat
  | value, [] => some value
  | value, character :: rest =>
    match digit? character with
    | some digit => digits? (value * 10 + digit) rest
    | none => none

/-- The natural number written by a text: at least one digit, after an optional
plus sign. -/
def natural? : List Char → Option Nat
  | [] => none
  | ['+'] => none
  | '+' :: rest => digits? 0 rest
  | characters => digits? 0 characters

/-- The 64-bit word written by a text. -/
def word? (characters : List Char) : Option UInt64 :=
  match natural? characters with
  | some value => if value < UInt64.size then some (UInt64.ofNat value) else none
  | none => none

end PeerCalls.Decimal
