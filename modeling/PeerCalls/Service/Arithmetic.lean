import PeerCalls.Service.Basic

/-!
# Integer arithmetic

A service that adds, subtracts, multiplies and divides signed words of 64 bits.
A parameter is eight bytes in two's complement, and so is the result. A result
that does not fit is an error, and so is a division by zero; a quotient is
rounded toward zero.
-/

namespace PeerCalls.Arithmetic

/-- Why an operation has no result. -/
inductive Fault where
  | wrongCount (name : String) (count : Nat)
  | wrongWidth (length : Nat)
  | divisionByZero
  | unknownOperation (name : String)
  | overflow (name : String) (left right : Int)
  deriving Repr, DecidableEq

def Fault.message : Fault → String
  | wrongCount name count => name ++ " expects 2 parameters, got " ++ toString count
  | wrongWidth length => "expected 8 bytes, was " ++ toString length
  | divisionByZero => "division by zero"
  | unknownOperation name => "unknown method " ++ Quoted.text name
  | overflow name left right =>
    "overflow in " ++ name ++ "(" ++ toString left ++ ", " ++ toString right ++ ")"

/-- A number that a signed word can hold. -/
def fits (value : Int) : Bool := -0x8000000000000000 ≤ value && value < 0x8000000000000000

/-- A signed word in two's complement. -/
def encode (value : Int) : Bytes :=
  Bytes.littleEndian 8 (value % UInt64.size).toNat

/-- The signed word that eight bytes stand for. -/
def decode (bytes : Bytes) : Except Fault Int :=
  if bytes.length = 8 then .ok (Int.bmod (Bytes.ofLittleEndian bytes) UInt64.size)
  else .error (.wrongWidth bytes.length)

/-- The exact value of an operation. -/
def exact (name : String) (left right : Int) : Except Fault Int :=
  if name = "Add" then .ok (left + right)
  else if name = "Subtract" then .ok (left - right)
  else if name = "Multiply" then .ok (left * right)
  else if name = "Divide" then
    if right = 0 then .error .divisionByZero else .ok (left.tdiv right)
  else .error (.unknownOperation name)

/-- The value of an operation that a signed word can hold. -/
def apply (name : String) (left right : Int) : Except Fault Int := do
  let value ← exact name left right
  if fits value then return value else throw (.overflow name left right)

/-- Execute an invocation. -/
def execute (invocation : Invocation) : Except Fault Bytes :=
  match invocation.params with
  | [first, second] => do
    let left ← decode first
    let right ← decode second
    return encode (← apply invocation.name left right)
  | params => throw (.wrongCount invocation.name params.length)

/-- Arithmetic for peers. -/
def service : Service := fun _ invocation =>
  match execute invocation with
  | .ok content => .atOnce (.value content)
  | .error fault => .atOnce (.failed fault.message)

end PeerCalls.Arithmetic
