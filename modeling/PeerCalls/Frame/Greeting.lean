import PeerCalls.Text.Utf8

/-!
# Greetings

The first frame of a client is its id, at most 256 bytes of text.
-/

namespace PeerCalls.Greeting

/-- The longest client id in bytes. -/
def maxLength : Nat := 256

/-- Why something is no greeting. -/
inductive Fault where
  | empty
  | tooLong
  | notText (fault : Utf8.Fault)
  deriving Repr, DecidableEq

def Fault.message : Fault → String
  | empty => "client id must not be empty"
  | tooLong => "client id is longer than " ++ toString maxLength ++ " bytes"
  | notText fault => fault.message

/-- A client id that a client may have. -/
def check (id : String) : Except Fault Unit :=
  if id.isEmpty then .error .empty
  else if id.utf8ByteSize > maxLength then .error .tooLong
  else .ok ()

/-- The greeting of a client. -/
def encode (id : String) : Except Fault Bytes := do
  check id
  return Bytes.ofText id

/-- The client that sends a greeting. -/
def decode (frame : Bytes) : Except Fault String := do
  let id ← (Utf8.decode frame).mapError Fault.notText
  check id
  return id

end PeerCalls.Greeting
