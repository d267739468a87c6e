import PeerCalls.Frame.Basic

/-!
# Reading from the front of a byte string

A reader takes a value from the front of the bytes that are left. What it leaves
is part of its meaning, also when it fails: a failed read takes nothing, except
that a field whose content is cut off has lost its length.
-/

namespace PeerCalls

/-- Takes a value from the front of the bytes that are left. -/
abbrev Reader := EStateM Frame.Fault Bytes

namespace Reader

/-- Take a fixed number of bytes. -/
def take (what : String) (count : Nat) : Reader Bytes := fun bytes =>
  if bytes.length < count then .error (.tooShort what count bytes.length) bytes
  else .ok (bytes.take count) (bytes.drop count)

/-- Take one byte. -/
def byte (what : String) : Reader UInt8 := fun bytes =>
  match bytes with
  | [] => .error (.tooShort what 1 0) []
  | first :: rest => .ok first rest

/-- Take a number of four bytes. -/
def halfWord (what : String) : Reader Nat := do
  return Bytes.ofLittleEndian (← take what 4)

/-- Take a number of eight bytes. -/
def word (what : String) : Reader UInt64 := do
  return UInt64.ofNat (Bytes.ofLittleEndian (← take what 8))

/-- Take a field. -/
def field (what : String) : Reader Bytes := do
  take what (← halfWord what)

/-- Take a number of fields. -/
def fields (what : String) : (count : Nat) → Reader (List Bytes)
  | 0 => return []
  | count + 1 => do
    let first ← field what
    return first :: (← fields what count)

/-- Take a text up to the first delimiter, and the delimiter. -/
def delimited (what : String) (delimiter : UInt8) : Reader String := fun bytes =>
  match bytes.dropWhile (· != delimiter) with
  | [] => .error (.missingDelimiter delimiter what) bytes
  | _ :: rest =>
    match Utf8.decode (bytes.takeWhile (· != delimiter)) with
    | .ok text => .ok text rest
    | .error fault => .error (.notText fault) bytes

/-- Take the header of a frame of a kind. -/
def header (expected : FrameKind) : Reader Unit := fun bytes =>
  match FrameKind.peek bytes with
  | some found =>
    if found = expected then .ok () (bytes.drop 2)
    else .error (.wrongKind expected found) bytes
  | none => .error (.noHeader (bytes.take 2)) bytes

/-- Nothing may be left. -/
def finish : Reader Unit := fun bytes =>
  if bytes.isEmpty then .ok () [] else .error (.trailing bytes.length) bytes

/-- The value of a reader on a whole byte string. -/
def decode {α : Type} (reader : Reader α) (bytes : Bytes) : Except Frame.Fault α :=
  match reader.run bytes with
  | .ok value _ => .ok value
  | .error fault _ => .error fault

end Reader

end PeerCalls
