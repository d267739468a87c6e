import PeerCalls.Call.Invocation
import PeerCalls.Call.Reply
import PeerCalls.Frame.Reader

/-!
# Frames of replies
-/

namespace PeerCalls

namespace Verdict

/-- The byte that begins a value. -/
def successTag : UInt8 := 0x53

/-- The byte that begins a failure. -/
def failureTag : UInt8 := 0x46

def encode : Verdict → Bytes
  | .success value => successTag :: Frame.field value
  | .failure kind message =>
    failureTag :: Bytes.ofText kind.name
      ++ Invocation.delimiter :: Frame.field (Bytes.ofText message)

/-- Take a text in a field. -/
def messageReader : Reader String := do
  match Utf8.decode (← Reader.field "failure message") with
  | .ok text => return text
  | .error fault => throw (.notText fault)

/-- Take a failure, without the byte that begins it. -/
def failureReader : Reader Verdict := do
  let name ← Reader.delimited "failure kind" Invocation.delimiter
  match FailureKind.ofName? name with
  | none => throw (.unknownFailure name)
  | some kind => return .failure kind (← messageReader)

def reader : Reader Verdict := do
  let tag ← Reader.byte "outcome tag"
  if tag = successTag then
    return .success (← Reader.field "return value")
  else if tag = failureTag then
    failureReader
  else
    throw (.unknownVerdict tag)

end Verdict

namespace Reply

/-- The frame of a reply. -/
def encode (reply : Reply) : Bytes :=
  FrameKind.result.header ++ Bytes.ofWord reply.id ++ reply.verdict.encode

/-- Take a reply and nothing else. -/
def reader : Reader Reply := do
  Reader.header .result
  let id ← Reader.word "method id"
  let verdict ← Verdict.reader
  Reader.finish
  return ⟨id, verdict⟩

/-- The reply in a frame. -/
def decode (frame : Bytes) : Except Frame.Fault Reply :=
  reader.decode frame

end Reply

end PeerCalls
