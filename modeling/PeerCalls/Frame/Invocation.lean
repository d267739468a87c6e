import PeerCalls.Call.Invocation
import PeerCalls.Frame.Reader

/-!
# Frames of calls
-/

namespace PeerCalls.Invocation

/-- The frame of a call. -/
def encode (invocation : Invocation) : Bytes :=
  FrameKind.method.header ++ Bytes.ofWord invocation.id ++ Bytes.ofText invocation.name
    ++ delimiter :: UInt8.ofNat invocation.params.length :: Frame.fields invocation.params

/-- Take a call and nothing else. -/
def reader : Reader Invocation := do
  Reader.header .method
  let id ← Reader.word "method id"
  let name ← Reader.delimited "method name" delimiter
  let count ← Reader.byte "parameter count"
  let params ← Reader.fields "parameter" count.toNat
  Reader.finish
  return ⟨id, name, params⟩

/-- The call in a frame. -/
def decode (frame : Bytes) : Except Frame.Fault Invocation :=
  reader.decode frame

end PeerCalls.Invocation
