import PeerCalls.Address
import PeerCalls.Channel.Link
import PeerCalls.Frame.Basic

/-!
# Frames on a stream of bytes

A stream carries bytes and knows nothing of frames, so each frame is sent as a
field: its length, and then its content. Bytes arrive in pieces, and where one
piece ends and the next one begins means nothing (`takePieces_flatten`,
`dropPieces_flatten`). A stream that ends within a frame is an error; one that
ends before the length of the next frame is complete is closed.
-/

namespace PeerCalls

/-- What the other end of a stream still does. -/
inductive Presence where
  | present
  /-- It sends no more, and still reads. -/
  | finished
  /-- It is gone. A reset is told to the first who reads after the last byte. -/
  | gone (isReset : Bool)
  deriving Repr, DecidableEq, Inhabited

/-- One end of a stream of bytes, with what the other end can see of it. -/
structure Stream where
  isOpen : Bool
  /-- This end has said that it sends no more. -/
  isFinished : Bool
  /-- The pieces that have arrived and are not yet read. -/
  incoming : List Bytes
  /-- What was sent and the other end has not yet read. -/
  outgoing : Bytes
  presence : Presence
  deriving Repr, DecidableEq, Inhabited

namespace Stream

/-- Why a frame is not sent or not received. -/
inductive Fault where
  | closed
  | tooLong (length : Nat)
  /-- There is nobody at the other end. -/
  | broken
  | reset
  /-- The stream ended, or was reset, before a frame was complete. -/
  | incomplete (length : Nat) (isReset : Bool)
  | longFrame (length : Nat)
  deriving Repr, DecidableEq

/-- A fault of the connection itself in one word. -/
def Fault.name? : Fault → Option String
  | broken => some "BrokenPipe"
  | reset | incomplete _ true => some "ConnectionReset"
  | incomplete _ false => some "UnexpectedEof"
  | closed | tooLong _ | longFrame _ => none

/-- A fault of a stream to a peer that is named `peer`. -/
def Fault.message (peer : String) : Fault → String
  | closed => "connection to " ++ peer ++ " is closed"
  | tooLong length => (Link.Fault.tooLong length Link.standardMaxFrameLength).message
  | broken => "sending to " ++ peer
  | reset => "Connection reset by peer (os error 104)"
  | incomplete length _ =>
    "receiving a frame of " ++ toString length ++ " bytes from " ++ peer
  | longFrame length =>
    "received a frame of " ++ toString length ++ " bytes from " ++ peer
      ++ ", which is longer than the maximum - closing connection"

/-- A stream on which nothing was sent. -/
def new : Stream := ⟨true, false, [], [], .present⟩

/-- A stream that is found to be of no more use. -/
def markClosed (stream : Stream) : Stream := { stream with isOpen := false }

/-- Send a frame. -/
def send (stream : Stream) (frame : Bytes) : Except Fault Unit × Stream :=
  if !stream.isOpen then (.error .closed, stream)
  else if frame.length > Link.standardMaxFrameLength then
    (.error (.tooLong frame.length), stream)
  else
    match stream.presence with
    | .gone _ => (.error .broken, stream.markClosed)
    | .present | .finished =>
      (.ok (), { stream with outgoing := stream.outgoing ++ Frame.field frame })

/-- Send no more. -/
def close (stream : Stream) : Stream := { stream.markClosed with isFinished := true }

/-! ## Reading -/

/-- The first `count` bytes of pieces, or all of them if there are fewer. -/
def takePieces : (count : Nat) → (pieces : List Bytes) → Bytes
  | _, [] => []
  | count, piece :: rest =>
    if count ≤ piece.length then piece.take count
    else piece ++ takePieces (count - piece.length) rest

/-- What is left of pieces after the first `count` bytes. -/
def dropPieces : (count : Nat) → (pieces : List Bytes) → List Bytes
  | _, [] => []
  | count, piece :: rest =>
    if count ≤ piece.length then piece.drop count :: rest
    else dropPieces (count - piece.length) rest

theorem takePieces_flatten (count : Nat) (pieces : List Bytes) :
    takePieces count pieces = pieces.flatten.take count := by
  induction pieces generalizing count with
  | nil => simp [takePieces]
  | cons piece rest ih =>
    unfold takePieces
    split
    next fits => simp [List.take_append_of_le_length fits]
    next long =>
      have short : piece.length ≤ count := by omega
      rw [ih, List.flatten_cons, List.take_append, List.take_of_length_le short]

theorem dropPieces_flatten (count : Nat) (pieces : List Bytes) :
    (dropPieces count pieces).flatten = pieces.flatten.drop count := by
  induction pieces generalizing count with
  | nil => simp [dropPieces]
  | cons piece rest ih =>
    unfold dropPieces
    split
    next fits => simp [List.drop_append_of_le_length fits]
    next long =>
      have short : piece.length ≤ count := by omega
      rw [ih, List.flatten_cons, List.drop_append, List.drop_eq_nil_of_le short, List.nil_append]

/-- How an attempt to read some bytes ends. -/
inductive Reading where
  | complete (bytes : Bytes)
  /-- The stream ends before. -/
  | ended
  | reset
  /-- The rest may yet arrive. -/
  | pending
  deriving Repr, DecidableEq

/-- Read a number of bytes. If the stream ends before, what is left of it is lost. -/
def read (stream : Stream) (count : Nat) : Reading × Stream :=
  let bytes := takePieces count stream.incoming
  if bytes.length = count then
    (.complete bytes, { stream with incoming := dropPieces count stream.incoming })
  else
    match stream.presence with
    | .present => (.pending, stream)
    | .finished | .gone false => (.ended, { stream with incoming := [] })
    | .gone true => (.reset, { stream with incoming := [], presence := .gone false })

/-- Read the content of a frame. -/
def receiveContent (stream : Stream) (length : Nat) :
    Except Fault Link.Received × Stream :=
  match stream.read length with
  | (.complete content, stream) => (.ok (.frame content), stream)
  | (.ended, stream) => (.error (.incomplete length false), stream.markClosed)
  | (.reset, stream) => (.error (.incomplete length true), stream.markClosed)
  | (.pending, stream) => (.ok .pending, stream)

/-- Receive a frame. A frame that has not arrived completely is left as it is. -/
def receive (stream : Stream) : Except Fault Link.Received × Stream :=
  match stream.read 4 with
  | (.complete bytes, rest) =>
    let length := Bytes.ofLittleEndian bytes
    if length > Link.standardMaxFrameLength then
      (.error (.longFrame length), rest.markClosed)
    else
      match rest.receiveContent length with
      | (.ok .pending, _) => (.ok .pending, stream)
      | result => result
  | (.ended, rest) => (.ok .closed, rest.markClosed)
  | (.reset, rest) => (.error .reset, rest.markClosed)
  | (.pending, _) => (.ok .pending, stream)

/-! ## The other end -/

/-- The other end sends a piece. -/
def arrive (stream : Stream) (piece : Bytes) : Stream :=
  { stream with incoming := stream.incoming ++ [piece] }

/-- The other end sends no more. -/
def finishPeer (stream : Stream) : Stream :=
  match stream.presence with
  | .present => { stream with presence := .finished }
  | _ => stream

/-- The other end goes away. That is a reset if it has not read everything. -/
def dropPeer (stream : Stream) : Stream :=
  { stream with outgoing := [], presence := .gone (!stream.outgoing.isEmpty) }

/-- The other end reads a number of bytes. -/
def readPeer (stream : Stream) (count : Nat) : Link.Received × Stream :=
  if count ≤ stream.outgoing.length then
    (.frame (stream.outgoing.take count),
      { stream with outgoing := stream.outgoing.drop count })
  else if stream.isFinished then (.closed, { stream with outgoing := [] })
  else (.pending, stream)

end Stream

end PeerCalls
