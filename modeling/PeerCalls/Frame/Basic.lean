import PeerCalls.Bytes
import PeerCalls.Text.Quoted
import PeerCalls.Text.Utf8

/-!
# Frames

Two peers exchange frames. Numbers are little-endian and text is UTF-8:

* a call is `1M`, its id, the method name, `;`, the number of parameters in one
  byte, and the parameters as fields;
* a reply is `1R`, the id, then either `S` and the value as a field, or `F`, the
  name of the failure kind, `;`, and the message as a field.

A field is its length in four bytes, followed by its content. `FrameKind.peek` and
`peekId` look at the front of a frame without reading the rest.
-/

namespace PeerCalls

/-- The two kinds of frames. -/
inductive FrameKind where
  | method
  | result
  deriving Repr, DecidableEq, Inhabited

namespace FrameKind

/-- The byte that begins every frame. -/
def version : UInt8 := 0x31

def tag : FrameKind → UInt8
  | method => 0x4d
  | result => 0x52

def name : FrameKind → String
  | method => "Method"
  | result => "Result"

/-- The two bytes that begin a frame of a kind. -/
def header (kind : FrameKind) : Bytes := [version, kind.tag]

/-- The kind of a frame, as its header tells it. -/
def peek : Bytes → Option FrameKind
  | first :: second :: _ =>
    if first ≠ version then none
    else if second = method.tag then some method
    else if second = result.tag then some result
    else none
  | _ => none

@[simp] theorem peek_header_append (kind : FrameKind) (rest : Bytes) :
    peek (kind.header ++ rest) = some kind := by
  cases kind <;> simp [header, peek, version, tag]

/-- A frame of a kind begins with that kind's header. -/
theorem eq_header_append_of_peek {frame : Bytes} {kind : FrameKind}
    (peeked : peek frame = some kind) : frame = kind.header ++ frame.drop 2 := by
  match frame with
  | [] => simp [peek] at peeked
  | [_] => simp [peek] at peeked
  | first :: second :: rest =>
    simp only [peek] at peeked
    split at peeked
    · cases peeked
    next isVersion =>
      have isVersion : first = version := by simpa using isVersion
      split at peeked
      next isMethod => cases peeked; simp [header, isVersion, isMethod]
      next =>
        split at peeked
        next isResult => cases peeked; simp [header, isVersion, isResult]
        next => cases peeked

end FrameKind

/-- The id in the front of a frame, if the frame is that long. -/
def peekId (frame : Bytes) : Option UInt64 :=
  match FrameKind.peek frame with
  | none => none
  | some _ =>
    let id := (frame.drop 2).take 8
    if id.length = 8 then some (UInt64.ofNat (Bytes.ofLittleEndian id)) else none

namespace Frame

/-- Why bytes are not what a reader expects. -/
inductive Fault where
  | tooShort (what : String) (needed available : Nat)
  | missingDelimiter (delimiter : UInt8) (what : String)
  | notText (fault : Utf8.Fault)
  | wrongKind (expected found : FrameKind)
  | noHeader (start : Bytes)
  | trailing (count : Nat)
  | unknownFailure (name : String)
  | unknownVerdict (tag : UInt8)
  | unknownPolicy (tag : UInt8)
  | unknownTimeoutFlag (flag : UInt8)
  deriving Repr, DecidableEq

/-- Bytes as a list of numbers. -/
def bytesText (bytes : Bytes) : String :=
  "[" ++ ", ".intercalate (bytes.map fun byte => toString byte.toNat) ++ "]"

def Fault.message : Fault → String
  | tooShort what needed available =>
    "frame too short for " ++ what ++ ": need " ++ toString needed ++ " bytes, have "
      ++ toString available
  | missingDelimiter delimiter what =>
    "missing delimiter " ++ Quoted.byte delimiter ++ " after " ++ what
  | notText fault => fault.message
  | wrongKind expected found =>
    "expected a " ++ expected.name ++ " frame, got a " ++ found.name ++ " frame"
  | noHeader start => "not a valid frame header: " ++ bytesText start
  | trailing count => toString count ++ " unexpected trailing bytes after frame"
  | unknownFailure name => "unknown failure kind " ++ Quoted.text name
  | unknownVerdict tag => "invalid outcome tag " ++ Quoted.byte tag
  | unknownPolicy tag => "invalid retry strategy tag " ++ toString tag.toNat
  | unknownTimeoutFlag flag => "invalid timeout flag " ++ toString flag.toNat

/-- A field: the length of the content in four bytes, then the content. -/
def field (content : Bytes) : Bytes :=
  Bytes.littleEndian 4 content.length ++ content

/-- Fields one after the other. -/
def fields (contents : List Bytes) : Bytes :=
  contents.flatMap field

end Frame

end PeerCalls
