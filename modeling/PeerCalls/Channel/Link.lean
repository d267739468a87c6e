import PeerCalls.Bytes

/-!
# Links

A link carries frames between two ends, in order. Each end can close: what it
has sent still arrives, and what is sent to it is refused. An end that finds
the other one closed closes as well.
-/

namespace PeerCalls

/-- The two ends of a link. -/
inductive Side where
  | left
  | right
  deriving Repr, DecidableEq, Inhabited

def Side.other : Side → Side
  | left => right
  | right => left

/-- What one end of a link knows: whether it sends, whether it takes what is sent
to it, and what has arrived. -/
structure LinkEnd where
  isOpen : Bool
  isListening : Bool
  inbox : List Bytes
  deriving Repr, DecidableEq, Inhabited

/-- A link, with the longest frame that it carries. -/
structure Link where
  maxFrameLength : Nat
  left : LinkEnd
  right : LinkEnd
  deriving Repr, DecidableEq, Inhabited

namespace Link

/-- The longest frame of a link without a limit of its own. -/
def standardMaxFrameLength : Nat := 16 * 1024 * 1024

/-- Why a frame is not sent. -/
inductive Fault where
  | tooLong (length limit : Nat)
  | closed
  | closedByPeer
  deriving Repr, DecidableEq

def Fault.message : Fault → String
  | tooLong length limit =>
    "frame of " ++ toString length ++ " bytes is longer than the maximum of "
      ++ toString limit
  | closed => "connection is closed"
  | closedByPeer => "connection was closed by the peer"

/-- What an end gets when it looks for a frame. -/
inductive Received where
  | frame (content : Bytes)
  | closed
  /-- Nothing has arrived yet. -/
  | pending
  deriving Repr, DecidableEq

/-- A link with both ends open. -/
def new (maxFrameLength : Nat) : Link :=
  ⟨maxFrameLength, ⟨true, true, []⟩, ⟨true, true, []⟩⟩

def atSide (link : Link) : Side → LinkEnd
  | .left => link.left
  | .right => link.right

/-- Change one end. -/
def modify (link : Link) (side : Side) (change : LinkEnd → LinkEnd) : Link :=
  match side with
  | .left => { link with left := change link.left }
  | .right => { link with right := change link.right }

def isOpen (link : Link) (side : Side) : Bool := (link.atSide side).isOpen

/-- An end stops sending. -/
def stopSending (link : Link) (side : Side) : Link :=
  link.modify side fun linkEnd => { linkEnd with isOpen := false }

/-- Send a frame from one end to the other. -/
def send (link : Link) (side : Side) (frame : Bytes) : Except Fault Unit × Link :=
  if frame.length > link.maxFrameLength then
    (.error (.tooLong frame.length link.maxFrameLength), link)
  else if !link.isOpen side then
    (.error .closed, link)
  else if !(link.atSide side.other).isListening then
    (.error .closedByPeer, link.stopSending side)
  else
    (.ok (), link.modify side.other fun linkEnd =>
      { linkEnd with inbox := linkEnd.inbox ++ [frame] })

/-- An end looks for a frame. It finds the link closed once nothing is left and
nothing more can come. -/
def receive (link : Link) (side : Side) : Received × Link :=
  match (link.atSide side).inbox with
  | frame :: rest => (.frame frame, link.modify side fun linkEnd => { linkEnd with inbox := rest })
  | [] =>
    if (link.atSide side).isListening && link.isOpen side.other then (.pending, link)
    else (.closed, link.stopSending side)

/-- An end closes. What has arrived can still be taken. -/
def close (link : Link) (side : Side) : Link :=
  link.modify side fun linkEnd => { linkEnd with isOpen := false, isListening := false }

/-- An end goes away, with what has arrived. -/
def drop (link : Link) (side : Side) : Link :=
  link.modify side fun _ => ⟨false, false, []⟩

end Link

end PeerCalls
