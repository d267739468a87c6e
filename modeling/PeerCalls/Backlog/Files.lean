import PeerCalls.Backlog.Fault
import PeerCalls.Disk.Program
import PeerCalls.Frame.StoredCall
import PeerCalls.Text.Decimal

/-!
# Calls kept in files

Each call is a file of its own, in a directory for its target. The file is named
by the id of the call and its method, with everything but ASCII letters, digits,
`_` and `-` written as `%` and two hexadecimal digits. A call is written to a file
whose name begins with a point, which no reader looks at, and gets its own name
when it is complete. Files that hold no call are passed over.
-/

namespace PeerCalls

/-- A backlog in a directory: the path to it, and how that path is shown. -/
structure FileBacklog where
  root : Path
  location : String
  deriving Repr, DecidableEq, Inhabited

namespace FileBacklog

open Backlog (Activity Fault)

/-- A byte that stands for itself in a file name. -/
def isPlain (byte : UInt8) : Bool :=
  (0x30 ≤ byte && byte ≤ 0x39) || (0x41 ≤ byte && byte ≤ 0x5a)
    || (0x61 ≤ byte && byte ≤ 0x7a) || byte == 0x5f || byte == 0x2d

/-- A hexadecimal digit, upper case. -/
def hexDigit (value : UInt8) : UInt8 :=
  if value < 10 then 0x30 + value else 0x37 + value

/-- A byte in a file name. -/
def escapeByte (byte : UInt8) : Bytes :=
  if isPlain byte then [byte] else [0x25, hexDigit (byte / 16), hexDigit (byte % 16)]

/-- A text in a file name. -/
def escape (text : String) : FileName :=
  (Bytes.ofText text).flatMap escapeByte

/-- The directory of a target. -/
def directoryName : Peer → FileName
  | .server => Bytes.ofText "server"
  | .client id => Bytes.ofText "client-" ++ escape id

/-- The file of a call. -/
def fileName (id : UInt64) (name : String) : FileName :=
  Bytes.ofText (toString id.toNat) ++ 0x2d :: escape name

/-- The file of a call that is not complete. -/
def partialName (file : FileName) : FileName :=
  0x2e :: file ++ Bytes.ofText ".tmp"

/-- A file that may hold a call: its id, the written name of its method, and the
name of the file. -/
structure Candidate where
  id : UInt64
  method : FileName
  file : FileName
  deriving Repr, DecidableEq, Inhabited

/-- What a file name says about the call in it. -/
def Candidate.ofName? (file : FileName) : Option Candidate :=
  match Utf8.decode file with
  | .error _ => none
  | .ok _ =>
    if file.head? = some 0x2e then none
    else
      match file.dropWhile (· != 0x2d) with
      | [] => none
      | _ :: method =>
        match Utf8.decode (file.takeWhile (· != 0x2d)) with
        | .error _ => none
        | .ok digits => (Decimal.word? digits.toList).map fun id => ⟨id, method, file⟩

/-- What the names in a directory say, in the order of the ids. -/
def candidatesOf (names : List FileName) : List Candidate :=
  (names.filterMap Candidate.ofName?).mergeSort fun left right => decide (left.id ≤ right.id)

/-- A text for a name, with a mark for bytes that are no text. -/
def nameText (name : FileName) : String :=
  match Utf8.decode name with
  | .ok text => text
  | .error _ => "\ufffd"

/-- A shown path and a name below it. -/
def joinText (shown : String) (name : FileName) : String :=
  if shown.isEmpty || shown.endsWith "/" then shown ++ nameText name
  else shown ++ "/" ++ nameText name

/-- The directory of a target. -/
def directory (backlog : FileBacklog) (target : Peer) : Path :=
  backlog.root ++ [directoryName target]

/-- The directory of a target as it is shown. -/
def directoryText (backlog : FileBacklog) (target : Peer) : String :=
  joinText backlog.location (directoryName target)

/-- A file of a target. -/
def path (backlog : FileBacklog) (target : Peer) (file : FileName) : Path :=
  backlog.directory target ++ [file]

/-- A file of a target as it is shown. -/
def pathText (backlog : FileBacklog) (target : Peer) (file : FileName) : String :=
  joinText (backlog.directoryText target) file

/-- A program that may fail. -/
abbrev Program := ExceptT Fault DiskProgram

/-- Ask a request that must be granted. -/
def demand (activity : Activity) (request : DiskRequest) : Program request.Answer := do
  match ← (DiskProgram.request request : DiskProgram _) with
  | .ok answer => return answer
  | .error fault => throw (.disk activity fault)

/-- The files that may hold calls to a target, oldest first. A directory that is
not there has none. -/
def candidates (backlog : FileBacklog) (target : Peer) : Program (List Candidate) := do
  match ← (DiskProgram.request (.list (backlog.directory target)) : DiskProgram _) with
  | .ok names => return candidatesOf names
  | .error .notFound => return []
  | .error fault => throw (.disk (.listingDirectory (backlog.directoryText target)) fault)

/-- The call in a file, if there is one that can be read. -/
def readCall (backlog : FileBacklog) (target : Peer) (file : FileName) :
    Program (Option Call) := do
  match ← (DiskProgram.request (.read (backlog.path target file)) : DiskProgram _) with
  | .ok content => return (StoredCall.decode target content).toOption
  | .error _ => return none

/-- The first file that holds a call, and the call. -/
def firstCall (backlog : FileBacklog) (target : Peer) :
    List Candidate → Program (Option (Call × FileName))
  | [] => return none
  | candidate :: rest => do
    match ← backlog.readCall target candidate.file with
    | some call => return some (call, candidate.file)
    | none => backlog.firstCall target rest

/-- All calls in files. -/
def allCalls (backlog : FileBacklog) (target : Peer) : List Candidate → Program (List Call)
  | [] => return []
  | candidate :: rest => do
    match ← backlog.readCall target candidate.file with
    | some call => return call :: (← backlog.allCalls target rest)
    | none => backlog.allCalls target rest

/-- Remove a file, and say whether it was there. -/
def removeFile (backlog : FileBacklog) (target : Peer) (file : FileName) : Program Bool := do
  match ← (DiskProgram.request (.remove (backlog.path target file)) : DiskProgram _) with
  | .ok () => return true
  | .error .notFound => return false
  | .error fault => throw (.disk (.removingFile (backlog.pathText target file)) fault)

/-- Remove files, and count those that were there. -/
def removeFiles (backlog : FileBacklog) (target : Peer) : List Candidate → Program Nat
  | [] => return 0
  | candidate :: rest => do
    let wasThere ← backlog.removeFile target candidate.file
    let others ← backlog.removeFiles target rest
    return (if wasThere then 1 else 0) + others

/-- Make a directory with all directories above it. One that is there already is
as good; `fuel` bounds the number of names in the path. -/
def makeDirectories : (fuel : Nat) → (reversed : Path) → DiskProgram (Except DiskFault Unit)
  | 0, _ => return .ok ()
  | _, [] => return .ok ()
  | fuel + 1, name :: parent => do
    let path := (name :: parent).reverse
    match ← DiskProgram.request (.makeDirectory path) with
    | .ok () => return .ok ()
    | .error .notFound =>
      match ← makeDirectories fuel parent with
      | .error fault => return .error fault
      | .ok () => makeLast path
    | .error fault => orThere path fault
where
  /-- Something at the path is as good if it is a directory. -/
  orThere (path : Path) (fault : DiskFault) : DiskProgram (Except DiskFault Unit) := do
    match ← DiskProgram.request (.isDirectory path) with
    | .ok true => return .ok ()
    | _ => return .error fault
  makeLast (path : Path) : DiskProgram (Except DiskFault Unit) := do
    match ← DiskProgram.request (.makeDirectory path) with
    | .ok () => return .ok ()
    | .error fault => orThere path fault

/-- All calls to a target, oldest first. -/
def readAll (backlog : FileBacklog) (target : Peer) : Program (List Call) := do
  backlog.allCalls target (← backlog.candidates target)

/-- The oldest call to a target. -/
def peek (backlog : FileBacklog) (target : Peer) : Program (Option Call) := do
  let first ← backlog.firstCall target (← backlog.candidates target)
  return first.map (·.1)

/-- Take the oldest call to a target. -/
def dequeue (backlog : FileBacklog) (target : Peer) : Program (Option Call) := do
  match ← backlog.firstCall target (← backlog.candidates target) with
  | none => return none
  | some (call, file) =>
    let _ ← backlog.removeFile target file
    return some call

/-- Remove a call, and say whether it was there. -/
def remove (backlog : FileBacklog) (target : Peer) (id : UInt64) : Program Bool := do
  let found := (← backlog.candidates target).filter (·.id = id)
  return decide ((← backlog.removeFiles target found) > 0)

/-- Remove all calls of a method, and count them. -/
def removeByName (backlog : FileBacklog) (target : Peer) (name : String) : Program Nat := do
  let found := (← backlog.candidates target).filter (·.method = escape name)
  backlog.removeFiles target found

/-- Write a call to its file. -/
def store (backlog : FileBacklog) (call : Call) : Program Unit := do
  let target := call.target
  let file := fileName call.id call.name
  let unfinished := partialName file
  match ← (makeDirectories (backlog.root.length + 1) (backlog.directory target).reverse :
      DiskProgram _) with
  | .error fault => throw (.disk (.makingDirectory (backlog.directoryText target)) fault)
  | .ok () =>
    demand (.makingFile (backlog.pathText target unfinished))
      (.makeFile (backlog.path target unfinished))
    demand .writingFile (.append (backlog.path target unfinished) (StoredCall.encode call))
    demand .writingFile (.sync (backlog.path target unfinished))
    demand (.replacing (backlog.pathText target unfinished) (backlog.pathText target file))
      (.rename (backlog.path target unfinished) (backlog.path target file))

/-- Store a call, instead of all others of its method if only the latest counts. -/
def enqueue (backlog : FileBacklog) (call : Call) : Program Unit := do
  if call.isLatest then
    let _ ← backlog.removeByName call.target call.name
  backlog.store call

end FileBacklog

end PeerCalls
