import PeerCalls.Disk.Basic
import PeerCalls.Text.Quoted

/-!
# What a backlog fails with
-/

namespace PeerCalls.Backlog

/-- What a backlog that keeps files was doing, with the paths as they are shown. -/
inductive Activity where
  | listingDirectory (path : String)
  | makingDirectory (path : String)
  | makingFile (path : String)
  | writingFile
  | replacing (source destination : String)
  | removingFile (path : String)
  deriving Repr, DecidableEq

/-- The operations that a backlog can be told to refuse. -/
inductive Operation where
  | enqueue
  | remove
  | read
  deriving Repr, DecidableEq

def Operation.name : Operation → String
  | enqueue => "enqueue"
  | remove => "remove"
  | read => "read"

/-- The operation with a name. -/
def Operation.ofName? (name : String) : Option Operation :=
  [enqueue, remove, read].find? (·.name == name)

/-- Why an operation fails. -/
inductive Fault where
  | disk (activity : Activity) (fault : DiskFault)
  | refused (operation : Operation)
  deriving Repr, DecidableEq

/-- What was being done, if there are words for it. -/
def Activity.message? : Activity → Option String
  | listingDirectory path => some ("listing backlog directory " ++ Quoted.text path)
  | makingDirectory path => some ("creating backlog directory " ++ Quoted.text path)
  | makingFile path => some ("creating backlog file " ++ Quoted.text path)
  | writingFile => none
  | replacing source destination =>
    some ("renaming " ++ Quoted.text source ++ " to " ++ Quoted.text destination)
  | removingFile path => some ("removing backlog file " ++ Quoted.text path)

/-- What failed. -/
def Fault.message : Fault → String
  | disk activity fault => activity.message?.getD fault.message
  | refused operation => "backlog " ++ operation.name ++ " failed"

/-- Why it failed, if that is not what failed. -/
def Fault.cause? : Fault → Option String
  | disk activity fault => activity.message?.map fun _ => fault.message
  | refused _ => none

/-- What failed, and why. -/
def Fault.fullMessage (fault : Fault) : String :=
  match fault.cause? with
  | some cause => fault.message ++ ": " ++ cause
  | none => fault.message

end PeerCalls.Backlog
