import PeerCalls.CommandLine.Arguments
import PeerCalls.Demonstration
import PeerCalls.Disk.Layout

/-!
# What a command line starts

With a client id the program is the client of a demonstration, and without one it
is a server for such clients. The address is read first, and then what the client
or the server needs is made. A program that cannot start says so on the error
output and ends: with code 2 if its command line was refused, and else with code 1.
-/

namespace PeerCalls.CommandLine

/-- Why a program does not start. -/
inductive LaunchFault where
  | address
  /-- The address is not one of this machine. -/
  | binding
  | settings (fault : Settings.Fault)
  | client (fault : Network.ClientFault)
  deriving Repr, DecidableEq

namespace LaunchFault

/-- What could not be done. -/
def message : LaunchFault → String
  | address => "invalid socket address syntax"
  | binding => "Cannot assign requested address (os error 99)"
  | settings fault => fault.message
  | client (.settings fault) => fault.message
  | client (.outbox (.settings fault)) => fault.message
  | client (.outbox (.backlog fault)) => fault.message

/-- Why it could not be done. -/
def cause? : LaunchFault → Option String
  | client (.outbox (.backlog fault)) => fault.cause?
  | _ => none

/-- What is written to the error output. -/
def report (fault : LaunchFault) : String :=
  "Error: " ++ fault.message ++ "\n"
    ++ match fault.cause? with
      | some cause => "\nCaused by:\n    " ++ cause ++ "\n"
      | none => ""

end LaunchFault

/-- What becomes of a program. -/
inductive Launch where
  | help
  | refused (refusal : Refusal)
  | failed (fault : LaunchFault)
  | client (demonstration : Demonstration)
  | server

/-- A backlog in a directory. -/
def backlogIn (directory : String) (disk : FileSystem) : Backlog :=
  .ofStore (.files ⟨Path.ofText directory, directory⟩ disk)

/-- A server listens on addresses of its own machine. -/
def isLocal (address : Address) : Bool := address.host == .v4 127 0 0 1

/-- Start what arguments ask for. -/
def Arguments.launch (arguments : Arguments) (disk : FileSystem) : Launch :=
  match Address.parse? (arguments.address.getD "") with
  | none => .failed .address
  | some address =>
    match arguments.clientId with
    | none => if isLocal address then .server else .failed .binding
    | some id =>
      match Demonstration.start id address
          (arguments.backlogDirectory.map (backlogIn · disk)) with
      | .ok demonstration => .client demonstration
      | .error fault => .failed (.client fault)

/-- Start what a command line asks for. -/
def launch (written : List String) (disk : FileSystem) : Launch :=
  match Arguments.parse written with
  | .ok arguments => arguments.launch disk
  | .error .help => .help
  | .error refusal => .refused refusal

/-- The code with which a program ends, and the first line or, for code 1, all of
what it has written to the error output by then; nothing if it goes on. -/
def Launch.ending? : Launch → Option (Nat × String)
  | help => some (0, "")
  | refused refusal => some (2, "error: " ++ refusal.message)
  | failed fault => some (1, fault.report)
  | client _ | server => none

end PeerCalls.CommandLine
