import PeerCalls.Network.Control
import PeerCalls.Service.Arithmetic

/-!
# A demonstration

A client has a server divide one thousand by zero, one and so on up to nine, over
and over again, and writes down each quotient. It waits for one reply before it
asks for the next quotient, with a pause between. There may be no server at
first; the calls wait until there is one, or fail when their time is over.
-/

namespace PeerCalls

/-- What came of a division. -/
inductive Finding where
  | quotient (value : Int)
  | failure (reply : Reply)
  deriving Repr, DecidableEq, Inhabited

/-- How much a finding matters. -/
def Finding.severity : Finding → String
  | quotient _ => "INFO"
  | failure _ => "WARN"

/-- What a demonstration writes down. -/
structure LogLine where
  time : Time
  dividend : Nat
  divisor : Nat
  finding : Finding
  deriving Repr, DecidableEq, Inhabited

/-- A line as it is written, with the ids of calls shown by a function. -/
def LogLine.message (line : LogLine) (showId : UInt64 → String) : String :=
  let division := toString line.dividend ++ " / " ++ toString line.divisor
  match line.finding with
  | .quotient value => division ++ " = " ++ toString value
  | .failure reply => division ++ " failed: " ++ reply.textWith (showId reply.id)

namespace Demonstration

/-- What a demonstration is doing. -/
inductive Stage where
  /-- Waiting for the reply to an errand. -/
  | calling (errand : Nat)
  /-- About to ask for the next quotient at a time. -/
  | resting (wake : Time)
  /-- It could not go on. -/
  | failed (message : String)
  deriving Repr, DecidableEq, Inhabited

end Demonstration

/-- A client that asks for quotients. -/
structure Demonstration where
  network : Network
  client : Nat
  address : Address
  ids : IdSource
  /-- The divisor of the call under way, or of the next one. -/
  divisor : Nat
  stage : Demonstration.Stage
  lines : Array LogLine

namespace Demonstration

/-- The method that a demonstration calls. -/
def methodName : String := "Divide"

/-- What is divided. -/
def dividend : Nat := 1000

/-- How many divisors there are. -/
def divisors : Nat := 10

/-- How long a demonstration waits for a quotient. -/
def patience : Span := Span.ofSeconds 2

/-- The pause between a reply and the next call. -/
def pause : Span := Span.ofMilliseconds 500

/-- A client of a server that is not there yet. -/
def start (id : String) (address : Address) (backlog : Option Backlog) :
    Except Network.ClientFault Demonstration := do
  let (place, network) := Network.empty.addBacklog backlog
  let (client, network) ←
    network.addClient (ClientSettings.standard id address) place Arithmetic.service
  return ⟨network.startClient client, client, address, IdSource.fresh, 0, .resting 0, #[]⟩

/-- A server comes up at the address that the client connects to. -/
def openServer (demonstration : Demonstration) : Except Settings.Fault Demonstration := do
  let (server, network) ← demonstration.network.addServer
    (ServerSettings.standard demonstration.address) none Arithmetic.service
  return { demonstration with network := network.reachServer demonstration.client server }

/-- The call for the next quotient. -/
def nextCall (demonstration : Demonstration) : Except Invocation.Fault Call × IdSource :=
  let reading := UInt64.ofNat (demonstration.network.now / 1000000)
  let (result, ids) := Call.fresh demonstration.ids reading .server methodName
    [Arithmetic.encode dividend, Arithmetic.encode demonstration.divisor]
  (result.map fun call => { call with policy := some .retry, timeout := some patience }, ids)

/-- Ask for the next quotient. -/
def ask (demonstration : Demonstration) : Demonstration :=
  match demonstration.nextCall, demonstration.network.clients[demonstration.client]? with
  | (.ok call, ids), some client =>
    let (errand, network) := demonstration.network.issue client.outbox call
    { demonstration with network, ids, stage := .calling errand }
  | (.error fault, ids), _ => { demonstration with ids, stage := .failed fault.message }
  | (.ok _, ids), none => { demonstration with ids, stage := .failed "there is no client" }

/-- Write down what came of a call, and rest. -/
def conclude (demonstration : Demonstration) (reply : Reply) : Demonstration :=
  let now := demonstration.network.now
  let rest (finding : Finding) : Demonstration := { demonstration with
    divisor := (demonstration.divisor + 1) % divisors
    stage := .resting (Time.wakeAfter now pause)
    lines := demonstration.lines.push ⟨now, dividend, demonstration.divisor, finding⟩ }
  match reply.value? with
  | none => rest (.failure reply)
  | some value =>
    match Arithmetic.decode value with
    | .ok quotient => rest (.quotient quotient)
    | .error fault => { demonstration with stage := .failed fault.message }

/-- What the demonstration does now, if there is something to do. -/
def step? (demonstration : Demonstration) : Option Demonstration :=
  match demonstration.stage with
  | .calling errand => (demonstration.network.replyOf? errand).map demonstration.conclude
  | .resting wake =>
    if wake ≤ demonstration.network.now then some demonstration.ask else none
  | .failed _ => none

/-- The next time at which something happens. -/
def nextWake? (demonstration : Demonstration) : Option Time :=
  let rest := match demonstration.stage with
    | .resting wake => [wake]
    | _ => []
  (demonstration.network.nextWake?.toList ++ rest).min?

/-- Let the network settle. -/
def settle (demonstration : Demonstration) : Demonstration :=
  { demonstration with network := demonstration.network.settle }

/-- Put the clock at a time. -/
def setClock (demonstration : Demonstration) (now : Time) : Demonstration :=
  { demonstration with network := { demonstration.network with now } }

/-- Let everything happen that happens before a time, in at most `fuel` steps. -/
def advanceFor : (fuel : Nat) → (finish : Time) → Demonstration → Demonstration
  | 0, _, demonstration => demonstration
  | fuel + 1, finish, demonstration =>
    if finish ≤ demonstration.network.now then demonstration
    else
      let settled := demonstration.settle
      match settled.step? with
      | some next => advanceFor fuel finish next
      | none =>
        let wake := settled.nextWake?.getD finish
        advanceFor fuel finish (settled.setClock (min wake finish))

/-- Let everything happen that happens before a time. -/
def advance (demonstration : Demonstration) (finish : Time) : Demonstration :=
  advanceFor Network.fuel finish demonstration

/-- A demonstration until a time, with a server that comes up at another time. -/
def perform (id : String) (address : Address) (backlog : Option Backlog)
    (opening : Option Time) (finish : Time) : Except Network.ClientFault Demonstration := do
  let started ← start id address backlog
  match opening with
  | none => return started.advance finish
  | some opening =>
    let waiting := started.advance (min opening finish)
    return (waiting.openServer.toOption.getD waiting).advance finish

/-- The calls that are kept in the backlog, oldest first. -/
def pending (demonstration : Demonstration) : Option (List Call) :=
  (demonstration.network.backlogAt (some 0)).map fun backlog =>
    match (backlog.readAll .server).1 with
    | .ok calls => calls
    | .error _ => []

end Demonstration

end PeerCalls
