import PeerCalls.Proofs.Queue

/-!
# What came into a queue and what left it

A ledger is a queue with its backlog, the calls that the queue accepted, and the calls that
were taken from it, while the backlog refuses what it likes. Whatever is done, the calls
that were there first and those that were accepted are the calls that were taken and those
that wait, in this order.
-/

namespace PeerCalls.Queue

/-- What is done with a queue. -/
inductive Operation where
  | enqueue (call : Call)
  | dequeue
  | dequeueIfHead (id : UInt64)
  deriving Repr, DecidableEq

/-- An operation, and what the backlog refuses meanwhile. -/
structure Request where
  operation : Operation
  refuses : List Backlog.Operation
  deriving Repr, DecidableEq

/-- A queue with its backlog, and the calls that came and left, in this order. -/
structure Ledger where
  queue : Queue
  backlog : Option Backlog
  accepted : List Call
  removed : List Call

namespace Ledger

/-- No call came yet, and none left. -/
def start (queue : Queue) (backlog : Option Backlog) : Ledger :=
  ⟨queue, backlog, [], []⟩

/-- The backlog when it refuses operations. -/
def refusing (ledger : Ledger) (operations : List Backlog.Operation) : Option Backlog :=
  ledger.backlog.map fun backlog => { backlog with refuses := operations }

/-- Note a call that was accepted. -/
def enter (ledger : Ledger) (call : Call) :
    Except Fault Admission × Queue × Option Backlog → Ledger
  | (.ok .accepted, queue, backlog) =>
    ⟨queue, backlog, ledger.accepted ++ [call], ledger.removed⟩
  | (_, queue, backlog) => ⟨queue, backlog, ledger.accepted, ledger.removed⟩

/-- Note a call that was taken. -/
def strike (ledger : Ledger) :
    Except Backlog.Fault (Option Call) × Queue × Option Backlog → Ledger
  | (.ok (some call), queue, backlog) =>
    ⟨queue, backlog, ledger.accepted, ledger.removed ++ [call]⟩
  | (_, queue, backlog) => ⟨queue, backlog, ledger.accepted, ledger.removed⟩

def step (ledger : Ledger) (request : Request) : Ledger :=
  let backlog := ledger.refusing request.refuses
  match request.operation with
  | .enqueue call => ledger.enter call (ledger.queue.enqueue backlog call)
  | .dequeue => ledger.strike (ledger.queue.dequeue backlog)
  | .dequeueIfHead id => ledger.strike (ledger.queue.dequeueIfHead backlog id)

def run (ledger : Ledger) (requests : List Request) : Ledger :=
  requests.foldl step ledger

/-- What a request comes to: a call that is stored if need be and comes to the end, a head that
leaves the backlog and the queue, or nothing. The backlog has the last word. -/
inductive Stepped (ledger : Ledger) (given : Option Backlog) : Ledger → Prop where
  | accepted {call : Call} {backlog : Option Backlog} :
      call.target = ledger.queue.target → persist given call = (.ok (), backlog) →
      Stepped ledger given
        ⟨{ ledger.queue with calls := ledger.queue.calls ++ [call] }, backlog,
          ledger.accepted ++ [call], ledger.removed⟩
  | notStored {call : Call} {fault : Backlog.Fault} {backlog : Option Backlog} :
      persist given call = (.error fault, backlog) →
      Stepped ledger given ⟨ledger.queue, backlog, ledger.accepted, ledger.removed⟩
  | taken {head : Call} {rest : List Call} {backlog : Option Backlog} :
      ledger.queue.calls = head :: rest →
      unpersist given ledger.queue.target head = (.ok (), backlog) →
      Stepped ledger given
        ⟨{ ledger.queue with calls := rest }, backlog, ledger.accepted,
          ledger.removed ++ [head]⟩
  | notRemoved {head : Call} {fault : Backlog.Fault} {backlog : Option Backlog} :
      unpersist given ledger.queue.target head = (.error fault, backlog) →
      Stepped ledger given ⟨ledger.queue, backlog, ledger.accepted, ledger.removed⟩
  | nothing : Stepped ledger given ⟨ledger.queue, given, ledger.accepted, ledger.removed⟩

theorem enqueue_stepped (ledger : Ledger) (given : Option Backlog) (call : Call) :
    Stepped ledger given (ledger.enter call (ledger.queue.enqueue given call)) := by
  unfold Queue.enqueue
  split
  · exact .nothing
  next sameTarget =>
    split
    · exact .nothing
    · split
      next failed => exact .notStored failed
      next stored => exact .accepted (Decidable.not_not.mp sameTarget) stored

theorem dequeue_stepped (ledger : Ledger) (given : Option Backlog) :
    Stepped ledger given (ledger.strike (ledger.queue.dequeue given)) := by
  unfold Queue.dequeue
  split
  · exact .nothing
  next isCons =>
    split
    next failed => exact .notRemoved failed
    next removed => exact .taken isCons removed

theorem dequeueIfHead_stepped (ledger : Ledger) (given : Option Backlog) (id : UInt64) :
    Stepped ledger given (ledger.strike (ledger.queue.dequeueIfHead given id)) := by
  unfold Queue.dequeueIfHead
  split
  · split
    · exact ledger.dequeue_stepped given
    · exact .nothing
  · exact .nothing

theorem stepped (ledger : Ledger) (request : Request) :
    Stepped ledger (ledger.refusing request.refuses) (ledger.step request) := by
  unfold step
  split
  · exact ledger.enqueue_stepped _ _
  · exact ledger.dequeue_stepped _
  · exact ledger.dequeueIfHead_stepped _ _

theorem run_concat (ledger : Ledger) (requests : List Request) (request : Request) :
    ledger.run (requests ++ [request]) = (ledger.run requests).step request := by
  simp [run]

/-! ## What every request leaves true -/

/-- The calls that were there first and those that came are those that left and those that
wait. No call is lost, none comes twice, and none overtakes another one. -/
def Balances (first : List Call) (ledger : Ledger) : Prop :=
  first ++ ledger.accepted = ledger.removed ++ ledger.queue.calls

section

variable {ledger after : Ledger} {given : Option Backlog}

theorem Stepped.target (stepped : Stepped ledger given after) :
    after.queue.target = ledger.queue.target := by
  cases stepped <;> rfl

/-- No call to another target comes in. -/
theorem Stepped.addressed (stepped : Stepped ledger given after)
    (addressed : ∀ call ∈ ledger.queue.calls, call.target = ledger.queue.target) :
    ∀ call ∈ after.queue.calls, call.target = after.queue.target := by
  cases stepped with
  | accepted sameTarget =>
      simp only [List.forall_mem_append, List.forall_mem_singleton]
      exact ⟨addressed, sameTarget⟩
  | taken isCons =>
      rw [isCons, List.forall_mem_cons] at addressed
      exact addressed.2
  | notStored | notRemoved | nothing => exact addressed

theorem Stepped.balances {first : List Call} (stepped : Stepped ledger given after)
    (balances : Balances first ledger) : Balances first after := by
  unfold Balances at balances ⊢
  cases stepped with
  | accepted => rw [← List.append_assoc, balances, List.append_assoc]
  | taken isCons => rw [balances, isCons, List.append_assoc, List.singleton_append]
  | notStored | notRemoved | nothing => exact balances

end

theorem run_target (ledger : Ledger) (requests : List Request) :
    (ledger.run requests).queue.target = ledger.queue.target := by
  induction requests generalizing ledger with
  | nil => rfl
  | cons request rest ih => exact (ih (ledger.step request)).trans (ledger.stepped request).target

theorem addressed_run {ledger : Ledger}
    (addressed : ∀ call ∈ ledger.queue.calls, call.target = ledger.queue.target)
    (requests : List Request) : ∀ call ∈ (ledger.run requests).queue.calls,
      call.target = (ledger.run requests).queue.target := by
  induction requests generalizing ledger with
  | nil => exact addressed
  | cons request rest ih => exact ih ((ledger.stepped request).addressed addressed)

theorem balances_start (queue : Queue) (backlog : Option Backlog) :
    Balances queue.calls (start queue backlog) := by
  simp [Balances, start]

theorem Balances.run {first : List Call} {ledger : Ledger} (balances : Balances first ledger)
    (requests : List Request) : Balances first (ledger.run requests) := by
  induction requests generalizing ledger with
  | nil => exact balances
  | cons request rest ih => exact ih ((ledger.stepped request).balances balances)

end Ledger

end PeerCalls.Queue
