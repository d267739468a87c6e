import PeerCalls.Proofs.Queue.Ledger

/-!
# A queue loses nothing

A queue begins with the calls that its backlog has. From then on calls come to the end and
leave at the head, and a request that is not carried out changes nothing: neither one that
fails, whatever the backlog refuses, nor one that finds the queue full or nothing to take.
A call comes in only if it is for the target of the queue and there is room. So a queue is
longer than its limit only as long as it was restored with more calls.
-/

namespace PeerCalls.Queue

namespace Ledger

/-- What a request is answered. -/
inductive Answer where
  | enqueued (result : Except Fault Admission)
  | dequeued (result : Except Backlog.Fault (Option Call))

/-- A call was accepted, or one was taken. -/
def Answer.isDone : Answer → Bool
  | .enqueued (.ok .accepted) | .dequeued (.ok (some _)) => true
  | _ => false

/-- What the next request is answered. -/
def answer (ledger : Ledger) (request : Request) : Answer :=
  let backlog := ledger.refusing request.refuses
  match request.operation with
  | .enqueue call => .enqueued (ledger.queue.enqueue backlog call).1
  | .dequeue => .dequeued (ledger.queue.dequeue backlog).1
  | .dequeueIfHead id => .dequeued (ledger.queue.dequeueIfHead backlog id).1

/-! ## One request -/

/-- What a request is answered, and the queue after it: a call for the target for which there
is room has come to the end, or the head has left, or nothing has changed. -/
inductive Responded (queue : Queue) : Operation → Answer → Queue → Prop where
  | accepted {call : Call} :
      call.target = queue.target → queue.calls.length < queue.maxLength →
      Responded queue (.enqueue call) (.enqueued (.ok .accepted))
        { queue with calls := queue.calls ++ [call] }
  | taken {operation : Operation} {head : Call} {rest : List Call} :
      queue.calls = head :: rest →
      Responded queue operation (.dequeued (.ok (some head))) { queue with calls := rest }
  | unchanged {operation : Operation} {answer : Answer} :
      answer.isDone = false → Responded queue operation answer queue

theorem enqueue_responded (ledger : Ledger) (backlog : Option Backlog) (call : Call) :
    Responded ledger.queue (.enqueue call) (.enqueued (ledger.queue.enqueue backlog call).1)
      (ledger.enter call (ledger.queue.enqueue backlog call)).queue := by
  have enqueued := ledger.queue.enqueue_cases backlog call
  generalize ledger.queue.enqueue backlog call = result at enqueued
  cases enqueued with
  | accepted sameTarget room => exact .accepted sameTarget room
  | overflow _ => exact .unchanged rfl
  | error => exact .unchanged rfl

theorem dequeue_responded (ledger : Ledger) (backlog : Option Backlog) :
    Responded ledger.queue .dequeue (.dequeued (ledger.queue.dequeue backlog).1)
      (ledger.strike (ledger.queue.dequeue backlog)).queue := by
  have dequeued := ledger.queue.dequeue_cases backlog
  generalize ledger.queue.dequeue backlog = result at dequeued
  cases dequeued with
  | taken isCons => exact .taken isCons
  | empty _ => exact .unchanged rfl
  | error => exact .unchanged rfl

theorem dequeueIfHead_responded (ledger : Ledger) (backlog : Option Backlog) (id : UInt64) :
    Responded ledger.queue (.dequeueIfHead id)
      (.dequeued (ledger.queue.dequeueIfHead backlog id).1)
      (ledger.strike (ledger.queue.dequeueIfHead backlog id)).queue := by
  have dequeued := ledger.queue.dequeueIfHead_cases backlog id
  generalize ledger.queue.dequeueIfHead backlog id = result at dequeued
  cases dequeued with
  | taken isCons _ => exact .taken isCons
  | mismatch _ => exact .unchanged rfl
  | error => exact .unchanged rfl

theorem responded (ledger : Ledger) (request : Request) :
    Responded ledger.queue request.operation (ledger.answer request)
      (ledger.step request).queue := by
  obtain ⟨operation, refuses⟩ := request
  cases operation with
  | enqueue call => exact ledger.enqueue_responded _ call
  | dequeue => exact ledger.dequeue_responded _
  | dequeueIfHead id => exact ledger.dequeueIfHead_responded _ id

section

variable {queue after : Queue} {operation : Operation} {answer : Answer}
  (responded : Responded queue operation answer after)
include responded

theorem Responded.eq_of_not_isDone (notDone : answer.isDone = false) : after = queue := by
  cases responded with
  | accepted _ _ | taken _ => cases notDone
  | unchanged _ => rfl

/-- A call that is accepted is for the target, and there is room for it. -/
theorem Responded.admits {call : Call} (enqueues : operation = .enqueue call)
    (accepted : answer = .enqueued (.ok .accepted)) :
    call.target = queue.target ∧ queue.calls.length < queue.maxLength := by
  cases responded with
  | accepted sameTarget room =>
      cases enqueues
      exact ⟨sameTarget, room⟩
  | taken _ => cases accepted
  | unchanged notDone =>
      subst accepted
      cases notDone

theorem Responded.maxLength_eq : after.maxLength = queue.maxLength := by
  cases responded <;> rfl

/-- A queue gets longer only within its limit. -/
theorem Responded.length_le :
    after.calls.length ≤ max queue.maxLength queue.calls.length := by
  cases responded with
  | accepted _ room =>
      rw [List.length_append, List.length_singleton]
      exact Nat.le_trans room (Nat.le_max_left _ _)
  | taken isCons =>
      rw [isCons, List.length_cons]
      exact Nat.le_trans (Nat.le_succ _) (Nat.le_max_right _ _)
  | unchanged _ => exact Nat.le_max_right _ _

end

/-! ## All requests -/

theorem maxLength_run (ledger : Ledger) (requests : List Request) :
    (ledger.run requests).queue.maxLength = ledger.queue.maxLength := by
  induction requests generalizing ledger with
  | nil => rfl
  | cons request rest ih =>
      exact (ih (ledger.step request)).trans (ledger.responded request).maxLength_eq

theorem length_run_le (ledger : Ledger) (requests : List Request) :
    (ledger.run requests).queue.calls.length ≤
      max ledger.queue.maxLength ledger.queue.calls.length := by
  induction requests generalizing ledger with
  | nil => exact Nat.le_max_right _ _
  | cons request rest ih =>
      have responded := ledger.responded request
      calc ((ledger.step request).run rest).queue.calls.length
          ≤ max (ledger.step request).queue.maxLength
              (ledger.step request).queue.calls.length := ih _
        _ ≤ max ledger.queue.maxLength ledger.queue.calls.length := by
          rw [responded.maxLength_eq]
          exact Nat.max_le.mpr ⟨Nat.le_max_left _ _, responded.length_le⟩

/-- A queue that began with some calls has lost none of those and of the others, and takes only
calls that it may take. -/
structure IsLossless (target : Peer) (maxLength : Nat) (first : List Call)
    (ledger : Ledger) : Prop where
  /-- The calls that left and those that wait are all calls there were, in their order. -/
  balances : first ++ ledger.accepted = ledger.removed ++ ledger.queue.calls
  /-- The next request is carried out, or the queue stays exactly as it is. -/
  unchanged : ∀ request, (ledger.answer request).isDone = false →
    (ledger.step request).queue = ledger.queue
  /-- The next call is accepted only if it is for the target and there is room. -/
  admits : ∀ call refuses, ledger.answer ⟨.enqueue call, refuses⟩ = .enqueued (.ok .accepted) →
    call.target = target ∧ ledger.queue.calls.length < maxLength
  bounded : ledger.queue.calls.length ≤ max maxLength first.length

/-- A queue that is created with or without a backlog loses nothing, whatever is requested of it
and whatever the backlog refuses. -/
theorem isLossless_run {target : Peer} {maxLength : Nat} {backlog : Option Backlog} {queue : Queue}
    (created : create target maxLength backlog = .ok queue) (requests : List Request) :
    ((start queue backlog).run requests).IsLossless target maxLength
      (restored target backlog) := by
  obtain rfl := eq_restored_of_create created
  let first : Queue := ⟨target, maxLength, restored target backlog⟩
  have balances := (balances_start first backlog).run requests
  have sameTarget := run_target (start first backlog) requests
  have sameLimit := maxLength_run (start first backlog) requests
  constructor
  case balances => exact balances
  case unchanged => exact fun request notDone => (responded _ request).eq_of_not_isDone notDone
  case admits =>
    intro call refuses accepted
    have admitted := (responded _ ⟨.enqueue call, refuses⟩).admits rfl accepted
    rwa [sameTarget, sameLimit] at admitted
  case bounded => exact length_run_le _ requests

/-- A call that is sent again after a failure. -/
def lasting (id : UInt64) : Call :=
  { Call.new .server ⟨id, "f", []⟩ with policy := some .retry }

/-- A backlog with more calls than the queue may have. -/
def overfull : Backlog := .ofStore (.memory ⟨[lasting 1, lasting 2]⟩)

/-- There is no room until both calls have left, which takes the backlog some time. -/
def makingRoom : List Request :=
  [⟨.enqueue (lasting 3), []⟩, ⟨.dequeue, [.remove]⟩, ⟨.dequeueIfHead 2, []⟩, ⟨.dequeue, []⟩,
    ⟨.enqueue (lasting 4), []⟩, ⟨.dequeueIfHead 2, []⟩, ⟨.dequeue, []⟩,
    ⟨.enqueue (lasting 5), [.enqueue]⟩, ⟨.enqueue { lasting 6 with target := .client "c" }, []⟩,
    ⟨.enqueue (lasting 7), []⟩]

theorem isLossless_makingRoom :
    create .server 1 (some overfull) = .ok ⟨.server, 1, [lasting 1, lasting 2]⟩ ∧
    ((start ⟨.server, 1, [lasting 1, lasting 2]⟩ (some overfull)).run makingRoom).IsLossless
      .server 1 [lasting 1, lasting 2] ∧
    ((start ⟨.server, 1, [lasting 1, lasting 2]⟩ (some overfull)).run makingRoom).removed =
      [lasting 1, lasting 2] ∧
    ((start ⟨.server, 1, [lasting 1, lasting 2]⟩ (some overfull)).run makingRoom).queue.calls =
      [lasting 7] := by
  have created : create .server 1 (some overfull) =
      .ok ⟨.server, 1, [lasting 1, lasting 2]⟩ := rfl
  exact ⟨created, isLossless_run created makingRoom, by decide, by decide⟩

end Ledger

end PeerCalls.Queue
