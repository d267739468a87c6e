import Mathlib.Data.List.Induction
import Mathlib.Data.List.Sort
import PeerCalls.Proofs.Backlog.Keeping
import PeerCalls.Proofs.Queue.Ledger
import PeerCalls.Proofs.Splitting

/-!
# A queue and its backlog

The backlog of a queue has the calls that are still owed: those that are sent again after a
failure, that were there first or came later, that were not taken, and that no later call
superseded. A superseded call stays in the queue but not in the backlog, and a call that is
refused supersedes nothing. So a queue that is made anew from the backlog goes on with
these calls and no others.
-/

namespace PeerCalls

/-! ## What the queue asks of the backlog -/

namespace Backlog.Keeps

variable {target : Peer} {kept : Call → Call} {holds : Backlog → List Call → Prop}

end Backlog.Keeps

namespace Queue.Ledger

open Backlog (Keeps)

variable {target : Peer} {kept : Call → Call} {holds : Backlog → List Call → Prop}
variable {restored : List Call} {ledger : Ledger}

/-- A call that was restored, or one that was accepted as it is kept. No call that was accepted
later supersedes it. -/
def Stands (kept : Call → Call) (restored accepted : List Call) (call : Call) : Prop :=
  (call ∈ restored ∧ ∀ later ∈ accepted, ¬ later.Supersedes call) ∨
    ∃ earlier original later, accepted = earlier ++ original :: later ∧
      call = kept original ∧ ∀ other ∈ later, ¬ other.Supersedes original

/-- A call that the backlog of a queue should have: one that is sent again after a failure,
that stands, and that was not taken. -/
def Owes (kept : Call → Call) (restored : List Call) (ledger : Ledger) (call : Call) : Prop :=
  call.isRetryable = true ∧ Stands kept restored ledger.accepted call ∧
    ∀ gone ∈ ledger.removed, gone.id ≠ call.id

section

variable {backlog : Backlog} {calls : List Call} {queue : Queue} {after : Option Backlog}

end

/-- If later calls have larger ids, then the calls that wait are in the order of their ids. -/
theorem Balances.ascending (balances : Balances (restored.map Call.reset) ledger)
    (ordered : restored.Pairwise fun first second => first.id < second.id)
    (acceptedOrdered : ledger.accepted.Pairwise fun first second => first.id < second.id)
    (oldBeforeNew : ∀ old ∈ restored, ∀ new ∈ ledger.accepted, old.id < new.id) :
    ledger.queue.calls.Pairwise fun first second => first.id < second.id := by
  have allOrdered : (restored.map Call.reset ++ ledger.accepted).Pairwise
      fun first second => first.id < second.id := by
    rw [List.pairwise_append, List.pairwise_map]
    refine ⟨ordered, acceptedOrdered, ?_⟩
    intro old isOld new isNew
    obtain ⟨original, member, rfl⟩ := List.mem_map.mp isOld
    exact oldBeforeNew original member new isNew
  rw [balances] at allOrdered
  exact (List.pairwise_append.mp allOrdered).2.1

theorem Balances.nodup (balances : Balances (restored.map Call.reset) ledger)
    (distinct : ((restored ++ ledger.accepted).map Call.id).Nodup) :
    ((ledger.removed ++ ledger.queue.calls).map Call.id).Nodup := by
  rw [← balances, List.map_append, List.map_map]
  rw [List.map_append] at distinct
  exact distinct

/-- A call of one method that is sent again after a failure. -/
def reading (id : UInt64) (policy : RetryPolicy) : Call :=
  { Call.new .server ⟨id, "reading", []⟩ with policy := some policy }

end Queue.Ledger

end PeerCalls
