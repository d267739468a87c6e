import PeerCalls.Backlog.Basic

/-!
# What a backlog keeps

For the queue of a target it does not matter where a backlog keeps the calls. What counts
is that it has the calls that it was given, oldest first, until they are removed or
superseded by the latest call of their method, and that an operation that fails changes
nothing. A backlog in memory is like this.
-/

namespace PeerCalls

/-- Only the later one of two calls is stored. -/
def Call.Supersedes (later earlier : Call) : Prop :=
  later.isLatest = true ∧ earlier.name = later.name

theorem Call.Supersedes.isRetryable {later earlier : Call}
    (supersedes : later.Supersedes earlier) : later.isRetryable = true := by
  apply isRetryable_of_policy
  exact .inr (of_decide_eq_true supersedes.1)

/-- How backlogs keep the calls to a target. `holds backlog calls` says which calls a
backlog has, and `kept call` is a call as it is read again. It may lack its attempt. -/
structure Backlog.Keeps (target : Peer) (kept : Call → Call) (holds : Backlog → List Call → Prop) :
    Prop where
  reset_kept : ∀ call, (kept call).reset = call.reset
  reads : ∀ {backlog calls}, holds backlog calls →
    (backlog.allowing.readAll target).1 = .ok calls
  ordered : ∀ {backlog calls}, holds backlog calls →
    calls.Pairwise fun first second => first.id < second.id
  /-- To be told to refuse operations changes nothing. -/
  refuses : ∀ {backlog calls}, holds backlog calls →
    ∀ operations, holds { backlog with refuses := operations } calls
  /-- A call with a new id comes in, and those that it supersedes go away. -/
  enqueues : ∀ {backlog after calls call}, holds backlog calls → call.target = target →
    (∀ other ∈ calls, other.id ≠ call.id) → backlog.enqueue call = (.ok (), after) →
    ∃ later, holds after later ∧
      ∀ other, other ∈ later ↔ other = kept call ∨ other ∈ calls ∧ ¬ call.Supersedes other
  enqueueFails : ∀ {backlog after calls call fault}, holds backlog calls →
    backlog.enqueue call = (.error fault, after) → holds after calls
  removes : ∀ {backlog after calls id found}, holds backlog calls →
    backlog.remove target id = (.ok found, after) →
    ∃ later, holds after later ∧ ∀ other, other ∈ later ↔ other ∈ calls ∧ other.id ≠ id
  removeFails : ∀ {backlog after calls id fault}, holds backlog calls →
    backlog.remove target id = (.error fault, after) → holds after calls

namespace Backlog

namespace Keeps

variable {target : Peer} {kept : Call → Call} {holds : Backlog → List Call → Prop}

end Keeps

end Backlog

/-! ## Calls in memory -/

namespace MemoryBacklog

/-- A call stands before another one in the order of the ids. No two calls to a target have
the same id. -/
def Before (first second : Call) : Prop :=
  first.id ≤ second.id ∧ (first.target = second.target → first.id ≠ second.id)

theorem mem_insertCall {call other : Call} {calls : List Call} :
    other ∈ insertCall call calls ↔ other = call ∨ other ∈ calls := by
  induction calls with
  | nil => simp [insertCall]
  | cons head rest ih =>
      unfold insertCall
      split
      · rw [List.mem_cons, ih, List.mem_cons, or_left_comm]
      · rw [List.mem_cons]

/-- A call comes to its place in the order of the ids. -/
theorem pairwise_insertCall {call : Call} {calls : List Call} (ordered : calls.Pairwise Before)
    (fresh : ∀ other ∈ calls, call.target = other.target → call.id ≠ other.id) :
    (insertCall call calls).Pairwise Before := by
  induction calls with
  | nil => simp [insertCall]
  | cons head rest ih =>
      rw [List.pairwise_cons] at ordered
      unfold insertCall
      split
      next below =>
        rw [List.pairwise_cons]
        constructor
        · intro other member
          rcases mem_insertCall.mp member with rfl | member
          · exact ⟨UInt64.le_of_lt below, fun _ => UInt64.ne_of_lt below⟩
          · exact ordered.1 other member
        · apply ih ordered.2
          exact fun other member => fresh other (List.mem_cons_of_mem head member)
      next notBelow =>
        have first : call.id ≤ head.id := UInt64.not_lt.mp notBelow
        rw [List.pairwise_cons, List.pairwise_cons]
        refine ⟨?_, ordered⟩
        intro other member
        refine ⟨?_, fresh other member⟩
        rcases List.mem_cons.mp member with rfl | member
        · exact first
        · exact UInt64.le_trans first (ordered.1 other member).1

theorem mem_readAll {memory : MemoryBacklog} {target : Peer} {call : Call} :
    call ∈ memory.readAll target ↔ call ∈ memory.calls ∧ call.target = target := by
  simp [readAll]

theorem pairwise_readAll {memory : MemoryBacklog} (ordered : memory.calls.Pairwise Before)
    (target : Peer) :
    (memory.readAll target).Pairwise fun first second => first.id < second.id := by
  rw [readAll, List.pairwise_filter]
  apply ordered.imp
  intro first second before isFirst isSecond
  simp only [decide_eq_true_eq] at isFirst isSecond
  exact UInt64.lt_of_le_of_ne before.1 (before.2 (isFirst.trans isSecond.symm))

/-- Only calls to the target are taken away. -/
theorem mem_calls_removeWhere {memory : MemoryBacklog} {target : Peer} {selects : Call → Bool}
    {call : Call} : call ∈ (memory.removeWhere target selects).2.calls ↔
      call ∈ memory.calls ∧ ¬ (call.target = target ∧ selects call = true) := by
  simp [removeWhere, Decidable.imp_iff_not_or]

theorem pairwise_removeWhere {memory : MemoryBacklog} (ordered : memory.calls.Pairwise Before)
    (target : Peer) (selects : Call → Bool) :
    (memory.removeWhere target selects).2.calls.Pairwise Before :=
  ordered.filter _

/-- Each call that is taken away is counted. -/
theorem count_removeWhere (memory : MemoryBacklog) (target : Peer) (selects : Call → Bool) :
    (memory.removeWhere target selects).1 = ((memory.readAll target).filter selects).length := by
  simp [removeWhere, readAll, List.filter_filter, List.countP_eq_length_filter, Bool.and_comm]

/-- What stays when a call is stored: the calls to others, with other ids, and of other methods
if only the latest counts. -/
theorem mem_calls_enqueue {memory : MemoryBacklog} {call other : Call} :
    other ∈ (memory.enqueue call).calls ↔ other = call ∨
      other ∈ memory.calls ∧
        (other.target = call.target → other.id ≠ call.id ∧ ¬ call.Supersedes other) := by
  simp [enqueue, removeWhere, mem_insertCall, Call.Supersedes, Decidable.imp_iff_not_or]

theorem pairwise_enqueue {memory : MemoryBacklog} (ordered : memory.calls.Pairwise Before)
    (call : Call) : (memory.enqueue call).calls.Pairwise Before := by
  apply pairwise_insertCall
  · exact ordered.filter _
  · intro other member sameTarget sameId
    simp [removeWhere, ← sameTarget, ← sameId] at member

theorem mem_calls_remove {memory : MemoryBacklog} {target : Peer} {id : UInt64} {call : Call} :
    call ∈ (memory.remove target id).2.calls ↔
      call ∈ memory.calls ∧ (call.target = target → call.id ≠ id) := by
  simp [remove, removeWhere, Decidable.imp_iff_not_or]

theorem pairwise_remove {memory : MemoryBacklog} (ordered : memory.calls.Pairwise Before)
    (target : Peer) (id : UInt64) : (memory.remove target id).2.calls.Pairwise Before :=
  ordered.filter _

theorem pairwise_dequeue {memory : MemoryBacklog} (ordered : memory.calls.Pairwise Before)
    (target : Peer) : (memory.dequeue target).2.calls.Pairwise Before := by
  unfold dequeue
  split
  · exact pairwise_removeWhere ordered target _
  · exact ordered

/-- A backlog has these calls to a target in memory. -/
def Holds (target : Peer) (backlog : Backlog) (calls : List Call) : Prop :=
  ∃ memory, backlog.store = .memory memory ∧ memory.calls.Pairwise Before ∧
    memory.readAll target = calls

/-- A backlog in memory keeps calls as they are. -/
theorem keeps (target : Peer) : Backlog.Keeps target id (Holds target) where
  reset_kept _ := rfl
  reads := by
    rintro backlog calls ⟨memory, store, _, rfl⟩
    simp [Backlog.readAll, Backlog.allowing, Backlog.guarded, store]
  ordered := by
    rintro backlog calls ⟨memory, _, ordered, rfl⟩
    exact pairwise_readAll ordered target
  refuses := by
    rintro backlog calls ⟨memory, store, ordered, equal⟩ operations
    exact ⟨memory, store, ordered, equal⟩
  enqueues := by
    rintro backlog after calls call ⟨memory, store, ordered, rfl⟩ rfl fresh enqueued
    simp only [Backlog.enqueue, Backlog.guarded, store] at enqueued
    split at enqueued
    · cases enqueued
    · cases enqueued
      refine ⟨_, ⟨_, rfl, pairwise_enqueue ordered call, rfl⟩, ?_⟩
      intro other
      simp only [mem_readAll, mem_calls_enqueue] at fresh ⊢
      constructor
      · rintro ⟨rfl | ⟨member, others⟩, sameTarget⟩
        · exact .inl rfl
        · exact .inr ⟨⟨member, sameTarget⟩, (others sameTarget).2⟩
      · rintro (rfl | ⟨⟨member, sameTarget⟩, stays⟩)
        · exact ⟨.inl rfl, rfl⟩
        · exact ⟨.inr ⟨member, fun _ => ⟨fresh other ⟨member, sameTarget⟩, stays⟩⟩, sameTarget⟩
  enqueueFails := by
    rintro backlog after calls call fault ⟨memory, store, ordered, rfl⟩ failed
    simp only [Backlog.enqueue, Backlog.guarded, store] at failed
    split at failed
    · cases failed
      exact ⟨memory, store, ordered, rfl⟩
    · cases failed
  removes := by
    rintro backlog after calls id found ⟨memory, store, ordered, rfl⟩ removed
    simp only [Backlog.remove, Backlog.guarded, store] at removed
    split at removed
    · cases removed
    · cases removed
      refine ⟨_, ⟨_, rfl, pairwise_remove ordered target id, rfl⟩, ?_⟩
      intro other
      simp only [mem_readAll, mem_calls_remove]
      constructor
      · rintro ⟨⟨member, others⟩, sameTarget⟩
        exact ⟨⟨member, sameTarget⟩, others sameTarget⟩
      · rintro ⟨⟨member, sameTarget⟩, others⟩
        exact ⟨⟨member, fun _ => others⟩, sameTarget⟩
  removeFails := by
    rintro backlog after calls id fault ⟨memory, store, ordered, rfl⟩ failed
    simp only [Backlog.remove, Backlog.guarded, store] at failed
    split at failed
    · cases failed
      exact ⟨memory, store, ordered, rfl⟩
    · cases failed

end MemoryBacklog

end PeerCalls
