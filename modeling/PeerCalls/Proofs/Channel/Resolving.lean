import PeerCalls.Proofs.Channel.Abandoning
import PeerCalls.Proofs.Splitting

/-!
# Waiters are resolved once, with their own reply

What a waiter knows follows from what was asked since it registered: the first request that
concerns its id resolves or closes it, and after it has looked or has gone away it gets nothing
more. So a waiter takes one reply at most, one to its own id. A run forgets the waiter for its
id when it returns, whatever it returns with, so only runs under way have waiters.
-/

namespace PeerCalls

namespace Waiters

/-- What is asked of waiters. -/
inductive Request where
  | register (id : UInt64)
  | complete (reply : Reply)
  | remove (id : UInt64)
  /-- A waiter looks whether its reply is there. -/
  | poll (number : Nat)
  /-- A waiter goes away. -/
  | drop (number : Nat)
  deriving Repr, DecidableEq

namespace Request

/-- The request decides about the waiter that is pending for an id. -/
def concerns (id : UInt64) : Request → Bool
  | register other | remove other => decide (other = id)
  | complete reply => decide (reply.id = id)
  | poll _ | drop _ => false

def isRegister : Request → Bool
  | register _ => true
  | complete _ | remove _ | poll _ | drop _ => false

end Request

def step (waiters : Waiters) : Request → Waiters
  | .register id => (waiters.register id).2
  | .complete reply => (waiters.complete reply).2
  | .remove id => waiters.remove id
  | .poll number => (waiters.poll number).2
  | .drop number => waiters.drop number

def run (waiters : Waiters) (requests : List Request) : Waiters := requests.foldl step waiters

/-- The id for which a waiter has registered, and what was asked since. Waiters are numbered in
the order in which they register. -/
def since? : List Request → (number : Nat) → Option (UInt64 × List Request)
  | [], _ => Option.none
  | .register id :: rest, 0 => some (id, rest)
  | .register _ :: rest, number + 1 => since? rest number
  | _ :: rest, number => since? rest number

/-- The waiter looks at its reply and takes it. -/
def take : Waiter → Waiter
  | .resolved _ => .closed
  | other => other

/-- What a waiter for an id knows after a request. -/
def hear (number : Nat) (id : UInt64) (waiter : Waiter) : Request → Waiter
  | .register other | .remove other => if other = id then closeWaiting waiter else waiter
  | .complete reply => if reply.id = id ∧ waiter = .waiting then .resolved reply else waiter
  | .poll other => if other = number then take waiter else waiter
  | .drop other => if other = number then .gone else waiter

/-- What a waiter for an id knows after some requests. -/
def heard (number : Nat) (id : UInt64) (since : List Request) : Waiter :=
  since.foldl (hear number id) .waiting

/-! ## What was asked since a waiter registered -/

section Since

variable {history since : List Request} {number : Nat} {id : UInt64}

theorem isSome_since?_iff :
    (since? history number).isSome = true ↔ number < history.countP Request.isRegister := by
  induction history generalizing number with
  | nil => simp [since?]
  | cons request rest ih =>
      cases request with
      | register other =>
          rw [List.countP_cons_of_pos rfl]
          cases number with
          | zero => simp [since?]
          | succ number => exact ih.trans Nat.succ_lt_succ_iff.symm
      | complete | remove | poll | drop =>
          rw [List.countP_cons_of_neg Bool.false_ne_true]
          exact ih

/-- A further request comes after all others, and a waiter may register with it. -/
theorem since?_concat_iff {request : Request} :
    since? (history ++ [request]) number = some (id, since) ↔
      (∃ before, since? history number = some (id, before) ∧ since = before ++ [request]) ∨
      request = .register id ∧ number = history.countP Request.isRegister ∧ since = [] := by
  induction history generalizing number with
  | nil => cases request <;> cases number <;> grind [since?]
  | cons first rest ih =>
      cases first with
      | register other =>
          rw [List.countP_cons_of_pos rfl]
          cases number with
          | zero => grind [since?]
          | succ number => simpa [since?] using ih
      | complete | remove | poll | drop =>
          rw [List.countP_cons_of_neg Bool.false_ne_true]
          exact ih

/-- What is asked further is asked since then too. -/
theorem since?_append (registered : since? history number = some (id, since))
    (more : List Request) : since? (history ++ more) number = some (id, since ++ more) := by
  induction more using List.reverseRecOn with
  | nil => rw [List.append_nil, List.append_nil, registered]
  | append_singleton more request ih =>
      rw [← List.append_assoc, ← List.append_assoc]
      exact since?_concat_iff.mpr (.inl ⟨since ++ more, ih, rfl⟩)

end Since

/-! ## What one waiter hears -/

section Hearing

variable {number : Nat} {id : UInt64} {waiter : Waiter} {request : Request} {reply : Reply}
  {since : List Request}

theorem heard_concat (number : Nat) (id : UInt64) (since : List Request) (request : Request) :
    heard number id (since ++ [request]) = hear number id (heard number id since) request := by
  simp [heard]

theorem hear_eq_waiting_iff : hear number id waiter request = .waiting ↔
    waiter = .waiting ∧ request.concerns id = false ∧ request ≠ .drop number := by
  cases request with
  | register other | remove other =>
      simp only [hear, Request.concerns, decide_eq_false_iff_not]
      split
      next same => simp [same, closeWaiting_ne]
      next differs => simp [differs]
  | complete reply =>
      simp only [hear, Request.concerns, decide_eq_false_iff_not]
      split
      next own => simp [own.1]
      next others => grind
  | poll other =>
      simp only [hear, Request.concerns]
      split
      next => cases waiter <;> simp [take]
      next => simp
  | drop other =>
      simp only [hear, Request.concerns]
      split
      next same => simp [same]
      next differs => simp [differs]

theorem hear_eq_resolved_iff : hear number id waiter request = .resolved reply ↔
    waiter = .waiting ∧ request = .complete reply ∧ reply.id = id ∨
      waiter = .resolved reply ∧ request ≠ .poll number ∧ request ≠ .drop number := by
  cases request with
  | register other | remove other =>
      simp only [hear]
      split
      next same => cases waiter <;> simp [closeWaiting]
      next differs => simp
  | complete given =>
      simp only [hear]
      split
      next own => grind
      next others => grind
  | poll other =>
      simp only [hear]
      split
      next same => cases waiter <;> simp [take, same]
      next differs => simp [differs]
  | drop other =>
      simp only [hear]
      split
      next same => simp [same]
      next differs => simp [differs]

/-- A waiter waits until something concerns its id or it goes away. -/
theorem heard_eq_waiting_iff : heard number id since = .waiting ↔
    (∀ request ∈ since, request.concerns id = false) ∧ .drop number ∉ since := by
  induction since using List.reverseRecOn with
  | nil => simp [heard]
  | append_singleton since request ih =>
      rw [heard_concat, hear_eq_waiting_iff, ih, Splitting.forall_mem_concat, List.mem_append,
        List.mem_singleton, not_or, eq_comm (a := Request.drop number)]
      exact ⟨fun ⟨⟨silent, stays⟩, now⟩ => ⟨⟨silent, now.1⟩, stays, now.2⟩,
        fun ⟨⟨silent, now⟩, stays, here⟩ => ⟨⟨silent, stays⟩, now, here⟩⟩

/-- A waiter has the first reply to its id, unless something else concerned the id before, until
it looks or goes away. -/
theorem heard_eq_resolved_iff : heard number id since = .resolved reply ↔
    reply.id = id ∧ ∃ early late, since = early ++ .complete reply :: late ∧
      (∀ request ∈ early, request.concerns id = false) ∧
      .drop number ∉ early ++ late ∧ .poll number ∉ late := by
  induction since using List.reverseRecOn with
  | nil => simp [heard]
  | append_singleton since request ih =>
      rw [heard_concat, hear_eq_resolved_iff, heard_eq_waiting_iff, ih]
      constructor
      · rintro (⟨⟨silent, stays⟩, rfl, own⟩ | ⟨⟨own, early, late, rfl, silent, stays, unread⟩, now⟩)
        · exact ⟨own, since, [], rfl, silent, by simpa using stays, List.not_mem_nil⟩
        · refine ⟨own, early, late ++ [request], by simp, silent, ?_, ?_⟩
          · simpa [eq_comm (a := Request.drop number), now.2] using stays
          · simpa [eq_comm (a := Request.poll number), now.1] using unread
      · rintro ⟨own, early, late, split, silent, stays, unread⟩
        rcases Splitting.concat_eq_iff.mp split with ⟨rfl, same, rfl⟩ | ⟨init, rfl, rfl⟩
        · exact .inl ⟨⟨silent, by simpa using stays⟩, same.symm, own⟩
        · rw [← List.append_assoc, List.mem_append, List.mem_singleton, not_or] at stays
          rw [List.mem_append, List.mem_singleton, not_or] at unread
          exact .inr ⟨⟨own, early, init, rfl, silent, stays.1, unread.1⟩, Ne.symm unread.2,
            Ne.symm stays.2⟩

/-- A waiter that has taken its reply gets no other one. -/
theorem heard_append_poll_ne_resolved (resolved : heard number id since = .resolved reply)
    (later : List Request) (other : Reply) :
    heard number id (since ++ .poll number :: later) ≠ .resolved other := by
  have spent : heard number id (since ++ .poll number :: later) = .closed ∨
      heard number id (since ++ .poll number :: later) = .gone := by
    induction later using List.reverseRecOn with
    | nil => simp [heard_concat, resolved, hear, take]
    | append_singleton later request ih =>
        rw [← List.cons_append, ← List.append_assoc, heard_concat]
        rcases ih with ih | ih <;> rw [ih] <;> cases request <;> grind [hear, take, closeWaiting]
  rcases spent with spent | spent <;> rw [spent] <;> simp

end Hearing

/-! ## What a request changes -/

section Step

variable {waiters : Waiters} {number : Nat} {id : UInt64}

theorem size_step (waiters : Waiters) (request : Request) :
    (waiters.step request).all.size = waiters.all.size + [request].countP Request.isRegister := by
  cases request with
  | register other => simp [step, register, size_remove, Request.isRegister]
  | complete reply => exact waiters.size_complete reply
  | remove other => exact waiters.size_remove other
  | poll other =>
      simp only [step, poll]
      split
      · exact size_modify _ _ _
      · rfl
  | drop other => exact size_modify _ _ _

theorem pendingFor?_step (waiters : Waiters) (request : Request) (id : UInt64) :
    (waiters.step request).pendingFor? id =
      if request.concerns id then
        if request.isRegister then some waiters.all.size else Option.none
      else waiters.pendingFor? id := by
  cases request with
  | register other =>
      simp only [step, pendingFor?_register, Request.concerns, decide_eq_true_eq, eq_comm (a := id)]
      rfl
  | complete reply =>
      simp only [step, pendingFor?_complete, Request.concerns, decide_eq_true_eq,
        eq_comm (a := id)]
      rfl
  | remove other =>
      simp only [step, pendingFor?_remove, Request.concerns, decide_eq_true_eq, eq_comm (a := id)]
      rfl
  | poll other =>
      simp only [step, poll]
      split <;> rfl
  | drop other => rfl

theorem state_modify_of_lt (known : number < waiters.all.size) (change : Waiter → Waiter) :
    (waiters.modify number change).state number = change (waiters.state number) := by
  simp [state, modify, known, Array.getElem_modify]

/-- A waiter that is pending for its own id or for none, and is so as long as it waits, hears the
request. -/
theorem state_step (known : number < waiters.all.size)
    (own : ∀ other, waiters.pendingFor? other = some number → other = id)
    (isPending : waiters.state number = .waiting → waiters.pendingFor? id = some number)
    (request : Request) :
    (waiters.step request).state number = hear number id (waiters.state number) request := by
  have forgotten (other : UInt64) : (waiters.remove other).state number =
      if other = id then closeWaiting (waiters.state number) else waiters.state number := by
    rw [state_remove]
    by_cases same : other = id
    · subst same
      rw [if_pos rfl, ite_eq_left_iff]
      intro absent
      exact (closeWaiting_of_ne fun waits => absent (isPending waits)).symm
    · rw [if_neg same, if_neg fun pending => same (own other pending)]
  cases request with
  | register other => exact (waiters.state_register other known).trans (forgotten other)
  | remove other => exact forgotten other
  | complete reply =>
      have tells := waiters.tells_complete reply
      simp only [step, hear]
      split
      next waits => exact tells.told (waits.1 ▸ isPending waits.2) waits.2
      next others =>
        exact tells.kept fun told => others ⟨(own _ told.1), told.2⟩
  | poll other =>
      simp only [step, poll, hear]
      by_cases same : other = number
      · subst same
        rw [if_pos rfl]
        split
        next reply resolved => rw [state_modify_of_lt known, resolved, take]
        next unresolved =>
          cases state : waiters.state other with
          | resolved reply => exact absurd state (unresolved reply)
          | waiting | closed | gone => rfl
      · rw [if_neg same]
        split
        · exact state_modify_of_ne (Ne.symm same) _
        · rfl
  | drop other =>
      simp only [step, drop, hear]
      split
      next same => rw [same, state_modify_of_lt known]
      next differs => exact state_modify_of_ne (Ne.symm differs) _

end Step

/-- Which waiters are pending, and what all of them know, follows from the history. -/
structure Reflects (history : List Request) (waiters : Waiters) : Prop where
  size : waiters.all.size = history.countP Request.isRegister
  pending : ∀ {id : UInt64} {number : Nat}, waiters.pendingFor? id = some number ↔
    ∃ since, since? history number = some (id, since) ∧
      ∀ request ∈ since, request.concerns id = false
  state : ∀ {number : Nat} {id : UInt64} {since : List Request},
    since? history number = some (id, since) → waiters.state number = heard number id since

namespace Reflects

variable {history : List Request} {waiters : Waiters}

theorem none : Reflects [] .none where
  size := rfl
  pending := by simp [Waiters.none, pendingFor?, since?]
  state registered := by cases registered

/-- A waiter is pending after a request if it was and the request does not concern its id, or if
it has just registered. -/
theorem exists_since_concat {request : Request} {number : Nat} {id : UInt64} :
    (∃ since, since? (history ++ [request]) number = some (id, since) ∧
      ∀ request ∈ since, request.concerns id = false) ↔
    request.concerns id = false ∧ (∃ since, since? history number = some (id, since) ∧
      ∀ request ∈ since, request.concerns id = false) ∨
    request = .register id ∧ number = history.countP Request.isRegister := by
  constructor
  · rintro ⟨since, registered, silent⟩
    rcases since?_concat_iff.mp registered with ⟨before, isThere, rfl⟩ | ⟨isNew, isLast, rfl⟩
    · rw [Splitting.forall_mem_concat] at silent
      exact .inl ⟨silent.2, before, isThere, silent.1⟩
    · exact .inr ⟨isNew, isLast⟩
  · rintro (⟨silent, since, isThere, others⟩ | ⟨isNew, isLast⟩)
    · exact ⟨since ++ [request], since?_concat_iff.mpr (.inl ⟨since, isThere, rfl⟩),
        Splitting.forall_mem_concat.mpr ⟨others, silent⟩⟩
    · exact ⟨[], since?_concat_iff.mpr (.inr ⟨isNew, isLast, rfl⟩), by simp⟩

theorem step (reflects : Reflects history waiters) (request : Request) :
    Reflects (history ++ [request]) (waiters.step request) where
  size := by rw [size_step, List.countP_append, reflects.size]
  pending {id number} := by
    rw [pendingFor?_step, exists_since_concat, ← reflects.pending, ← reflects.size]
    cases request with
    | register other =>
        by_cases same : other = id <;>
          simp [Request.concerns, Request.isRegister, same, eq_comm (a := number)]
    | complete | remove | poll | drop => simp [Request.concerns, Request.isRegister]
  state {number id since} registered := by
    rcases since?_concat_iff.mp registered with ⟨before, isThere, rfl⟩ | ⟨rfl, rfl, rfl⟩
    · rw [heard_concat, ← reflects.state isThere]
      apply state_step
      · rw [reflects.size]
        exact isSome_since?_iff.mp (Option.isSome_of_eq_some isThere)
      · intro other isPending
        obtain ⟨since, known, _⟩ := reflects.pending.mp isPending
        cases known.symm.trans isThere
        rfl
      · intro waits
        rw [reflects.state isThere, heard_eq_waiting_iff] at waits
        exact reflects.pending.mpr ⟨before, isThere, waits.1⟩
    · rw [← reflects.size]
      exact waiters.state_register_self id

theorem run (history : List Request) : Reflects history (Waiters.none.run history) := by
  induction history using List.reverseRecOn with
  | nil => exact .none
  | append_singleton history request ih =>
      rw [Waiters.run, List.foldl_append]
      exact ih.step request

/-- A waiter that has a reply has registered for its id. -/
theorem exists_since_of_resolved (reflects : Reflects history waiters) {number : Nat}
    {reply : Reply} (resolved : waiters.state number = .resolved reply) :
    ∃ since, since? history number = some (reply.id, since) ∧
      heard number reply.id since = .resolved reply := by
  have known : number < waiters.all.size := by
    by_contra unknown
    simp [Waiters.state, Array.getElem?_eq_none (Nat.le_of_not_lt unknown)] at resolved
  rw [reflects.size, ← isSome_since?_iff, Option.isSome_iff_exists] at known
  obtain ⟨⟨id, since⟩, registered⟩ := known
  rw [reflects.state registered] at resolved
  obtain rfl := (heard_eq_resolved_iff.mp resolved).1
  exact ⟨since, registered, resolved⟩

end Reflects

theorem poll_eq_resolved_iff {waiters : Waiters} {number : Nat} {reply : Reply} :
    (waiters.poll number).1 = .resolved reply ↔ waiters.state number = .resolved reply := by
  simp only [poll]
  split
  next taken resolved => rw [resolved]
  next => rfl

theorem complete_eq_true_iff {waiters : Waiters} {reply : Reply} :
    (waiters.complete reply).1 = true ↔
      ∃ number, waiters.pendingFor? reply.id = some number ∧ waiters.state number = .waiting := by
  simp only [complete]
  split
  next number found => simp [found]
  next missing => simp [missing]

/-- How waiters are resolved, whatever was asked of them. -/
structure ResolvesOnce (history : List Request) (waiters : Waiters) : Prop where
  /-- The waiter that registered last for an id is pending until the id is answered or forgotten,
  and no other one is. -/
  pending : ∀ id number, waiters.pendingFor? id = some number ↔
    ∃ since, since? history number = some (id, since) ∧
      ∀ request ∈ since, request.concerns id = false
  /-- Somebody gets a reply if a waiter is pending for its id that has not gone away. -/
  completes : ∀ reply, (waiters.complete reply).1 = true ↔
    ∃ number since, since? history number = some (reply.id, since) ∧
      (∀ request ∈ since, request.concerns reply.id = false) ∧ .drop number ∉ since
  /-- A waiter that looks finds the reply to its own id that came while it was pending, unless it
  has taken it or gone away. -/
  finds : ∀ number reply, (waiters.poll number).1 = .resolved reply ↔
    ∃ early late, since? history number = some (reply.id, early ++ .complete reply :: late) ∧
      (∀ request ∈ early, request.concerns reply.id = false) ∧
      .drop number ∉ early ++ late ∧ .poll number ∉ late
  /-- A waiter that takes a reply takes no other one later. -/
  once : ∀ number reply, (waiters.poll number).1 = .resolved reply → ∀ later other,
    ((waiters.run (.poll number :: later)).poll number).1 ≠ .resolved other

theorem Reflects.resolvesOnce (history : List Request) :
    ResolvesOnce history (Waiters.none.run history) := by
  have reflects := Reflects.run history
  constructor
  case pending => exact fun _ _ => reflects.pending
  case completes =>
    intro reply
    rw [complete_eq_true_iff]
    apply exists_congr
    intro number
    rw [reflects.pending]
    constructor
    · rintro ⟨⟨since, registered, silent⟩, waits⟩
      rw [reflects.state registered, heard_eq_waiting_iff] at waits
      exact ⟨since, registered, waits⟩
    · rintro ⟨since, registered, waits⟩
      refine ⟨⟨since, registered, waits.1⟩, ?_⟩
      rw [reflects.state registered, heard_eq_waiting_iff]
      exact waits
  case finds =>
    intro number reply
    rw [poll_eq_resolved_iff]
    constructor
    · intro resolved
      obtain ⟨since, registered, isHeard⟩ := reflects.exists_since_of_resolved resolved
      obtain ⟨_, early, late, rfl, whole⟩ := heard_eq_resolved_iff.mp isHeard
      exact ⟨early, late, registered, whole⟩
    · rintro ⟨early, late, registered, silent, stays, unread⟩
      rw [reflects.state registered, heard_eq_resolved_iff]
      exact ⟨rfl, early, late, rfl, silent, stays, unread⟩
  case once =>
    intro number reply resolved later other
    obtain ⟨since, registered, isHeard⟩ :=
      reflects.exists_since_of_resolved (poll_eq_resolved_iff.mp resolved)
    have afterwards := Reflects.run (history ++ .poll number :: later)
    rw [Waiters.run, List.foldl_append] at afterwards
    rw [Ne, poll_eq_resolved_iff, Waiters.run, Waiters.run,
      afterwards.state (since?_append registered _)]
    exact heard_append_poll_ne_resolved isHeard later other

end Waiters

/-! ## Runs and their waiters -/

namespace Run.Stepped

variable {run : Run} {now : Time} {outbox : Outbox} {next : (Run × Outbox) × Option Backlog}

theorem call (stepped : run.Stepped now outbox next) : next.1.1.call = run.call := by
  cases stepped <;> rfl

/-- In a step of a run no waiter becomes pending, and if the run returns, there is none for its
id any more. -/
theorem pendingFor? (stepped : run.Stepped now outbox next) {id : UInt64} {number : Nat}
    (isPending : next.1.2.waiters.pendingFor? id = some number) :
    outbox.waiters.pendingFor? id = some number ∧
      ∀ reply, next.1.1.stage = .returned reply → id ≠ run.call.id := by
  have returns (waiters : Waiters) (same : ∀ id, waiters.pendingFor? id =
      outbox.waiters.pendingFor? id)
      (isPending : (waiters.remove run.call.id).pendingFor? id = some number) :
      outbox.waiters.pendingFor? id = some number ∧ id ≠ run.call.id := by
    rw [Waiters.pendingFor?_remove, same] at isPending
    split at isPending
    next => cases isPending
    next differs => exact ⟨isPending, differs⟩
  cases stepped with
  | accepted => exact ⟨isPending, fun _ returned => by cases returned⟩
  | refused | abandoned =>
      exact (returns outbox.waiters (fun _ => rfl) isPending).imp_right fun differs _ _ => differs
  | replied =>
      exact (returns (outbox.waiters.modify run.waiter _) (fun _ => rfl) isPending).imp_right
        fun differs _ _ => differs
  | expired =>
      exact (returns (outbox.waiters.drop run.waiter) (fun _ => rfl) isPending).imp_right
        fun differs _ _ => differs

/-- A run returns a reply to its call if its waiter has one to its call or none. -/
theorem id_eq (stepped : run.Stepped now outbox next)
    (own : ∀ reply, outbox.waiters.state run.waiter = .resolved reply → reply.id = run.call.id)
    {reply : Reply} (returned : next.1.1.stage = .returned reply) : reply.id = run.call.id := by
  cases stepped with
  | accepted => cases returned
  | refused _ refusal =>
      obtain ⟨kind, message, rfl, _⟩ := refusal
      cases returned
      rfl
  | replied _ resolved =>
      cases returned
      exact own _ resolved
  | abandoned | expired =>
      cases returned
      rfl

end Run.Stepped

namespace Passage

variable {passage : Passage}

/-- Each run returns a reply to its own call, and then its waiter is forgotten. -/
structure ForgetsReturned (passage : Passage) : Prop where
  /-- The waiter that is pending for an id is one of a run with this id that is under way. -/
  underway : ∀ id number, passage.outbox.waiters.pendingFor? id = some number →
    ∃ run, passage.runs[number]? = some run ∧ run.call.id = id ∧
      ∀ reply, run.stage ≠ .returned reply
  own : ∀ run ∈ passage.runs, ∀ reply, run.stage = .returned reply → reply.id = run.call.id
  /-- Once all runs have returned, there are no waiters. -/
  empty : (∀ run ∈ passage.runs, ∃ reply, run.stage = .returned reply) →
    passage.outbox.waiters.pending = []

/-- A run that has returned has no waiter that is pending, and its reply is one to its call. -/
structure Settles (passage : Passage) : Prop where
  tracks : passage.Tracks
  settled : ∀ {number : Nat} {run : Run} {reply : Reply}, passage.runs[number]? = some run →
    run.stage = .returned reply → ∀ id, passage.outbox.waiters.pendingFor? id ≠ some number
  own : ∀ {number : Nat} {run : Run} {reply : Reply}, passage.runs[number]? = some run →
    run.stage = .returned reply → reply.id = run.call.id

namespace Settles

theorem fresh (now : Time) (outbox : Outbox) (backlog : Option Backlog) :
    (fresh now outbox backlog).Settles where
  tracks := tracks_fresh now outbox backlog
  settled found := by cases found
  own found := by cases found

/-- What a waiter has been told is a reply to the call of its run. -/
theorem id_of_resolved (settles : passage.Settles) {number : Nat} {run : Run} {reply : Reply}
    (isRun : passage.runs[number]? = some run) (isOpen : ∀ reply, run.stage ≠ .returned reply)
    (resolved : passage.outbox.waiters.state run.waiter = .resolved reply) :
    reply.id = run.call.id := by
  rw [settles.tracks.number isRun, settles.tracks.known isRun isOpen] at resolved
  have concerns := List.find?_some (Note.find?_of_told resolved)
  exact of_decide_eq_true concerns

/-- A run that has returned did not begin just now. -/
theorem getElem?_begin {call : Call} {number : Nat} {run : Run} {reply : Reply}
    (isRun : (passage.happen (.begin call)).runs[number]? = some run)
    (returned : run.stage = .returned reply) :
    number < passage.runs.length ∧ passage.runs[number]? = some run := by
  change (passage.runs ++ [(Run.start passage.outbox call).1])[number]? = some run at isRun
  rcases Nat.lt_trichotomy number passage.runs.length with known | rfl | beyond
  · rw [List.getElem?_append_left known] at isRun
    exact ⟨known, isRun⟩
  · rw [List.getElem?_concat_length] at isRun
    cases isRun
    cases returned
  · rw [List.getElem?_eq_none (by rw [List.length_append]; exact beyond)] at isRun
    cases isRun

/-- A step of a run settles it if the run returns, and leaves the others as they are. -/
theorem step {number : Nat} {run : Run} {next : (Run × Outbox) × Option Backlog}
    {after : Passage} (settles : passage.Settles) (isRun : passage.runs[number]? = some run)
    (stepped : run.step passage.now passage.outbox passage.backlog = some next)
    (tracks : after.Tracks) (runs : after.runs = passage.runs.set number next.1.1)
    (waiters : after.outbox.waiters = next.1.2.waiters) : after.Settles := by
  have isStepped := Run.step_stepped stepped
  have isOpen (reply : Reply) : run.stage ≠ .returned reply := by
    intro returned
    rw [Run.step, returned] at stepped
    cases stepped
  refine ⟨tracks, ?_, ?_⟩
  · intro other found reply isFound returned id isPending
    rw [waiters] at isPending
    obtain ⟨waited, forgets⟩ := isStepped.pendingFor? isPending
    rw [runs] at isFound
    rcases (Tracks.getElem?_set_iff isRun).mp isFound with ⟨rfl, rfl⟩ | ⟨_, isFound⟩
    · exact forgets reply returned (settles.tracks.id_eq_of_pending isRun waited).symm
    · exact settles.settled isFound returned id waited
  · intro other found reply isFound returned
    rw [runs] at isFound
    rcases (Tracks.getElem?_set_iff isRun).mp isFound with ⟨rfl, rfl⟩ | ⟨_, isFound⟩
    · rw [isStepped.call]
      exact isStepped.id_eq (fun reply => settles.id_of_resolved isRun isOpen) returned
    · exact settles.own isFound returned

theorem happen (settles : passage.Settles) (event : Event) : (passage.happen event).Settles := by
  have tracks := tracks_happen settles.tracks event
  cases event with
  | serve | wait => exact ⟨tracks, settles.settled, settles.own⟩
  | begin call =>
      refine ⟨tracks, ?_, ?_⟩
      · intro number run reply isRun returned id
        obtain ⟨known, isRun⟩ := getElem?_begin isRun returned
        change (passage.outbox.waiters.register call.id).2.pendingFor? id ≠ some number
        rw [Waiters.pendingFor?_register]
        split
        · rw [settles.tracks.size, Ne, Option.some.injEq]
          exact Ne.symm (Nat.ne_of_lt known)
        · exact settles.settled isRun returned id
      · intro number run reply isRun returned
        exact settles.own (getElem?_begin isRun returned).2 returned
  | complete reply =>
      refine ⟨tracks, ?_, settles.own⟩
      intro number run answer isRun returned id
      change (passage.outbox.waiters.complete reply).2.pendingFor? id ≠ some number
      rw [Waiters.pendingFor?_complete]
      split
      · simp
      · exact settles.settled isRun returned id
  | step number =>
      cases isRun : passage.runs[number]? with
      | none =>
          simp only [Passage.happen, isRun, Option.bind_none]
          exact settles
      | some run =>
          cases stepped : run.step passage.now passage.outbox passage.backlog with
          | none =>
              simp only [Passage.happen, isRun, Option.bind_some, stepped]
              exact settles
          | some next =>
              simp only [Passage.happen, isRun, Option.bind_some, stepped] at tracks ⊢
              exact settles.step isRun stepped tracks rfl rfl

theorem run (settles : passage.Settles) (events : List Event) : (passage.run events).Settles := by
  induction events generalizing passage with
  | nil => exact settles
  | cons event rest ih => exact ih (settles.happen event)

theorem forgetsReturned (settles : passage.Settles) : passage.ForgetsReturned := by
  have underway : ∀ id number, passage.outbox.waiters.pendingFor? id = some number →
      ∃ run, passage.runs[number]? = some run ∧ run.call.id = id ∧
        ∀ reply, run.stage ≠ .returned reply := by
    intro id number isPending
    obtain ⟨run, isRun, isId, _⟩ := settles.tracks.pending.mp isPending
    exact ⟨run, isRun, isId, fun reply returned => settles.settled isRun returned id isPending⟩
  refine ⟨underway, ?_, ?_⟩
  · intro run member reply returned
    obtain ⟨number, isRun⟩ := List.mem_iff_getElem?.mp member
    exact settles.own isRun returned
  · intro returned
    rw [List.eq_nil_iff_forall_not_mem]
    rintro ⟨id, number⟩ member
    have known := Association.isSome_lookup_iff.mpr ⟨number, member⟩
    obtain ⟨number, isPending⟩ := Option.isSome_iff_exists.mp known
    obtain ⟨run, isRun, _, isOpen⟩ := underway id number isPending
    obtain ⟨reply, isReply⟩ := returned run (List.mem_of_getElem? isRun)
    exact isOpen reply isReply

end Settles

end Passage

/-- Whatever is asked of waiters, each takes one reply at most, and one to its own id; and however
runs pass through an outbox, only those under way have waiters there, and each returns a reply to
its own call. -/
theorem Waiters.resolvesOnce_run :
    (∀ history, ResolvesOnce history (Waiters.none.run history)) ∧
    ∀ now outbox backlog events,
      ((Passage.fresh now outbox backlog).run events).ForgetsReturned := by
  refine ⟨Reflects.resolvesOnce, ?_⟩
  intro now outbox backlog events
  exact ((Passage.Settles.fresh now outbox backlog).run events).forgetsReturned

end PeerCalls
