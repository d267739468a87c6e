import PeerCalls.Channel.Outbox

/-!
# Who gets a reply

A reply goes to the waiter that is pending for its call id, and to no other. While a
run waits, its waiter is pending for its own call id or for none; so whatever
happens to the waiters, the reply that the run finds is one to its own call.
-/

namespace PeerCalls

namespace Waiters

/-- Waiters before and after at most one reply was given. -/
structure Changes (given : Option Reply) (before after : Waiters) : Prop where
  size : before.all.size ≤ after.all.size
  pending : ∀ {id : UInt64} {number : Nat}, (id, number) ∈ after.pending →
    (id, number) ∈ before.pending ∨ before.all.size ≤ number ∧ number < after.all.size
  resolved : ∀ {number : Nat} {reply : Reply}, after.state number = .resolved reply →
    before.state number = .resolved reply ∨
      given = some reply ∧ (reply.id, number) ∈ before.pending

variable {waiters before middle after : Waiters} {given : Option Reply}

theorem Changes.refl (waiters : Waiters) : Changes Option.none waiters waiters :=
  ⟨Nat.le_refl _, Or.inl, Or.inl⟩

theorem Changes.trans (left : Changes Option.none before middle)
    (right : Changes Option.none middle after) : Changes Option.none before after where
  size := Nat.le_trans left.size right.size
  pending {id number} member := by
    rcases right.pending member with old | ⟨low, high⟩
    · rcases left.pending old with older | ⟨low, high⟩
      · exact Or.inl older
      · exact Or.inr ⟨low, Nat.lt_of_lt_of_le high right.size⟩
    · exact Or.inr ⟨Nat.le_trans left.size low, high⟩
  resolved {number reply} resolved := by
    rcases right.resolved resolved with old | ⟨given, _⟩
    · exact left.resolved old
    · cases given

theorem size_modify (waiters : Waiters) (number : Nat) (change : Waiter → Waiter) :
    (waiters.modify number change).all.size = waiters.all.size := by
  simp [modify]

/-- A waiter that is changed to one without a reply has none. -/
theorem state_modify {number other : Nat} {change : Waiter → Waiter} {reply : Reply}
    (resolved : (waiters.modify number change).state other = .resolved reply) :
    waiters.state other = .resolved reply ∨
      other = number ∧ change (waiters.state number) = .resolved reply := by
  simp only [state, modify, Array.getD_eq_getD_getElem?, Array.getElem?_modify] at resolved ⊢
  split at resolved
  next same =>
    subst same
    cases found : waiters.all[number]? with
    | none => simp [found] at resolved
    | some waiter =>
        right
        simpa [found] using resolved
  next => exact Or.inl resolved

theorem mem_of_lookup {id : UInt64} {number : Nat} {pending : List (UInt64 × Nat)}
    (found : pending.lookup id = some number) : (id, number) ∈ pending := by
  induction pending with
  | nil => cases found
  | cons head rest ih =>
      rw [List.lookup_cons] at found
      split at found
      next same =>
        cases found
        rw [eq_of_beq same]
        exact List.mem_cons_self
      next => exact List.mem_cons_of_mem head (ih found)

theorem changes_modify {number : Nat} {change : Waiter → Waiter}
    (unresolved : ∀ reply, change (waiters.state number) = .resolved reply →
      waiters.state number = .resolved reply) :
    Changes Option.none waiters (waiters.modify number change) where
  size := Nat.le_of_eq (size_modify waiters number change).symm
  pending := Or.inl
  resolved resolved := by
    rcases state_modify resolved with old | ⟨rfl, new⟩
    · exact Or.inl old
    · exact Or.inl (unresolved _ new)

theorem changes_drop (waiters : Waiters) (number : Nat) :
    Changes Option.none waiters (waiters.drop number) :=
  changes_modify fun _ resolved => by cases resolved

theorem changes_take (waiters : Waiters) (number : Nat) :
    Changes Option.none waiters (waiters.modify number fun _ => .closed) :=
  changes_modify fun _ resolved => by cases resolved

theorem changes_remove (waiters : Waiters) (id : UInt64) :
    Changes Option.none waiters (waiters.remove id) := by
  simp only [remove]
  split
  next number _ =>
    have closed : Changes Option.none waiters (waiters.modify number closeWaiting) := by
      apply changes_modify
      intro reply resolved
      cases state : waiters.state number <;> rw [state] at resolved <;> first
        | exact resolved
        | cases resolved
    exact ⟨closed.size, fun member => Or.inl (List.mem_filter.mp member).1, closed.resolved⟩
  next => exact .refl waiters

theorem size_remove (waiters : Waiters) (id : UInt64) :
    (waiters.remove id).all.size = waiters.all.size := by
  simp only [remove]
  split
  next number _ => exact size_modify waiters number closeWaiting
  next => rfl

theorem changes_register (waiters : Waiters) (id : UInt64) :
    Changes Option.none waiters (waiters.register id).2 := by
  have removed := waiters.changes_remove id
  have size := waiters.size_remove id
  simp only [register]
  generalize waiters.remove id = others at removed size
  refine ⟨?_, ?_, ?_⟩
  · rw [Array.size_push, size]
    exact Nat.le_succ _
  · intro other number member
    rcases List.mem_cons.mp member with new | old
    · cases new
      rw [Array.size_push, size]
      exact Or.inr ⟨Nat.le_refl _, Nat.lt_succ_self _⟩
    · have before := (removed.pending old).resolve_right fun ⟨low, high⟩ => by omega
      exact Or.inl before
  · intro number reply resolved
    apply removed.resolved
    simp only [state, Array.getD_eq_getD_getElem?, Array.getElem?_push] at resolved ⊢
    split at resolved
    · cases resolved
    · exact resolved

theorem changes_complete (waiters : Waiters) (reply : Reply) :
    Changes (some reply) waiters (waiters.complete reply).2 := by
  simp only [complete]
  split
  next number found =>
    refine ⟨Nat.le_of_eq (size_modify _ _ _).symm, ?_, ?_⟩
    · exact fun member => Or.inl (List.mem_filter.mp member).1
    · intro other given resolved
      rcases state_modify resolved with old | ⟨rfl, new⟩
      · exact Or.inl old
      · split at new
        · cases new
          exact Or.inr ⟨rfl, mem_of_lookup found⟩
        · exact Or.inl new
  next => exact ⟨Nat.le_refl _, Or.inl, Or.inl⟩

/-- Every pending waiter is registered. -/
def IsSound (waiters : Waiters) : Prop :=
  ∀ ⦃id : UInt64⦄ ⦃number : Nat⦄, (id, number) ∈ waiters.pending → number < waiters.all.size

theorem IsSound.changes (sound : before.IsSound) (changes : Changes given before after) :
    after.IsSound := by
  intro id number member
  rcases changes.pending member with old | ⟨_, inside⟩
  · exact Nat.lt_of_lt_of_le (sound old) changes.size
  · exact inside

end Waiters

/-- The waiter of a run waits for a reply to its call. -/
structure Run.WaitsIn (waiters : Waiters) (run : Run) : Prop where
  registered : run.waiter < waiters.all.size
  pending : ∀ {id : UInt64}, (id, run.waiter) ∈ waiters.pending → id = run.call.id
  resolved : ∀ {reply : Reply}, waiters.state run.waiter = .resolved reply →
    reply.id = run.call.id

namespace Run

variable {before after : Waiters} {given : Option Reply} {run : Run}

theorem WaitsIn.changes (waits : run.WaitsIn before) (changes : before.Changes given after) :
    run.WaitsIn after where
  registered := Nat.lt_of_lt_of_le waits.registered changes.size
  pending member := by
    rcases changes.pending member with old | ⟨new, _⟩
    · exact waits.pending old
    · exact absurd waits.registered (Nat.not_lt_of_le new)
  resolved resolved := by
    rcases changes.resolved resolved with old | ⟨_, old⟩
    · exact waits.resolved old
    · exact waits.pending old

/-- A run that begins waits for a reply to its call. -/
theorem waitsIn_start {outbox : Outbox} (sound : outbox.waiters.IsSound) (call : Call) :
    (Run.start outbox call).1.WaitsIn (Run.start outbox call).2.waiters := by
  have changes := outbox.waiters.changes_register call.id
  have size := outbox.waiters.size_remove call.id
  simp only [start, Waiters.register] at changes ⊢
  refine ⟨by simp, ?_, ?_⟩
  · intro id member
    rcases List.mem_cons.mp member with new | old
    · cases new
      rfl
    · have removed := (outbox.waiters.changes_remove call.id).pending old
      rcases removed with before | ⟨low, high⟩
      · have inside := sound before
        dsimp only at inside
        omega
      · dsimp only at high
        omega
  · intro reply resolved
    simp [Waiters.state] at resolved

end Run

end PeerCalls
