import PeerCalls.Proofs.Pair.Executions

/-!
# Errands that wait for replies

An errand waits from the moment the queue has taken its call until it returns. What it
returns is a reply that its call got, or a failure that says nothing of an execution.
Errands have numbers of their own, so what the log says of one of them is about this
errand, now and later.
-/

namespace PeerCalls

/-- The reply says nothing of an execution. -/
def Reply.TellsNothing (reply : Reply) : Prop :=
  ∃ kind message, reply.verdict = .failure kind message ∧ kind ≠ .remoteException

namespace Pair

variable (pair : Pair)

/-! ## Errands and their replies -/

/-- What is known of errands, and what the log says of them. -/
structure Attends (network : Network) : Prop where
  numbers : (network.errands.map Errand.number).Nodup
  numbered : ∀ errand ∈ network.errands, errand.number < network.nextNumber
  waits : ∀ errand ∈ network.errands, ∀ place run, errand.stage = .running place run →
    ∃ entry, network.outboxes[place]? = some entry ∧ run.WaitsIn entry.outbox.waiters
  waiting : ∀ errand ∈ network.errands, ∀ place run expiry,
    errand.stage = .running place run → run.stage = .waiting expiry →
      .accepted errand.number place run.call ∈ network.events
  /-- An errand whose call was accepted waits, as long as it is there. -/
  accepted : ∀ number place call, .accepted number place call ∈ network.events →
    number < network.nextNumber ∧ ∀ errand ∈ network.errands, errand.number = number →
      ∃ run expiry, errand.stage = .running place run ∧ run.call = call ∧
        run.stage = .waiting expiry
  /-- An errand that has returned is gone. -/
  returned : ∀ number reply, .returned number reply ∈ network.events →
    number < network.nextNumber ∧ ∀ errand ∈ network.errands, errand.number ≠ number
  /-- What an errand returns is a reply that its call got, or says nothing. -/
  replies : ∀ number reply, .returned number reply ∈ network.events → ∀ side call,
    .accepted number (pair.outbox side) call ∈ network.events → reply.id = call.id ∧
      (reply.TellsNothing ∨ ∃ issued, (pair.history network).Issued side issued ∧
        (pair.history network).Ends side issued reply)
  tells : ∀ number reply, .returned number reply ∈ network.events → reply.TellsNothing ∨
    ∃ side call, .accepted number (pair.outbox side) call ∈ network.events

variable {pair} {before after network : Network}

/-- What an errand returned says the same of a history that has gone on. -/
theorem GoesOn.said (goesOn : pair.GoesOn before after) {side : Side} {reply : Reply}
    (said : reply.TellsNothing ∨ ∃ issued, (pair.history before).Issued side issued ∧
      (pair.history before).Ends side issued reply) :
    reply.TellsNothing ∨ ∃ issued, (pair.history after).Issued side issued ∧
      (pair.history after).Ends side issued reply := by
  refine said.imp_right ?_
  rintro ⟨issued, isIssued, ends⟩
  exact ⟨issued, goesOn.continues.issued isIssued, goesOn.continues.ends ends⟩

/-- Errands that are left alone. -/
theorem Attends.leaves (attends : pair.Attends before) (goesOn : pair.GoesOn before after)
    (leaves : LeavesErrands before after) : pair.Attends after := by
  obtain ⟨others, events, silent⟩ := leaves.events
  have old : ∀ event ∈ after.events, event.IsOfErrand → event ∈ before.events := by
    intro event member isOfErrand
    rw [events] at member
    exact (List.mem_append.mp member).resolve_right fun new => silent event new isOfErrand
  have stays : ∀ event ∈ before.events, event ∈ after.events := by
    intro event member
    rw [events]
    exact List.mem_append_left _ member
  exact {
    numbers := leaves.errands ▸ attends.numbers
    numbered := by
      rw [leaves.errands]
      exact fun errand member =>
        Nat.lt_of_lt_of_le (attends.numbered errand member) leaves.nextNumber
    waits := by
      rw [leaves.errands]
      intro errand member place run stage
      obtain ⟨entry, found, waits⟩ := attends.waits errand member place run stage
      exact leaves.waits found waits
    waiting := by
      rw [leaves.errands]
      exact fun errand member place run expiry stage waits =>
        stays _ (attends.waiting errand member place run expiry stage waits)
    accepted := by
      rw [leaves.errands]
      intro number place call member
      obtain ⟨below, all⟩ := attends.accepted number place call (old _ member trivial)
      exact ⟨Nat.lt_of_lt_of_le below leaves.nextNumber, all⟩
    returned := by
      rw [leaves.errands]
      intro number reply member
      obtain ⟨below, all⟩ := attends.returned number reply (old _ member trivial)
      exact ⟨Nat.lt_of_lt_of_le below leaves.nextNumber, all⟩
    replies := by
      intro number reply returned side call accepted
      obtain ⟨sameId, said⟩ := attends.replies number reply (old _ returned trivial) side call
        (old _ accepted trivial)
      exact ⟨sameId, goesOn.said said⟩
    tells := by
      intro number reply returned
      refine (attends.tells number reply (old _ returned trivial)).imp_right ?_
      rintro ⟨side, call, accepted⟩
      exact ⟨side, call, stays _ accepted⟩ }

theorem Attends.issue (attends : pair.Attends network) (outbox : Nat) (call : Call) :
    pair.Attends (network.issue outbox call).2 := by
  have all : ∀ errand ∈ (network.issue outbox call).2.errands, errand ∈ network.errands ∨
      errand = ⟨network.nextNumber, call, none, .entering outbox⟩ := by
    intro errand member
    exact (List.mem_append.mp member).imp_right List.mem_singleton.mp
  exact {
    numbers := by
      simp only [Network.issue, Network.number, List.map_append, List.map_cons, List.map_nil]
      rw [List.nodup_append]
      refine ⟨attends.numbers, by simp, ?_⟩
      intro number member other new same
      obtain ⟨errand, errandMember, rfl⟩ := List.mem_map.mp member
      have below := attends.numbered errand errandMember
      rw [List.mem_singleton.mp new] at same
      omega
    numbered := by
      intro errand member
      rcases all errand member with old | rfl
      · exact Nat.lt_succ_of_lt (attends.numbered errand old)
      · exact Nat.lt_succ_self _
    waits := by
      intro errand member place run stage
      rcases all errand member with old | rfl
      · exact attends.waits errand old place run stage
      · cases stage
    waiting := by
      intro errand member place run expiry stage waits
      rcases all errand member with old | rfl
      · exact attends.waiting errand old place run expiry stage waits
      · cases stage
    accepted := by
      intro number place accepted member
      obtain ⟨below, others⟩ := attends.accepted number place accepted member
      refine ⟨Nat.lt_succ_of_lt below, ?_⟩
      intro errand errandMember same
      rcases all errand errandMember with old | rfl
      · exact others errand old same
      · exact absurd below (same ▸ Nat.lt_irrefl _)
    returned := by
      intro number reply member
      obtain ⟨below, others⟩ := attends.returned number reply member
      refine ⟨Nat.lt_succ_of_lt below, ?_⟩
      intro errand errandMember same
      rcases all errand errandMember with old | rfl
      · exact others errand old same
      · exact absurd below (same ▸ Nat.lt_irrefl _)
    replies := attends.replies
    tells := attends.tells }

theorem numbers_setErrand (network : Network) (replacement : Errand) :
    (network.setErrand replacement).errands.map Errand.number =
      network.errands.map Errand.number := by
  simp only [Network.setErrand, List.map_map]
  apply List.map_congr_left
  intro other _
  simp only [Function.comp]
  split
  next same => exact same.symm
  next => rfl

/-- What the log says when an errand goes on. -/
inductive GoesOnWith (errand : Nat) (place : Nat) (run : Run) : List Event → Prop where
  | registered : run.stage = .enqueuing → GoesOnWith errand place run []
  | accepted {expiry : Time} : run.stage = .waiting expiry →
      GoesOnWith errand place run [.accepted errand place run.call]

/-- An errand goes on whose call was not accepted before. -/
theorem Attends.replace {errand : Errand} {place : Nat} {run : Run} {others : List Event}
    (attends : pair.Attends before) (goesOn : pair.GoesOn before after)
    (member : errand ∈ before.errands)
    (unaccepted : ∀ place call, .accepted errand.number place call ∉ before.events)
    (errands : after.errands =
      (before.setErrand { errand with stage := .running place run }).errands)
    (nextNumber : after.nextNumber = before.nextNumber)
    (events : after.events = before.events ++ others)
    (goesOnWith : GoesOnWith errand.number place run others)
    (waits : KeepsWaiting before after)
    (waitsNew : ∃ entry, after.outboxes[place]? = some entry ∧
      run.WaitsIn entry.outbox.waiters) : pair.Attends after := by
  have all : ∀ other ∈ after.errands,
      other = { errand with stage := .running place run } ∨
        other ∈ before.errands ∧ other.number ≠ errand.number := by
    intro other otherMember
    rw [errands] at otherMember
    exact mem_setErrand otherMember
  have stays : ∀ event ∈ before.events, event ∈ after.events := by
    intro event eventMember
    rw [events]
    exact List.mem_append_left _ eventMember
  have returnedBefore : ∀ {number reply}, .returned number reply ∈ after.events →
      .returned number reply ∈ before.events := by
    intro number reply returned
    rw [events] at returned
    refine (List.mem_append.mp returned).resolve_right fun new => ?_
    cases goesOnWith with
    | registered _ => cases new
    | accepted _ => simp at new
  have acceptedBefore : ∀ {number other call}, .accepted number other call ∈ after.events →
      .accepted number other call ∈ before.events ∨ number = errand.number ∧
        other = place ∧ call = run.call ∧ ∃ expiry, run.stage = .waiting expiry := by
    intro number other call accepted
    rw [events] at accepted
    refine (List.mem_append.mp accepted).imp_right fun new => ?_
    cases goesOnWith with
    | registered _ => cases new
    | accepted waiting =>
        cases List.mem_singleton.mp new
        exact ⟨rfl, rfl, rfl, _, waiting⟩
  exact {
    numbers := by
      rw [errands, numbers_setErrand]
      exact attends.numbers
    numbered := by
      intro other otherMember
      rw [nextNumber]
      rcases all other otherMember with rfl | ⟨old, _⟩
      · exact attends.numbered errand member
      · exact attends.numbered other old
    waits := by
      intro other otherMember otherPlace otherRun stage
      rcases all other otherMember with rfl | ⟨old, _⟩
      · cases stage
        exact waitsNew
      · obtain ⟨entry, found, waitsIn⟩ := attends.waits other old otherPlace otherRun stage
        exact waits found waitsIn
    waiting := by
      intro other otherMember otherPlace otherRun expiry stage waiting
      rcases all other otherMember with rfl | ⟨old, _⟩
      · cases stage
        rw [events]
        cases goesOnWith with
        | registered enqueuing => cases enqueuing.symm.trans waiting
        | accepted _ => exact List.mem_append_right _ (List.mem_singleton_self _)
      · exact stays _ (attends.waiting other old otherPlace otherRun expiry stage waiting)
    accepted := by
      intro number other call accepted
      rw [nextNumber]
      rcases acceptedBefore accepted with old | ⟨rfl, rfl, rfl, expiry, waiting⟩
      · obtain ⟨below, others⟩ := attends.accepted number other call old
        refine ⟨below, ?_⟩
        intro later laterMember same
        rcases all later laterMember with rfl | ⟨laterOld, _⟩
        · subst same
          exact absurd old (unaccepted other call)
        · exact others later laterOld same
      · refine ⟨attends.numbered errand member, ?_⟩
        intro later laterMember same
        rcases all later laterMember with rfl | ⟨_, different⟩
        · exact ⟨run, expiry, rfl, rfl, waiting⟩
        · exact absurd same different
    returned := by
      intro number reply returned
      rw [nextNumber]
      obtain ⟨below, others⟩ := attends.returned number reply (returnedBefore returned)
      refine ⟨below, ?_⟩
      intro later laterMember
      rcases all later laterMember with rfl | ⟨laterOld, _⟩
      · exact others errand member
      · exact others later laterOld
    replies := by
      intro number reply returned side call accepted
      have old := returnedBefore returned
      rcases acceptedBefore accepted with acceptedOld | ⟨same, _⟩
      · obtain ⟨sameId, said⟩ := attends.replies number reply old side call acceptedOld
        exact ⟨sameId, goesOn.said said⟩
      · exact absurd same.symm ((attends.returned number reply old).2 errand member)
    tells := by
      intro number reply returned
      refine (attends.tells number reply (returnedBefore returned)).imp_right ?_
      rintro ⟨side, call, accepted⟩
      exact ⟨side, call, stays _ accepted⟩ }

/-- The call of an errand was not accepted before it waits. -/
theorem Attends.unaccepted (attends : pair.Attends network) {errand : Errand}
    (member : errand ∈ network.errands)
    (early : ∀ place run expiry, errand.stage = .running place run →
      run.stage ≠ .waiting expiry) (place : Nat) (call : Call) :
    .accepted errand.number place call ∉ network.events := by
  intro accepted
  obtain ⟨run, expiry, stage, _, waiting⟩ :=
    (attends.accepted errand.number place call accepted).2 errand member rfl
  exact early place run expiry stage waiting

/-- An errand ends. -/
theorem Attends.finish {errand : Errand} {side : Side} {run : Run} {reply : Reply}
    (attends : pair.Attends before) (goesOn : pair.GoesOn before after)
    (member : errand ∈ before.errands) (stage : errand.stage = .running (pair.outbox side) run)
    (errands : after.errands = before.errands.filter (·.number != errand.number))
    (nextNumber : after.nextNumber = before.nextNumber)
    (events : after.events = before.events ++ [.returned errand.number reply])
    (waits : KeepsWaiting before after)
    (sameId : reply.id = run.call.id)
    (told : reply.TellsNothing ∨ (∃ expiry, run.stage = .waiting expiry) ∧
      ∃ issued, (pair.history before).Issued side issued ∧
        (pair.history before).Ends side issued reply) : pair.Attends after := by
  have all : ∀ other ∈ after.errands, other ∈ before.errands ∧ other.number ≠ errand.number := by
    intro other otherMember
    rw [errands, List.mem_filter, bne_iff_ne] at otherMember
    exact otherMember
  have stays : ∀ event ∈ before.events, event ∈ after.events := by
    intro event eventMember
    rw [events]
    exact List.mem_append_left _ eventMember
  have acceptedBefore : ∀ {number place call}, .accepted number place call ∈ after.events →
      .accepted number place call ∈ before.events := by
    intro number place call accepted
    rw [events] at accepted
    exact (List.mem_append.mp accepted).resolve_right (by simp)
  have returnedBefore : ∀ {number other}, .returned number other ∈ after.events →
      .returned number other ∈ before.events ∨ number = errand.number ∧ other = reply := by
    intro number other returned
    rw [events] at returned
    refine (List.mem_append.mp returned).imp_right fun new => ?_
    cases List.mem_singleton.mp new
    exact ⟨rfl, rfl⟩
  exact {
    numbers := by
      rw [errands]
      exact (List.filter_sublist.map _).nodup attends.numbers
    numbered := by
      intro other otherMember
      rw [nextNumber]
      exact attends.numbered other (all other otherMember).1
    waits := by
      intro other otherMember place otherRun otherStage
      obtain ⟨entry, found, waitsIn⟩ :=
        attends.waits other (all other otherMember).1 place otherRun otherStage
      exact waits found waitsIn
    waiting := by
      intro other otherMember place otherRun expiry otherStage waiting
      exact stays _ (attends.waiting other (all other otherMember).1 place otherRun expiry
        otherStage waiting)
    accepted := by
      intro number place call accepted
      rw [nextNumber]
      obtain ⟨below, others⟩ := attends.accepted number place call (acceptedBefore accepted)
      exact ⟨below, fun other otherMember => others other (all other otherMember).1⟩
    returned := by
      intro number other returned
      rw [nextNumber]
      rcases returnedBefore returned with old | ⟨rfl, rfl⟩
      · obtain ⟨below, others⟩ := attends.returned number other old
        exact ⟨below, fun other otherMember => others other (all other otherMember).1⟩
      · exact ⟨attends.numbered errand member, fun other otherMember => (all other otherMember).2⟩
    replies := by
      intro number other returned otherSide call accepted
      have acceptedOld := acceptedBefore accepted
      rcases returnedBefore returned with old | ⟨rfl, rfl⟩
      · obtain ⟨sameId, said⟩ := attends.replies number other old otherSide call acceptedOld
        exact ⟨sameId, goesOn.said said⟩
      · -- The accepted call is the one of the run that ends.
        obtain ⟨waitingRun, _, waitingStage, rfl, _⟩ :=
          (attends.accepted _ _ _ acceptedOld).2 errand member rfl
        rw [stage] at waitingStage
        obtain ⟨samePlace, rfl⟩ := ErrandStage.running.inj waitingStage
        cases pair.outbox_injective samePlace
        exact ⟨sameId, goesOn.said (told.imp_right And.right)⟩
    tells := by
      intro number other returned
      rcases returnedBefore returned with old | ⟨rfl, rfl⟩
      · refine (attends.tells number other old).imp_right ?_
        rintro ⟨side, call, accepted⟩
        exact ⟨side, call, stays _ accepted⟩
      · refine told.imp_right ?_
        rintro ⟨⟨expiry, waiting⟩, _⟩
        exact ⟨side, run.call, stays _ (attends.waiting errand member _ run expiry stage waiting)⟩ }

/-- Every step keeps to what the log says of errands. -/
theorem Attends.step (attends : pair.Attends before) (justified : pair.Justified before)
    (closed : pair.IsClosed before) (step : pair.Step before after) : pair.Attends after := by
  have goesOn := step.goesOn justified
  cases step with
  | clock | channels _ | links _ =>
      exact attends.leaves goesOn (.of_same rfl rfl rfl rfl (Nat.le_refl _) rfl rfl)
  | outboxes grows => exact attends.leaves goesOn (.setOutboxes grows)
  | turn found turn => exact attends.leaves goesOn (.turn found turn)
  | begin _ _ => exact attends.leaves goesOn (.begin _)
  | conclude _ _ => exact attends.leaves goesOn (.conclude _ _)
  | issue _ => exact attends.issue _ _
  | @enter errand place entry member stage found =>
      obtain ⟨side, rfl⟩ := closed.entering member stage
      obtain ⟨same, foundSame, holds⟩ := justified.outboxes side
      cases found.symm.trans foundSame
      have unaccepted := attends.unaccepted member fun _ _ _ running => by
        cases stage.symm.trans running
      refine attends.replace goesOn member unaccepted rfl rfl (List.append_nil _).symm
        (.registered rfl) ?_ ?_
      · exact keepsWaiting_setOutboxes (OutboxPlace.grows_modifyOutbox found
          ⟨rfl, entry.outbox.waiters.changes_register errand.call.id⟩)
      · refine ⟨{ entry with outbox := (Run.start entry.outbox errand.call).2 }, ?_,
          Run.waitsIn_start holds.waiters errand.call⟩
        simp only [Network.setErrand, Network.modifyOutbox, Array.getElem?_modify, found]
        rfl
  | @accept errand place run expiry _ member stage enqueuing accepts errands =>
      obtain ⟨entry, queue, found, _, outboxes⟩ := accepts.outboxes
      obtain ⟨same, foundSame, waitsIn⟩ := attends.waits errand member place run stage
      cases found.symm.trans foundSame
      have unaccepted := attends.unaccepted member fun _ other _ running waiting => by
        cases stage.symm.trans running
        cases enqueuing.symm.trans waiting
      refine attends.replace goesOn member unaccepted errands accepts.nextNumber accepts.events
        (.accepted rfl) ?_ ?_
      · intro other otherEntry otherRun foundOther otherWaits
        rw [outboxes]
        split
        next same =>
          subst same
          cases found.symm.trans foundOther
          exact ⟨_, rfl, otherWaits⟩
        next => exact ⟨otherEntry, foundOther, otherWaits⟩
      · exact ⟨_, (outboxes place).trans (if_pos rfl), waitsIn.1, waitsIn.2, waitsIn.3⟩
  | @«return» errand place entry run outbox reply backlogs member stage found keeps told =>
      obtain ⟨side, rfl, _⟩ := closed.running member stage
      obtain ⟨same, foundSame, holds⟩ := justified.outboxes side
      cases found.symm.trans foundSame
      obtain ⟨same, foundSame, waitsIn⟩ := attends.waits errand member _ run stage
      cases found.symm.trans foundSame
      refine attends.finish goesOn member stage rfl rfl (Network.events_note _ _) ?_ ?_ ?_
      · exact keepsWaiting_setOutboxes (OutboxPlace.grows_modifyOutbox found keeps)
      · rcases told with ⟨kind, message, rfl, _⟩ | ⟨_, resolved⟩
        · rfl
        · exact waitsIn.resolved resolved
      · refine told.imp ?_ ?_
        · rintro ⟨kind, message, rfl, kinds⟩
          refine ⟨kind, message, rfl, ?_⟩
          rcases kinds with rfl | rfl | rfl <;> decide
        · rintro ⟨waits, resolved⟩
          exact ⟨waits, holds.replies run.waiter reply resolved⟩

end Pair

end PeerCalls
