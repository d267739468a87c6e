import PeerCalls.Proofs.Backlog.Agreement
import PeerCalls.Proofs.Backlog.Altering

/-!
# What a backlog in files survives

The program of a command may stop at any point, also in the middle of writing a file, and on
a disk with whatever an earlier one left. The calls that are read then are those that were
stored before, without some of those that the command takes away, and with the call that it
brings if this was finished.
-/

namespace PeerCalls.FileBacklog

open Backlog (Fault Command Answer)
open DiskProgram (Relates)

/-- What is done at a command. -/
def program (backlog : FileBacklog) : Command → Program Answer
  | .enqueue call => do
    backlog.enqueue call
    return .stored
  | .peek target => return .first (← backlog.peek target)
  | .dequeue target => return .first (← backlog.dequeue target)
  | .remove target id => return .removed (← backlog.remove target id)
  | .removeByName target name => return .count (← backlog.removeByName target name)
  | .readAll target => return .all (← backlog.readAll target)

/-- The files that a command takes away, if it is not stopped. -/
def Takes (backlog : FileBacklog) (disk : FileSystem) (candidate : Candidate) : Command → Prop
  | .enqueue call => Replaces call candidate
  | .dequeue target => ∃ entry ∈ (backlog.stored disk target).head?, entry.1 = candidate
  | .remove _ id => candidate.id = id
  | .removeByName _ name => candidate.method = escape name
  | .peek _ | .readAll _ => False

/-- What a command brings: a call in a file of its own, as it is read again. -/
def Brings (entry : Candidate × Call) : Command → Prop
  | .enqueue call => entry = (Candidate.of call, StoredCall.kept call)
  | .dequeue _ | .remove _ _ | .removeByName _ _ | .peek _ | .readAll _ => False

/-- What a stopped command leaves. `left` is what is read afterwards, by a backlog that knows
nothing but the directory. -/
structure Survives (backlog : FileBacklog) (command : Command) (disk left : FileSystem) :
    Prop where
  others : ∀ target, target ≠ command.target → backlog.ReadsAlike target disk left
  /-- Calls that could be read before can be read, and they are those that are stored. -/
  reads : ∀ calls, backlog.HasRoom command.target →
    ((backlog.readAll command.target).run.run disk).1 = .ok calls →
    calls = (backlog.stored disk command.target).map Prod.snd ∧
      ((backlog.readAll command.target).run.run left).1 =
        .ok ((backlog.stored left command.target).map Prod.snd)
  /-- No call is read that is not whole. -/
  whole : ∀ entry ∈ backlog.stored left command.target,
    entry ∈ backlog.stored disk command.target ∨ Brings entry command
  remains : ∀ entry ∈ backlog.stored disk command.target, ¬ backlog.Takes disk entry.1 command →
    entry ∈ backlog.stored left command.target
  /-- A call that replaces no others of its method comes all at once. -/
  atOnce : ∀ call, command = .enqueue call → call.isLatest = false →
    backlog.ReadsAlike call.target disk left ∨ left = ((backlog.program command).run.run disk).2

section

variable {backlog : FileBacklog} {command : Command} {disk left : FileSystem}

theorem run_bind_return {α β : Type} (program : Program α) (answer : α → β) :
    (program >>= fun value => pure (answer value)).run.run disk =
      ((program.run.run disk).1.map answer, (program.run.run disk).2) := by
  cases result : (program.run.run disk).1 with
  | error fault => exact DiskProgram.run_bind_except_error result
  | ok value => exact DiskProgram.run_bind_except result

/-- A command to a backlog runs its program on the disk. -/
theorem perform_files :
    (Backlog.ofStore (.files backlog disk)).perform command =
      (((backlog.program command).run.run disk).1,
        Backlog.ofStore (.files backlog ((backlog.program command).run.run disk).2)) := by
  have answering : ∀ {α : Type} (answer : α → Answer) (program : Program α),
      Backlog.answering answer ((Backlog.ofStore (.files backlog disk)).runOn backlog disk program) =
        (((program >>= fun value => pure (answer value)).run.run disk).1,
          Backlog.ofStore (.files backlog
            ((program >>= fun value => pure (answer value)).run.run disk).2)) := by
    intro α answer program
    rw [run_bind_return]
    rfl
  cases command with
  | enqueue call | remove target id | readAll target =>
      exact (congrArg _ (Backlog.guarded_ofStore _ _ _)).trans (answering _ _)
  | peek target | dequeue target | removeByName target name => exact answering _ _

/-- Wherever a command stops, it has altered the calls of its target only, and only in the way
in which it does when it is not stopped. -/
theorem alters_of_leaves (tree : disk.IsTree)
    (admissible : ∀ call, command = .enqueue call → call.invocation.Admissible)
    (stops : (backlog.program command).run.Leaves disk left) :
    backlog.Alters command.target (backlog.Takes disk · command) (Brings · command) disk left := by
  have returns : ∀ {α : Type} {relation : FileSystem → FileSystem → Prop} [Std.Refl relation]
      [IsTrans FileSystem relation] {program : Program α} {answer : α → Answer},
      program.run.Relates relation →
        (program >>= fun value => pure (answer value)).run.Leaves disk left →
          relation disk left :=
    fun relates stops =>
      relates.bind_except (fun _ _ _ _ => DiskProgram.relates_return _) tree stops
  cases command with
  | enqueue call => exact returns (relates_enqueue (admissible call rfl)) stops
  | peek target => exact returns relates_peek stops
  | remove target id => exact returns (relates_remove id) stops
  | removeByName target name => exact returns (relates_removeByName name) stops
  | readAll target => exact returns relates_readAll stops
  | dequeue target =>
      -- What is taken depends on the disk that the command finds.
      rcases DiskProgram.leaves_bind_except stops with stops | ⟨first, ran, stops⟩
      · exact alters_of_leaves_dequeue tree stops
      · rw [DiskProgram.eq_of_leaves_pure stops]
        exact alters_of_leaves_dequeue tree (DiskProgram.leaves_run _ _)

/-- On every disk, and wherever a command stops, the backlog survives. -/
theorem survives_of_leaves (tree : disk.IsTree)
    (admissible : ∀ call, command = .enqueue call → call.invocation.Admissible)
    (stops : (backlog.program command).run.Leaves disk left) :
    backlog.Survives command disk left := by
  have alters := alters_of_leaves tree admissible stops
  refine ⟨alters.others, ?_, alters.mem, alters.stays, ?_⟩
  · intro calls room read
    rw [run_readAll_stored] at read ⊢
    rw [alters.listed room]
    cases unlisted : backlog.unlisted? disk command.target with
    | none =>
        rw [unlisted] at read
        cases read
        exact ⟨rfl, rfl⟩
    | some fault =>
        rw [unlisted] at read
        cases read
  · rintro call rfl isNotLatest
    have enqueues : backlog.enqueue call = backlog.store call := by
      rw [enqueue, if_neg (by simp [isNotLatest])]
    rw [program, enqueues] at stops ⊢
    rw [run_bind_return]
    rcases DiskProgram.leaves_bind_except stops with stops | ⟨_, ran, stops⟩
    · exact (commits_store.stops tree stops).imp_left fun unseen => unseen call.target
    · exact .inr (DiskProgram.eq_of_leaves_pure stops)

/-- A call is stored where another one of its method is, and the program stops before the new
file has its name. -/
theorem survives_of_leaves_unfinished :
    FileBacklog.Survives ⟨[], ""⟩ (.enqueue (Backlog.lookup 9 .retry))
      ((FileBacklog.enqueue ⟨[], ""⟩ (Backlog.lookup 10 .retry)).run.run .empty).2
      ((FileBacklog.program ⟨[], ""⟩ (.enqueue (Backlog.lookup 9 .retry))).run.runFor 4
        ((FileBacklog.enqueue ⟨[], ""⟩ (Backlog.lookup 10 .retry)).run.run .empty).2) := by
  refine survives_of_leaves (DiskProgram.isTree_run FileSystem.isTree_empty _) ?_
    (DiskProgram.leaves_runFor 4 _ _)
  rintro _ ⟨⟩
  constructor <;> simp only [Backlog.lookup] <;> decide

end

end PeerCalls.FileBacklog
