import PeerCalls.Proofs.Backlog.Files

/-!
# Backlogs that answer alike

A backlog in files and one in memory that are both without calls at first give the same
answers to the same commands, as long as the file system has room for the names and the
calls can be read from their files as they are. It makes no difference how often the backlog
in files is opened anew. Each command keeps what ties them together: the files on the disk
are the files of the calls in memory.
-/

namespace PeerCalls.Backlog

open FileBacklog (Storable Lists directoryName fileName fileName_injective)
open FileSystem (maxNameLength)
open MemoryBacklog (Before)

/-! ## Commands -/

/-- What a backlog is told to do. -/
inductive Command where
  | enqueue (call : Call)
  | peek (target : Peer)
  | dequeue (target : Peer)
  | remove (target : Peer) (id : UInt64)
  | removeByName (target : Peer) (name : String)
  | readAll (target : Peer)
  deriving Repr, DecidableEq

/-- What a command gives back. -/
inductive Answer where
  | stored
  | first (call : Option Call)
  | removed (wasThere : Bool)
  | count (removed : Nat)
  | all (calls : List Call)
  deriving Repr, DecidableEq

def Command.target : Command → Peer
  | enqueue call => call.target
  | peek target => target
  | dequeue target => target
  | remove target _ => target
  | removeByName target _ => target
  | readAll target => target

/-- What an operation gives back, as an answer. -/
def answering {α : Type} (answer : α → Answer) (result : Except Fault α × Backlog) :
    Except Fault Answer × Backlog :=
  (result.1.map answer, result.2)

def perform (backlog : Backlog) : Command → Except Fault Answer × Backlog
  | .enqueue call => answering (fun _ => .stored) (backlog.enqueue call)
  | .peek target => answering .first (backlog.peek target)
  | .dequeue target => answering .first (backlog.dequeue target)
  | .remove target id => answering .removed (backlog.remove target id)
  | .removeByName target name => answering .count (backlog.removeByName target name)
  | .readAll target => answering .all (backlog.readAll target)

/-- The answers to one command after the other. -/
def answers (backlog : Backlog) : List Command → List (Except Fault Answer)
  | [] => []
  | command :: rest => (backlog.perform command).1 :: (backlog.perform command).2.answers rest

/-- The answers if the backlog is opened anew before some of the commands. -/
def answersReopened (backlog : Backlog) : List (Bool × Command) → List (Except Fault Answer)
  | [] => []
  | (isReopened, command) :: rest =>
    let opened := if isReopened then backlog.reopen else backlog
    (opened.perform command).1 :: (opened.perform command).2.answersReopened rest

/-- Commands for a backlog in files: there is room for all names, each call can be read from
its file, and no two calls to a target have one id and different methods. -/
structure Feasible (commands : List Command) : Prop where
  directory : ∀ command ∈ commands, (directoryName command.target).length ≤ maxNameLength
  storable : ∀ call, .enqueue call ∈ commands → Storable call
  sameName : ∀ first second, .enqueue first ∈ commands → .enqueue second ∈ commands →
    first.target = second.target → first.id = second.id → first.name = second.name

/-! ## What each command does -/

section

variable {files : FileBacklog} {disk after : FileSystem}

theorem guarded_ofStore {α : Type} (store : CallStore) (operation : Operation)
    (result : Except Fault α × Backlog) : (ofStore store).guarded operation result = result := by
  simp [guarded, ofStore]

theorem runOn_eq {α : Type} {program : FileBacklog.Program α} {result : Except Fault α}
    (ran : program.run.run disk = (result, after)) :
    (ofStore (.files files disk)).runOn files disk program =
      (result, ofStore (.files files after)) := by
  rw [runOn, ran]
  rfl

end

/-- The files on a disk are those of the calls in memory, which all were stored by commands. -/
structure Agrees (commands : List Command) (memory : MemoryBacklog) (files : FileBacklog)
    (disk : FileSystem) : Prop where
  holds : files.Holds (· ∈ memory.calls) disk
  ordered : memory.calls.Pairwise Before
  known : ∀ call ∈ memory.calls, .enqueue call ∈ commands

/-- Both backlogs give the same answer, and agree again. -/
def Matches (commands : List Command) (files : FileBacklog)
    (inMemory inFiles : Except Fault Answer × Backlog) : Prop :=
  inFiles.1 = inMemory.1 ∧ ∃ memory disk, inMemory.2 = ofStore (.memory memory) ∧
    inFiles.2 = ofStore (.files files disk) ∧ Agrees commands memory files disk

namespace Agrees

variable {commands : List Command} {memory : MemoryBacklog} {files : FileBacklog}
  {disk : FileSystem} {target : Peer} {call : Call}

theorem lists (agrees : Agrees commands memory files disk) (target : Peer) :
    Lists (· ∈ memory.calls) target (memory.readAll target) where
  mem _ := MemoryBacklog.mem_readAll
  ordered := MemoryBacklog.pairwise_readAll agrees.ordered target

/-- Calls go away in memory, and their files on the disk. -/
theorem removeWhere {after : FileSystem} (agrees : Agrees commands memory files disk)
    (selects : Call → Bool)
    (holds : files.Holds
      (fun call => call ∈ memory.calls ∧ ¬ (call.target = target ∧ selects call = true)) after) :
    Agrees commands (memory.removeWhere target selects).2 files after where
  holds := holds.congr fun _ => MemoryBacklog.mem_calls_removeWhere
  ordered := MemoryBacklog.pairwise_removeWhere agrees.ordered target selects
  known call member := agrees.known call (MemoryBacklog.mem_calls_removeWhere.mp member).1

/-- The calls that a new one replaces have its id, so they have its file. -/
theorem mem_enqueue (feasible : Feasible commands) (agrees : Agrees commands memory files disk)
    (isCommand : .enqueue call ∈ commands) (other : Call) :
    other ∈ (memory.enqueue call).calls ↔ other = call ∨ other ∈ memory.calls ∧
      (other.target = call.target →
        fileName other.id other.name ≠ fileName call.id call.name ∧ ¬ call.Supersedes other) := by
  rw [MemoryBacklog.mem_calls_enqueue]
  apply or_congr_right
  apply and_congr_right
  intro member
  apply imp_congr_right
  intro sameTarget
  apply and_congr_left
  intro _
  apply not_congr
  constructor
  · intro sameId
    rw [sameId, feasible.sameName other call (agrees.known other member) isCommand sameTarget sameId]
  · intro sameFile
    exact (fileName_injective sameFile).1

theorem enqueue (feasible : Feasible commands) (agrees : Agrees commands memory files disk)
    (isCommand : .enqueue call ∈ commands) :
    Matches commands files ((ofStore (.memory memory)).perform (.enqueue call))
      ((ofStore (.files files disk)).perform (.enqueue call)) := by
  obtain ⟨after, ran, holds⟩ := FileBacklog.run_enqueue agrees.holds (agrees.lists call.target)
    (feasible.storable call isCommand)
  have inFiles : (ofStore (.files files disk)).enqueue call =
      (.ok (), ofStore (.files files after)) := (guarded_ofStore _ _ _).trans (runOn_eq ran)
  have inMemory : (ofStore (.memory memory)).enqueue call =
      (.ok (), ofStore (.memory (memory.enqueue call))) := guarded_ofStore _ _ _
  rw [perform, perform, inFiles, inMemory]
  refine ⟨rfl, _, after, rfl, rfl, ?_, ?_, ?_⟩
  · exact holds.congr (agrees.mem_enqueue feasible isCommand)
  · exact MemoryBacklog.pairwise_enqueue agrees.ordered call
  · intro other member
    rcases MemoryBacklog.mem_calls_enqueue.mp member with rfl | ⟨member, _⟩
    · exact isCommand
    · exact agrees.known other member

variable (agrees : Agrees commands memory files disk)
  (fits : (directoryName target).length ≤ maxNameLength)
include agrees fits

theorem peek : Matches commands files ((ofStore (.memory memory)).perform (.peek target))
    ((ofStore (.files files disk)).perform (.peek target)) := by
  have inFiles : (ofStore (.files files disk)).peek target =
      (.ok (memory.readAll target).head?, ofStore (.files files disk)) :=
    runOn_eq (FileBacklog.run_peek agrees.holds (agrees.lists target) fits)
  rw [perform, perform, inFiles]
  exact ⟨rfl, memory, disk, rfl, rfl, agrees⟩

theorem readAll : Matches commands files ((ofStore (.memory memory)).perform (.readAll target))
    ((ofStore (.files files disk)).perform (.readAll target)) := by
  have inFiles : (ofStore (.files files disk)).readAll target =
      (.ok (memory.readAll target), ofStore (.files files disk)) :=
    (guarded_ofStore _ _ _).trans
      (runOn_eq (FileBacklog.run_readAll agrees.holds (agrees.lists target) fits))
  have inMemory : (ofStore (.memory memory)).readAll target =
      (.ok (memory.readAll target), ofStore (.memory memory)) := guarded_ofStore _ _ _
  rw [perform, perform, inFiles, inMemory]
  exact ⟨rfl, memory, disk, rfl, rfl, agrees⟩

/-- The first call has an id of its own. -/
theorem dequeue : Matches commands files ((ofStore (.memory memory)).perform (.dequeue target))
    ((ofStore (.files files disk)).perform (.dequeue target)) := by
  have lists := agrees.lists target
  obtain ⟨after, ran, holds⟩ := FileBacklog.run_dequeue agrees.holds lists fits
  have inFiles : (ofStore (.files files disk)).dequeue target =
      (.ok (memory.readAll target).head?, ofStore (.files files after)) := runOn_eq ran
  have inMemory : (ofStore (.memory memory)).dequeue target =
      (.ok (memory.dequeue target).1, ofStore (.memory (memory.dequeue target).2)) := rfl
  rw [perform, perform, inFiles, inMemory, MemoryBacklog.dequeue, MemoryBacklog.peek]
  cases first : (memory.readAll target).head? with
  | none =>
      refine ⟨rfl, memory, after, rfl, rfl, ?_, agrees.ordered, agrees.known⟩
      exact holds.congr (by simp [first])
  | some call =>
      have member := List.mem_of_head? first
      refine ⟨rfl, _, after, rfl, rfl, ?_⟩
      apply agrees.removeWhere
      apply holds.congr
      intro other
      rw [first, Option.mem_some, decide_eq_true_eq]
      apply and_congr_right
      intro isStored
      apply not_congr
      constructor
      · rintro ⟨sameTarget, sameId⟩
        have isOther := (lists.mem other).mpr ⟨isStored, sameTarget⟩
        exact FileBacklog.eq_of_id_eq lists.ordered member isOther sameId.symm
      · rintro rfl
        exact ⟨(lists.mem call).mp member |>.2, rfl⟩

theorem remove (id : UInt64) :
    Matches commands files ((ofStore (.memory memory)).perform (.remove target id))
      ((ofStore (.files files disk)).perform (.remove target id)) := by
  obtain ⟨after, ran, holds⟩ := FileBacklog.run_remove agrees.holds (agrees.lists target) fits id
  have inFiles : (ofStore (.files files disk)).remove target id =
      (.ok _, ofStore (.files files after)) := (guarded_ofStore _ _ _).trans (runOn_eq ran)
  have inMemory : (ofStore (.memory memory)).remove target id =
      (.ok (decide (0 < (memory.removeWhere target fun call => call.id = id).1)),
        ofStore (.memory (memory.removeWhere target fun call => call.id = id).2)) :=
    guarded_ofStore _ _ _
  rw [perform, perform, inFiles, inMemory, MemoryBacklog.count_removeWhere]
  refine ⟨rfl, _, after, rfl, rfl, ?_⟩
  apply agrees.removeWhere
  exact holds.congr (by simp)

theorem removeByName (name : String) :
    Matches commands files ((ofStore (.memory memory)).perform (.removeByName target name))
      ((ofStore (.files files disk)).perform (.removeByName target name)) := by
  obtain ⟨after, ran, holds⟩ :=
    FileBacklog.run_removeByName agrees.holds (agrees.lists target) fits name
  have inFiles : (ofStore (.files files disk)).removeByName target name =
      (.ok _, ofStore (.files files after)) := runOn_eq ran
  have inMemory : (ofStore (.memory memory)).removeByName target name =
      (.ok (memory.removeWhere target fun call => call.name = name).1,
        ofStore (.memory (memory.removeWhere target fun call => call.name = name).2)) := rfl
  rw [perform, perform, inFiles, inMemory, MemoryBacklog.count_removeWhere]
  refine ⟨rfl, _, after, rfl, rfl, ?_⟩
  apply agrees.removeWhere
  exact holds.congr (by simp)

end Agrees

/-! ## Runs -/

section

variable {commands : List Command} {memory : MemoryBacklog} {files : FileBacklog}
  {disk : FileSystem}

/-- Each command is answered alike. -/
theorem Agrees.perform (feasible : Feasible commands) (agrees : Agrees commands memory files disk)
    {command : Command} (isCommand : command ∈ commands) :
    Matches commands files ((ofStore (.memory memory)).perform command)
      ((ofStore (.files files disk)).perform command) := by
  have fits := feasible.directory command isCommand
  cases command with
  | enqueue call => exact agrees.enqueue feasible isCommand
  | peek target => exact agrees.peek fits
  | dequeue target => exact agrees.dequeue fits
  | remove target id => exact agrees.remove fits id
  | removeByName target name => exact agrees.removeByName fits name
  | readAll target => exact agrees.readAll fits

/-- All commands are answered alike. -/
theorem Agrees.answersReopened_eq (feasible : Feasible commands)
    (agrees : Agrees commands memory files disk) {script : List (Bool × Command)}
    (areCommands : ∀ step ∈ script, step.2 ∈ commands) :
    (ofStore (.files files disk)).answersReopened script =
      (ofStore (.memory memory)).answers (script.map Prod.snd) := by
  induction script generalizing memory disk with
  | nil => rfl
  | cons step rest ih =>
      obtain ⟨isReopened, command⟩ := step
      rw [List.forall_mem_cons] at areCommands
      obtain ⟨sameAnswer, memory, disk, inMemory, inFiles, agrees⟩ :=
        agrees.perform feasible areCommands.1
      -- Files stay when a backlog is opened anew.
      have opened : ∀ disk, (if isReopened then (ofStore (.files files disk)).reopen
          else ofStore (.files files disk)) = ofStore (.files files disk) := by
        intro disk
        cases isReopened <;> rfl
      rw [List.map_cons, answers, answersReopened, opened, sameAnswer, inMemory, inFiles,
        ih agrees areCommands.2]

/-- A directory without entries has the files of no calls. -/
theorem agrees_empty (reached : disk.find files.root = .ok (some .directory))
    (isEmpty : ∀ path ≠ [], disk.at? (files.root ++ path) = none) (commands : List Command) :
    Agrees commands .empty files disk where
  holds := by
    have atPath : ∀ target name, disk.at? (files.path target name) = none := by
      intro target name
      rw [FileBacklog.path, FileBacklog.directory, List.append_assoc]
      exact isEmpty _ (by simp)
    refine ⟨reached, ?_, ?_, ?_, ?_, ?_, ?_⟩
    · exact fun target => .inl (isEmpty _ (by simp))
    · simp [MemoryBacklog.empty]
    · simp [MemoryBacklog.empty]
    · simp [MemoryBacklog.empty]
    · simp [atPath]
    · intro target
      have noNames : disk.namesIn (files.directory target) = [] := by
        apply List.eq_nil_iff_forall_not_mem.mpr
        intro name member
        rw [FileSystem.mem_namesIn] at member
        rw [← FileBacklog.path, atPath] at member
        cases member
      rw [noNames]
      exact List.nodup_nil
  ordered := List.Pairwise.nil
  known := by simp [MemoryBacklog.empty]

end

/-- A backlog in an empty directory answers like a backlog in memory without calls, whatever
they are told, and also if the one in files is opened anew in between. -/
theorem answersReopened_eq_answers {files : FileBacklog} {disk : FileSystem}
    {script : List (Bool × Command)} (reached : disk.find files.root = .ok (some .directory))
    (isEmpty : ∀ path ≠ [], disk.at? (files.root ++ path) = none)
    (feasible : Feasible (script.map Prod.snd)) :
    (ofStore (.files files disk)).answersReopened script =
      inMemory.answers (script.map Prod.snd) := by
  apply (agrees_empty reached isEmpty _).answersReopened_eq feasible
  exact fun step member => List.mem_map_of_mem member

/-- A call that is stored under a number of one or two digits. -/
def lookup (id : UInt64) (policy : RetryPolicy) : Call where
  target := .client "ä b"
  invocation := ⟨id, "look up", [[1]]⟩
  policy := some policy
  timeout := some (Span.ofMilliseconds 5)
  startedAt := none
  reply := none

theorem answersReopened_eq_answers_latest :
    (ofStore (.files ⟨[], ""⟩ .empty)).answersReopened
      [(false, .enqueue (lookup 10 .retry)), (false, .enqueue (lookup 9 .retry)),
        (true, .readAll (.client "ä b")), (true, .enqueue (lookup 8 .latest)),
        (false, .dequeue (.client "ä b")), (true, .remove (.client "ä b") 9)] =
      [.ok .stored, .ok .stored, .ok (.all [lookup 9 .retry, lookup 10 .retry]), .ok .stored,
        .ok (.first (some (lookup 8 .latest))), .ok (.removed false)] := by
  have admissible : ∀ id policy, (lookup id policy).invocation.Admissible := by
    intro id policy
    constructor <;> simp only [lookup] <;> decide
  have storable : ∀ id ∈ [10, 9, 8], ∀ policy, Storable (lookup id policy) := by
    intro id isId policy
    refine ⟨admissible id policy, rfl, rfl, ?_, ?_, ?_⟩
    · rintro _ ⟨⟩
      exact ⟨5, by decide, rfl⟩
    · simp only [lookup]
      decide
    · simp only [lookup, Call.id, Call.name]
      simp only [List.mem_cons, List.not_mem_nil, or_false] at isId
      rcases isId with rfl | rfl | rfl <;> decide
  refine (answersReopened_eq_answers rfl ?_ ?_).trans rfl
  · intro path nonempty
    rw [List.nil_append, FileSystem.at?_eq_lookup nonempty]
    rfl
  · constructor
    · decide
    · simp only [List.map_cons, List.map_nil, List.mem_cons, Command.enqueue.injEq, reduceCtorEq,
        List.not_mem_nil, or_false, false_or]
      rintro call (rfl | rfl | rfl) <;> exact storable _ (by decide) _
    · simp only [List.map_cons, List.map_nil, List.mem_cons, Command.enqueue.injEq, reduceCtorEq,
        List.not_mem_nil, or_false, false_or]
      rintro first second (rfl | rfl | rfl) (rfl | rfl | rfl) _ _ <;> rfl

end PeerCalls.Backlog
