import PeerCalls.Proofs.Backlog.Identity
import PeerCalls.Proofs.Backlog.Serving
import PeerCalls.Proofs.Queue.Ledger

/-!
# Targets are apart

A command to one target leaves what is stored for all others. What is read for another target
stays too, with one exception: if the names on the way to its directory are too long, then this
is known only once the directory of the backlog is there, so the first call to anyone may turn
the answer that there is no call into the answer that none can be read. Whatever is read for a
target is addressed to it, so a queue that begins with it never has a call to anyone else.
-/

namespace PeerCalls

/-! ## Calls in memory -/

namespace MemoryBacklog

variable {memory : MemoryBacklog} {target other : Peer} {call : Call}

theorem readAll_removeWhere (differs : other ≠ target) (selects : Call → Bool) :
    (memory.removeWhere target selects).2.readAll other = memory.readAll other := by
  rw [readAll, removeWhere, List.filter_filter, readAll]
  apply List.filter_congr
  intro call _
  by_cases isOther : call.target = other
  · simp [isOther, differs]
  · simp [isOther]

theorem filter_insertCall {chosen : Call → Bool} (skipped : chosen call = false)
    (calls : List Call) : (insertCall call calls).filter chosen = calls.filter chosen := by
  induction calls with
  | nil => simp [insertCall, skipped]
  | cons head rest ih =>
      unfold insertCall
      split
      · rw [List.filter_cons, ih, List.filter_cons]
      · rw [List.filter_cons_of_neg (by simp [skipped])]

theorem readAll_enqueue (differs : other ≠ call.target) :
    (memory.enqueue call).readAll other = memory.readAll other := by
  have skipped : decide (call.target = other) = false := decide_eq_false differs.symm
  exact (filter_insertCall skipped _).trans (readAll_removeWhere differs _)

theorem readAll_dequeue (differs : other ≠ target) :
    (memory.dequeue target).2.readAll other = memory.readAll other := by
  unfold dequeue
  split
  · exact readAll_removeWhere differs _
  · rfl

end MemoryBacklog

/-! ## Calls in files -/

namespace FileBacklog

open FileSystem

variable {backlog : FileBacklog} {before after disk : FileSystem} {target : Peer}

/-- Where the directory of the backlog is, only the name of the target counts. -/
theorem hasRoom_of_reached (reached : disk.find backlog.root = .ok (some .directory))
    (fits : (directoryName target).length ≤ maxNameLength) : backlog.HasRoom target := by
  unfold HasRoom directory
  rw [List.forall_mem_append]
  exact ⟨length_le_of_walk reached, by simpa using fits⟩

/-- The calls to a target are found or not, whatever happens to others: the directory of the
backlog is there, or no name on the way to the target is too long. -/
def Settles (backlog : FileBacklog) (disk : FileSystem) (target : Peer) : Prop :=
  disk.at? backlog.root = some .directory ∨ backlog.HasRoom target

/-- Where this is open, there is no call yet. -/
theorem stored_of_not_settles (isOpen : ¬ backlog.Settles disk target) :
    backlog.stored disk target = [] := by
  apply ReadsAlike.stored_eq_nil
  apply found_eq_nil
  intro reached
  exact isOpen (.inl (at?_eq_of_find (at?_of_find reached).1))

theorem ReadsAlike.unlisted_of_settles (alike : backlog.ReadsAlike target before after)
    (tree : before.IsTree) (treeAfter : after.IsTree)
    (stays : before.at? backlog.root = some .directory →
      after.at? backlog.root = some .directory) (settles : backlog.Settles before target) :
    backlog.unlisted? after target = backlog.unlisted? before target := by
  cases settles with
  | inr room => exact alike.unlisted room
  | inl isThere =>
      have reached := tree.find_eq isThere
      by_cases fits : (directoryName target).length ≤ maxNameLength
      · exact alike.unlisted (hasRoom_of_reached reached fits)
      · have long := Nat.lt_of_not_le fits
        rw [unlisted?_tooLong reached long,
          unlisted?_tooLong (treeAfter.find_eq (stays isThere)) long]

/-- A call that is read from a file is addressed to the target for which it is read. -/
theorem target_of_mem_stored {entry : Candidate × Call}
    (isStored : entry ∈ backlog.stored disk target) : entry.2.target = target := by
  have reads := (mem_stored.mp isStored).2
  unfold callIn at reads
  split at reads
  next content _ =>
    cases decoded : StoredCall.decode target content with
    | error fault => simp [decoded, Except.toOption] at reads
    | ok call =>
        rw [decoded] at reads
        rw [← Option.some.inj reads]
        exact (StoredCall.encode_eq_of_decode decoded).2.1
  next => cases reads

end FileBacklog

/-! ## Both -/

/-- A store as it comes about: in memory, or in files on a tree. -/
def CallStore.IsSound : CallStore → Prop
  | .memory _ => True
  | .files _ disk => disk.IsTree

namespace Backlog

/-- What is read for a target does not depend on whether others have calls. -/
def Settles (backlog : Backlog) (target : Peer) : Prop :=
  match backlog.store with
  | .memory _ => True
  | .files files disk => files.Settles disk target

/-- What is read for a target stays. -/
structure Spares (target : Peer) (before after : Backlog) : Prop where
  calls : after.calls target = before.calls target
  readAll : before.Settles target → (after.readAll target).1 = (before.readAll target).1
  peek : before.Settles target → (after.peek target).1 = (before.peek target).1

/-- The targets of a backlog are apart, and so are the queues that begin with it, or without
one. -/
structure Isolates (backlog : Backlog) : Prop where
  spares : ∀ command, (∀ call, command = .enqueue call → call.invocation.Admissible) →
    ∀ target, target ≠ command.target → Spares target backlog (backlog.perform command).2
  /-- Only where there is no call, the reason for this may change. -/
  unsettled : ∀ target, ¬ backlog.Settles target → backlog.calls target = []
  own : ∀ target calls, (backlog.readAll target).1 = .ok calls → ∀ call ∈ calls,
    call.target = target
  queues : ∀ given, given = none ∨ given = some backlog → ∀ target maxLength queue,
    Queue.create target maxLength given = .ok queue → ∀ requests,
      ∀ call ∈ ((Queue.Ledger.start queue given).run requests).queue.calls, call.target = target

section

variable {memory : MemoryBacklog} {files : FileBacklog} {disk : FileSystem} {target : Peer}

theorem spares_memory {later : MemoryBacklog}
    (same : later.readAll target = memory.readAll target) :
    Spares target (ofStore (.memory memory)) (ofStore (.memory later)) where
  calls := by rw [calls_memory, calls_memory, same]
  readAll _ := by
    rw [readAll, readAll, guarded_ofStore, guarded_ofStore]
    exact congrArg Except.ok same
  peek _ := by
    change Except.ok (later.readAll target).head? = Except.ok (memory.readAll target).head?
    rw [same]

theorem readAll_memoryAfter {command : Command} (differs : target ≠ command.target) :
    (memoryAfter memory command).readAll target = memory.readAll target := by
  cases command with
  | enqueue call => exact MemoryBacklog.readAll_enqueue differs
  | dequeue other => exact MemoryBacklog.readAll_dequeue differs
  | remove other id => exact MemoryBacklog.readAll_removeWhere differs _
  | removeByName other name => exact MemoryBacklog.readAll_removeWhere differs _
  | peek other | readAll other => rfl

theorem readAll_files : ((ofStore (.files files disk)).readAll target).1 =
    ((files.readAll target).run.run disk).1 := by
  rw [readAll, guarded_ofStore]
  rfl

theorem spares_files {later : FileSystem}
    (stored : files.stored later target = files.stored disk target)
    (unlisted : files.Settles disk target →
      files.unlisted? later target = files.unlisted? disk target) :
    Spares target (ofStore (.files files disk)) (ofStore (.files files later)) where
  calls := by rw [calls_files, calls_files, stored]
  readAll settles := by
    rw [readAll_files, readAll_files, FileBacklog.run_readAll_stored,
      FileBacklog.run_readAll_stored, stored, unlisted settles]
  peek settles := by
    change ((files.peek target).run.run later).1 = ((files.peek target).run.run disk).1
    rw [FileBacklog.run_peek_stored, FileBacklog.run_peek_stored, stored, unlisted settles]

end

section

variable {store : CallStore} {command : Command} {commands : List Command} {target : Peer}

theorem exists_perform (sound : store.IsSound) (command : Command) :
    ∃ later, ((ofStore store).perform command).2 = ofStore later ∧ later.IsSound := by
  cases store with
  | memory memory =>
      rw [perform_memory]
      exact ⟨_, rfl, trivial⟩
  | files files disk =>
      rw [FileBacklog.perform_files]
      exact ⟨_, rfl, DiskProgram.isTree_run sound _⟩

theorem exists_afterAll (sound : store.IsSound) (commands : List Command) :
    ∃ later, (ofStore store).afterAll commands = ofStore later ∧ later.IsSound := by
  induction commands generalizing store with
  | nil => exact ⟨store, rfl, sound⟩
  | cons command rest ih =>
      obtain ⟨later, isLater, soundLater⟩ := exists_perform sound command
      rw [afterAll, isLater]
      exact ih soundLater

/-- A command spares all targets but its own. -/
theorem spares_perform (sound : store.IsSound)
    (admissible : ∀ call, command = .enqueue call → call.invocation.Admissible)
    (differs : target ≠ command.target) :
    Spares target (ofStore store) ((ofStore store).perform command).2 := by
  cases store with
  | memory memory =>
      rw [perform_memory]
      exact spares_memory (readAll_memoryAfter differs)
  | files files disk =>
      have tree : disk.IsTree := sound
      rw [FileBacklog.perform_files]
      have stops := DiskProgram.leaves_run (files.program command).run disk
      have alike := (FileBacklog.alters_of_leaves tree admissible stops).others target differs
      apply spares_files alike.stored
      exact alike.unlisted_of_settles tree (DiskProgram.isTree_run tree _)
        (DiskProgram.at?_directory_run _)

theorem calls_of_not_settles (isOpen : ¬ (ofStore store).Settles target) :
    (ofStore store).calls target = [] := by
  cases store with
  | memory memory => exact absurd trivial isOpen
  | files files disk =>
      rw [calls_files, FileBacklog.stored_of_not_settles isOpen]
      rfl

theorem target_of_mem_readAll {calls : List Call}
    (read : ((ofStore store).readAll target).1 = .ok calls) :
    ∀ call ∈ calls, call.target = target := by
  cases store with
  | memory memory =>
      rw [readAll, guarded_ofStore] at read
      cases read
      exact fun call member => (MemoryBacklog.mem_readAll.mp member).2
  | files files disk =>
      rw [readAll_files, FileBacklog.run_readAll_stored] at read
      split at read
      next =>
        cases read
        rw [List.forall_mem_map]
        exact fun entry isStored => FileBacklog.target_of_mem_stored isStored
      next => cases read

/-- A queue begins with calls to its target, or with none. -/
theorem addressed_of_create {given : Option Backlog} {maxLength : Nat} {queue : Queue}
    (isGiven : given = none ∨ given = some (ofStore store))
    (created : Queue.create target maxLength given = .ok queue) :
    ∀ call ∈ queue.calls, call.target = queue.target := by
  cases isGiven with
  | inl isNone =>
      subst isNone
      cases created
      exact fun call member => absurd member List.not_mem_nil
  | inr isSome =>
      subst isSome
      obtain ⟨calls, read, rfl⟩ := Queue.eq_of_create created
      rw [List.forall_mem_map]
      exact target_of_mem_readAll read

theorem isolates_ofStore (sound : store.IsSound) : (ofStore store).Isolates where
  spares _ admissible _ differs := spares_perform sound admissible differs
  unsettled _ isOpen := calls_of_not_settles isOpen
  own _ _ read := target_of_mem_readAll read
  queues given isGiven target maxLength queue created requests := by
    let ledger := Queue.Ledger.start queue given
    have begins : ∀ call ∈ ledger.queue.calls, call.target = ledger.queue.target :=
      addressed_of_create isGiven created
    have sameTarget : (ledger.run requests).queue.target = target :=
      (ledger.run_target requests).trans (Queue.target_of_create created)
    rw [← sameTarget]
    exact Queue.Ledger.addressed_run begins requests

/-- Whatever a backlog has been told, its targets are apart. -/
theorem isolates_afterAll (sound : store.IsSound) (commands : List Command) :
    ((ofStore store).afterAll commands).Isolates := by
  obtain ⟨later, isLater, soundLater⟩ := exists_afterAll sound commands
  rw [isLater]
  exact isolates_ofStore soundLater

end

theorem isolates_afterAll_numbered :
    ((ofStore (.files ⟨[], ""⟩ .empty)).afterAll
      [.enqueue (numbered "A"), .dequeue .server]).Isolates :=
  have sound : CallStore.IsSound (.files ⟨[], ""⟩ .empty) := FileSystem.isTree_empty
  isolates_afterAll sound _

/-- It is not true that a command never changes what is read for another target: before the
first call, nobody knows that the name of a directory is too long. -/
theorem not_readAll_unchanged : ¬ ∀ (files : FileBacklog) (disk : FileSystem) (command : Command)
    (target : Peer), disk.IsTree →
      (∀ call, command = .enqueue call → call.invocation.Admissible) →
        target ≠ command.target →
          (((ofStore (.files files disk)).perform command).2.readAll target).1 =
            ((ofStore (.files files disk)).readAll target).1 := by
  intro unchanged
  obtain ⟨client, _, long⟩ := FileBacklog.exists_longClient
  let files : FileBacklog := ⟨[Bytes.ofText "sub"], "sub"⟩
  have admissible : (numbered "A").invocation.Admissible := by
    constructor <;> simp only [numbered] <;> decide
  have same := unchanged files .empty (.enqueue (numbered "A")) (.client client)
    FileSystem.isTree_empty (fun call isCall => Command.enqueue.inj isCall ▸ admissible)
    (fun isServer => by cases isServer)
  have before : files.unlisted? .empty (.client client) = none := by
    have missing : FileSystem.empty.find files.root = .ok none := rfl
    rw [FileBacklog.unlisted?, FileBacklog.directory, FileSystem.list_below_missing missing]
  -- The first call makes the directory of the backlog.
  let later := ((files.program (.enqueue (numbered "A"))).run.run .empty).2
  have tree : later.IsTree := DiskProgram.isTree_run FileSystem.isTree_empty _
  have isThere : later.at? files.root = some .directory := rfl
  have after := FileBacklog.unlisted?_tooLong (tree.find_eq isThere) long
  rw [FileBacklog.perform_files, readAll_files, readAll_files, FileBacklog.run_readAll_stored,
    FileBacklog.run_readAll_stored, before, after] at same
  cases same

end Backlog

end PeerCalls
