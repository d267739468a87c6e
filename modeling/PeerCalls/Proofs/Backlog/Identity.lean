import PeerCalls.Proofs.Backlog.Surviving

/-!
# What identifies a call in a backlog

A backlog in memory has one call to a target with an id. A backlog in files has one call with
an id and a method, as both are in the name of the file: a call with the id of another one, but
of another method, comes beside it. In both, the calls to a target are read in the order of
their ids; which of two calls with one id comes first is up to the listing of the directory.
-/

namespace PeerCalls

namespace FileBacklog

open FileSystem

/-! ## Calls in files that bear their names -/

/-- All calls are in the files that are made for them. -/
structure OwnFiles (backlog : FileBacklog) (disk : FileSystem) : Prop where
  tree : disk.IsTree
  named : ∀ target, ∀ entry ∈ backlog.stored disk target, entry.1 = Candidate.of entry.2

section

variable {backlog : FileBacklog} {disk after : FileSystem} {target : Peer} {call : Call}

/-- The files that are found are in the order of the ids, and all different. -/
theorem pairwise_found (tree : disk.IsTree) (target : Peer) :
    (backlog.found disk target).Pairwise fun first second =>
      first.id ≤ second.id ∧ first ≠ second := by
  unfold found
  split
  next names listed =>
    rw [List.pairwise_and_iff]
    refine ⟨pairwise_candidatesOf names, ?_⟩
    have distinct : (names.filterMap Candidate.ofName?).Nodup := by
      rw [(reached_of_list listed).2]
      exact nodup_filterMap_ofName? (tree.nodup_namesIn _)
    exact (List.mergeSort_perm _ _).nodup_iff.mpr distinct
  next => exact List.Pairwise.nil

namespace OwnFiles

/-- What each command keeps. -/
theorem of_alters {goes : Candidate → Prop} {comes : Candidate × Call → Prop}
    (files : backlog.OwnFiles disk) (treeAfter : after.IsTree)
    (alters : backlog.Alters target goes comes disk after)
    (named : ∀ entry, comes entry → entry.1 = Candidate.of entry.2) : backlog.OwnFiles after where
  tree := treeAfter
  named other entry member := by
    by_cases isTarget : other = target
    · subst isTarget
      exact (alters.mem entry member).elim (files.named other entry) (named entry)
    · rw [(alters.others other isTarget).stored] at member
      exact files.named other entry member

/-- A call is read after those with smaller ids, and no other one has its id and its method. -/
theorem pairwise_stored (files : backlog.OwnFiles disk) (target : Peer) :
    ((backlog.stored disk target).map Prod.snd).Pairwise fun first second =>
      first.id ≤ second.id ∧ ¬ (first.id = second.id ∧ first.name = second.name) := by
  have entries : (backlog.stored disk target).Pairwise fun first second =>
      first.1.id ≤ second.1.id ∧ first.1 ≠ second.1 := by
    unfold stored
    apply (pairwise_found files.tree target).filterMap
    rintro first second ⟨inOrder, differs⟩ _ isFirst _ isSecond
    obtain ⟨_, _, rfl⟩ := Option.map_eq_some_iff.mp isFirst
    obtain ⟨_, _, rfl⟩ := Option.map_eq_some_iff.mp isSecond
    exact ⟨inOrder, differs⟩
  rw [List.pairwise_map]
  apply entries.imp_of_mem
  rintro first second isFirst isSecond ⟨inOrder, differs⟩
  rw [files.named target first isFirst, files.named target second isSecond] at inOrder differs
  refine ⟨inOrder, ?_⟩
  rintro ⟨sameId, sameName⟩
  apply differs
  simp only [Candidate.of, sameId, sameName]

end OwnFiles

end

end FileBacklog

namespace Backlog

open FileBacklog (OwnFiles)

/-- A backlog after one command after the other. -/
def afterAll (backlog : Backlog) : List Command → Backlog
  | [] => backlog
  | command :: rest => (backlog.perform command).2.afterAll rest

/-- The calls to a target that are read, none if they cannot be. -/
def calls (backlog : Backlog) (target : Peer) : List Call :=
  (backlog.readAll target).1.toOption.getD []

/-- How a backlog identifies calls, which it gives back as they were kept. -/
structure Identifies (same : Call → Call → Prop) (kept : Call → Call) (backlog : Backlog) :
    Prop where
  ordered : ∀ target, (backlog.calls target).Pairwise fun first second =>
    first.id ≤ second.id ∧ ¬ same first second
  stores : ∀ call after, call.invocation.Admissible → backlog.enqueue call = (.ok (), after) →
    kept call ∈ after.calls call.target
  /-- The new call takes the place of the one that is the same. -/
  replaces : ∀ call after, call.invocation.Admissible →
    backlog.enqueue call = (.ok (), after) → ∀ other ∈ after.calls call.target,
      other = kept call ∨ other ∈ backlog.calls call.target ∧ ¬ same other call
  remains : ∀ call after, call.invocation.Admissible → backlog.enqueue call = (.ok (), after) →
    ∀ other ∈ backlog.calls call.target, ¬ same other call → ¬ call.Supersedes other →
      other ∈ after.calls call.target

/-! ## Calls in memory -/

section

variable {memory : MemoryBacklog} {commands : List Command} {target : Peer}

theorem calls_memory (memory : MemoryBacklog) (target : Peer) :
    (ofStore (.memory memory)).calls target = memory.readAll target := by
  rw [calls, readAll, guarded_ofStore]
  rfl

theorem enqueue_memory (memory : MemoryBacklog) (call : Call) :
    (ofStore (.memory memory)).enqueue call = (.ok (), ofStore (.memory (memory.enqueue call))) := by
  rw [enqueue, guarded_ofStore]
  rfl

/-- The calls in memory after a command. -/
def memoryAfter (memory : MemoryBacklog) : Command → MemoryBacklog
  | .enqueue call => memory.enqueue call
  | .dequeue target => (memory.dequeue target).2
  | .remove target id => (memory.remove target id).2
  | .removeByName target name => (memory.removeByName target name).2
  | .peek _ | .readAll _ => memory

theorem perform_memory (memory : MemoryBacklog) (command : Command) :
    ((ofStore (.memory memory)).perform command).2 =
      ofStore (.memory (memoryAfter memory command)) := by
  cases command with
  | enqueue call => rw [perform, enqueue_memory]; rfl
  | readAll target => rw [perform, readAll, guarded_ofStore]; rfl
  | remove target id => rw [perform, remove, guarded_ofStore]; rfl
  | peek target | dequeue target | removeByName target name => rfl

/-- The calls in memory stay in order. -/
theorem pairwise_memoryAfter (ordered : memory.calls.Pairwise MemoryBacklog.Before)
    (command : Command) : (memoryAfter memory command).calls.Pairwise MemoryBacklog.Before := by
  cases command with
  | enqueue call => exact MemoryBacklog.pairwise_enqueue ordered call
  | peek target | readAll target => exact ordered
  | remove target id => exact MemoryBacklog.pairwise_remove ordered target id
  | removeByName target name => exact MemoryBacklog.pairwise_removeWhere ordered target _
  | dequeue target => exact MemoryBacklog.pairwise_dequeue ordered target

theorem afterAll_memory (ordered : memory.calls.Pairwise MemoryBacklog.Before)
    (commands : List Command) : ∃ later : MemoryBacklog,
      (ofStore (.memory memory)).afterAll commands = ofStore (.memory later) ∧
        later.calls.Pairwise MemoryBacklog.Before := by
  induction commands generalizing memory with
  | nil => exact ⟨memory, rfl, ordered⟩
  | cons command rest ih =>
      rw [afterAll, perform_memory]
      exact ih (pairwise_memoryAfter ordered command)

theorem identifies_memory (ordered : memory.calls.Pairwise MemoryBacklog.Before) :
    Identifies (fun first second => first.id = second.id) id (ofStore (.memory memory)) where
  ordered target := by
    rw [calls_memory]
    apply (MemoryBacklog.pairwise_readAll ordered target).imp
    exact fun before => ⟨UInt64.le_of_lt before, UInt64.ne_of_lt before⟩
  stores call after _ stored := by
    rw [enqueue_memory] at stored
    cases stored
    rw [calls_memory, MemoryBacklog.mem_readAll, MemoryBacklog.mem_calls_enqueue]
    exact ⟨.inl rfl, rfl⟩
  replaces call after _ stored other member := by
    rw [enqueue_memory] at stored
    cases stored
    rw [calls_memory, MemoryBacklog.mem_readAll, MemoryBacklog.mem_calls_enqueue] at member
    rw [calls_memory, MemoryBacklog.mem_readAll]
    obtain ⟨isCall | ⟨member, stays⟩, sameTarget⟩ := member
    · exact .inl isCall
    · exact .inr ⟨⟨member, sameTarget⟩, (stays sameTarget).1⟩
  remains call after _ stored other member differs isKept := by
    rw [enqueue_memory] at stored
    cases stored
    rw [calls_memory, MemoryBacklog.mem_readAll] at member
    rw [calls_memory, MemoryBacklog.mem_readAll, MemoryBacklog.mem_calls_enqueue]
    exact ⟨.inr ⟨member.1, fun _ => ⟨differs, isKept⟩⟩, member.2⟩

end

/-! ## Calls in files -/

section

variable {files : FileBacklog} {disk : FileSystem}

theorem calls_files (target : Peer) : (ofStore (.files files disk)).calls target =
    (files.stored disk target).map Prod.snd := by
  rw [calls, readAll, guarded_ofStore, ← FileBacklog.getD_readAll]
  rfl

/-- Where no calls are read, none is in a file of another one. -/
theorem ownFiles_of_calls (tree : disk.IsTree)
    (isEmpty : ∀ target, (ofStore (.files files disk)).calls target = []) :
    files.OwnFiles disk where
  tree
  named target entry isStored := by
    have none := isEmpty target
    rw [calls_files, List.map_eq_nil_iff] at none
    rw [none] at isStored
    cases isStored

theorem run_of_enqueue_files {call : Call} {after : Backlog}
    (stored : (ofStore (.files files disk)).enqueue call = (.ok (), after)) :
    ∃ later, (files.enqueue call).run.run disk = (.ok (), later) ∧
      after = ofStore (.files files later) := by
  rw [enqueue, guarded_ofStore] at stored
  have isResult : ((files.enqueue call).run.run disk).1 = .ok () := congrArg Prod.fst stored
  exact ⟨_, Prod.ext isResult rfl, (congrArg Prod.snd stored).symm⟩

theorem perform_ownFiles (own : files.OwnFiles disk) {command : Command}
    (admissible : ∀ call, command = .enqueue call → call.invocation.Admissible) :
    ∃ later, ((ofStore (.files files disk)).perform command).2 = ofStore (.files files later) ∧
      files.OwnFiles later := by
  rw [FileBacklog.perform_files]
  refine ⟨_, rfl, own.of_alters (DiskProgram.isTree_run own.tree _)
    (FileBacklog.alters_of_leaves own.tree admissible (DiskProgram.leaves_run _ _)) ?_⟩
  intro entry brought
  cases command with
  | enqueue call =>
      obtain rfl : entry = (FileBacklog.Candidate.of call, StoredCall.kept call) := brought
      rfl
  | peek target | dequeue target | readAll target => exact brought.elim
  | remove target id => exact brought.elim
  | removeByName target name => exact brought.elim

theorem afterAll_ownFiles (own : files.OwnFiles disk) {commands : List Command}
    (admissible : ∀ call, .enqueue call ∈ commands → call.invocation.Admissible) :
    ∃ later, (ofStore (.files files disk)).afterAll commands = ofStore (.files files later) ∧
      files.OwnFiles later := by
  induction commands generalizing disk with
  | nil => exact ⟨disk, rfl, own⟩
  | cons command rest ih =>
      obtain ⟨later, isLater, ownLater⟩ := perform_ownFiles own fun call isCommand =>
        admissible call (isCommand ▸ List.mem_cons_self)
      rw [afterAll, isLater]
      exact ih ownLater fun call member => admissible call (List.mem_cons_of_mem _ member)

theorem identifies_files (own : files.OwnFiles disk) :
    Identifies (fun first second => first.id = second.id ∧ first.name = second.name)
      StoredCall.kept (ofStore (.files files disk)) where
  ordered target := by
    rw [calls_files]
    exact own.pairwise_stored target
  stores call after admissible stored := by
    obtain ⟨later, ran, rfl⟩ := run_of_enqueue_files stored
    rw [calls_files]
    exact List.mem_map_of_mem (FileBacklog.mem_stored_of_run_enqueue own.tree admissible ran)
  replaces call after admissible stored other member := by
    obtain ⟨later, ran, rfl⟩ := run_of_enqueue_files stored
    obtain ⟨alters, _⟩ := (FileBacklog.relates_enqueue admissible).run_except own.tree ran
    have isNew := FileBacklog.mem_stored_of_run_enqueue own.tree admissible ran
    rw [calls_files] at member ⊢
    obtain ⟨entry, isLater, rfl⟩ := List.mem_map.mp member
    rcases alters.mem entry isLater with isStored | rfl
    · by_cases same : entry.2.id = call.id ∧ entry.2.name = call.name
      · -- A file has one call.
        have isHere := own.named _ entry isStored
        rw [FileBacklog.Candidate.of, same.1, same.2, ← FileBacklog.Candidate.of] at isHere
        have reads := (FileBacklog.mem_stored.mp isLater).2
        rw [isHere, (FileBacklog.mem_stored.mp isNew).2] at reads
        exact .inl (Option.some.inj reads).symm
      · exact .inr ⟨List.mem_map_of_mem isStored, same⟩
    · exact .inl rfl
  remains call after admissible stored other member differs isKept := by
    obtain ⟨later, ran, rfl⟩ := run_of_enqueue_files stored
    obtain ⟨alters, _⟩ := (FileBacklog.relates_enqueue admissible).run_except own.tree ran
    rw [calls_files] at member ⊢
    obtain ⟨entry, isStored, rfl⟩ := List.mem_map.mp member
    apply List.mem_map_of_mem
    apply alters.stays entry isStored
    rw [own.named _ entry isStored]
    rintro (sameFile | ⟨isLatest, sameMethod⟩)
    · exact differs (FileBacklog.fileName_injective sameFile)
    · exact isKept ⟨isLatest, FileBacklog.escape_injective sameMethod⟩

end

/-! ## Both -/

/-- Whatever a backlog without calls has been told, in memory a call is identified by its id,
and in files by its id and its method. -/
theorem identifies_afterAll {commands : List Command}
    (admissible : ∀ call, .enqueue call ∈ commands → call.invocation.Admissible) :
    Identifies (fun first second => first.id = second.id) id (inMemory.afterAll commands) ∧
      (∀ call, ((inMemory.afterAll commands).enqueue call).1 = .ok ()) ∧
      ∀ (files : FileBacklog) (disk : FileSystem), disk.IsTree →
        (∀ target, (ofStore (.files files disk)).calls target = []) →
          Identifies (fun first second => first.id = second.id ∧ first.name = second.name)
            StoredCall.kept ((ofStore (.files files disk)).afterAll commands) := by
  have orderedEmpty : MemoryBacklog.empty.calls.Pairwise MemoryBacklog.Before := List.Pairwise.nil
  obtain ⟨memory, isMemory, ordered⟩ := afterAll_memory orderedEmpty commands
  rw [inMemory, isMemory]
  refine ⟨identifies_memory ordered, ?_, ?_⟩
  · intro call
    rw [enqueue_memory]
  · intro files disk tree isEmpty
    obtain ⟨later, isLater, ownLater⟩ := afterAll_ownFiles (ownFiles_of_calls tree isEmpty) admissible
    rw [isLater]
    exact identifies_files ownLater

/-- In files, a call does not take the place of one that has its id, but another method. -/
theorem mem_calls_of_differs {files : FileBacklog} {disk : FileSystem} {first second : Call}
    (own : files.OwnFiles disk) (isFirst : first.invocation.Admissible)
    (isSecond : second.invocation.Admissible) (differs : first.name ≠ second.name)
    (sameTarget : first.target = second.target)
    (storesFirst : ((ofStore (.files files disk)).enqueue first).1 = .ok ())
    (storesSecond : (((ofStore (.files files disk)).enqueue first).2.enqueue second).1 = .ok ()) :
    StoredCall.kept first ∈ ((ofStore (.files files disk)).afterAll
        [.enqueue first, .enqueue second]).calls second.target ∧
      StoredCall.kept second ∈ ((ofStore (.files files disk)).afterAll
        [.enqueue first, .enqueue second]).calls second.target := by
  have admissible : ∀ call, Command.enqueue first = .enqueue call →
      call.invocation.Admissible := by
    rintro _ ⟨⟩
    exact isFirst
  obtain ⟨disk, isAfter, ownAfter⟩ := perform_ownFiles own admissible
  have isMiddle : ((ofStore (.files files _)).enqueue first).2 = ofStore (.files files disk) :=
    isAfter
  have stored : (ofStore (.files files _)).enqueue first = (.ok (), ofStore (.files files disk)) :=
    Prod.ext storesFirst isMiddle
  have isThere := (identifies_files own).stores first _ isFirst stored
  rw [sameTarget] at isThere
  rw [isMiddle] at storesSecond
  have identifies := identifies_files ownAfter
  have stored : (ofStore (.files files disk)).enqueue second =
      (.ok (), ((ofStore (.files files disk)).enqueue second).2) := Prod.ext storesSecond rfl
  rw [afterAll, isAfter]
  refine ⟨?_, identifies.stores second _ isSecond stored⟩
  apply identifies.remains second _ isSecond stored _ isThere
  · exact fun same => differs same.2
  · exact fun supersedes => differs supersedes.2

/-- A call with a certain id. -/
def numbered (name : String) : Call where
  target := .server
  invocation := ⟨5, name, []⟩
  policy := some .retry
  timeout := none
  startedAt := none
  reply := none

theorem calls_empty (target : Peer) : (ofStore (.files ⟨[], ""⟩ .empty)).calls target = [] := by
  rw [calls_files, List.map_eq_nil_iff]
  apply FileBacklog.ReadsAlike.stored_eq_nil
  apply FileBacklog.found_eq_nil
  intro reached
  cases FileSystem.at?_eq_of_find reached

theorem identifies_afterAll_numbered :
    Identifies (fun first second => first.id = second.id) id
        (inMemory.afterAll [.enqueue (numbered "A"), .enqueue (numbered "B")]) ∧
      Identifies (fun first second => first.id = second.id ∧ first.name = second.name)
        StoredCall.kept ((ofStore (.files ⟨[], ""⟩ .empty)).afterAll
          [.enqueue (numbered "A"), .enqueue (numbered "B")]) := by
  have admissible : ∀ call, .enqueue call ∈ [Command.enqueue (numbered "A"),
      .enqueue (numbered "B")] → call.invocation.Admissible := by
    simp only [List.mem_cons, Command.enqueue.injEq, List.not_mem_nil, or_false]
    rintro _ (rfl | rfl) <;> constructor <;> simp only [numbered] <;> decide
  obtain ⟨memory, _, files⟩ := identifies_afterAll admissible
  exact ⟨memory, files _ _ FileSystem.isTree_empty calls_empty⟩

/-- In files the id alone does not identify a call. -/
theorem not_pairwise_calls : ¬ ∀ (files : FileBacklog) (disk : FileSystem)
    (commands : List Command), disk.IsTree →
      (∀ target, (ofStore (.files files disk)).calls target = []) →
      (∀ call, .enqueue call ∈ commands → call.invocation.Admissible) →
        ∀ target, (((ofStore (.files files disk)).afterAll commands).calls target).Pairwise
          fun first second => first.id < second.id := by
  intro ordered
  have admissible : ∀ name ∈ ["A", "B"], (numbered name).invocation.Admissible := by
    simp only [List.mem_cons, List.not_mem_nil, or_false]
    rintro _ (rfl | rfl) <;> constructor <;> simp only [numbered] <;> decide
  have inOrder := ordered ⟨[], ""⟩ .empty [.enqueue (numbered "A"), .enqueue (numbered "B")]
    FileSystem.isTree_empty calls_empty (by
      simp only [List.mem_cons, Command.enqueue.injEq, List.not_mem_nil, or_false]
      rintro _ (rfl | rfl) <;> exact admissible _ (by decide)) .server
  have differs : (numbered "A").name ≠ (numbered "B").name := by decide
  obtain ⟨first, second⟩ := mem_calls_of_differs
    (ownFiles_of_calls FileSystem.isTree_empty calls_empty) (admissible "A" (by decide))
    (admissible "B" (by decide)) differs rfl (by rfl) (by rfl)
  have same := FileBacklog.eq_of_id_eq inOrder first second rfl
  exact absurd (congrArg Call.name same) (by decide)

end Backlog

end PeerCalls
