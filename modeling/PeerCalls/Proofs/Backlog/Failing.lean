import PeerCalls.Proofs.Backlog.Surviving

/-!
# Calls that cannot be stored

If a call is not stored, then the calls to other targets and those of other methods are read
as before, and there is no new call. If only the latest call of a method counts, then the older
ones are gone before the file of the new one is made. They are lost if this fails, so it must
be known before that nothing is in the way: the name of the unfinished file is not too long,
and the place for it and the files that go are not taken by something else.
-/

namespace PeerCalls.FileBacklog

open Backlog (Fault Command Activity)
open FileSystem

/-- Nothing is in the way of a call that replaces the others of its method. -/
structure Unhindered (backlog : FileBacklog) (disk : FileSystem) (call : Call) : Prop where
  short : (partialName (fileName call.id call.name)).length ≤ maxNameLength
  free : ∀ entry ∈ disk.at? (backlog.path call.target (partialName (fileName call.id call.name))),
    entry ≠ .directory ∧ entry ≠ .link
  files : ∀ candidate ∈ backlog.found disk call.target, candidate.method = escape call.name →
    disk.at? (backlog.path call.target candidate.file) ≠ some .directory

/-- What is left when a call was not stored. -/
structure KeepsOthers (backlog : FileBacklog) (call : Call) (disk after : FileSystem) : Prop where
  targets : ∀ target, target ≠ call.target → backlog.ReadsAlike target disk after
  nothingNew : ∀ entry ∈ backlog.stored after call.target, entry ∈ backlog.stored disk call.target
  methods : ∀ entry ∈ backlog.stored disk call.target,
    ¬ (call.isLatest = true ∧ entry.1.method = escape call.name) →
      entry ∈ backlog.stored after call.target
  /-- Nothing is lost if the call replaces no others, or if nothing is in its way. -/
  all : (call.isLatest = true → backlog.Unhindered disk call) →
    backlog.ReadsAlike call.target disk after

section

variable {backlog : FileBacklog} {disk after : FileSystem} {target : Peer} {file : FileName}
  {call : Call}

/-! ## Where nothing is in the way -/

/-- Of the files of a target some are gone. -/
structure Clears (backlog : FileBacklog) (target : Peer) (disk after : FileSystem) : Prop where
  reached : after.find (backlog.directory target) = .ok (some .directory)
  fewer : ∀ path, after.at? path = disk.at? path ∨ after.at? path = none

theorem Clears.at?_eq {path : Path} {entry : Entry} (clears : backlog.Clears target disk after)
    (isThere : after.at? path = some entry) : disk.at? path = some entry := by
  rcases clears.fewer path with same | gone
  · rwa [← same]
  · rw [isThere] at gone
    cases gone

theorem run_removeFile_cleared
    (reached : disk.find (backlog.directory target) = .ok (some .directory))
    (fits : file.length ≤ maxNameLength)
    (noDirectory : disk.at? (backlog.path target file) ≠ some .directory) :
    ∃ wasThere after, (backlog.removeFile target file).run.run disk = (.ok wasThere, after) ∧
      backlog.Clears target disk after := by
  have found := find_concat reached fits
  rw [← path] at found
  unfold removeFile
  rw [run_bind_ok _ (run_request _ disk)]
  cases there : disk.at? (backlog.path target file) with
  | none =>
      refine ⟨false, disk, ?_, reached, fun _ => .inl rfl⟩
      simp only [perform, change, FileSystem.remove, found, there, bind, Except.bind]
      rfl
  | some entry =>
      refine ⟨true, disk.erase (backlog.path target file), ?_, ?_, ?_⟩
      · rw [there] at noDirectory found
        cases entry with
        | directory => exact absurd rfl noDirectory
        | file content | link =>
            simp only [perform, change, FileSystem.remove, found, bind, Except.bind, pure,
              Except.pure]
            rfl
      · rw [find_erase (by rw [length_path, length_directory]; omega), reached]
      · intro other
        rw [at?_erase (path_ne_nil _ _ _)]
        split
        · exact .inr rfl
        · exact .inl rfl

theorem run_removeFiles_cleared {candidates : List Candidate}
    (reached : disk.find (backlog.directory target) = .ok (some .directory))
    (removable : ∀ candidate ∈ candidates, candidate.file.length ≤ maxNameLength ∧
      disk.at? (backlog.path target candidate.file) ≠ some .directory) :
    ∃ count after, (backlog.removeFiles target candidates).run.run disk = (.ok count, after) ∧
      backlog.Clears target disk after := by
  induction candidates generalizing disk with
  | nil => exact ⟨0, disk, rfl, reached, fun _ => .inl rfl⟩
  | cons candidate rest ih =>
      rw [List.forall_mem_cons] at removable
      obtain ⟨⟨fits, noDirectory⟩, others⟩ := removable
      obtain ⟨wasThere, middle, ran, first⟩ := run_removeFile_cleared reached fits noDirectory
      have stillRemovable : ∀ other ∈ rest, other.file.length ≤ maxNameLength ∧
          middle.at? (backlog.path target other.file) ≠ some .directory := by
        intro other member
        obtain ⟨fits, noDirectory⟩ := others other member
        exact ⟨fits, fun isThere => noDirectory (first.at?_eq isThere)⟩
      obtain ⟨count, after, ranRest, last⟩ := ih first.reached stillRemovable
      refine ⟨(if wasThere then 1 else 0) + count, after, ?_, last.reached, ?_⟩
      · rw [removeFiles, run_bind_ok _ ran, run_bind_ok _ ranRest]
        rfl
      · intro path
        rcases last.fewer path with same | gone
        · rw [same]
          exact first.fewer path
        · exact .inr gone

theorem run_makeDirectories_there
    (reached : disk.find (backlog.directory target) = .ok (some .directory)) :
    (makeDirectories (backlog.root.length + 1) (backlog.directory target).reverse).run disk =
      (.ok (), disk) := by
  have isThere : disk.isDirectory (backlog.directory target) = true := isDirectory_eq reached
  rw [directory] at reached isThere
  rw [directory, List.reverse_append, List.reverse_singleton, List.singleton_append,
    makeDirectories, List.reverse_cons, List.reverse_reverse, DiskProgram.run_bind]
  simp only [DiskProgram.request, DiskProgram.run, perform, change, FileSystem.makeDirectory,
    reached, bind, Except.bind, throw, throwThe, MonadExceptOf.throw]
  simp only [makeDirectories.orThere, DiskProgram.run_bind, DiskProgram.request, DiskProgram.run,
    perform, isThere]
  rfl

/-- A file is written and gets its name if neither of its two places is taken by something
else. -/
theorem exists_named {directory : Path} {name destination : FileName}
    (reached : disk.find directory = .ok (some .directory)) (fits : name.length ≤ maxNameLength)
    (short : destination.length ≤ maxNameLength)
    (free : ∀ entry ∈ disk.at? (directory ++ [name]), entry ≠ .directory ∧ entry ≠ .link)
    (noDirectory : disk.at? (directory ++ [destination]) ≠ some .directory) (content : Bytes) :
    ∃ made written after,
      disk.perform (.makeFile (directory ++ [name])) = (.ok (), made) ∧
      made.perform (.append (directory ++ [name]) content) = (.ok (), written) ∧
      written.perform (.rename (directory ++ [name]) (directory ++ [destination])) =
        (.ok (), after) := by
  have nonempty : directory ++ [name] ≠ [] := by simp
  have longer : directory.length < (directory ++ [name]).length := by simp
  have makes : disk.makeFile (directory ++ [name]) =
      .ok (disk.put (directory ++ [name]) (.file [])) := by
    simp only [FileSystem.makeFile, find_concat reached fits]
    rcases there : disk.at? (directory ++ [name]) with _ | _ | old | _
    · rfl
    · exact absurd rfl (free _ there).1
    · rfl
    · exact absurd rfl (free _ there).2
  have reachedMade := (find_put longer (.file [])).trans reached
  have isMade : (disk.put (directory ++ [name]) (.file [])).at? (directory ++ [name]) =
      some (.file []) := by
    rw [at?_put nonempty, if_pos rfl]
  have writes := append_eq reachedMade fits isMade content
  have reachedWritten := (find_put longer (.file ([] ++ content))).trans reachedMade
  have isFree : ((disk.put (directory ++ [name]) (.file [])).put (directory ++ [name])
      (.file ([] ++ content))).at? (directory ++ [destination]) ≠ some .directory := by
    rw [at?_put nonempty, at?_put nonempty]
    split
    · simp
    · exact noDirectory
  have renames := rename_eq reachedWritten fits short
    ((at?_put nonempty _ _).trans (if_pos rfl)) isFree
  exact ⟨_, _, _, congrArg (change _) makes, congrArg (change _) writes,
    congrArg (change _) renames⟩

/-- A call is stored if there is a place for its file, before and after it has its name. -/
theorem exists_run_store
    (reached : disk.find (backlog.directory call.target) = .ok (some .directory))
    (short : (partialName (fileName call.id call.name)).length ≤ maxNameLength)
    (free : ∀ entry ∈ disk.at? (backlog.path call.target
      (partialName (fileName call.id call.name))), entry ≠ .directory ∧ entry ≠ .link)
    (noDirectory : disk.at? (backlog.fileOf call) ≠ some .directory) :
    ∃ after, (backlog.store call).run.run disk = (.ok (), after) := by
  have shortName : (fileName call.id call.name).length ≤ maxNameLength := by
    simp only [partialName, List.length_append, List.length_cons] at short
    omega
  obtain ⟨made, written, after, makes, writes, renames⟩ :=
    exists_named reached short shortName free noDirectory (StoredCall.encode call)
  refine ⟨after, ?_⟩
  unfold store
  refine (run_bind_ok _ (run_lift (run_makeDirectories_there reached))).trans ?_
  refine (run_bind_ok _ (run_demand makes)).trans ?_
  refine (run_bind_ok _ (run_demand writes)).trans ?_
  refine (run_bind_ok _ (run_demand rfl)).trans ?_
  exact run_demand renames

end

/-! ## A name that is too long -/

section

variable {disk after : FileSystem}

theorem run_bind_error {α β : Type} {program : Program α} {fault : Fault} (next : α → Program β)
    (ran : program.run.run disk = (.error fault, after)) :
    (program >>= next).run.run disk = (.error fault, after) := by
  rw [DiskProgram.run_bind_except_error (congrArg Prod.fst ran), ran]

theorem run_demand_refused {activity : Activity} {request : DiskRequest} {fault : DiskFault}
    (refused : disk.perform request = (.error fault, after)) :
    (demand activity request).run.run disk = (.error (.disk activity fault), after) := by
  rw [run_demand_eq, refused]
  rfl

end

section

variable {backlog : FileBacklog} {stored : Call → Prop} {disk : FileSystem} {calls : List Call}
  {call : Call}

/-- There is a place for the target, but the name of the unfinished file does not fit. -/
theorem exists_run_store_tooLong (holds : Holds backlog stored disk)
    (fits : (directoryName call.target).length ≤ maxNameLength)
    (long : maxNameLength < (partialName (fileName call.id call.name)).length) :
    ∃ after, (backlog.store call).run.run disk =
        (.error (.disk (.makingFile (backlog.pathText call.target
          (partialName (fileName call.id call.name)))) .nameTooLong), after) ∧
      Holds backlog stored after := by
  obtain ⟨after, makes, holdsAfter, there⟩ := run_makeDirectories holds fits
  have reached : after.find (backlog.directory call.target) = .ok (some .directory) := by
    rw [holdsAfter.find_directory fits, there]
  have refused : after.perform (.makeFile
      (backlog.path call.target (partialName (fileName call.id call.name)))) =
        (.error .nameTooLong, after) := by
    simp only [perform, FileSystem.makeFile, path, find_tooLong reached long]
    rfl
  refine ⟨after, ?_, holdsAfter⟩
  unfold store
  refine (run_bind_ok _ (run_lift makes)).trans ?_
  exact run_bind_error _ (run_demand_refused refused)

/-- The calls that were to be replaced are gone then, and the new one is not there. -/
theorem exists_run_enqueue_tooLong (holds : Holds backlog stored disk)
    (lists : Lists stored call.target calls)
    (fits : (directoryName call.target).length ≤ maxNameLength) (isLatest : call.isLatest = true)
    (long : maxNameLength < (partialName (fileName call.id call.name)).length) :
    ∃ after, (backlog.enqueue call).run.run disk =
        (.error (.disk (.makingFile (backlog.pathText call.target
          (partialName (fileName call.id call.name)))) .nameTooLong), after) ∧
      Holds backlog
        (fun other => stored other ∧ ¬ (other.target = call.target ∧ other.name = call.name))
        after := by
  obtain ⟨cleared, removes, holdsCleared⟩ := run_removeByName holds lists fits call.name
  obtain ⟨after, stores, holdsAfter⟩ := exists_run_store_tooLong holdsCleared fits long
  refine ⟨after, ?_, holdsAfter⟩
  unfold enqueue
  rw [if_pos isLatest]
  exact (run_bind_ok _ removes).trans stores

end

theorem ofText_replicate (count : Nat) :
    Bytes.ofText (String.ofList (List.replicate count 'a')) = List.replicate count 97 := by
  have ascii : ∀ character ∈ List.replicate count 'a', character.toNat < 128 := by
    intro character member
    rw [List.eq_of_mem_replicate member]
    decide
  rw [Bytes.ofText_ofList ascii, List.map_replicate]
  rfl

theorem length_escape_replicate (count : Nat) :
    (escape (String.ofList (List.replicate count 'a'))).length = count := by
  rw [escape, ofText_replicate, List.length_flatMap, List.map_replicate, List.sum_replicate_nat]
  exact Nat.mul_one count

/-- A call of a method with a long name, of which only the latest call counts. -/
def verbose (id : UInt64) : Call where
  target := .server
  invocation := ⟨id, String.ofList (List.replicate 248 'a'), []⟩
  policy := some .latest
  timeout := none
  startedAt := none
  reply := none

theorem admissible_verbose (id : UInt64) : (verbose id).invocation.Admissible where
  name member := by
    rw [verbose, ofText_replicate] at member
    exact absurd (List.eq_of_mem_replicate member) (by decide)
  params := Nat.zero_le _
  lengths _ member := absurd member List.not_mem_nil

theorem length_partialName_verbose (id : UInt64) :
    (partialName (fileName id (verbose id).name)).length =
      (Bytes.ofText (toString id.toNat)).length + 254 := by
  simp only [partialName, fileName, verbose, Call.name, List.length_append, List.length_cons,
    length_escape_replicate]
  rfl

theorem length_directoryName_server : (directoryName .server).length ≤ maxNameLength := by
  decide

/-- An empty directory has the files of no calls. -/
theorem holds_empty {backlog : FileBacklog} {disk : FileSystem}
    (reached : disk.find backlog.root = .ok (some .directory))
    (isEmpty : ∀ path ≠ [], disk.at? (backlog.root ++ path) = none) :
    Holds backlog (fun _ => False) disk := by
  apply (Backlog.agrees_empty reached isEmpty []).holds.congr
  simp [MemoryBacklog.empty]

/-- The file of the first call has a name that is as long as it can be. -/
theorem exists_run_enqueue_verbose : ∃ disk,
    (FileBacklog.enqueue ⟨[], ""⟩ (verbose 1)).run.run .empty = (.ok (), disk) ∧
      Holds ⟨[], ""⟩ (· = verbose 1) disk := by
  have empty : Holds ⟨[], ""⟩ (fun _ => False) .empty :=
    holds_empty rfl fun path nonempty => at?_empty nonempty
  have storable : Storable (verbose 1) := by
    refine ⟨admissible_verbose 1, rfl, rfl, ?_, length_directoryName_server, ?_⟩
    · rintro _ ⟨⟩
    · exact Nat.le_of_eq (length_partialName_verbose 1)
  obtain ⟨disk, ran, holds⟩ := run_enqueue empty (lists_empty (verbose 1).target) storable
  exact ⟨disk, ran, holds.congr fun other => by simp⟩

/-- There is no room for another digit. -/
theorem exists_lost : ∃ disk after fault, disk.IsTree ∧
    (FileBacklog.enqueue ⟨[], ""⟩ (verbose 10)).run.run disk = (.error fault, after) ∧
    ((FileBacklog.readAll ⟨[], ""⟩ .server).run.run disk).1 = .ok [verbose 1] ∧
    ((FileBacklog.readAll ⟨[], ""⟩ .server).run.run after).1 = .ok [] := by
  have fits := length_directoryName_server
  obtain ⟨disk, ran, holds⟩ := exists_run_enqueue_verbose
  have lists : Lists (· = verbose 1) (verbose 10).target [verbose 1] :=
    lists_singleton (verbose 1)
  have long : maxNameLength < (partialName (fileName 10 (verbose 10).name)).length := by
    rw [length_partialName_verbose 10]
    decide
  obtain ⟨after, failed, holdsAfter⟩ := exists_run_enqueue_tooLong holds lists fits rfl long
  have listsAfter : Lists (fun other => other = verbose 1 ∧
      ¬ (other.target = (verbose 10).target ∧ other.name = (verbose 10).name)) .server [] := by
    refine ⟨fun other => ?_, List.Pairwise.nil⟩
    simp only [List.not_mem_nil, false_iff]
    rintro ⟨⟨rfl, differs⟩, _⟩
    exact differs ⟨rfl, rfl⟩
  refine ⟨disk, after, _, DiskProgram.isTree_of_run isTree_empty ran, failed, ?_, ?_⟩
  · exact congrArg Prod.fst (run_readAll holds lists fits)
  · exact congrArg Prod.fst (run_readAll holdsAfter listsAfter fits)

/-! ## What is lost -/

section

variable {backlog : FileBacklog} {disk after : FileSystem} {target : Peer} {call : Call}

/-- Wherever the files of a target can be listed and nothing is in the way, a call is stored. -/
theorem exists_run_enqueue (tree : disk.IsTree)
    (reached : disk.find (backlog.directory call.target) = .ok (some .directory))
    (isLatest : call.isLatest = true) (unhindered : backlog.Unhindered disk call) :
    ∃ after, (backlog.enqueue call).run.run disk = (.ok (), after) := by
  have listed : backlog.unlisted? disk call.target = none := by
    rw [unlisted?, list_eq reached]
  have candidates : (backlog.candidates call.target).run.run disk =
      (.ok (backlog.found disk call.target), disk) := by
    rw [run_candidates_found, listed]
  have removable : ∀ candidate ∈ (backlog.found disk call.target).filter
      (·.method = escape call.name), candidate.file.length ≤ maxNameLength ∧
        disk.at? (backlog.path call.target candidate.file) ≠ some .directory := by
    intro candidate member
    obtain ⟨member, selected⟩ := List.mem_filter.mp member
    exact ⟨tree.short _ _ ((mem_found reached).mp member).1,
      unhindered.files candidate member (of_decide_eq_true selected)⟩
  obtain ⟨count, cleared, ran, clears⟩ := run_removeFiles_cleared reached removable
  have noDirectory : cleared.at? (backlog.fileOf call) ≠ some .directory := by
    intro isThere
    have wasThere := clears.at?_eq isThere
    have member : Candidate.of call ∈ backlog.found disk call.target :=
      (mem_found reached).mpr ⟨Option.isSome_of_eq_some wasThere, ofName?_fileName _ _⟩
    exact unhindered.files _ member rfl wasThere
  have free : ∀ entry ∈ cleared.at? (backlog.path call.target
      (partialName (fileName call.id call.name))), entry ≠ .directory ∧ entry ≠ .link :=
    fun entry isThere => unhindered.free entry (clears.at?_eq isThere)
  obtain ⟨after, stores⟩ := exists_run_store clears.reached unhindered.short free noDirectory
  refine ⟨after, ?_⟩
  unfold enqueue
  rw [if_pos isLatest]
  have removes : (backlog.removeByName call.target call.name).run.run disk =
      (.ok count, cleared) := by
    unfold removeByName
    exact (run_bind_ok _ candidates).trans ran
  exact (run_bind_ok _ removes).trans stores

/-- Nothing is taken away where nothing is found. -/
theorem run_removeByName_unfound {name : String} (unfound : backlog.found disk target = []) :
    ((backlog.removeByName target name).run.run disk).2 = disk := by
  have candidates := @run_candidates_found backlog disk target
  rw [unfound] at candidates
  unfold removeByName
  cases unlisted : backlog.unlisted? disk target with
  | none =>
      rw [unlisted] at candidates
      rw [run_bind_ok _ candidates]
      rfl
  | some fault =>
      rw [unlisted] at candidates
      rw [DiskProgram.run_bind_except_error (congrArg Prod.fst candidates), candidates]

/-- A call that fails to be stored has been seen by nobody, but the calls that it was to
replace may be gone. -/
theorem alters_of_failed {fault : Fault} (tree : disk.IsTree)
    (failed : (backlog.enqueue call).run.run disk = (.error fault, after)) :
    backlog.Alters call.target
      (fun candidate => call.isLatest = true ∧ candidate.method = escape call.name)
      (fun _ => False) disk after ∧
    (call.isLatest = false ∨ backlog.found disk call.target = [] → backlog.Unseen disk after) := by
  have storeFails : ∀ {disk : FileSystem}, disk.IsTree →
      (backlog.store call).run.run disk = (.error fault, after) → backlog.Unseen disk after := by
    intro disk tree ran
    have unseen := commits_store.fails tree (congrArg Prod.fst ran)
    rwa [ran] at unseen
  unfold enqueue at failed
  by_cases isLatest : call.isLatest = true
  · rw [if_pos isLatest] at failed
    have removes : backlog.Alters call.target (·.method = escape call.name) (fun _ => False) disk
        ((backlog.removeByName call.target call.name).run.run disk).2 :=
      relates_removeByName call.name tree (DiskProgram.leaves_run _ _)
    have removed : backlog.Alters call.target
        (fun candidate => call.isLatest = true ∧ candidate.method = escape call.name)
        (fun _ => False) disk ((backlog.removeByName call.target call.name).run.run disk).2 :=
      removes.mono (fun _ selected => ⟨isLatest, selected⟩) fun _ => id
    cases result : ((backlog.removeByName call.target call.name).run.run disk).1 with
    | error early =>
        rw [DiskProgram.run_bind_except_error result] at failed
        cases failed
        refine ⟨removed, fun unfound => ?_⟩
        rw [run_removeByName_unfound (unfound.resolve_left (by simp [isLatest]))]
        exact Std.Refl.refl _
    | ok count =>
        rw [DiskProgram.run_bind_except result] at failed
        have unseen := storeFails (DiskProgram.isTree_run tree _) failed
        refine ⟨IsTrans.trans _ _ _ removed unseen.alters, fun unfound => ?_⟩
        rwa [run_removeByName_unfound (unfound.resolve_left (by simp [isLatest]))] at unseen
  · rw [if_neg isLatest] at failed
    have unseen := storeFails tree failed
    exact ⟨unseen.alters, fun _ => unseen⟩

/-- If a call is not stored, then at most calls of its method are lost, and only if it was to
replace them and something was in its way. -/
theorem keepsOthers_of_failed {fault : Fault} (tree : disk.IsTree)
    (failed : (backlog.enqueue call).run.run disk = (.error fault, after)) :
    backlog.KeepsOthers call disk after := by
  obtain ⟨alters, unseen⟩ := alters_of_failed tree failed
  refine ⟨alters.others, ?_, alters.stays, ?_⟩
  · exact fun entry member => (alters.mem entry member).resolve_right id
  · intro unhindered
    apply unseen _ call.target
    cases isLatest : call.isLatest with
    | false => exact .inl rfl
    | true =>
        refine .inr (found_eq_nil fun reached => ?_)
        obtain ⟨stored, ran⟩ := exists_run_enqueue tree reached isLatest (unhindered isLatest)
        cases failed.symm.trans ran

end

theorem keepsOthers_of_failed_verbose : ∃ disk after fault,
    (FileBacklog.enqueue ⟨[], ""⟩ (verbose 10)).run.run disk = (.error fault, after) ∧
      FileBacklog.KeepsOthers ⟨[], ""⟩ (verbose 10) disk after := by
  obtain ⟨disk, after, fault, tree, failed, _, _⟩ := exists_lost
  exact ⟨disk, after, fault, failed, keepsOthers_of_failed tree failed⟩

/-- It is not true that nothing is lost when a call is not stored. -/
theorem not_unchanged_of_failed : ¬ ∀ (backlog : FileBacklog) (disk after : FileSystem)
    (call : Call) (fault : Fault), disk.IsTree → call.invocation.Admissible →
      (backlog.enqueue call).run.run disk = (.error fault, after) → ∀ target,
        ((backlog.readAll target).run.run after).1 =
          ((backlog.readAll target).run.run disk).1 := by
  intro unchanged
  obtain ⟨disk, after, fault, tree, failed, first, none⟩ := exists_lost
  have same := unchanged _ disk after _ fault tree (admissible_verbose 10) failed .server
  rw [first, none] at same
  cases same

end PeerCalls.FileBacklog
