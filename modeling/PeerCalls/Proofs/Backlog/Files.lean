import PeerCalls.Proofs.Backlog.Keeping
import PeerCalls.Proofs.Backlog.Names
import PeerCalls.Proofs.Disk
import PeerCalls.Proofs.Frame.StoredCall

/-!
# What a backlog in files does

A disk holds calls if each of them has a file of its own in the directory of its target, and
if there are no other files there. The programs of a backlog then find the calls in the
order of their ids, whatever the order in which the file system lists the files, and leave
a disk that holds what is left.
-/

namespace PeerCalls.FileBacklog

open Backlog (Fault Activity)
open FileSystem

/-! ## Programs -/

section

variable {α β : Type} {disk after : FileSystem}

theorem run_bind_ok {program : Program α} {value : α} (next : α → Program β)
    (ran : program.run.run disk = (.ok value, after)) :
    (program >>= next).run.run disk = (next value).run.run after := by
  rw [ExceptT.run_bind, DiskProgram.run_bind, ran]

/-- Every request has an answer, granted or not. -/
theorem run_request (request : DiskRequest) (disk : FileSystem) :
    (liftM (DiskProgram.request request) : Program _).run.run disk =
      (.ok (disk.perform request).1, (disk.perform request).2) := rfl

theorem run_lift {program : DiskProgram α} {value : α} (ran : program.run disk = (value, after)) :
    (liftM program : Program α).run.run disk = (.ok value, after) := by
  have bound := DiskProgram.run_bind program
    (fun value => pure (Except.ok value : Except Fault α)) disk
  rw [ran] at bound
  exact bound

theorem run_demand {activity : Activity} {request : DiskRequest} {answer : request.Answer}
    (granted : disk.perform request = (.ok answer, after)) :
    (demand activity request).run.run disk = (.ok answer, after) := by
  unfold demand
  rw [run_bind_ok _ (run_request request disk), granted]
  rfl

end

/-! ## Disks with calls -/

/-- A call that is read from its file as it is: it has a frame and no attempt, its timeout is
a number of milliseconds, and no name that is made for it is too long. -/
structure Storable (call : Call) : Prop where
  admissible : call.invocation.Admissible
  startedAt : call.startedAt = none
  reply : call.reply = none
  timeout : ∀ timeout ∈ call.timeout, ∃ count < UInt64.size, timeout = Span.ofMilliseconds count
  directory : (directoryName call.target).length ≤ maxNameLength
  file : (partialName (fileName call.id call.name)).length ≤ maxNameLength

theorem Storable.kept_eq {call : Call} (storable : Storable call) :
    StoredCall.kept call = call := by
  obtain ⟨target, invocation, policy, timeout, startedAt, reply⟩ := call
  obtain ⟨_, isFresh, isOpen, whole, _, _⟩ := storable
  obtain rfl : startedAt = none := isFresh
  obtain rfl : reply = none := isOpen
  cases timeout with
  | none => rfl
  | some timeout =>
      obtain ⟨count, fits, rfl⟩ := whole timeout rfl
      have same := StoredCall.keptTimeout_ofMilliseconds (UInt64.ofNat count)
      rw [UInt64.toNat_ofNat_of_lt' fits] at same
      simp only [StoredCall.kept, Option.map_some, same]
      rfl

theorem Storable.length_fileName {call : Call} (storable : Storable call) :
    (fileName call.id call.name).length ≤ maxNameLength := by
  have bound := storable.file
  simp only [partialName, List.length_append, List.length_cons] at bound
  omega

/-- The path of the file of a call. -/
def fileOf (backlog : FileBacklog) (call : Call) : Path :=
  backlog.path call.target (fileName call.id call.name)

/-- Below the directory of a backlog a disk has the files of some calls and no others. -/
structure Holds (backlog : FileBacklog) (stored : Call → Prop) (disk : FileSystem) : Prop where
  root : disk.find backlog.root = .ok (some .directory)
  directory : ∀ target, disk.at? (backlog.directory target) = none ∨
    disk.at? (backlog.directory target) = some .directory
  storable : ∀ call, stored call → Storable call
  present : ∀ call, stored call → disk.at? (backlog.directory call.target) = some .directory
  content : ∀ call, stored call →
    disk.at? (backlog.fileOf call) = some (.file (StoredCall.encode call))
  onlyCalls : ∀ target name, (disk.at? (backlog.path target name)).isSome = true →
    ∃ call, stored call ∧ call.target = target ∧ fileName call.id call.name = name
  distinct : ∀ target, (disk.namesIn (backlog.directory target)).Nodup

section

variable {backlog : FileBacklog} {target other : Peer} {file name : FileName}

theorem directory_injective (same : backlog.directory target = backlog.directory other) :
    target = other := by
  apply directoryName_injective
  exact List.singleton_injective (List.append_cancel_left same)

theorem path_injective (same : backlog.path target file = backlog.path other name) :
    target = other ∧ file = name := by
  obtain ⟨directories, files⟩ := List.append_inj' same rfl
  exact ⟨directory_injective directories, List.singleton_injective files⟩

theorem length_directory (backlog : FileBacklog) (target : Peer) :
    (backlog.directory target).length = backlog.root.length + 1 := by
  simp [directory]

theorem length_path (backlog : FileBacklog) (target : Peer) (file : FileName) :
    (backlog.path target file).length = backlog.root.length + 2 := by
  simp [path, directory]

theorem directory_ne_nil (backlog : FileBacklog) (target : Peer) :
    backlog.directory target ≠ [] := by
  simp [directory]

theorem path_ne_nil (backlog : FileBacklog) (target : Peer) (file : FileName) :
    backlog.path target file ≠ [] := by
  simp [path]

theorem directory_ne_path : backlog.directory target ≠ backlog.path other file := by
  intro same
  have lengths := congrArg List.length same
  rw [length_directory, length_path] at lengths
  omega

end

namespace Holds

variable {backlog : FileBacklog} {stored left : Call → Prop} {disk changed : FileSystem}
  {target : Peer} {call : Call}

theorem congr (holds : Holds backlog stored disk) (same : ∀ call, left call ↔ stored call) :
    Holds backlog left disk := by
  have equal : left = stored := funext fun call => propext (same call)
  rwa [equal]

/-- Only what is at the paths counts, and that no directory lists a name twice. -/
theorem of_same (holds : Holds backlog stored disk)
    (same : ∀ path, changed.at? path = disk.at? path)
    (distinct : ∀ target, (changed.namesIn (backlog.directory target)).Nodup) :
    Holds backlog stored changed where
  root := (find_congr fun path _ => same path).trans holds.root
  directory target := by
    rw [same]
    exact holds.directory target
  storable := holds.storable
  present call isStored := (same _).trans (holds.present call isStored)
  content call isStored := (same _).trans (holds.content call isStored)
  onlyCalls target name := by
    rw [same]
    exact holds.onlyCalls target name
  distinct := distinct

theorem find_directory (holds : Holds backlog stored disk)
    (fits : (directoryName target).length ≤ maxNameLength) :
    disk.find (backlog.directory target) = .ok (disk.at? (backlog.directory target)) :=
  find_concat holds.root fits

theorem reached (holds : Holds backlog stored disk) (isStored : stored call) :
    disk.find (backlog.directory call.target) = .ok (some .directory) := by
  rw [holds.find_directory (holds.storable call isStored).directory, holds.present call isStored]

/-- Two calls to a target with the same file are the same call. -/
theorem eq_of_fileName_eq (holds : Holds backlog stored disk) {first second : Call}
    (isFirst : stored first) (isSecond : stored second) (sameTarget : first.target = second.target)
    (sameFile : fileName first.id first.name = fileName second.id second.name) :
    first = second := by
  have firstIs := holds.storable first isFirst
  have secondIs := holds.storable second isSecond
  have content := holds.content first isFirst
  rw [fileOf, sameTarget, sameFile, ← fileOf, holds.content second isSecond, Option.some.injEq,
    Entry.file.injEq] at content
  have read := StoredCall.decode_encode firstIs.admissible
  rw [← content, sameTarget, StoredCall.decode_encode secondIs.admissible, secondIs.kept_eq,
    firstIs.kept_eq, Except.ok.injEq] at read
  exact read.symm

/-- A file goes away, and with it the call in it. -/
theorem erase (holds : Holds backlog stored disk) (target : Peer) (file : FileName) :
    Holds backlog
      (fun call => stored call ∧ ¬ (call.target = target ∧ fileName call.id call.name = file))
      (disk.erase (backlog.path target file)) where
  root := by
    rw [find_erase (by rw [length_path]; omega)]
    exact holds.root
  directory other := by
    rw [at?_erase (path_ne_nil _ _ _), if_neg directory_ne_path]
    exact holds.directory other
  storable call isStored := holds.storable call isStored.1
  present call isStored := by
    rw [at?_erase (path_ne_nil _ _ _), if_neg directory_ne_path]
    exact holds.present call isStored.1
  content call isStored := by
    rw [fileOf, at?_erase (path_ne_nil _ _ _),
      if_neg fun same => isStored.2 (path_injective same)]
    exact holds.content call isStored.1
  onlyCalls other name there := by
    rw [at?_erase (path_ne_nil _ _ _)] at there
    split at there
    next => cases there
    next elsewhere =>
      obtain ⟨call, isStored, rfl, rfl⟩ := holds.onlyCalls other name there
      refine ⟨call, ⟨isStored, ?_⟩, rfl, rfl⟩
      rintro ⟨rfl, rfl⟩
      exact elsewhere rfl
  distinct other := nodup_namesIn_erase (holds.distinct other) _

/-- A call comes into its file, instead of another one that was there. -/
theorem put (holds : Holds backlog stored disk) (storable : Storable call)
    (there : disk.at? (backlog.directory call.target) = some .directory) :
    Holds backlog
      (fun other => other = call ∨ stored other ∧ ¬ (other.target = call.target ∧
        fileName other.id other.name = fileName call.id call.name))
      (disk.put (backlog.fileOf call) (.file (StoredCall.encode call))) where
  root := by
    rw [find_put (by rw [fileOf, length_path]; omega)]
    exact holds.root
  directory other := by
    rw [fileOf, at?_put (path_ne_nil _ _ _), if_neg directory_ne_path]
    exact holds.directory other
  storable other isStored := by
    rcases isStored with rfl | ⟨isStored, _⟩
    · exact storable
    · exact holds.storable other isStored
  present other isStored := by
    rw [fileOf, at?_put (path_ne_nil _ _ _), if_neg directory_ne_path]
    rcases isStored with rfl | ⟨isStored, _⟩
    · exact there
    · exact holds.present other isStored
  content other isStored := by
    rw [fileOf, fileOf, at?_put (path_ne_nil _ _ _)]
    rcases isStored with rfl | ⟨isStored, differs⟩
    · exact if_pos rfl
    · rw [if_neg fun same => differs (path_injective same)]
      exact holds.content other isStored
  onlyCalls other name isThere := by
    rw [fileOf, at?_put (path_ne_nil _ _ _)] at isThere
    split at isThere
    next same =>
      obtain ⟨rfl, rfl⟩ := path_injective same
      exact ⟨call, Or.inl rfl, rfl, rfl⟩
    next elsewhere =>
      obtain ⟨found, isStored, rfl, rfl⟩ := holds.onlyCalls other name isThere
      refine ⟨found, Or.inr ⟨isStored, ?_⟩, rfl, rfl⟩
      rintro ⟨sameTarget, sameFile⟩
      rw [sameTarget, sameFile] at elsewhere
      exact elsewhere rfl
  distinct other := nodup_namesIn_put (holds.distinct other) _ _

/-- An unfinished file is not there. -/
theorem at?_partialName (holds : Holds backlog stored disk) (target : Peer) (file : FileName) :
    disk.at? (backlog.path target (partialName file)) = none := by
  apply Option.not_isSome_iff_eq_none.mp
  intro there
  obtain ⟨call, _, _, same⟩ := holds.onlyCalls target _ there
  exact partialName_ne_fileName _ _ _ same.symm

end Holds

/-! ## Looking at calls -/

/-- The stored calls to a target, oldest first. -/
structure Lists (stored : Call → Prop) (target : Peer) (calls : List Call) : Prop where
  mem : ∀ call, call ∈ calls ↔ stored call ∧ call.target = target
  ordered : calls.Pairwise fun first second => first.id < second.id

theorem lists_empty (target : Peer) : Lists (fun _ => False) target [] :=
  ⟨by simp, List.Pairwise.nil⟩

theorem lists_singleton (call : Call) : Lists (· = call) call.target [call] where
  mem other := by
    rw [List.mem_singleton, iff_self_and]
    rintro rfl
    rfl
  ordered := List.pairwise_singleton _ _

section

variable {backlog : FileBacklog} {stored : Call → Prop} {disk : FileSystem} {target : Peer}
  {calls : List Call}

theorem eq_of_id_eq (ordered : calls.Pairwise fun first second => first.id < second.id)
    {first second : Call} (isFirst : first ∈ calls) (isSecond : second ∈ calls)
    (same : first.id = second.id) : first = second := by
  have distinct : (calls.map Call.id).Nodup :=
    List.pairwise_map.mpr (ordered.imp UInt64.ne_of_lt)
  exact List.inj_on_of_nodup_map distinct isFirst isSecond same

theorem Candidate.le_trans (first second third : Candidate)
    (isFirst : decide (first.id ≤ second.id) = true)
    (isSecond : decide (second.id ≤ third.id) = true) :
    decide (first.id ≤ third.id) = true :=
  decide_eq_true (UInt64.le_trans (of_decide_eq_true isFirst) (of_decide_eq_true isSecond))

theorem Candidate.le_total (first second : Candidate) :
    (decide (first.id ≤ second.id) || decide (second.id ≤ first.id)) = true := by
  simpa using UInt64.le_total first.id second.id

theorem pairwise_candidatesOf (names : List FileName) :
    (candidatesOf names).Pairwise fun first second => first.id ≤ second.id :=
  (List.pairwise_mergeSort Candidate.le_trans Candidate.le_total _).imp of_decide_eq_true

/-- What a directory lists is sorted to the order of the ids. -/
theorem candidatesOf_eq {names : List FileName} (distinct : names.Nodup)
    (ordered : calls.Pairwise fun first second => first.id < second.id)
    (mem : ∀ name, name ∈ names ↔ ∃ call ∈ calls, fileName call.id call.name = name) :
    candidatesOf names = calls.map Candidate.of := by
  have distinctFiles : (calls.map fun call => fileName call.id call.name).Nodup := by
    rw [List.Nodup, List.pairwise_map]
    apply ordered.imp
    intro first second before same
    exact UInt64.ne_of_lt before (fileName_injective same).1
  have listed : names.Perm (calls.map fun call => fileName call.id call.name) := by
    rw [List.perm_ext_iff_of_nodup distinct distinctFiles]
    intro name
    rw [mem, List.mem_map]
  have named : (calls.map fun call => fileName call.id call.name).filterMap Candidate.ofName? =
      calls.map Candidate.of := by
    rw [List.filterMap_map, ← List.filterMap_eq_map]
    apply List.filterMap_congr
    exact fun call _ => ofName?_fileName call.id call.name
  have found := listed.filterMap Candidate.ofName?
  rw [named] at found
  have sorted : (candidatesOf names).Perm (calls.map Candidate.of) :=
    (List.mergeSort_perm _ _).trans found
  have callsInOrder : (calls.map Candidate.of).Pairwise fun first second =>
      first.id ≤ second.id :=
    List.pairwise_map.mpr (ordered.imp UInt64.le_of_lt)
  apply List.Perm.eq_of_pairwise _ (pairwise_candidatesOf names) callsInOrder sorted
  -- No two of the candidates have the same id.
  intro first second isFirst isSecond before after
  obtain ⟨left, isLeft, rfl⟩ := List.mem_map.mp (sorted.mem_iff.mp isFirst)
  obtain ⟨right, isRight, rfl⟩ := List.mem_map.mp isSecond
  rw [eq_of_id_eq ordered isLeft isRight (UInt64.le_antisymm before after)]

variable (holds : Holds backlog stored disk)
include holds

theorem run_candidates (lists : Lists stored target calls)
    (fits : (directoryName target).length ≤ maxNameLength) :
    (backlog.candidates target).run.run disk = (.ok (calls.map Candidate.of), disk) := by
  unfold candidates
  rw [run_bind_ok _ (run_request _ disk)]
  simp only [perform]
  rcases holds.directory target with missing | there
  · have isEmpty : calls = [] := by
      apply List.eq_nil_iff_forall_not_mem.mpr
      intro call member
      obtain ⟨isStored, rfl⟩ := (lists.mem call).mp member
      cases missing.symm.trans (holds.present call isStored)
    rw [directory, list_missing holds.root fits missing, isEmpty]
    rfl
  · have reached : disk.find (backlog.directory target) = .ok (some .directory) := by
      rw [holds.find_directory fits, there]
    have mem : ∀ name, name ∈ disk.namesIn (backlog.directory target) ↔
        ∃ call ∈ calls, fileName call.id call.name = name := by
      intro name
      rw [mem_namesIn]
      constructor
      · intro isThere
        obtain ⟨call, isStored, rfl, rfl⟩ := holds.onlyCalls target name isThere
        exact ⟨call, (lists.mem call).mpr ⟨isStored, rfl⟩, rfl⟩
      · rintro ⟨call, member, rfl⟩
        obtain ⟨isStored, rfl⟩ := (lists.mem call).mp member
        have content := holds.content call isStored
        rw [fileOf, path] at content
        rw [content]
        rfl
    rw [list_eq reached]
    have sorted := candidatesOf_eq (holds.distinct target) lists.ordered mem
    simp only [sorted]
    rfl

theorem run_readCall {call : Call} (isStored : stored call) :
    (backlog.readCall call.target (Candidate.of call).file).run.run disk =
      (.ok (some call), disk) := by
  have storable := holds.storable call isStored
  have content := read_eq (holds.reached isStored) storable.length_fileName
    (holds.content call isStored)
  unfold readCall
  rw [run_bind_ok _ (run_request _ disk)]
  simp only [perform, path, Candidate.of, content,
    StoredCall.decode_encode storable.admissible, storable.kept_eq]
  rfl

variable (found : ∀ call ∈ calls, stored call ∧ call.target = target)
include found

theorem run_firstCall : (backlog.firstCall target (calls.map Candidate.of)).run.run disk =
    (.ok (calls.head?.map fun call => (call, fileName call.id call.name)), disk) := by
  cases calls with
  | nil => rfl
  | cons first rest =>
      obtain ⟨isStored, rfl⟩ := found first List.mem_cons_self
      rw [List.map_cons, firstCall, run_bind_ok _ (run_readCall holds isStored)]
      rfl

theorem run_allCalls :
    (backlog.allCalls target (calls.map Candidate.of)).run.run disk = (.ok calls, disk) := by
  induction calls with
  | nil => rfl
  | cons first rest ih =>
      rw [List.forall_mem_cons] at found
      obtain ⟨isStored, rfl⟩ := found.1
      rw [List.map_cons, allCalls, run_bind_ok _ (run_readCall holds isStored)]
      rw [run_bind_ok _ (ih found.2)]
      rfl

end

/-! ## Taking calls away -/

section

variable {backlog : FileBacklog} {stored : Call → Prop} {disk : FileSystem} {target : Peer}
  {calls found : List Call}

theorem run_removeFile (holds : Holds backlog stored disk) {call : Call}
    (isStored : stored call) :
    (backlog.removeFile call.target (Candidate.of call).file).run.run disk =
      (.ok true, disk.erase (backlog.fileOf call)) := by
  have storable := holds.storable call isStored
  have removed := remove_eq (holds.reached isStored) storable.length_fileName
    (holds.content call isStored)
  unfold removeFile
  rw [run_bind_ok _ (run_request _ disk)]
  simp only [perform, path, Candidate.of, removed, change]
  rfl

/-- The file of a call goes away, and no other call goes with it. -/
theorem Holds.eraseCall (holds : Holds backlog stored disk) {call : Call}
    (isStored : stored call) :
    Holds backlog (fun other => stored other ∧ other ≠ call)
      (disk.erase (backlog.fileOf call)) := by
  apply (holds.erase call.target (fileName call.id call.name)).congr
  intro other
  rw [and_congr_right_iff]
  intro isOther
  constructor
  · rintro differs ⟨sameTarget, sameFile⟩
    exact differs (holds.eq_of_fileName_eq isOther isStored sameTarget sameFile)
  · rintro differs rfl
    exact differs ⟨rfl, rfl⟩

/-- The files of some calls to a target go away, and each of them is counted. -/
theorem run_removeFiles (holds : Holds backlog stored disk)
    (isStored : ∀ call ∈ found, stored call ∧ call.target = target) (distinct : found.Nodup) :
    ∃ after, (backlog.removeFiles target (found.map Candidate.of)).run.run disk =
        (.ok found.length, after) ∧
      Holds backlog (fun call => stored call ∧ call ∉ found) after := by
  induction found generalizing stored disk with
  | nil => exact ⟨disk, rfl, holds.congr (by simp)⟩
  | cons first rest ih =>
      rw [List.forall_mem_cons] at isStored
      rw [List.nodup_cons] at distinct
      obtain ⟨isFirst, rfl⟩ := isStored.1
      have others : ∀ call ∈ rest, (stored call ∧ call ≠ first) ∧ call.target = first.target := by
        intro call member
        have differs : call ≠ first := by
          rintro rfl
          exact distinct.1 member
        exact ⟨⟨(isStored.2 call member).1, differs⟩, (isStored.2 call member).2⟩
      obtain ⟨after, ran, holdsAfter⟩ := ih (holds.eraseCall isFirst) others distinct.2
      refine ⟨after, ?_, holdsAfter.congr ?_⟩
      · rw [List.map_cons, removeFiles, run_bind_ok _ (run_removeFile holds isFirst),
          run_bind_ok _ ran, List.length_cons, Nat.add_comm]
        rfl
      · intro call
        rw [List.mem_cons, not_or, and_assoc]

end

/-! ## Storing a call -/

/-- The directory of a target may be there without a call. -/
theorem Holds.putDirectory {backlog : FileBacklog} {stored : Call → Prop} {disk : FileSystem}
    (holds : Holds backlog stored disk) (target : Peer) :
    Holds backlog stored (disk.put (backlog.directory target) .directory) where
  root := by
    rw [find_put (by rw [length_directory]; omega)]
    exact holds.root
  directory other := by
    rw [at?_put (directory_ne_nil _ _)]
    split
    · exact Or.inr rfl
    · exact holds.directory other
  storable := holds.storable
  present call isStored := by
    rw [at?_put (directory_ne_nil _ _)]
    split
    · rfl
    · exact holds.present call isStored
  content call isStored := by
    rw [fileOf, at?_put (directory_ne_nil _ _), if_neg directory_ne_path.symm]
    exact holds.content call isStored
  onlyCalls other name there := by
    rw [at?_put (directory_ne_nil _ _), if_neg directory_ne_path.symm] at there
    exact holds.onlyCalls other name there
  distinct other := nodup_namesIn_put (holds.distinct other) _ _

section

variable {backlog : FileBacklog} {stored : Call → Prop} {disk : FileSystem} {call : Call}

/-- The directory of a target is made if it is not there. -/
theorem run_makeDirectories (holds : Holds backlog stored disk) {target : Peer}
    (fits : (directoryName target).length ≤ maxNameLength) :
    ∃ after, (makeDirectories (backlog.root.length + 1) (backlog.directory target).reverse).run
        disk = (.ok (), after) ∧
      Holds backlog stored after ∧ after.at? (backlog.directory target) = some .directory := by
  rw [directory, List.reverse_append, List.reverse_singleton, List.singleton_append,
    makeDirectories, List.reverse_cons, List.reverse_reverse]
  rcases holds.directory target with missing | there
  · refine ⟨disk.put (backlog.directory target) .directory, ?_, holds.putDirectory target, ?_⟩
    · rw [DiskProgram.run_bind]
      simp only [DiskProgram.request, DiskProgram.run, perform, change,
        makeDirectory_eq holds.root fits missing]
      rfl
    · rw [← directory, at?_put (directory_ne_nil _ _), if_pos rfl]
  · refine ⟨disk, ?_, holds, there⟩
    have reached : disk.find (backlog.directory target) = .ok (some .directory) := by
      rw [holds.find_directory fits, there]
    have isDirectory := isDirectory_eq reached
    rw [directory] at isDirectory
    rw [DiskProgram.run_bind]
    simp only [DiskProgram.request, DiskProgram.run, perform, change,
      makeDirectory_exists holds.root fits there, makeDirectories.orThere, DiskProgram.run_bind,
      isDirectory]
    rfl

/-- A call is written to its file. -/
theorem run_store (holds : Holds backlog stored disk) (storable : Storable call) :
    ∃ after, (backlog.store call).run.run disk = (.ok (), after) ∧
      Holds backlog
        (fun other => other = call ∨ stored other ∧ ¬ (other.target = call.target ∧
          fileName other.id other.name = fileName call.id call.name)) after := by
  obtain ⟨ready, ran, holdsReady, there⟩ := run_makeDirectories holds storable.directory
  have reached : ready.find (backlog.directory call.target) = .ok (some .directory) := by
    rw [holdsReady.find_directory storable.directory, there]
  have free : ready.at? (backlog.path call.target (fileName call.id call.name)) ≠
      some .directory := by
    intro isDirectory
    obtain ⟨other, isStored, sameTarget, sameFile⟩ :=
      holdsReady.onlyCalls call.target _ (by rw [isDirectory]; rfl)
    have content := holdsReady.content other isStored
    rw [fileOf, sameTarget, sameFile, isDirectory] at content
    cases content
  obtain ⟨made, written, makes, writes, renames, same, distinct⟩ :=
    exists_written reached storable.file storable.length_fileName
      (holdsReady.at?_partialName call.target _) free (StoredCall.encode call)
  refine ⟨_, ?_, (holdsReady.of_same same fun target => distinct _ (holdsReady.distinct target)).put
    storable ((same _).trans there)⟩
  unfold store
  refine (run_bind_ok _ (run_lift ran)).trans ?_
  refine (run_bind_ok _ (run_demand makes)).trans ?_
  refine (run_bind_ok _ (run_demand writes)).trans ?_
  refine (run_bind_ok _ (run_demand rfl)).trans ?_
  exact run_demand renames

end

/-! ## Operations -/

section

variable {backlog : FileBacklog} {stored : Call → Prop} {disk : FileSystem} {target : Peer}
  {calls : List Call}

theorem Lists.found (lists : Lists stored target calls) :
    ∀ call ∈ calls, stored call ∧ call.target = target :=
  fun call member => (lists.mem call).mp member

theorem Lists.nodup (lists : Lists stored target calls) : calls.Nodup :=
  lists.ordered.imp fun before same => UInt64.ne_of_lt before (congrArg Call.id same)

/-- The files of some of the calls to a target are taken away. -/
theorem run_removeFound (holds : Holds backlog stored disk) (lists : Lists stored target calls)
    (selects : Call → Bool) (chosen : Candidate → Bool)
    (agrees : ∀ call, chosen (Candidate.of call) = selects call) :
    ∃ after, (backlog.removeFiles target ((calls.map Candidate.of).filter chosen)).run.run disk =
        (.ok (calls.filter selects).length, after) ∧
      Holds backlog (fun call => stored call ∧ ¬ (call.target = target ∧ selects call = true))
        after := by
  have isStored : ∀ call ∈ calls.filter selects, stored call ∧ call.target = target :=
    fun call member => lists.found call (List.mem_filter.mp member).1
  obtain ⟨after, ran, holdsAfter⟩ := run_removeFiles holds isStored (lists.nodup.filter selects)
  refine ⟨after, ?_, holdsAfter.congr ?_⟩
  · rw [List.filter_map]
    simp only [Function.comp_def, agrees]
    exact ran
  · intro call
    rw [and_congr_right_iff]
    intro isCall
    rw [List.mem_filter, lists.mem]
    simp [isCall]

section

variable (holds : Holds backlog stored disk) (lists : Lists stored target calls)
  (fits : (directoryName target).length ≤ maxNameLength)
include holds lists fits

theorem run_readAll : (backlog.readAll target).run.run disk = (.ok calls, disk) := by
  unfold readAll
  rw [run_bind_ok _ (run_candidates holds lists fits)]
  exact run_allCalls holds lists.found

theorem run_peek : (backlog.peek target).run.run disk = (.ok calls.head?, disk) := by
  unfold peek
  rw [run_bind_ok _ (run_candidates holds lists fits),
    run_bind_ok _ (run_firstCall holds lists.found)]
  cases calls <;> rfl

theorem run_dequeue :
    ∃ after, (backlog.dequeue target).run.run disk = (.ok calls.head?, after) ∧
      Holds backlog (fun call => stored call ∧ call ∉ calls.head?) after := by
  unfold dequeue
  rw [run_bind_ok _ (run_candidates holds lists fits),
    run_bind_ok _ (run_firstCall holds lists.found)]
  cases calls with
  | nil => exact ⟨disk, rfl, holds.congr (by simp)⟩
  | cons first rest =>
      obtain ⟨isStored, rfl⟩ := lists.found first List.mem_cons_self
      refine ⟨_, run_bind_ok _ (run_removeFile holds isStored), ?_⟩
      apply (holds.eraseCall isStored).congr
      simp [eq_comm]

theorem run_remove (id : UInt64) :
    ∃ after, (backlog.remove target id).run.run disk =
        (.ok (decide (0 < (calls.filter fun call => call.id = id).length)), after) ∧
      Holds backlog (fun call => stored call ∧ ¬ (call.target = target ∧ call.id = id)) after := by
  obtain ⟨after, ran, holdsAfter⟩ := run_removeFound holds lists (fun call => call.id = id)
    (fun candidate => candidate.id = id) fun _ => rfl
  refine ⟨after, ?_, holdsAfter.congr (by simp)⟩
  unfold remove
  rw [run_bind_ok _ (run_candidates holds lists fits)]
  exact run_bind_ok _ ran

theorem run_removeByName (name : String) :
    ∃ after, (backlog.removeByName target name).run.run disk =
        (.ok (calls.filter fun call => call.name = name).length, after) ∧
      Holds backlog (fun call => stored call ∧ ¬ (call.target = target ∧ call.name = name))
        after := by
  have agrees : ∀ call : Call, decide ((Candidate.of call).method = escape name) =
      decide (call.name = name) := by
    intro call
    rw [decide_eq_decide]
    exact ⟨escape_injective, congrArg escape⟩
  obtain ⟨after, ran, holdsAfter⟩ := run_removeFound holds lists
    (fun call => call.name = name) (fun candidate => candidate.method = escape name) agrees
  refine ⟨after, ?_, holdsAfter.congr (by simp)⟩
  unfold removeByName
  rw [run_bind_ok _ (run_candidates holds lists fits)]
  exact ran

end

/-- A call is stored, instead of one in the same file and instead of those that it
supersedes. -/
theorem run_enqueue {call : Call} (holds : Holds backlog stored disk)
    (lists : Lists stored call.target calls) (storable : Storable call) :
    ∃ after, (backlog.enqueue call).run.run disk = (.ok (), after) ∧
      Holds backlog
        (fun other => other = call ∨ stored other ∧ (other.target = call.target →
          fileName other.id other.name ≠ fileName call.id call.name ∧ ¬ call.Supersedes other))
        after := by
  unfold enqueue
  by_cases isLatest : call.isLatest = true
  · obtain ⟨cleared, removes, holdsCleared⟩ :=
      run_removeByName holds lists storable.directory call.name
    obtain ⟨after, stores, holdsAfter⟩ := run_store holdsCleared storable
    refine ⟨after, ?_, holdsAfter.congr ?_⟩
    · rw [if_pos isLatest]
      exact (run_bind_ok _ removes).trans stores
    · intro other
      simp only [Call.Supersedes, isLatest, true_and]
      tauto
  · obtain ⟨after, stores, holdsAfter⟩ := run_store holds storable
    refine ⟨after, ?_, holdsAfter.congr ?_⟩
    · rw [if_neg isLatest]
      exact stores
    · intro other
      simp only [Call.Supersedes, isLatest]
      tauto

end

end PeerCalls.FileBacklog
