import PeerCalls.Proofs.Backlog.Files
import PeerCalls.Proofs.Disk.Stopping

/-!
# What is read from the files of a backlog

On any disk, whatever else is there, a backlog reads the calls in those files of a directory
whose names say that they hold one, in the order of the ids in the names. A change at one
path is seen only by who reads this file or lists the directory that it is in, and a new
directory by nobody.
-/

namespace PeerCalls.FileBacklog

open Backlog (Fault Activity)
open DiskProgram (Relates)
open FileSystem

/-! ## Calls and the files they are in -/

section

variable (backlog : FileBacklog) (disk : FileSystem) (target : Peer)

/-- The call in a file, if there is one that can be read. -/
def callIn (file : FileName) : Option Call :=
  match disk.read (backlog.path target file) with
  | .ok content => (StoredCall.decode target content).toOption
  | .error _ => none

/-- The files of a target that may hold calls. -/
def found : List Candidate :=
  match disk.list (backlog.directory target) with
  | .ok names => candidatesOf names
  | .error _ => []

/-- Why the files of a target cannot be listed. A directory that is not there has none. -/
def unlisted? : Option DiskFault :=
  match disk.list (backlog.directory target) with
  | .ok _ | .error .notFound => none
  | .error fault => some fault

/-- The calls to a target, each with the file that it is in. -/
def stored : List (Candidate × Call) :=
  (backlog.found disk target).filterMap fun candidate =>
    (backlog.callIn disk target candidate.file).map (candidate, ·)

/-- There can be a directory for a target: no name on the way to it is too long. -/
def HasRoom : Prop := ∀ name ∈ backlog.directory target, name.length ≤ maxNameLength

end

section

variable {backlog : FileBacklog} {disk : FileSystem} {target : Peer} {file : FileName}
  {candidate : Candidate} {call : Call}

theorem file_of_ofName? (named : Candidate.ofName? file = some candidate) :
    candidate.file = file := by
  unfold Candidate.ofName? at named
  split at named
  · cases named
  · split at named
    · cases named
    · split at named
      · cases named
      · split at named
        · cases named
        · obtain ⟨id, _, rfl⟩ := Option.map_eq_some_iff.mp named
          rfl

/-- Different files say different things. -/
theorem nodup_filterMap_ofName? {names : List FileName} (distinct : names.Nodup) :
    (names.filterMap Candidate.ofName?).Nodup := by
  apply distinct.filterMap
  intro first second candidate isFirst isSecond
  rw [← file_of_ofName? isFirst, file_of_ofName? isSecond]

theorem mem_candidatesOf {names : List FileName} :
    candidate ∈ candidatesOf names ↔
      candidate.file ∈ names ∧ Candidate.ofName? candidate.file = some candidate := by
  rw [candidatesOf, List.mem_mergeSort, List.mem_filterMap]
  constructor
  · rintro ⟨name, member, named⟩
    obtain rfl := file_of_ofName? named
    exact ⟨member, named⟩
  · rintro ⟨member, named⟩
    exact ⟨_, member, named⟩

theorem ofName?_of_mem_found (member : candidate ∈ backlog.found disk target) :
    Candidate.ofName? candidate.file = some candidate := by
  unfold found at member
  split at member
  · exact (mem_candidatesOf.mp member).2
  · cases member

/-- What is found where the files can be listed. -/
theorem mem_found (reached : disk.find (backlog.directory target) = .ok (some .directory)) :
    candidate ∈ backlog.found disk target ↔
      (disk.at? (backlog.path target candidate.file)).isSome = true ∧
        Candidate.ofName? candidate.file = some candidate := by
  rw [found, list_eq reached, path]
  exact mem_candidatesOf.trans (and_congr_left' mem_namesIn)

theorem mem_found_of_callIn (named : Candidate.ofName? candidate.file = some candidate)
    (reads : backlog.callIn disk target candidate.file = some call) :
    candidate ∈ backlog.found disk target := by
  unfold callIn FileSystem.read at reads
  cases finds : disk.find (backlog.path target candidate.file) with
  | error fault => simp [finds, bind, Except.bind] at reads
  | ok there =>
      obtain ⟨reached, _, isThere⟩ := at?_of_find finds
      have isSome : (disk.at? (backlog.path target candidate.file)).isSome = true := by
        rw [path, isThere]
        cases there with
        | none => simp [finds, bind, Except.bind, throw, throwThe, MonadExceptOf.throw] at reads
        | some entry => rfl
      exact (mem_found reached).mpr ⟨isSome, named⟩

/-- In a tree, a call is read from each file that contains one. -/
theorem callIn_eq_some_iff (tree : disk.IsTree) :
    backlog.callIn disk target file = some call ↔
      ∃ content, disk.at? (backlog.path target file) = some (.file content) ∧
        StoredCall.decode target content = .ok call := by
  constructor
  · intro reads
    unfold callIn FileSystem.read at reads
    cases finds : disk.find (backlog.path target file) with
    | error fault => simp [finds, bind, Except.bind] at reads
    | ok found =>
        have isThere := at?_eq_of_find finds
        rw [finds] at reads
        rcases found with _ | _ | content | _
        · cases reads
        · cases reads
        · refine ⟨content, isThere, ?_⟩
          change (StoredCall.decode target content).toOption = some call at reads
          cases decoded : StoredCall.decode target content with
          | error fault => simp [decoded, Except.toOption] at reads
          | ok read =>
              rw [decoded] at reads
              exact congrArg _ (Option.some.inj reads)
        · cases reads
  · rintro ⟨content, isThere, decoded⟩
    have reads : disk.read (backlog.path target file) = .ok content := by
      simp only [FileSystem.read, tree.find_eq isThere, bind, Except.bind, pure, Except.pure]
    simp only [callIn, reads, decoded]
    rfl

theorem found_eq_nil
    (unreached : disk.find (backlog.directory target) ≠ .ok (some .directory)) :
    backlog.found disk target = [] := by
  unfold found
  split
  next listed => exact absurd (reached_of_list listed).1 unreached
  next => rfl

/-- What is stored is what can be read in the files whose names say so. -/
theorem mem_stored {entry : Candidate × Call} :
    entry ∈ backlog.stored disk target ↔
      Candidate.ofName? entry.1.file = some entry.1 ∧
        backlog.callIn disk target entry.1.file = some entry.2 := by
  obtain ⟨candidate, call⟩ := entry
  rw [stored, List.mem_filterMap]
  constructor
  · rintro ⟨other, member, reads⟩
    obtain ⟨read, isRead, equal⟩ := Option.map_eq_some_iff.mp reads
    cases equal
    exact ⟨ofName?_of_mem_found member, isRead⟩
  · rintro ⟨named, reads⟩
    exact ⟨candidate, mem_found_of_callIn named reads, by rw [reads]; rfl⟩

/-! ## Programs that read -/

theorem run_candidates_found :
    (backlog.candidates target).run.run disk =
      (match backlog.unlisted? disk target with
        | none => .ok (backlog.found disk target)
        | some fault => .error (.disk (.listingDirectory (backlog.directoryText target)) fault),
      disk) := by
  unfold candidates
  rw [run_bind_ok _ (run_request _ disk)]
  simp only [perform, unlisted?, found]
  cases disk.list (backlog.directory target) with
  | ok names => rfl
  | error fault => cases fault <;> rfl

theorem run_readCall_callIn :
    (backlog.readCall target file).run.run disk =
      (.ok (backlog.callIn disk target file), disk) := by
  unfold readCall
  rw [run_bind_ok _ (run_request _ disk)]
  simp only [perform, callIn]
  cases disk.read (backlog.path target file) <;> rfl

theorem run_firstCall_head? (candidates : List Candidate) :
    (backlog.firstCall target candidates).run.run disk =
      (.ok ((candidates.filterMap fun candidate =>
        (backlog.callIn disk target candidate.file).map (·, candidate.file)).head?), disk) := by
  induction candidates with
  | nil => rfl
  | cons candidate rest ih =>
      rw [firstCall, run_bind_ok _ run_readCall_callIn, List.filterMap_cons]
      cases backlog.callIn disk target candidate.file with
      | none => exact ih
      | some call => rfl

/-- The first call that is found is the first one that is stored. -/
theorem run_firstCall_found :
    (backlog.firstCall target (backlog.found disk target)).run.run disk =
      (.ok ((backlog.stored disk target).head?.map fun entry => (entry.2, entry.1.file)),
        disk) := by
  rw [run_firstCall_head?, ← List.head?_map, stored, List.map_filterMap]
  simp [Option.map_map, Function.comp_def]

theorem run_allCalls_filterMap (candidates : List Candidate) :
    (backlog.allCalls target candidates).run.run disk =
      (.ok (candidates.filterMap fun candidate => backlog.callIn disk target candidate.file),
        disk) := by
  induction candidates with
  | nil => rfl
  | cons candidate rest ih =>
      rw [allCalls, run_bind_ok _ run_readCall_callIn, List.filterMap_cons]
      cases backlog.callIn disk target candidate.file with
      | none => exact ih
      | some call => exact run_bind_ok _ ih

/-- All calls that are stored are read, unless their files cannot be listed. -/
theorem run_readAll_stored :
    (backlog.readAll target).run.run disk =
      (match backlog.unlisted? disk target with
        | none => .ok ((backlog.stored disk target).map Prod.snd)
        | some fault => .error (.disk (.listingDirectory (backlog.directoryText target)) fault),
      disk) := by
  have calls : (backlog.stored disk target).map Prod.snd =
      (backlog.found disk target).filterMap fun candidate =>
        backlog.callIn disk target candidate.file := by
    rw [stored, List.map_filterMap]
    simp [Option.map_map, Function.comp_def]
  have listed := @run_candidates_found backlog disk target
  unfold readAll
  cases unlisted : backlog.unlisted? disk target with
  | none =>
      rw [unlisted] at listed
      rw [run_bind_ok _ listed, run_allCalls_filterMap, calls]
  | some fault =>
      rw [unlisted] at listed
      rw [ExceptT.run_bind, DiskProgram.run_bind, listed]
      rfl

/-- The first call that is stored is read, unless the files cannot be listed. -/
theorem run_peek_stored :
    (backlog.peek target).run.run disk =
      (match backlog.unlisted? disk target with
        | none => .ok ((backlog.stored disk target).head?.map Prod.snd)
        | some fault => .error (.disk (.listingDirectory (backlog.directoryText target)) fault),
      disk) := by
  have listed := @run_candidates_found backlog disk target
  unfold peek
  cases unlisted : backlog.unlisted? disk target with
  | none =>
      rw [unlisted] at listed
      rw [run_bind_ok _ listed, run_bind_ok _ run_firstCall_found]
      cases (backlog.stored disk target).head? <;> rfl
  | some fault =>
      rw [unlisted] at listed
      rw [ExceptT.run_bind, DiskProgram.run_bind, listed]
      rfl

/-- What is stored is what is read. There is nothing if the files cannot be listed. -/
theorem getD_readAll : ((backlog.readAll target).run.run disk).1.toOption.getD [] =
    (backlog.stored disk target).map Prod.snd := by
  rw [run_readAll_stored]
  cases unlisted : backlog.unlisted? disk target with
  | none => rfl
  | some fault =>
      have unfound : backlog.found disk target = [] := by
        unfold unlisted? at unlisted
        unfold found
        split at unlisted
        next => cases unlisted
        next => cases unlisted
        next failed => rw [failed]
      rw [stored, unfound]
      rfl

end

/-! ## Changes that are not seen -/

/-- The calls to a target are read alike. If there can be no directory for the target, then
there is never a call; only the reason for this may be another one. -/
structure ReadsAlike (backlog : FileBacklog) (target : Peer) (before after : FileSystem) :
    Prop where
  stored : backlog.stored after target = backlog.stored before target
  result : backlog.HasRoom target → ((backlog.readAll target).run.run after).1 =
    ((backlog.readAll target).run.run before).1

section

variable {backlog : FileBacklog} {before middle after disk : FileSystem} {target other : Peer}
  {path : Path} {file : FileName}

/-- Whether files can be listed depends only on what is found at the directory. -/
theorem unlisted?_congr
    (finds : after.find (backlog.directory target) = before.find (backlog.directory target)) :
    backlog.unlisted? after target = backlog.unlisted? before target := by
  simp only [unlisted?, FileSystem.list, finds]
  cases before.find (backlog.directory target) with
  | error fault => rfl
  | ok there => rcases there with _ | _ | content | _ <;> rfl

namespace ReadsAlike

theorem refl (backlog : FileBacklog) (target : Peer) (disk : FileSystem) :
    backlog.ReadsAlike target disk disk :=
  ⟨rfl, fun _ => rfl⟩

theorem trans (first : backlog.ReadsAlike target before middle)
    (second : backlog.ReadsAlike target middle after) :
    backlog.ReadsAlike target before after where
  stored := second.stored.trans first.stored
  result room := (second.result room).trans (first.result room)

theorem of_unlisted (stored : backlog.stored after target = backlog.stored before target)
    (unlisted : backlog.HasRoom target →
      backlog.unlisted? after target = backlog.unlisted? before target) :
    backlog.ReadsAlike target before after where
  stored
  result room := by rw [run_readAll_stored, run_readAll_stored, stored, unlisted room]

theorem unlisted (alike : backlog.ReadsAlike target before after)
    (room : backlog.HasRoom target) :
    backlog.unlisted? after target = backlog.unlisted? before target := by
  have same := alike.result room
  rw [run_readAll_stored, run_readAll_stored] at same
  cases isBefore : backlog.unlisted? before target <;>
    cases isAfter : backlog.unlisted? after target <;> simp_all

/-- A change is not seen at a path where no call of the target can be. -/
theorem of_onlyAt (only : OnlyAt path before after)
    (apart : ¬ path <+: backlog.directory target)
    (silent : ∀ name, backlog.directory target ++ [name] = path → Candidate.ofName? name = none) :
    backlog.ReadsAlike target before after := by
  have finds := only.find apart
  have names : (after.namesIn (backlog.directory target)).filterMap Candidate.ofName? =
      (before.namesIn (backlog.directory target)).filterMap Candidate.ofName? := by
    have all : ∀ names : List FileName, names.filterMap Candidate.ofName? =
        (names.filter fun name => backlog.directory target ++ [name] ≠ path).filterMap
          Candidate.ofName? := by
      intro names
      rw [List.filterMap_filter]
      apply List.filterMap_congr
      intro name _
      split
      next => rfl
      next isHere => exact silent name (by simpa using isHere)
    rw [all, all (before.namesIn _), only.names]
  have candidates : candidatesOf (after.namesIn (backlog.directory target)) =
      candidatesOf (before.namesIn (backlog.directory target)) := by
    rw [candidatesOf, candidatesOf, names]
  have found : backlog.found after target = backlog.found before target := by
    simp only [FileBacklog.found, FileSystem.list, finds]
    cases before.find (backlog.directory target) with
    | error fault => rfl
    | ok there =>
        rcases there with _ | _ | content | _
        · rfl
        · exact candidates
        · rfl
        · rfl
  apply of_unlisted _ fun _ => unlisted?_congr finds
  rw [FileBacklog.stored, FileBacklog.stored, found]
  apply List.filterMap_congr
  intro candidate member
  have named := ofName?_of_mem_found member
  have away : ¬ path <+: backlog.path target candidate.file := by
    intro isAbove
    rcases List.prefix_concat_iff.mp isAbove with same | isAbove
    · rw [silent _ same.symm] at named
      cases named
    · exact apart isAbove
  rw [callIn, callIn, only.read away]

/-- Files of other targets are not seen, and neither are files whose names say that they hold
no call. -/
theorem of_file (only : OnlyAt (backlog.path other file) before after)
    (silent : target = other → Candidate.ofName? file = none) :
    backlog.ReadsAlike target before after := by
  apply of_onlyAt only
  · intro isAbove
    have lengths := isAbove.length_le
    rw [length_path, length_directory] at lengths
    omega
  · intro name isHere
    obtain ⟨same, rfl⟩ := path_injective isHere
    exact silent same

theorem stored_eq_nil (unfound : backlog.found disk target = []) :
    backlog.stored disk target = [] := by
  rw [FileBacklog.stored, unfound]
  rfl

/-- Nobody sees a new directory, as it is empty. -/
theorem put_directory (tree : disk.IsTree) (missing : disk.find path = .ok none)
    (short : path.length ≤ backlog.root.length + 1) (target : Peer) :
    backlog.ReadsAlike target disk (disk.put path .directory) := by
  have nonempty : path ≠ [] := by
    rintro rfl
    cases missing
  by_cases isAbove : path <+: backlog.directory target
  · obtain ⟨rest, isBelow⟩ := isAbove
    have unseen := list_below_missing missing rest
    rw [isBelow] at unseen
    have stored : backlog.stored disk target = [] := stored_eq_nil (by simp [found, unseen])
    cases rest with
    | nil =>
        have seen := list_new_directory tree missing
        rw [List.append_nil] at isBelow
        nth_rewrite 2 [isBelow] at seen
        apply of_unlisted
        · rw [stored, stored_eq_nil (by rw [found, seen]; simp [candidatesOf])]
        · intro _
          rw [unlisted?, unlisted?, unseen, seen]
    | cons name rest =>
        have seen : (disk.put path .directory).list (path ++ name :: rest) = _ :=
          list_below_new_directory tree missing
        rw [isBelow] at seen
        apply of_unlisted
        · rw [stored, stored_eq_nil (by rw [found, seen])]
        · intro room
          have short := room name (by rw [← isBelow]; simp)
          rw [unlisted?, unlisted?, unseen, seen, if_neg (Nat.not_lt.mpr short)]
  · apply of_onlyAt (OnlyAt.put nonempty _) isAbove
    intro name isHere
    have lengths := congrArg List.length isHere
    rw [List.length_append, length_directory] at lengths
    simp at lengths
    omega

end ReadsAlike

end

end PeerCalls.FileBacklog
