import PeerCalls.Proofs.Backlog.Reading

/-!
# What the programs of a backlog change

On any disk, and wherever it stops, a program of a backlog alters the calls of one target and
no others: some go, and at most one comes. What is not finished is seen by nobody. A call comes
all at once, by the last request of the program that stores it.
-/

namespace PeerCalls.FileBacklog

open Backlog (Fault Activity)
open DiskProgram (Relates Commits)
open FileSystem

/-! ## Changes -/

/-- No target's calls are read otherwise. -/
def Unseen (backlog : FileBacklog) (before after : FileSystem) : Prop :=
  ∀ target, backlog.ReadsAlike target before after

instance (backlog : FileBacklog) : Std.Refl backlog.Unseen :=
  ⟨fun disk target => .refl backlog target disk⟩

instance (backlog : FileBacklog) : IsTrans FileSystem backlog.Unseen :=
  ⟨fun _ _ _ first second target => (first target).trans (second target)⟩

/-- Of the calls to a target some may go and some may come. Those to other targets are read
alike. -/
structure Alters (backlog : FileBacklog) (target : Peer) (goes : Candidate → Prop)
    (comes : Candidate × Call → Prop) (before after : FileSystem) : Prop where
  others : ∀ other, other ≠ target → backlog.ReadsAlike other before after
  mem : ∀ entry ∈ backlog.stored after target,
    entry ∈ backlog.stored before target ∨ comes entry
  stays : ∀ entry ∈ backlog.stored before target, ¬ goes entry.1 →
    entry ∈ backlog.stored after target
  listed : backlog.HasRoom target →
    backlog.unlisted? after target = backlog.unlisted? before target

section

variable {backlog : FileBacklog} {target other : Peer} {goes goesToo : Candidate → Prop}
  {comes comesToo : Candidate × Call → Prop} {before middle after disk left : FileSystem}
  {file name : FileName} {call : Call}

theorem Unseen.alters (unseen : backlog.Unseen before after) :
    backlog.Alters target goes comes before after where
  others other _ := unseen other
  mem entry member := by
    rw [(unseen target).stored] at member
    exact .inl member
  stays entry member _ := by rwa [(unseen target).stored]
  listed := (unseen target).unlisted

namespace Alters

instance : Std.Refl (backlog.Alters target goes comes) :=
  ⟨fun disk => Unseen.alters (Std.Refl.refl disk)⟩

instance : IsTrans FileSystem (backlog.Alters target goes comes) where
  trans _ _ _ first second := {
    others := fun other differs => (first.others other differs).trans (second.others other differs)
    mem := fun entry member => (second.mem entry member).elim (first.mem entry) .inr
    stays := fun entry member remains =>
      second.stays entry (first.stays entry member remains) remains
    listed := fun room => (second.listed room).trans (first.listed room) }

theorem mono (alters : backlog.Alters target goes comes before after)
    (go : ∀ candidate, goes candidate → goesToo candidate)
    (come : ∀ entry, comes entry → comesToo entry) :
    backlog.Alters target goesToo comesToo before after where
  others := alters.others
  mem entry member := (alters.mem entry member).imp_right (come entry)
  stays entry member remains := alters.stays entry member fun gone => remains (go _ gone)
  listed := alters.listed

end Alters

theorem callIn_of_onlyAt (only : OnlyAt (backlog.path target file) before after)
    (differs : name ≠ file) :
    backlog.callIn after target name = backlog.callIn before target name := by
  have apart : ¬ backlog.path target file <+: backlog.path target name := by
    intro isAbove
    have same := isAbove.eq_of_length (by rw [length_path, length_path])
    exact differs (path_injective same).2.symm
  rw [callIn, callIn, only.read apart]

/-- A change at the file of a call. -/
theorem alters_of_onlyAt (only : OnlyAt (backlog.path target file) before after)
    (go : ∀ candidate, Candidate.ofName? file = some candidate → goes candidate)
    (come : ∀ entry ∈ backlog.stored after target, entry.1.file = file →
      entry ∈ backlog.stored before target ∨ comes entry) :
    backlog.Alters target goes comes before after where
  others other differs := .of_file only fun same => absurd same differs
  mem entry member := by
    by_cases isHere : entry.1.file = file
    · exact come entry member isHere
    · rw [mem_stored, callIn_of_onlyAt only isHere, ← mem_stored] at member
      exact .inl member
  stays entry member remains := by
    have elsewhere : entry.1.file ≠ file := by
      rintro rfl
      exact remains (go _ (mem_stored.mp member).1)
    rwa [mem_stored, callIn_of_onlyAt only elsewhere, ← mem_stored]
  listed _ := by
    have apart : ¬ backlog.path target file <+: backlog.directory target := by
      intro isAbove
      have lengths := isAbove.length_le
      rw [length_path, length_directory] at lengths
      omega
    exact unlisted?_congr (only.find apart)

end

/-! ## Requests that must be granted -/

section

variable {activity : Activity} {request : DiskRequest} {disk left : FileSystem}
  {relation : FileSystem → FileSystem → Prop} [Std.Refl relation]

theorem run_demand_eq : (demand activity request).run.run disk =
    ((disk.perform request).1.mapError (.disk activity), (disk.perform request).2) := by
  unfold demand
  rw [run_bind_ok _ (run_request request disk)]
  cases (disk.perform request).1 <;> rfl

theorem performed_of_run_demand {after : FileSystem} {answer : request.Answer}
    (ran : (demand activity request).run.run disk = (.ok answer, after)) :
    Performed disk request (.ok answer) after := by
  have performed := performed disk request
  rw [run_demand_eq] at ran
  generalize disk.perform request = result at performed ran
  obtain ⟨given, files⟩ := result
  cases given <;> cases ran
  exact performed

theorem exists_of_leaves_demand (stops : (demand activity request).run.Leaves disk left) :
    left = disk ∨ ∃ part : DiskRequest, part.IsPartOf request ∧ left = (disk.perform part).2 := by
  unfold demand at stops
  rcases DiskProgram.leaves_bind_except stops with stops | ⟨answer, _, stops⟩
  · rcases DiskProgram.leaves_lift stops with stops | rfl
    · cases stops with
      | here => exact .inl rfl
      | partly isPart => exact .inr ⟨_, isPart, rfl⟩
      | later stops =>
          cases stops
          exact .inr ⟨_, .whole, rfl⟩
    · exact .inr ⟨_, .whole, rfl⟩
  · have same : left = (disk.perform request).2 := by
      split at stops <;> exact DiskProgram.eq_of_leaves_pure stops
    exact .inr ⟨_, .whole, same⟩

theorem relates_demand (performs : ∀ files part, FileSystem.IsTree files →
    part.IsPartOf request → relation files (files.perform part).2) :
    (demand activity request).run.Relates relation := by
  intro files left tree stops
  rcases exists_of_leaves_demand stops with rfl | ⟨part, isPart, rfl⟩
  · exact Std.Refl.refl _
  · exact performs files part tree isPart

/-- A program commits by a request that is completed or not. -/
theorem commits_demand (whole : ∀ part : DiskRequest, part.IsPartOf request → part = request) :
    Commits relation (demand activity request) where
  stops files left _ stops := by
    rcases exists_of_leaves_demand stops with rfl | ⟨part, isPart, rfl⟩
    · exact .inl (Std.Refl.refl _)
    · rw [whole part isPart, run_demand_eq]
      exact .inr rfl
  fails files fault _ failed := by
    rw [run_demand_eq] at failed ⊢
    cases answer : (files.perform request).1 with
    | ok _ =>
        rw [answer] at failed
        cases failed
    | error _ =>
        rw [perform_refused answer]
        exact Std.Refl.refl _

end

/-! ## Programs that only look -/

section

variable {backlog : FileBacklog} {target : Peer} {relation : FileSystem → FileSystem → Prop}
  [Std.Refl relation] [IsTrans FileSystem relation]

theorem relates_candidates : (backlog.candidates target).run.Relates relation := by
  unfold candidates
  refine .bind_except (DiskProgram.relates_lift (DiskProgram.relates_look rfl)) ?_
  intro _ listed _ _
  split
  · exact DiskProgram.relates_return _
  · exact DiskProgram.relates_return _
  · exact DiskProgram.relates_throw _

theorem relates_readCall (file : FileName) :
    (backlog.readCall target file).run.Relates relation := by
  unfold readCall
  refine .bind_except (DiskProgram.relates_lift (DiskProgram.relates_look rfl)) ?_
  intro _ read _ _
  split <;> exact DiskProgram.relates_return _

theorem relates_firstCall (candidates : List Candidate) :
    (backlog.firstCall target candidates).run.Relates relation := by
  induction candidates with
  | nil => exact DiskProgram.relates_return _
  | cons candidate rest ih =>
      rw [firstCall]
      refine .bind_except (relates_readCall _) ?_
      intro _ read _ _
      split
      · exact DiskProgram.relates_return _
      · exact ih

theorem relates_allCalls (candidates : List Candidate) :
    (backlog.allCalls target candidates).run.Relates relation := by
  induction candidates with
  | nil => exact DiskProgram.relates_return _
  | cons candidate rest ih =>
      rw [allCalls]
      refine .bind_except (relates_readCall _) ?_
      intro _ read _ _
      split
      · exact .bind_except ih fun _ _ _ _ => DiskProgram.relates_return _
      · exact ih

theorem relates_peek : (backlog.peek target).run.Relates relation := by
  refine .bind_except relates_candidates fun _ _ _ _ => ?_
  exact .bind_except (relates_firstCall _) fun _ _ _ _ => DiskProgram.relates_return _

theorem relates_readAll : (backlog.readAll target).run.Relates relation :=
  .bind_except relates_candidates fun _ _ _ _ => relates_allCalls _

end

/-! ## Removing -/

section

variable {backlog : FileBacklog} {target : Peer} {goes : Candidate → Prop}
  {comes : Candidate × Call → Prop} {disk : FileSystem}

theorem stored_remove {file : FileName} {entry : Candidate × Call} (isHere : entry.1.file = file)
    (member : entry ∈ backlog.stored (disk.perform (.remove (backlog.path target file))).2 target) :
    entry ∈ backlog.stored disk target := by
  have performed := performed disk (.remove (backlog.path target file))
  generalize (disk.perform (.remove (backlog.path target file))).2 = after at performed member
  generalize (disk.perform (.remove (backlog.path target file))).1 = answer at performed
  cases performed with
  | refused => exact member
  | looked looks => cases looks
  | removed finds differs =>
      obtain ⟨_, reads⟩ := mem_stored.mp member
      have gone : (disk.erase (backlog.path target file)).at? (backlog.path target file) = none := by
        rw [at?_erase (path_ne_nil _ _ _), if_pos rfl]
      rw [isHere, callIn, FileSystem.read] at reads
      cases found : (disk.erase (backlog.path target file)).find (backlog.path target file) with
      | error fault => simp [found, bind, Except.bind] at reads
      | ok there =>
          obtain rfl := (at?_eq_of_find found).symm.trans gone
          simp [found, bind, Except.bind, throw, throwThe, MonadExceptOf.throw] at reads

/-- Only the call in a file that is removed goes. -/
theorem relates_removeFile {file : FileName}
    (go : ∀ candidate, Candidate.ofName? file = some candidate → goes candidate) :
    (backlog.removeFile target file).run.Relates (backlog.Alters target goes comes) := by
  unfold removeFile
  refine .bind_except (DiskProgram.relates_lift (DiskProgram.relates_request ?_)) ?_
  · intro disk part _ isPart
    cases isPart
    have only := @onlyAt_perform disk _ _ (path_ne_nil backlog target file) (.inr (.inr rfl))
    apply alters_of_onlyAt only go
    exact fun entry member isHere => .inl (stored_remove isHere member)
  · intro _ answer _ _
    split
    · exact DiskProgram.relates_return _
    · exact DiskProgram.relates_return _
    · exact DiskProgram.relates_throw _

theorem relates_removeFiles {candidates : List Candidate}
    (go : ∀ candidate ∈ candidates,
      Candidate.ofName? candidate.file = some candidate ∧ goes candidate) :
    (backlog.removeFiles target candidates).run.Relates (backlog.Alters target goes comes) := by
  induction candidates with
  | nil => exact DiskProgram.relates_return _
  | cons candidate rest ih =>
      rw [List.forall_mem_cons] at go
      obtain ⟨⟨named, first⟩, others⟩ := go
      have removes : (backlog.removeFile target candidate.file).run.Relates
          (backlog.Alters target goes comes) := by
        apply relates_removeFile
        intro other isOther
        rwa [← Option.some.inj (named.symm.trans isOther)]
      rw [removeFiles]
      refine removes.bind_except fun _ wasThere _ _ => ?_
      exact (ih others).bind_except fun _ _ _ _ => DiskProgram.relates_return _

/-- The candidates that are found are named by their files. -/
theorem ofName?_of_run_candidates {found : List Candidate}
    (ran : ((backlog.candidates target).run.run disk).1 = .ok found) :
    ∀ candidate ∈ found, Candidate.ofName? candidate.file = some candidate := by
  rw [run_candidates_found] at ran
  split at ran
  next =>
    cases ran
    exact fun candidate member => ofName?_of_mem_found member
  next => cases ran

theorem relates_remove (id : UInt64) : (backlog.remove target id).run.Relates
    (backlog.Alters target (·.id = id) comes) := by
  unfold remove
  refine .bind_except relates_candidates fun _ found _ ran => ?_
  have removes : (backlog.removeFiles target (found.filter (·.id = id))).run.Relates
      (backlog.Alters target (·.id = id) comes) := by
    apply relates_removeFiles
    intro candidate member
    obtain ⟨isFound, selected⟩ := List.mem_filter.mp member
    exact ⟨ofName?_of_run_candidates ran candidate isFound, of_decide_eq_true selected⟩
  exact removes.bind_except fun _ _ _ _ => DiskProgram.relates_return _

theorem relates_removeByName (name : String) : (backlog.removeByName target name).run.Relates
    (backlog.Alters target (·.method = escape name) comes) := by
  unfold removeByName
  refine .bind_except relates_candidates fun _ found _ ran => ?_
  apply relates_removeFiles
  intro candidate member
  obtain ⟨isFound, selected⟩ := List.mem_filter.mp member
  exact ⟨ofName?_of_run_candidates ran candidate isFound, of_decide_eq_true selected⟩

/-- Of all calls only the oldest one is taken. -/
theorem alters_of_leaves_dequeue {left : FileSystem} (tree : disk.IsTree)
    (stops : (backlog.dequeue target).run.Leaves disk left) :
    backlog.Alters target
      (fun candidate => ∃ entry ∈ (backlog.stored disk target).head?, entry.1 = candidate)
      comes disk left := by
  unfold dequeue at stops
  rcases DiskProgram.leaves_bind_except stops with stops | ⟨found, ran, stops⟩
  · exact relates_candidates tree stops
  have isFound : found = backlog.found disk target := by
    rw [run_candidates_found] at ran
    split at ran <;> cases ran
    rfl
  rw [run_candidates_found] at stops
  rcases DiskProgram.leaves_bind_except stops with stops | ⟨first, ran, stops⟩
  · exact relates_firstCall found tree stops
  rw [isFound, run_firstCall_found] at ran stops
  cases ran
  cases isFirst : (backlog.stored disk target).head? with
  | none =>
      rw [isFirst] at stops
      rw [DiskProgram.eq_of_leaves_pure stops]
      exact Std.Refl.refl _
  | some entry =>
      rw [isFirst] at stops
      have removes : (backlog.removeFile target entry.1.file).run.Relates
          (backlog.Alters target (fun candidate => ∃ first ∈ some entry, first.1 = candidate)
            comes) := by
        apply relates_removeFile
        intro candidate isHere
        refine ⟨entry, rfl, ?_⟩
        have named := (mem_stored.mp (List.mem_of_head? isFirst)).1
        exact Option.some.inj (named.symm.trans isHere)
      exact removes.bind_except (fun _ _ _ _ => DiskProgram.relates_return _) tree stops

end

/-! ## Storing -/

section

variable {backlog : FileBacklog} {target : Peer} {disk after : FileSystem} {path : Path}
  {file : FileName} {call : Call}

theorem ofName?_partialName (file : FileName) : Candidate.ofName? (partialName file) = none := by
  unfold Candidate.ofName?
  split
  · rfl
  · rw [if_pos (by simp [partialName])]

/-- A directory that is made is empty. -/
theorem unseen_makeDirectory (tree : disk.IsTree) (short : path.length ≤ backlog.root.length + 1) :
    backlog.Unseen disk (disk.perform (.makeDirectory path)).2 := by
  have performed := performed disk (.makeDirectory path)
  generalize (disk.perform (.makeDirectory path)).2 = after at performed
  generalize (disk.perform (.makeDirectory path)).1 = answer at performed
  cases performed with
  | refused => exact Std.Refl.refl _
  | looked looks => cases looks
  | madeDirectory missing => exact ReadsAlike.put_directory tree missing short

theorem relates_orThere {relation : FileSystem → FileSystem → Prop} [Std.Refl relation]
    [IsTrans FileSystem relation] (path : Path) (fault : DiskFault) :
    (makeDirectories.orThere path fault).Relates relation := by
  refine .bind (DiskProgram.relates_look rfl) fun _ _ => ?_
  split <;> exact DiskProgram.relates_pure _

theorem relates_makeDirectories {fuel : Nat} {reversed : Path}
    (short : reversed.length ≤ backlog.root.length + 1) :
    (makeDirectories fuel reversed).Relates backlog.Unseen := by
  have makes : ∀ path : Path, path.length ≤ backlog.root.length + 1 →
      (DiskProgram.request (.makeDirectory path)).Relates backlog.Unseen := by
    intro path short
    apply DiskProgram.relates_request
    intro disk part tree isPart
    cases isPart
    exact unseen_makeDirectory tree short
  induction fuel generalizing reversed with
  | zero => exact DiskProgram.relates_pure _
  | succ fuel ih =>
      cases reversed with
      | nil => exact DiskProgram.relates_pure _
      | cons name parent =>
          have whole := makes (name :: parent).reverse (by simpa using short)
          rw [makeDirectories]
          refine .bind whole fun _ _ => ?_
          split
          · exact DiskProgram.relates_pure _
          · refine .bind (ih (Nat.le_of_succ_le short)) fun _ _ => ?_
            split
            · exact DiskProgram.relates_pure _
            · refine .bind whole fun _ _ => ?_
              split
              · exact DiskProgram.relates_pure _
              · exact relates_orThere _ _
          · exact relates_orThere _ _

/-- The directories for a target are made before anything is in them. -/
theorem relates_makeAll (target : Peer) (fuel : Nat) :
    (liftM (makeDirectories fuel (backlog.directory target).reverse) :
      Program (Except DiskFault Unit)).run.Relates backlog.Unseen := by
  apply DiskProgram.relates_lift
  apply relates_makeDirectories
  rw [List.length_reverse, length_directory]

/-- What is done to a file that is not finished is not seen. -/
theorem relates_unfinished {request : DiskRequest} {activity : Activity}
    (isHere : request = .makeFile (backlog.path target (partialName file)) ∨
      ∃ content, request = .append (backlog.path target (partialName file)) content) :
    (demand activity request).run.Relates backlog.Unseen := by
  apply relates_demand
  intro disk part _ isPart other
  have only : OnlyAt (backlog.path target (partialName file)) disk (disk.perform part).2 := by
    apply onlyAt_perform (path_ne_nil _ _ _)
    rcases isHere with rfl | ⟨content, rfl⟩ <;> cases isPart <;> simp
  exact .of_file only fun _ => ofName?_partialName file

/-- A call is stored by the last request, which gives the file its name. -/
theorem commits_store : Commits backlog.Unseen (backlog.store call) := by
  unfold store
  refine .bind (relates_makeAll _ _) fun made => ?_
  split
  · exact (DiskProgram.relates_throw _).commits
  · refine .bind (relates_unfinished (.inl rfl)) fun _ => ?_
    refine .bind (relates_unfinished (.inr ⟨_, rfl⟩)) fun _ => ?_
    refine .bind (relates_demand fun _ _ _ isPart => ?_) fun _ => ?_
    · cases isPart
      exact Std.Refl.refl _
    · apply commits_demand
      intro part isPart
      cases isPart
      rfl

/-- A call that is read in its file is stored there, instead of what was there before. -/
theorem alters_of_content (tree : after.IsTree) (only : OnlyAt (backlog.fileOf call) disk after)
    (content : after.at? (backlog.fileOf call) = some (.file (StoredCall.encode call)))
    (admissible : call.invocation.Admissible) :
    backlog.Alters call.target (·.file = fileName call.id call.name)
        (· = (Candidate.of call, StoredCall.kept call)) disk after ∧
      (Candidate.of call, StoredCall.kept call) ∈ backlog.stored after call.target := by
  have named := ofName?_fileName call.id call.name
  have reads : backlog.callIn after call.target (fileName call.id call.name) =
      some (StoredCall.kept call) :=
    (callIn_eq_some_iff tree).mpr ⟨_, content, StoredCall.decode_encode admissible⟩
  constructor
  · apply alters_of_onlyAt only
    · exact fun candidate isHere => file_of_ofName? isHere
    · intro entry member isHere
      obtain ⟨isCandidate, isRead⟩ := mem_stored.mp member
      rw [isHere] at isCandidate isRead
      have sameCandidate := Option.some.inj (named.symm.trans isCandidate)
      have sameCall := Option.some.inj (reads.symm.trans isRead)
      exact .inr (Prod.ext sameCandidate.symm sameCall.symm)
  · exact mem_stored.mpr ⟨named, reads⟩

/-- A file that is made and written has the content that it was given. -/
theorem content_of_written {making writing : Activity} {content : Bytes}
    {ready opened written : FileSystem} (nonempty : path ≠ [])
    (made : (demand making (.makeFile path)).run.run ready = (.ok (), opened))
    (wrote : (demand writing (.append path content)).run.run opened = (.ok (), written)) :
    written.at? path = some (.file content) := by
  have empty : opened.at? path = some (.file []) := by
    cases performed_of_run_demand made with
    | looked looks => cases looks
    | madeFile _ _ => rw [at?_put nonempty, if_pos rfl]
  cases performed_of_run_demand wrote with
  | looked looks => cases looks
  | appended finds =>
      cases (at?_eq_of_find finds).symm.trans empty
      rw [at?_put nonempty, if_pos rfl, List.nil_append]

/-- A call that is written comes when the file is given its name. -/
theorem alters_of_renamed {activity : Activity} {written : FileSystem}
    (treeAfter : after.IsTree) (admissible : call.invocation.Admissible)
    (content : written.at?
      (backlog.path call.target (partialName (fileName call.id call.name))) =
        some (.file (StoredCall.encode call)))
    (renamed : (demand activity (.rename
      (backlog.path call.target (partialName (fileName call.id call.name)))
      (backlog.fileOf call))).run.run written = (.ok (), after)) :
    backlog.Alters call.target (·.file = fileName call.id call.name)
        (· = (Candidate.of call, StoredCall.kept call)) written after ∧
      (Candidate.of call, StoredCall.kept call) ∈ backlog.stored after call.target := by
  cases performed_of_run_demand renamed with
  | looked looks => cases looks
  | renamed finds _ _ _ =>
      cases (at?_eq_of_find finds).symm.trans content
      have unseen : backlog.Unseen written (written.erase
          (backlog.path call.target (partialName (fileName call.id call.name)))) :=
        fun other => .of_file (.erase (path_ne_nil _ _ _)) fun _ => ofName?_partialName _
      obtain ⟨alters, isStored⟩ := alters_of_content treeAfter (.put (path_ne_nil _ _ _) _)
        ((at?_put (path_ne_nil _ _ _) _ _).trans (if_pos rfl)) admissible
      exact ⟨IsTrans.trans _ _ _ unseen.alters alters, isStored⟩

/-- A call is stored when all requests are granted. -/
theorem alters_store (tree : disk.IsTree) (admissible : call.invocation.Admissible)
    (ran : (backlog.store call).run.run disk = (.ok (), after)) :
    backlog.Alters call.target (·.file = fileName call.id call.name)
        (· = (Candidate.of call, StoredCall.kept call)) disk after ∧
      (Candidate.of call, StoredCall.kept call) ∈ backlog.stored after call.target := by
  unfold store at ran
  obtain ⟨made, ready, making, ran⟩ := DiskProgram.exists_of_run_bind ran
  obtain ⟨unseenReady, treeReady⟩ := (relates_makeAll _ _).run_except tree making
  split at ran
  next => cases ran
  obtain ⟨_, opened, opening, ran⟩ := DiskProgram.exists_of_run_bind ran
  obtain ⟨unseenOpened, treeOpened⟩ := (relates_unfinished (.inl rfl)).run_except treeReady opening
  obtain ⟨_, written, writing, ran⟩ := DiskProgram.exists_of_run_bind ran
  obtain ⟨unseenWritten, treeWritten⟩ :=
    (relates_unfinished (.inr ⟨_, rfl⟩)).run_except treeOpened writing
  have content := content_of_written (path_ne_nil _ _ _) opening writing
  obtain ⟨_, synced, syncing, naming⟩ := DiskProgram.exists_of_run_bind ran
  cases performed_of_run_demand syncing
  have treeAfter := DiskProgram.isTree_of_run treeWritten naming
  obtain ⟨alters, isStored⟩ := alters_of_renamed treeAfter admissible content naming
  have unseen : backlog.Unseen disk written :=
    IsTrans.trans _ _ _ unseenReady (IsTrans.trans _ _ _ unseenOpened unseenWritten)
  exact ⟨IsTrans.trans _ _ _ unseen.alters alters, isStored⟩

/-- Wherever storing a call stops, the call is in its file or nothing is seen. -/
theorem relates_store (admissible : call.invocation.Admissible) :
    (backlog.store call).run.Relates
      (backlog.Alters call.target (·.file = fileName call.id call.name)
        (· = (Candidate.of call, StoredCall.kept call))) := by
  intro disk left tree stops
  rcases commits_store.stops tree stops with unseen | rfl
  · exact unseen.alters
  · cases result : ((backlog.store call).run.run disk).1 with
    | error fault => exact (commits_store.fails tree result).alters
    | ok _ => exact (alters_store tree admissible (Prod.ext result rfl)).1

/-- A call that is stored takes the place of what is in its file, and of all calls of its
method if only the latest counts. -/
def Replaces (call : Call) (candidate : Candidate) : Prop :=
  candidate.file = fileName call.id call.name ∨
    call.isLatest = true ∧ candidate.method = escape call.name

theorem relates_enqueue (admissible : call.invocation.Admissible) :
    (backlog.enqueue call).run.Relates
      (backlog.Alters call.target (Replaces call)
        (· = (Candidate.of call, StoredCall.kept call))) := by
  have stores : (backlog.store call).run.Relates
      (backlog.Alters call.target (Replaces call)
        (· = (Candidate.of call, StoredCall.kept call))) := by
    intro disk left tree stops
    exact (relates_store admissible tree stops).mono (fun _ => .inl) fun _ => id
  unfold enqueue
  by_cases isLatest : call.isLatest = true
  · rw [if_pos isLatest]
    have removes : (backlog.removeByName call.target call.name).run.Relates
        (backlog.Alters call.target (Replaces call)
          (· = (Candidate.of call, StoredCall.kept call))) := by
      intro disk left tree stops
      apply (relates_removeByName call.name tree stops).mono
      · exact fun candidate selected => .inr ⟨isLatest, selected⟩
      · exact fun _ => id
    exact removes.bind_except fun _ _ _ _ => stores
  · rw [if_neg isLatest]
    exact stores

/-- A call for which all requests are granted is stored. -/
theorem mem_stored_of_run_enqueue (tree : disk.IsTree) (admissible : call.invocation.Admissible)
    (ran : (backlog.enqueue call).run.run disk = (.ok (), after)) :
    (Candidate.of call, StoredCall.kept call) ∈ backlog.stored after call.target := by
  unfold enqueue at ran
  by_cases isLatest : call.isLatest = true
  · rw [if_pos isLatest] at ran
    obtain ⟨count, cleared, removes, stores⟩ := DiskProgram.exists_of_run_bind ran
    exact (alters_store (DiskProgram.isTree_of_run tree removes) admissible stores).2
  · rw [if_neg isLatest] at ran
    exact (alters_store tree admissible ran).2

end

end PeerCalls.FileBacklog
