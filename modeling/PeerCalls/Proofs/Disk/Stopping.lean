import PeerCalls.Disk.Program
import PeerCalls.Proofs.Disk.Trees

/-!
# Programs that stop

A program may stop at any point: before a request, in the middle of writing, or at its end.
What it then leaves on a file system is described by relations between what it found and what
it leaves. A program that relates the two wherever it stops does so if each of its parts does.
A program that commits does this too, or it has come to its end.
-/

namespace PeerCalls

/-- A request that is not completed: of what is to be written, only the beginning is. -/
inductive DiskRequest.IsPartOf : DiskRequest → DiskRequest → Prop where
  | whole {request : DiskRequest} : IsPartOf request request
  | written {path : Path} {beginning content : Bytes} : beginning <+: content →
      IsPartOf (.append path beginning) (.append path content)

namespace DiskProgram

variable {α β : Type} {files left : FileSystem}

/-- What a program may leave on a file system if it stops at some point. -/
inductive Leaves : DiskProgram α → FileSystem → FileSystem → Prop where
  | here {program : DiskProgram α} {files : FileSystem} : Leaves program files files
  | partly {part request : DiskRequest} {next : Except DiskFault request.Answer → DiskProgram α}
      {files : FileSystem} : part.IsPartOf request →
      Leaves (ask request next) files (files.perform part).2
  | later {request : DiskRequest} {next : Except DiskFault request.Answer → DiskProgram α}
      {files left : FileSystem} :
      Leaves (next (files.perform request).1) (files.perform request).2 left →
      Leaves (ask request next) files left

/-- A program may stop at its end. -/
theorem leaves_run (program : DiskProgram α) (files : FileSystem) :
    program.Leaves files (program.run files).2 := by
  induction program generalizing files with
  | done value => exact .here
  | ask request next ih => exact .later (ih _ _)

/-- A program may stop after any number of requests. -/
theorem leaves_runFor (requests : Nat) (program : DiskProgram α) (files : FileSystem) :
    program.Leaves files (program.runFor requests files) := by
  induction requests generalizing program files with
  | zero => exact .here
  | succ requests ih =>
      cases program with
      | done value => exact .here
      | ask request next => exact .later (ih _ _)

theorem eq_of_leaves_pure {value : α} (stops : (pure value : DiskProgram α).Leaves files left) :
    left = files := by
  cases stops
  rfl

/-- A program stops in its first part, or in what comes after this. -/
theorem leaves_bind {program : DiskProgram α} {continuation : α → DiskProgram β}
    (stops : (program >>= continuation).Leaves files left) :
    program.Leaves files left ∨
      (continuation (program.run files).1).Leaves (program.run files).2 left := by
  change (program.bind continuation).Leaves files left at stops
  induction program generalizing files with
  | done value => exact .inr stops
  | ask request next ih =>
      cases stops with
      | here => exact .inl .here
      | partly part => exact .inl (.partly part)
      | later stops => exact (ih _ stops).imp_left .later

/-- What every request keeps is kept wherever a program stops. -/
theorem Leaves.preserves {property : FileSystem → Prop}
    (performs : ∀ files request, property files → property (files.perform request).2)
    {program : DiskProgram α} (stops : program.Leaves files left) (holds : property files) :
    property left := by
  induction stops with
  | here => exact holds
  | partly _ => exact performs _ _ holds
  | later _ ih => exact ih (performs _ _ holds)

theorem Leaves.isTree {program : DiskProgram α} (stops : program.Leaves files left)
    (tree : files.IsTree) : left.IsTree :=
  stops.preserves (fun _ request tree => tree.perform request) tree

theorem isTree_run {files : FileSystem} (tree : files.IsTree) (program : DiskProgram α) :
    (program.run files).2.IsTree :=
  (leaves_run program files).isTree tree

theorem at?_directory_run {path : Path} (program : DiskProgram α)
    (isThere : files.at? path = some .directory) :
    (program.run files).2.at? path = some .directory := by
  have performs : ∀ (files : FileSystem) (request : DiskRequest),
      files.at? path = some .directory → (files.perform request).2.at? path = some .directory :=
    fun _ request isThere => FileSystem.at?_directory_perform isThere request
  exact (leaves_run program files).preserves performs isThere

/-! ## Relations that hold wherever a program stops -/

/-- Wherever a program stops on a tree, what it leaves is related to what it found. -/
def Relates (relation : FileSystem → FileSystem → Prop) (program : DiskProgram α) : Prop :=
  ∀ ⦃files left : FileSystem⦄, files.IsTree → program.Leaves files left → relation files left

section

variable {relation : FileSystem → FileSystem → Prop}

theorem relates_pure [Std.Refl relation] (value : α) :
    (pure value : DiskProgram α).Relates relation := by
  intro files left _ stops
  rw [eq_of_leaves_pure stops]
  exact Std.Refl.refl files

theorem relates_request [Std.Refl relation] {request : DiskRequest}
    (performs : ∀ files part, FileSystem.IsTree files → part.IsPartOf request →
      relation files (files.perform part).2) :
    (DiskProgram.request request).Relates relation := by
  intro files left tree stops
  cases stops with
  | here => exact Std.Refl.refl files
  | partly part => exact performs files _ tree part
  | later stops =>
      cases stops
      exact performs files request tree .whole

/-- A request that only looks leaves everything as it is. -/
theorem relates_look [Std.Refl relation] {request : DiskRequest} (looks : request.looks = true) :
    (DiskProgram.request request).Relates relation := by
  apply relates_request
  intro files part _ isPart
  have same : (files.perform part).2 = files := by
    cases isPart with
    | written _ => cases looks
    | whole => cases request <;> first | rfl | cases looks
  rw [same]
  exact Std.Refl.refl files

theorem Relates.bind [IsTrans FileSystem relation] {program : DiskProgram α}
    {continuation : α → DiskProgram β} (first : program.Relates relation)
    (second : ∀ files, files.IsTree → (continuation (program.run files).1).Relates relation) :
    (program >>= continuation).Relates relation := by
  intro files left tree stops
  rcases leaves_bind stops with stops | stops
  · exact first tree stops
  · exact IsTrans.trans _ _ _ (first tree (leaves_run program files))
      (second files tree (isTree_run tree program) stops)

end

end DiskProgram

/-! ## Programs that may fail -/

namespace DiskProgram

variable {ε α β : Type} {relation : FileSystem → FileSystem → Prop}
  {program : ExceptT ε DiskProgram α} {next : α → ExceptT ε DiskProgram β}
  {files left : FileSystem}

/-- A program that may fail stops in its first part, or after it has not failed. -/
theorem leaves_bind_except (stops : (program >>= next).run.Leaves files left) :
    program.run.Leaves files left ∨ ∃ value, (program.run.run files).1 = .ok value ∧
      (next value).run.Leaves (program.run.run files).2 left := by
  rw [ExceptT.run_bind] at stops
  refine (leaves_bind stops).elim .inl fun stops => ?_
  cases result : (program.run.run files).1 with
  | error fault =>
      rw [result] at stops
      rw [eq_of_leaves_pure stops]
      exact .inl (leaves_run _ _)
  | ok value =>
      rw [result] at stops
      exact .inr ⟨value, rfl, stops⟩

theorem run_bind_except {value : α} (ran : (program.run.run files).1 = .ok value) :
    (program >>= next).run.run files = (next value).run.run (program.run.run files).2 := by
  rw [ExceptT.run_bind, run_bind, ran]

theorem run_bind_except_error {fault : ε} (ran : (program.run.run files).1 = .error fault) :
    (program >>= next).run.run files = (.error fault, (program.run.run files).2) := by
  rw [ExceptT.run_bind, run_bind, ran]
  rfl

/-- A program that has come to its end and not failed has done so with all its parts. -/
theorem exists_of_run_bind {result : β} {after : FileSystem}
    (ran : (program >>= next).run.run files = (.ok result, after)) :
    ∃ value middle, program.run.run files = (.ok value, middle) ∧
      (next value).run.run middle = (.ok result, after) := by
  cases first : (program.run.run files).1 with
  | error fault =>
      rw [run_bind_except_error first] at ran
      cases ran
  | ok value =>
      rw [run_bind_except first] at ran
      exact ⟨value, _, Prod.ext first rfl, ran⟩

theorem isTree_of_run {result : Except ε α} {after : FileSystem} (tree : files.IsTree)
    (ran : program.run.run files = (result, after)) : after.IsTree := by
  have treeAfter := isTree_run tree program.run
  rwa [ran] at treeAfter

/-- A program that has come to its end has related what it found to what it leaves. -/
theorem Relates.run_except {result : Except ε α} {after : FileSystem}
    (relates : program.run.Relates relation) (tree : files.IsTree)
    (ran : program.run.run files = (result, after)) : relation files after ∧ after.IsTree := by
  have related := relates tree (leaves_run program.run files)
  rw [ran] at related
  exact ⟨related, isTree_of_run tree ran⟩

theorem relates_return [Std.Refl relation] (value : α) :
    (pure value : ExceptT ε DiskProgram α).run.Relates relation :=
  relates_pure (Except.ok value)

theorem relates_throw [Std.Refl relation] (fault : ε) :
    (throw fault : ExceptT ε DiskProgram α).run.Relates relation :=
  relates_pure (Except.error fault)

theorem leaves_lift {program : DiskProgram α}
    (stops : (liftM program : ExceptT ε DiskProgram α).run.Leaves files left) :
    program.Leaves files left ∨ left = (program.run files).2 := by
  have stops : (program >>= fun value => pure (Except.ok value)).Leaves files left := stops
  exact (leaves_bind stops).imp_right eq_of_leaves_pure

theorem relates_lift {program : DiskProgram α} (relates : program.Relates relation) :
    (liftM program : ExceptT ε DiskProgram α).run.Relates relation := by
  intro files left tree stops
  rcases leaves_lift stops with stops | rfl
  · exact relates tree stops
  · exact relates tree (leaves_run program files)

theorem Relates.bind_except [IsTrans FileSystem relation] (first : program.run.Relates relation)
    (second : ∀ files value, files.IsTree → (program.run.run files).1 = .ok value →
      (next value).run.Relates relation) : (program >>= next).run.Relates relation := by
  intro files left tree stops
  rcases leaves_bind_except stops with stops | ⟨value, ran, stops⟩
  · exact first tree stops
  · exact IsTrans.trans _ _ _ (first tree (leaves_run program.run files))
      (second files value tree ran (isTree_run tree program.run) stops)

/-- Wherever a program stops or fails on a tree, what it leaves is related to what it found,
unless it has come to its end and not failed. -/
structure Commits (relation : FileSystem → FileSystem → Prop)
    (program : ExceptT ε DiskProgram α) : Prop where
  stops : ∀ ⦃files left : FileSystem⦄, files.IsTree → program.run.Leaves files left →
    relation files left ∨ left = (program.run.run files).2
  fails : ∀ ⦃files : FileSystem⦄ ⦃fault : ε⦄, files.IsTree →
    (program.run.run files).1 = .error fault → relation files (program.run.run files).2

theorem Relates.commits (relates : program.run.Relates relation) : Commits relation program where
  stops _ _ tree stops := .inl (relates tree stops)
  fails files _ tree _ := relates tree (leaves_run program.run files)

theorem Commits.bind [IsTrans FileSystem relation] (first : program.run.Relates relation)
    (second : ∀ value, Commits relation (next value)) : Commits relation (program >>= next) where
  stops files left tree stops := by
    rcases leaves_bind_except stops with stops | ⟨value, ran, stops⟩
    · exact .inl (first tree stops)
    · rw [run_bind_except ran]
      apply ((second value).stops (isTree_run tree program.run) stops).imp_left
      exact IsTrans.trans _ _ _ (first tree (leaves_run program.run files))
  fails files fault tree failed := by
    have begun := first tree (leaves_run program.run files)
    cases ran : (program.run.run files).1 with
    | error _ =>
        rw [run_bind_except_error ran]
        exact begun
    | ok value =>
        rw [run_bind_except ran] at failed ⊢
        exact IsTrans.trans _ _ _ begun
          ((second value).fails (isTree_run tree program.run) failed)

end DiskProgram

end PeerCalls
