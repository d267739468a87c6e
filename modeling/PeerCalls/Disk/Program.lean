import PeerCalls.Disk.Basic

/-!
# Programs that use a file system

A program asks one request after the other, each depending on the answers before.
`run` answers all of them; `runFor` answers some and then stops, as a crash does.
-/

namespace PeerCalls

/-- A value, or a request and what to do with its answer. -/
inductive DiskProgram (α : Type) where
  | done (value : α)
  | ask (request : DiskRequest) (next : Except DiskFault request.Answer → DiskProgram α)

namespace DiskProgram

/-- One program after another. -/
def bind {α β : Type} : DiskProgram α → (α → DiskProgram β) → DiskProgram β
  | done value, continuation => continuation value
  | ask request next, continuation => ask request fun answer => (next answer).bind continuation

instance : Monad DiskProgram where
  pure := done
  bind := bind

/-- Ask one request. -/
def request (request : DiskRequest) : DiskProgram (Except DiskFault request.Answer) :=
  ask request done

/-- Answer all requests. -/
def run {α : Type} : DiskProgram α → FileSystem → α × FileSystem
  | done value, files => (value, files)
  | ask request next, files =>
    let (answer, files) := files.perform request
    (next answer).run files

/-- Answer a number of requests: the files at that point. -/
def runFor {α : Type} : (requests : Nat) → DiskProgram α → FileSystem → FileSystem
  | 0, _, files => files
  | _, done _, files => files
  | requests + 1, ask request next, files =>
    let (answer, files) := files.perform request
    (next answer).runFor requests files

@[simp] theorem run_pure {α : Type} (value : α) (files : FileSystem) :
    (pure value : DiskProgram α).run files = (value, files) := rfl

theorem run_bind {α β : Type} (program : DiskProgram α) (continuation : α → DiskProgram β)
    (files : FileSystem) :
    (program >>= continuation).run files
      = (continuation (program.run files).1).run (program.run files).2 := by
  change (program.bind continuation).run files = _
  induction program generalizing files with
  | done value => rfl
  | ask request next ih => exact ih _ _

end DiskProgram

end PeerCalls
