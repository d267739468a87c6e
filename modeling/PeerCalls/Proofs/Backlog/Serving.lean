import PeerCalls.Frame.Greeting
import PeerCalls.Proofs.Backlog.Agreement
import PeerCalls.Proofs.Backlog.Failing

/-!
# Room for names

In an empty directory, a backlog stores a call and gives it back if two names are not too long:
that of the directory of the target, and that of the file of the call before it is finished.
Nothing else is in the way. A byte that is not plain takes three bytes in a name, so how long a
client id or a method may be depends on the characters in it, and for a method also on the
digits of the id of the call. A greeting and an invocation may have names that do not fit.
-/

namespace PeerCalls

open FileSystem (maxNameLength)

/-! ## The lengths of names -/

namespace FileBacklog

/-- How long a text is in a file name: each byte that is not plain takes three. -/
def escapedLength (text : String) : Nat :=
  text.utf8ByteSize + 2 * (Bytes.ofText text).countP (!isPlain ·)

theorem length_flatMap_escapeByte (bytes : Bytes) :
    (bytes.flatMap escapeByte).length = bytes.length + 2 * bytes.countP (!isPlain ·) := by
  induction bytes with
  | nil => rfl
  | cons byte rest ih =>
      rw [List.flatMap_cons, List.length_append, ih, List.length_cons]
      unfold escapeByte
      by_cases plain : isPlain byte = true
      · rw [if_pos plain, List.countP_cons_of_neg (by simp [plain]), List.length_singleton]
        omega
      · rw [if_neg plain, List.countP_cons_of_pos (by simp [plain])]
        simp only [List.length_cons, List.length_nil]
        omega

theorem length_escape (text : String) : (escape text).length = escapedLength text := by
  rw [escape, length_flatMap_escapeByte, Bytes.length_ofText, escapedLength]

theorem length_directoryName_client (id : String) :
    (directoryName (.client id)).length = 7 + escapedLength id := by
  rw [directoryName, List.length_append, length_escape, Bytes.length_ofText]
  rfl

theorem length_partialName_fileName (id : UInt64) (name : String) :
    (partialName (fileName id name)).length =
      (toString id.toNat).utf8ByteSize + 6 + escapedLength name := by
  have ending : (Bytes.ofText ".tmp").length = 4 := by decide
  simp only [partialName, fileName, List.length_append, List.length_cons, length_escape,
    Bytes.length_ofText (toString _), ending]
  omega

end FileBacklog

open FileBacklog (escapedLength directoryName partialName fileName)

/-- The names that a backlog in files makes for a call are not too long. -/
structure Call.Fits (call : Call) : Prop where
  target : ∀ id, call.target = .client id → 7 + escapedLength id ≤ maxNameLength
  method : (toString call.id.toNat).utf8ByteSize + 6 + escapedLength call.name ≤ maxNameLength

namespace Call.Fits

variable {call : Call}

theorem iff_lengths : call.Fits ↔ (directoryName call.target).length ≤ maxNameLength ∧
    (partialName (fileName call.id call.name)).length ≤ maxNameLength := by
  rw [FileBacklog.length_partialName_fileName]
  constructor
  · intro fits
    refine ⟨?_, fits.method⟩
    cases isTarget : call.target with
    | server => exact FileBacklog.length_directoryName_server
    | client id =>
        rw [FileBacklog.length_directoryName_client]
        exact fits.target id isTarget
  · intro lengths
    refine ⟨fun id isTarget => ?_, lengths.2⟩
    rw [← FileBacklog.length_directoryName_client, ← isTarget]
    exact lengths.1

end Call.Fits

/-! ## Serving -/

namespace StoredCall

/-- What a file says about a call is what is kept of it. -/
theorem encode_kept (call : Call) : encode (kept call) = encode call := by
  have timeout : ∀ timeout, timeoutMilliseconds (keptTimeout timeout) =
      timeoutMilliseconds timeout := by
    intro timeout
    rw [keptTimeout, ← toNat_timeoutMilliseconds, timeoutMilliseconds_ofMilliseconds]
  have same : encodeTimeout (call.timeout.map keptTimeout) = encodeTimeout call.timeout := by
    cases call.timeout with
    | none => rfl
    | some waits => exact congrArg (1 :: Bytes.ofWord ·) (timeout waits)
  unfold encode
  rw [kept, same]
  rfl

end StoredCall

namespace FileBacklog

open Backlog (Fault)
open FileSystem

/-- A backlog stores a call to a target that has none yet, and gives it back as it is kept. -/
structure Serves (backlog : FileBacklog) (disk : FileSystem) (call : Call) : Prop where
  isEmpty : ((backlog.readAll call.target).run.run disk).1 = .ok []
  stores : ((backlog.enqueue call).run.run disk).1 = .ok ()
  reads : ((backlog.readAll call.target).run.run ((backlog.enqueue call).run.run disk).2).1 =
    .ok [StoredCall.kept call]

/-- A call is served if its names fit, and what does not fit is refused for its length. -/
structure ServesWhatFits (backlog : FileBacklog) (disk : FileSystem) (call : Call) : Prop where
  serves : call.Fits → backlog.Serves disk call
  refuses : ¬ call.Fits →
    ∃ activity, ((backlog.enqueue call).run.run disk).1 = .error (.disk activity .nameTooLong)
  refusesTarget : maxNameLength < (directoryName call.target).length →
    ((backlog.readAll call.target).run.run disk).1 =
      .error (.disk (.listingDirectory (backlog.directoryText call.target)) .nameTooLong)

section

variable {backlog : FileBacklog} {disk : FileSystem} {target : Peer} {call : Call}

theorem enqueue_kept (backlog : FileBacklog) (call : Call) :
    backlog.enqueue (StoredCall.kept call) = backlog.enqueue call := by
  unfold enqueue store
  rw [StoredCall.encode_kept]
  rfl

theorem storable_kept (admissible : call.invocation.Admissible) (fits : call.Fits) :
    Storable (StoredCall.kept call) := by
  obtain ⟨directory, file⟩ := Call.Fits.iff_lengths.mp fits
  refine ⟨admissible, rfl, rfl, ?_, directory, file⟩
  intro timeout isTimeout
  obtain ⟨waits, _, rfl⟩ := Option.map_eq_some_iff.mp isTimeout
  exact ⟨_, Nat.lt_of_le_of_lt (Nat.min_le_right _ _) (by decide), rfl⟩

/-- A directory whose name is too long can be neither listed nor made. -/
theorem unlisted?_tooLong (reached : disk.find backlog.root = .ok (some .directory))
    (long : maxNameLength < (directoryName target).length) :
    backlog.unlisted? disk target = some .nameTooLong := by
  simp only [unlisted?, FileSystem.list, directory, find_tooLong reached long]
  rfl

theorem run_makeDirectories_tooLong (reached : disk.find backlog.root = .ok (some .directory))
    (long : maxNameLength < (directoryName target).length) :
    (makeDirectories (backlog.root.length + 1) (backlog.directory target).reverse).run disk =
      (.error .nameTooLong, disk) := by
  have finds := find_tooLong reached long
  rw [directory, List.reverse_append, List.reverse_singleton, List.singleton_append,
    makeDirectories, List.reverse_cons, List.reverse_reverse, DiskProgram.run_bind]
  simp only [DiskProgram.request, DiskProgram.run, perform, change, FileSystem.makeDirectory,
    finds, bind, Except.bind]
  simp only [makeDirectories.orThere, DiskProgram.run_bind, DiskProgram.request, DiskProgram.run,
    perform, isDirectory, finds]
  rfl

/-- A call to a target with such a directory is not stored. -/
theorem exists_run_enqueue_longTarget (reached : disk.find backlog.root = .ok (some .directory))
    (long : maxNameLength < (directoryName call.target).length) :
    ∃ activity, ((backlog.enqueue call).run.run disk).1 = .error (.disk activity .nameTooLong) := by
  unfold enqueue
  by_cases isLatest : call.isLatest = true
  · have candidates : (backlog.candidates call.target).run.run disk =
        (.error (.disk (.listingDirectory (backlog.directoryText call.target)) .nameTooLong),
          disk) := by
      rw [run_candidates_found, unlisted?_tooLong reached long]
    have removes : (backlog.removeByName call.target call.name).run.run disk =
        (.error (.disk (.listingDirectory (backlog.directoryText call.target)) .nameTooLong),
          disk) :=
      run_bind_error _ candidates
    rw [if_pos isLatest, run_bind_error _ removes]
    exact ⟨_, rfl⟩
  · rw [if_neg isLatest]
    unfold store
    rw [run_bind_ok _ (run_lift (run_makeDirectories_tooLong reached long))]
    exact ⟨_, rfl⟩

end

section

variable {backlog : FileBacklog} {disk : FileSystem} {call : Call}
  (reached : disk.find backlog.root = .ok (some .directory))
  (isEmpty : ∀ path ≠ [], disk.at? (backlog.root ++ path) = none)
include reached isEmpty

theorem serves_of_fits (admissible : call.invocation.Admissible) (fits : call.Fits) :
    backlog.Serves disk call := by
  have directory := (Call.Fits.iff_lengths.mp fits).1
  have holds := holds_empty reached isEmpty
  have before := lists_empty (StoredCall.kept call).target
  obtain ⟨disk, ran, holdsNew⟩ := run_enqueue holds before (storable_kept admissible fits)
  rw [enqueue_kept] at ran
  have holdsAfter : Holds backlog (· = StoredCall.kept call) disk := holdsNew.congr (by simp)
  have after : Lists (· = StoredCall.kept call) call.target [StoredCall.kept call] :=
    lists_singleton (StoredCall.kept call)
  constructor
  case isEmpty => exact congrArg Prod.fst (run_readAll holds before directory)
  case stores => rw [ran]
  case reads =>
    rw [ran]
    exact congrArg Prod.fst (run_readAll holdsAfter after directory)

theorem exists_refused (long : ¬ call.Fits) :
    ∃ activity, ((backlog.enqueue call).run.run disk).1 =
      .error (.disk activity .nameTooLong) := by
  by_cases fits : (directoryName call.target).length ≤ maxNameLength
  · have holds := holds_empty reached isEmpty
    have longFile : maxNameLength < (partialName (fileName call.id call.name)).length :=
      Nat.lt_of_not_le fun short => long (Call.Fits.iff_lengths.mpr ⟨fits, short⟩)
    by_cases isLatest : call.isLatest = true
    · obtain ⟨after, ran, _⟩ :=
        exists_run_enqueue_tooLong holds (lists_empty _) fits isLatest longFile
      exact ⟨_, congrArg Prod.fst ran⟩
    · obtain ⟨after, ran, _⟩ := exists_run_store_tooLong holds fits longFile
      unfold enqueue
      rw [if_neg isLatest]
      exact ⟨_, congrArg Prod.fst ran⟩
  · exact exists_run_enqueue_longTarget reached (Nat.lt_of_not_le fits)

/-- In an empty directory a call is served if its names fit, and only then. -/
theorem servesWhatFits_of_isEmpty (admissible : call.invocation.Admissible) :
    backlog.ServesWhatFits disk call where
  serves := serves_of_fits reached isEmpty admissible
  refuses := exists_refused reached isEmpty
  refusesTarget long := by rw [run_readAll_stored, unlisted?_tooLong reached long]

end

/-- There is room for a name of 255 bytes, and for none with one byte more. -/
theorem servesWhatFits_verbose : Serves ⟨[], ""⟩ .empty (verbose 1) ∧
    ∃ activity, ((FileBacklog.enqueue ⟨[], ""⟩ (verbose 10)).run.run .empty).1 =
      .error (.disk activity .nameTooLong) := by
  have first : ServesWhatFits ⟨[], ""⟩ .empty (verbose 1) :=
    servesWhatFits_of_isEmpty rfl (fun _ nonempty => at?_empty nonempty) (admissible_verbose 1)
  have tenth : ServesWhatFits ⟨[], ""⟩ .empty (verbose 10) :=
    servesWhatFits_of_isEmpty rfl (fun _ nonempty => at?_empty nonempty) (admissible_verbose 10)
  constructor
  · apply first.serves
    exact Call.Fits.iff_lengths.mpr
      ⟨length_directoryName_server, Nat.le_of_eq (length_partialName_verbose 1)⟩
  · apply tenth.refuses
    intro fits
    have length : (partialName (fileName (verbose 10).id (verbose 10).name)).length = 256 :=
      length_partialName_verbose 10
    have short := (Call.Fits.iff_lengths.mp fits).2
    rw [length] at short
    exact absurd short (by decide)

theorem decode_ofText {id : String} (nonempty : id.utf8ByteSize ≠ 0)
    (short : id.utf8ByteSize ≤ Greeting.maxLength) :
    Greeting.decode (Bytes.ofText id) = .ok id := by
  have isSomeone : id.isEmpty = false := by
    simpa [String.isEmpty] using nonempty
  have checked : Greeting.check id = .ok () := by
    simp only [Greeting.check, isSomeone, Bool.false_eq_true, if_false,
      if_neg (Nat.not_lt.mpr short)]
  simp only [Greeting.decode, Utf8.decode_ofText, Except.mapError, bind, Except.bind, checked]
  rfl

/-- A client may have an id that is too long for a directory. -/
theorem exists_longClient : ∃ client, Greeting.decode (Bytes.ofText client) = .ok client ∧
    maxNameLength < (directoryName (.client client)).length := by
  have size : ∀ count, (String.ofList (List.replicate count 'a')).utf8ByteSize = count := by
    intro count
    rw [← Bytes.length_ofText, ofText_replicate, List.length_replicate]
  refine ⟨String.ofList (List.replicate 249 'a'), decode_ofText ?_ ?_, ?_⟩
  · rw [size]
    decide
  · rw [size]
    decide
  · rw [directoryName, List.length_append, length_escape_replicate]
    decide

/-- It is not true that each client that may connect is served. -/
theorem not_serves_of_decode : ¬ ∀ (frame : Bytes) (client name : String) (id : UInt64)
    (params : List Bytes) (call : Call), Greeting.decode frame = .ok client →
      call.target = .client client → Invocation.make id name params = .ok call.invocation →
        call.isRetryable = true → Serves ⟨[], ""⟩ .empty call := by
  intro serves
  obtain ⟨client, decoded, long⟩ := exists_longClient
  let call : Call := ⟨.client client, ⟨1, "f", []⟩, some .retry, none, none, none⟩
  have isEmpty := (serves _ client "f" 1 [] call decoded rfl rfl rfl).isEmpty
  rw [run_readAll_stored, unlisted?_tooLong rfl long] at isEmpty
  cases isEmpty

end FileBacklog

end PeerCalls
