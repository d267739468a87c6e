import PeerCalls.Proofs.Frame.StoredCall

/-!
# Bytes cut off and bytes added

A connection that breaks or a file that is torn leaves the beginning of a frame, and what is
accepted must not be the beginning or the continuation of something else that is accepted.
This rests on one property of readers, `IsSteady`: they go by the front of the bytes, so more
bytes at the end change nothing, except that what was missing may now be there. A decoder is a
steady reader that must find nothing behind what it takes (`IsWhole`).
-/

namespace PeerCalls

namespace Frame

/-- A fault that says that bytes are missing at the end. -/
inductive Fault.IsCut : Fault → Prop where
  | tooShort (what : String) {needed available : Nat} (short : available < needed) :
      IsCut (.tooShort what needed available)
  | missingDelimiter (delimiter : UInt8) (what : String) : IsCut (.missingDelimiter delimiter what)
  | noHeader {start : Bytes} (short : start.length < 2) : IsCut (.noHeader start)

/-- A decoder refuses what it accepts as soon as bytes at the end are cut off or bytes follow. A
cut is told as missing bytes, and what follows is counted. -/
structure DetectsCuts {α : Type} (decode : Bytes → Except Fault α) : Prop where
  shorter : ∀ bytes value, decode bytes = .ok value →
    ∀ kept, kept <+: bytes → kept ≠ bytes → ∃ fault, fault.IsCut ∧ decode kept = .error fault
  longer : ∀ bytes value, decode bytes = .ok value →
    ∀ extended, bytes <+: extended → extended ≠ bytes →
      decode extended = .error (.trailing (extended.length - bytes.length))

end Frame

namespace Reader

variable {α β : Type} {bytes rest : Bytes}

/-! ## One reader after another -/

theorem run_bind_of_error {first : Reader α} {next : α → Reader β} {fault : Frame.Fault}
    (failed : first.run bytes = .error fault rest) :
    (first >>= next).run bytes = .error fault rest := by
  simp only [EStateM.run, Bind.bind, EStateM.bind] at failed ⊢
  rw [failed]

/-- Two readers fail if the first one does, or if the second one does after it. -/
theorem run_bind_eq_error {first : Reader α} {next : α → Reader β} {fault : Frame.Fault}
    (failed : (first >>= next).run bytes = .error fault rest) :
    first.run bytes = .error fault rest ∨
      ∃ value middle, first.run bytes = .ok value middle ∧
        (next value).run middle = .error fault rest := by
  cases run : first.run bytes with
  | ok value middle =>
      rw [run_bind_of_ok run] at failed
      exact .inr ⟨value, middle, rfl, failed⟩
  | error other left =>
      rw [run_bind_of_error run] at failed
      cases failed
      exact .inl rfl

/-- What is made of the value of a reader does not matter if the reader fails. -/
theorem run_map_eq_error_iff {reader : Reader α} {change : α → β} {fault : Frame.Fault} :
    (do return change (← reader) : Reader β).run bytes = .error fault rest ↔
      reader.run bytes = .error fault rest := by
  constructor
  · intro failed
    rcases run_bind_eq_error failed with failed | ⟨value, middle, taken, returned⟩
    · exact failed
    · cases returned
  · exact run_bind_of_error

/-! ## Readers that go by the front of the bytes -/

/-- More bytes at the end do not change what a reader takes, nor how it fails unless it fails
because bytes are missing. -/
structure IsSteady (reader : Reader α) : Prop where
  takes : ∀ {bytes value rest}, reader.run bytes = .ok value rest →
    ∀ more, reader.run (bytes ++ more) = .ok value (rest ++ more)
  fails : ∀ {bytes fault rest}, reader.run bytes = .error fault rest → ¬ fault.IsCut →
    ∀ more, reader.run (bytes ++ more) = .error fault (rest ++ more)

theorem isSteady_pure (value : α) : IsSteady (pure value) where
  takes := by
    intro bytes result rest taken more
    cases taken
    rfl
  fails := by
    intro bytes fault rest failed
    cases failed

theorem isSteady_throw (fault : Frame.Fault) : IsSteady (throw fault : Reader α) where
  takes := by
    intro bytes value rest taken
    cases taken
  fails := by
    intro bytes other rest failed _ more
    cases failed
    rfl

theorem IsSteady.bind {first : Reader α} {next : α → Reader β} (steady : IsSteady first)
    (goesOn : ∀ value, IsSteady (next value)) : IsSteady (first >>= next) where
  takes := by
    intro bytes result rest taken more
    obtain ⟨value, middle, takenFirst, takenNext⟩ := run_bind_eq_ok taken
    rw [run_bind_of_ok (steady.takes takenFirst more)]
    exact (goesOn value).takes takenNext more
  fails := by
    intro bytes fault rest failed notCut more
    cases run_bind_eq_error failed with
    | inl failedFirst => exact run_bind_of_error (steady.fails failedFirst notCut more)
    | inr failedNext =>
        obtain ⟨value, middle, takenFirst, failedNext⟩ := failedNext
        rw [run_bind_of_ok (steady.takes takenFirst more)]
        exact (goesOn value).fails failedNext notCut more

theorem IsSteady.map {first : Reader α} (steady : IsSteady first) (change : α → β) :
    IsSteady (do return change (← first)) :=
  steady.bind fun value => isSteady_pure (change value)

theorem isSteady_take (what : String) (count : Nat) : IsSteady (take what count) where
  takes := by
    intro bytes value rest taken more
    obtain ⟨rfl, length⟩ := eq_append_of_take taken
    have reads := reads_take what value (rest ++ more)
    rwa [length, ← List.append_assoc] at reads
  fails := by
    intro bytes fault rest failed notCut
    simp only [take, EStateM.run] at failed
    split at failed
    next short =>
      cases failed
      exact absurd (.tooShort what short) notCut
    next => cases failed

theorem isSteady_byte (what : String) : IsSteady (byte what) where
  takes := by
    intro bytes value rest taken more
    rw [eq_cons_of_byte taken]
    rfl
  fails := by
    intro bytes fault rest failed notCut
    cases bytes with
    | nil =>
        cases failed
        exact absurd (.tooShort what Nat.one_pos) notCut
    | cons first others => cases failed

theorem isSteady_halfWord (what : String) : IsSteady (halfWord what) :=
  (isSteady_take what 4).map Bytes.ofLittleEndian

theorem isSteady_word (what : String) : IsSteady (word what) :=
  (isSteady_take what 8).map fun digits => UInt64.ofNat (Bytes.ofLittleEndian digits)

theorem isSteady_field (what : String) : IsSteady (field what) :=
  (isSteady_halfWord what).bind (isSteady_take what)

theorem isSteady_fields (what : String) (count : Nat) : IsSteady (fields what count) := by
  induction count with
  | zero => exact isSteady_pure []
  | succ count ih => exact (isSteady_field what).bind fun first => ih.map (first :: ·)

/-- Bytes with a delimiter keep it, and what stands before it, if more bytes follow. -/
theorem splits_append {delimiter first : UInt8} {others : Bytes}
    (found : bytes.dropWhile (· != delimiter) = first :: others) (more : Bytes) :
    (bytes ++ more).dropWhile (· != delimiter) = first :: (others ++ more) ∧
      (bytes ++ more).takeWhile (· != delimiter) = bytes.takeWhile (· != delimiter) := by
  have shorter : (bytes.takeWhile (· != delimiter)).length ≠ bytes.length := by
    have whole := congrArg List.length
      (List.takeWhile_append_dropWhile (p := (· != delimiter)) (l := bytes))
    rw [found, List.length_append, List.length_cons] at whole
    omega
  rw [List.dropWhile_append, List.takeWhile_append, found, if_neg shorter]
  exact ⟨rfl, rfl⟩

theorem isSteady_delimited (what : String) (delimiter : UInt8) :
    IsSteady (delimited what delimiter) where
  takes := by
    intro bytes value rest taken more
    obtain ⟨rfl, absent⟩ := eq_append_of_delimited taken
    have reads := reads_delimited what absent (rest ++ more)
    simpa using reads
  fails := by
    intro bytes fault rest failed notCut more
    simp only [delimited, EStateM.run] at failed
    split at failed
    next =>
      cases failed
      exact absurd (.missingDelimiter delimiter what) notCut
    next first others found =>
      split at failed
      next => cases failed
      next invalid refused =>
        cases failed
        obtain ⟨sameRest, sameText⟩ := splits_append found more
        simp only [delimited, EStateM.run, sameRest, sameText, refused]

theorem isSteady_header (expected : FrameKind) : IsSteady (header expected) where
  takes := by
    intro bytes value rest taken more
    rw [eq_append_of_header taken, List.append_assoc]
    exact reads_header expected (rest ++ more)
  fails := by
    intro bytes fault rest failed notCut more
    match bytes with
    | [] =>
        cases failed
        exact absurd (.noHeader Nat.two_pos) notCut
    | [only] =>
        cases failed
        exact absurd (.noHeader Nat.one_lt_two) notCut
    | first :: second :: others =>
        -- Two bytes settle what kind of frame this is.
        have settled : FrameKind.peek (first :: second :: others ++ more) =
            FrameKind.peek (first :: second :: others) := rfl
        simp only [header, EStateM.run, settled] at failed ⊢
        split at failed
        next found peeked =>
          split at failed
          next => cases failed
          next differs =>
            cases failed
            exact if_neg differs
        next =>
          cases failed
          rfl

/-! ## Readers that must take all bytes -/

/-- A reader that takes bytes only if there are no more. If there are, it fails: it counts those
that follow what it would take. -/
structure IsWhole (reader : Reader α) : Prop where
  takes : ∀ {bytes value rest}, reader.run bytes = .ok value rest →
    ∀ more, more ≠ [] → ∃ left, reader.run (bytes ++ more) = .error (.trailing more.length) left
  fails : ∀ {bytes fault rest}, reader.run bytes = .error fault rest → ¬ fault.IsCut →
    ∀ more, ∃ fault left, reader.run (bytes ++ more) = .error fault left

theorem isWhole_finish : IsWhole finish where
  takes := by
    intro bytes value rest taken more notEmpty
    rw [eq_nil_of_finish taken, List.nil_append]
    exact ⟨more, if_neg (by simpa using notEmpty)⟩
  fails := by
    intro bytes fault rest failed _ more
    refine ⟨.trailing (bytes ++ more).length, bytes ++ more, if_neg ?_⟩
    intro isEmpty
    have noBytes : bytes = [] := (List.append_eq_nil_iff.mp (List.isEmpty_iff.mp isEmpty)).1
    rw [noBytes] at failed
    cases failed

theorem IsSteady.isWhole {first : Reader α} {next : α → Reader β} (steady : IsSteady first)
    (goesOn : ∀ value, IsWhole (next value)) : IsWhole (first >>= next) where
  takes := by
    intro bytes result rest taken more notEmpty
    obtain ⟨value, middle, takenFirst, takenNext⟩ := run_bind_eq_ok taken
    rw [run_bind_of_ok (steady.takes takenFirst more)]
    exact (goesOn value).takes takenNext more notEmpty
  fails := by
    intro bytes fault rest failed notCut more
    cases run_bind_eq_error failed with
    | inl failedFirst =>
        exact ⟨fault, rest ++ more, run_bind_of_error (steady.fails failedFirst notCut more)⟩
    | inr failedNext =>
        obtain ⟨value, middle, takenFirst, failedNext⟩ := failedNext
        rw [run_bind_of_ok (steady.takes takenFirst more)]
        exact (goesOn value).fails failedNext notCut more

theorem IsWhole.map {reader : Reader α} (whole : IsWhole reader) (change : α → β) :
    IsWhole (do return change (← reader)) where
  takes := by
    intro bytes result rest taken more notEmpty
    obtain ⟨value, _, takenFirst⟩ := run_map_eq_ok taken
    obtain ⟨left, refused⟩ := whole.takes takenFirst more notEmpty
    exact ⟨left, run_map_eq_error_iff.mpr refused⟩
  fails := by
    intro bytes fault rest failed notCut more
    obtain ⟨other, left, refused⟩ := whole.fails (run_map_eq_error_iff.mp failed) notCut more
    exact ⟨other, left, run_map_eq_error_iff.mpr refused⟩

theorem decode_eq_error {reader : Reader α} {fault : Frame.Fault}
    (failed : reader.run bytes = .error fault rest) : reader.decode bytes = .error fault := by
  simp only [decode, failed]

/-- A decoder that must take all bytes notices that some were cut off or added. -/
theorem IsWhole.detectsCuts {reader : Reader α} (whole : IsWhole reader) :
    Frame.DetectsCuts reader.decode where
  shorter := by
    intro bytes value decoded kept isPrefix differs
    obtain ⟨more, rfl⟩ := isPrefix
    obtain ⟨rest, taken⟩ := run_of_decode decoded
    cases run : reader.run kept with
    | ok other left =>
        have notEmpty : more ≠ [] := by
          intro isEmpty
          simp [isEmpty] at differs
        obtain ⟨left, refused⟩ := whole.takes run more notEmpty
        rw [refused] at taken
        cases taken
    | error fault left =>
        by_cases isCut : fault.IsCut
        · exact ⟨fault, isCut, decode_eq_error run⟩
        · obtain ⟨other, left, refused⟩ := whole.fails run isCut more
          rw [refused] at taken
          cases taken
  longer := by
    intro bytes value decoded extended isPrefix differs
    obtain ⟨more, rfl⟩ := isPrefix
    obtain ⟨rest, taken⟩ := run_of_decode decoded
    have notEmpty : more ≠ [] := by
      intro isEmpty
      simp [isEmpty] at differs
    obtain ⟨left, refused⟩ := whole.takes taken more notEmpty
    rw [decode_eq_error refused, List.length_append, Nat.add_sub_cancel_left]

end Reader

/-! ## Calls, replies and stored calls -/

theorem Invocation.isWhole_reader : Reader.IsWhole reader :=
  (Reader.isSteady_header .method).isWhole fun _ =>
    (Reader.isSteady_word "method id").isWhole fun id =>
      (Reader.isSteady_delimited "method name" delimiter).isWhole fun name =>
        (Reader.isSteady_byte "parameter count").isWhole fun count =>
          (Reader.isSteady_fields "parameter" count.toNat).isWhole fun params =>
            Reader.isWhole_finish.map fun _ => (⟨id, name, params⟩ : Invocation)

theorem Verdict.isSteady_message : Reader.IsSteady messageReader := by
  apply (Reader.isSteady_field "failure message").bind
  intro content
  split
  next text _ => exact Reader.isSteady_pure text
  next fault _ => exact Reader.isSteady_throw (.notText fault)

theorem Verdict.isSteady_failure : Reader.IsSteady failureReader := by
  apply (Reader.isSteady_delimited "failure kind" Invocation.delimiter).bind
  intro name
  split
  next => exact Reader.isSteady_throw (.unknownFailure name)
  next kind _ => exact isSteady_message.map (failure kind)

theorem Verdict.isSteady_reader : Reader.IsSteady reader := by
  apply (Reader.isSteady_byte "outcome tag").bind
  intro tag
  split
  next => exact (Reader.isSteady_field "return value").map success
  next =>
    split
    next => exact isSteady_failure
    next => exact Reader.isSteady_throw (.unknownVerdict tag)

theorem Reply.isWhole_reader : Reader.IsWhole reader :=
  (Reader.isSteady_header .result).isWhole fun _ =>
    (Reader.isSteady_word "method id").isWhole fun id =>
      Verdict.isSteady_reader.isWhole fun verdict =>
        Reader.isWhole_finish.map fun _ => (⟨id, verdict⟩ : Reply)

namespace StoredCall

theorem isSteady_policy : Reader.IsSteady policyReader := by
  apply (Reader.isSteady_byte "retry strategy").bind
  intro tag
  split
  next policy _ => exact Reader.isSteady_pure policy
  next => exact Reader.isSteady_throw (.unknownPolicy tag)

theorem isSteady_timeout : Reader.IsSteady timeoutReader := by
  apply (Reader.isSteady_byte "timeout flag").bind
  intro flag
  split
  next => exact Reader.isSteady_pure none
  next =>
    split
    next =>
      exact (Reader.isSteady_word "timeout").map fun count =>
        some (Span.ofMilliseconds count.toNat)
    next => exact Reader.isSteady_throw (.unknownTimeoutFlag flag)

theorem isWhole_reader (target : Peer) : Reader.IsWhole (reader target) :=
  isSteady_policy.isWhole fun policy =>
    isSteady_timeout.isWhole fun timeout =>
      Invocation.isWhole_reader.map fun invocation =>
        { Call.new target invocation with policy, timeout }

end StoredCall

namespace Frame

/-- Whatever is accepted as a call, as a reply or as a stored call is refused by the same decoder
when it is cut off anywhere, and when anything follows it. -/
theorem detectsCuts_decoders :
    DetectsCuts Invocation.decode ∧ DetectsCuts Reply.decode ∧
      ∀ target, DetectsCuts (StoredCall.decode target) :=
  ⟨Invocation.isWhole_reader.detectsCuts, Reply.isWhole_reader.detectsCuts,
    fun target => (StoredCall.isWhole_reader target).detectsCuts⟩

/-- A stored call that was torn inside its timeout, and one that was written twice. -/
theorem detectsCuts_decoders_patient :
    StoredCall.decode (.client "c") (StoredCall.encode StoredCall.patient) =
      .ok (StoredCall.kept StoredCall.patient) ∧
    (∃ fault, fault.IsCut ∧
      StoredCall.decode (.client "c") ((StoredCall.encode StoredCall.patient).take 5) =
        .error fault) ∧
    StoredCall.decode (.client "c")
        (StoredCall.encode StoredCall.patient ++ StoredCall.encode StoredCall.patient) =
      .error (.trailing 27) := by
  have admissible : StoredCall.patient.invocation.Admissible :=
    ⟨by decide, by decide, by decide⟩
  have decoded := StoredCall.decode_encode admissible
  have told := detectsCuts_decoders.2.2 (.client "c")
  have length : (StoredCall.encode StoredCall.patient).length = 27 := by decide
  refine ⟨decoded, ?_, ?_⟩
  · apply told.shorter _ _ decoded _ (List.take_prefix _ _)
    intro same
    have shorter := congrArg List.length same
    rw [List.length_take, length] at shorter
    exact absurd shorter (by decide)
  · have refused := told.longer _ _ decoded _ (List.prefix_append _ (StoredCall.encode
      StoredCall.patient)) (by simp [← List.length_eq_zero_iff, length])
    rwa [List.length_append, length] at refused

end Frame

end PeerCalls
