import PeerCalls.Frame.StoredCall
import PeerCalls.Proofs.Frame.Accepting

/-!
# Stored calls, written and read

A call that is stored is read again without its attempt, and with a timeout in whole
milliseconds that fits 64 bits. Whatever is read as a stored call is written as the same
bytes, so a file says one thing and nothing else says the same.
-/

namespace PeerCalls.StoredCall

/-- A timeout as it is stored: rounded down to whole milliseconds, and as many of them as
64 bits can count at most. -/
def keptTimeout (timeout : Span) : Span :=
  Span.ofMilliseconds (min timeout.milliseconds (UInt64.size - 1))

/-- A call as it is read again. -/
def kept (call : Call) : Call :=
  { call.reset with timeout := call.timeout.map keptTimeout }

@[simp] theorem milliseconds_ofMilliseconds (count : Nat) :
    (Span.ofMilliseconds count).milliseconds = count :=
  Nat.mul_div_cancel count (by decide)

theorem toNat_timeoutMilliseconds (timeout : Span) :
    (timeoutMilliseconds timeout).toNat = min timeout.milliseconds (UInt64.size - 1) := by
  apply UInt64.toNat_ofNat_of_lt'
  exact Nat.lt_of_le_of_lt (Nat.min_le_right _ _) (by decide)

/-- A number of milliseconds that was read is written again as it was. -/
theorem timeoutMilliseconds_ofMilliseconds (count : UInt64) :
    timeoutMilliseconds (Span.ofMilliseconds count.toNat) = count := by
  apply UInt64.toNat_inj.mp
  rw [toNat_timeoutMilliseconds, milliseconds_ofMilliseconds]
  exact Nat.min_eq_left (Nat.le_pred_of_lt count.toNat_lt)

theorem keptTimeout_ofMilliseconds (count : UInt64) :
    keptTimeout (Span.ofMilliseconds count.toNat) = Span.ofMilliseconds count.toNat := by
  rw [keptTimeout, ← toNat_timeoutMilliseconds, timeoutMilliseconds_ofMilliseconds]

/-! ## Reading what was written -/

theorem reads_policy (policy : Option RetryPolicy) :
    Reader.Reads policyReader [RetryPolicy.tag policy] policy := by
  intro rest
  have tag := Reader.reads_byte "retry strategy" (RetryPolicy.tag policy) rest
  rw [policyReader, Reader.run_bind_of_ok tag]
  simp only [RetryPolicy.ofTag?_eq_some_iff.mpr rfl]
  rfl

theorem reads_timeout (timeout : Option Span) :
    Reader.Reads timeoutReader (encodeTimeout timeout) (timeout.map keptTimeout) := by
  cases timeout with
  | none => exact fun _ => rfl
  | some timeout =>
      intro rest
      have flag := Reader.reads_byte "timeout flag" 1
        (Bytes.ofWord (timeoutMilliseconds timeout) ++ rest)
      have word := Reader.reads_word "timeout" (timeoutMilliseconds timeout) rest
      change timeoutReader.run ([1] ++ (Bytes.ofWord (timeoutMilliseconds timeout) ++ rest)) = _
      rw [timeoutReader, Reader.run_bind_of_ok flag, if_neg (by decide), if_pos rfl,
        Reader.run_bind_of_ok word, toNat_timeoutMilliseconds]
      rfl

/-- A stored call is read without its attempt and with its timeout in milliseconds. -/
theorem decode_encode {call : Call} (admissible : call.invocation.Admissible) :
    decode call.target (encode call) = .ok (kept call) := by
  have written : encode call = [RetryPolicy.tag call.policy] ++ (encodeTimeout call.timeout ++
      call.invocation.encode) := by
    simp [encode]
  have frame : Reader.Ends
      (do
        let invocation ← Invocation.reader
        return { Call.new call.target invocation with
          policy := call.policy, timeout := call.timeout.map keptTimeout })
      call.invocation.encode (kept call) :=
    (Invocation.ends_encode admissible).map _
  rw [written]
  apply Reader.Ends.decode
  exact (reads_policy call.policy).ends ((reads_timeout call.timeout).ends frame)

/-! ## Reading nothing else -/

section

variable {bytes rest : Bytes}

theorem eq_cons_of_policy {policy : Option RetryPolicy}
    (accepted : policyReader.run bytes = .ok policy rest) :
    bytes = RetryPolicy.tag policy :: rest := by
  obtain ⟨tag, middle, byte, accepted⟩ := Reader.run_bind_eq_ok accepted
  split at accepted
  next known found =>
    obtain ⟨rfl, rfl⟩ := Reader.eq_of_run_pure accepted
    rw [← RetryPolicy.ofTag?_eq_some_iff.mp found]
    exact Reader.eq_cons_of_byte byte
  next => cases accepted

theorem eq_append_of_timeout {timeout : Option Span}
    (accepted : timeoutReader.run bytes = .ok timeout rest) :
    bytes = encodeTimeout timeout ++ rest ∧ timeout.map keptTimeout = timeout := by
  obtain ⟨flag, middle, byte, accepted⟩ := Reader.run_bind_eq_ok accepted
  have isFlag := Reader.eq_cons_of_byte byte
  split at accepted
  next isZero =>
    obtain ⟨rfl, rfl⟩ := Reader.eq_of_run_pure accepted
    rw [isFlag, isZero]
    exact ⟨rfl, rfl⟩
  next =>
    split at accepted
    next isOne =>
      obtain ⟨count, rfl, word⟩ := Reader.run_map_eq_ok accepted
      constructor
      · rw [isFlag, isOne, Reader.eq_append_of_word word, encodeTimeout,
          timeoutMilliseconds_ofMilliseconds]
        rfl
      · rw [Option.map_some, keptTimeout_ofMilliseconds]
    next => cases accepted

end

variable {target : Peer} {content : Bytes} {call : Call}

/-- What is read as a stored call is a call that fits the format, and it is written as what
was read. -/
theorem encode_eq_of_decode (decoded : decode target content = .ok call) :
    call.invocation.Admissible ∧ call.target = target ∧ kept call = call ∧
      encode call = content := by
  obtain ⟨rest, accepted⟩ := Reader.run_of_decode decoded
  obtain ⟨policy, afterPolicy, isPolicy, accepted⟩ := Reader.run_bind_eq_ok accepted
  obtain ⟨timeout, afterTimeout, isTimeout, accepted⟩ := Reader.run_bind_eq_ok accepted
  obtain ⟨invocation, afterAll, isFrame, returned⟩ := Reader.run_bind_eq_ok accepted
  obtain ⟨rfl, rfl⟩ := Reader.eq_of_run_pure returned
  have policyWritten := eq_cons_of_policy isPolicy
  obtain ⟨timeoutWritten, whole⟩ := eq_append_of_timeout isTimeout
  obtain ⟨admissible, frameWritten⟩ := Invocation.encode_eq_of_reader isFrame
  refine ⟨admissible, rfl, ?_, ?_⟩
  · rw [kept, whole]
    rfl
  · rw [policyWritten, timeoutWritten, ← frameWritten]
    rfl

/-- A call that fits the frame format is read again as it is kept. Whatever is read as a call
to a target is one to this target without an attempt, it is kept as it is, and no other bytes
are read as the same call: those that are read are the ones that are written. -/
theorem decode_canonical (target : Peer) (content : Bytes) (call : Call) :
    (call.invocation.Admissible → decode call.target (encode call) = .ok (kept call)) ∧
    (decode target content = .ok call →
      call.target = target ∧ call.startedAt = none ∧ call.reply = none ∧ kept call = call ∧
        encode call = content ∧ ∀ other, decode target other = .ok call → other = content) := by
  constructor
  · exact decode_encode
  · intro decoded
    obtain ⟨_, sameTarget, isKept, written⟩ := encode_eq_of_decode decoded
    refine ⟨sameTarget, ?_, ?_, isKept, written, ?_⟩
    · rw [← isKept]
      rfl
    · rw [← isKept]
      rfl
    · intro other decodedOther
      exact (encode_eq_of_decode decodedOther).2.2.2.symm.trans written

/-- A call that waits as long as can be said and that is being attempted. -/
def patient : Call where
  target := .client "c"
  invocation := ⟨7, "f", [[]]⟩
  policy := some .latest
  timeout := some Span.max
  startedAt := some 5
  reply := some (Reply.success 7 [1])

theorem decode_canonical_patient :
    decode (.client "c") (encode patient) =
      .ok { patient.reset with timeout := some (Span.ofMilliseconds (UInt64.size - 1)) } ∧
    encode { patient.reset with timeout := some (Span.ofMilliseconds (UInt64.size - 1)) } =
      encode patient := by
  have admissible : patient.invocation.Admissible :=
    ⟨by decide, by decide, by decide⟩
  have decoded := (decode_canonical (.client "c") [] patient).1 admissible
  have again := (decode_canonical (.client "c") (encode patient) (kept patient)).2 decoded
  exact ⟨decoded, again.2.2.2.2.1⟩

end PeerCalls.StoredCall
