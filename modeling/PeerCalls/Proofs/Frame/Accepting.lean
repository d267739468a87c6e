import PeerCalls.Proofs.Frame.Reading

/-!
# Reading nothing but what was written

Whatever a reader accepts begins with the bytes that are written for the value that it
takes. Together with reading what was written, this makes the frame format exact: a frame
is accepted precisely if it is the frame of an invocation or of a reply that fits the
format, so nothing has two frames.
-/

namespace PeerCalls

namespace Reader

variable {α β : Type} {what : String} {bytes rest : Bytes}

/-- Two readers one after the other accept what the first one and then the second one
accepts. -/
theorem run_bind_eq_ok {first : Reader α} {next : α → Reader β} {result : β}
    (accepted : (first >>= next).run bytes = .ok result rest) :
    ∃ value middle, first.run bytes = .ok value middle ∧
      (next value).run middle = .ok result rest := by
  simp only [EStateM.run, Bind.bind, EStateM.bind] at accepted
  split at accepted
  next value middle taken => exact ⟨value, middle, taken, accepted⟩
  next => cases accepted

theorem eq_of_run_pure {value result : α}
    (accepted : (pure value : Reader α).run bytes = .ok result rest) :
    value = result ∧ bytes = rest := by
  cases accepted
  exact ⟨rfl, rfl⟩

/-- What is made of the value of a reader is accepted if this value is. -/
theorem run_map_eq_ok {reader : Reader α} {change : α → β} {result : β}
    (accepted : (do return change (← reader) : Reader β).run bytes = .ok result rest) :
    ∃ value, result = change value ∧ reader.run bytes = .ok value rest := by
  obtain ⟨value, middle, taken, returned⟩ := run_bind_eq_ok accepted
  obtain ⟨rfl, rfl⟩ := eq_of_run_pure returned
  exact ⟨value, rfl, taken⟩

theorem eq_append_of_take {count : Nat} {value : Bytes}
    (accepted : (take what count).run bytes = .ok value rest) :
    bytes = value ++ rest ∧ value.length = count := by
  simp only [take, EStateM.run] at accepted
  split at accepted
  next => cases accepted
  next enough =>
    cases accepted
    exact ⟨(List.take_append_drop count bytes).symm,
      List.length_take_of_le (Nat.le_of_not_lt enough)⟩

theorem eq_cons_of_byte {value : UInt8} (accepted : (byte what).run bytes = .ok value rest) :
    bytes = value :: rest := by
  simp only [byte, EStateM.run] at accepted
  split at accepted
  next => cases accepted
  next => cases accepted; rfl

theorem eq_append_of_halfWord {number : Nat}
    (accepted : (halfWord what).run bytes = .ok number rest) :
    bytes = Bytes.littleEndian 4 number ++ rest ∧ number ≤ Invocation.maxFieldLength := by
  obtain ⟨digits, rfl, taken⟩ := run_map_eq_ok accepted
  obtain ⟨rfl, length⟩ := eq_append_of_take taken
  have bound := Bytes.ofLittleEndian_lt digits
  have written := Bytes.littleEndian_ofLittleEndian digits
  rw [length] at bound written
  exact ⟨by rw [written], Nat.le_of_lt_succ bound⟩

theorem eq_append_of_word {value : UInt64} (accepted : (word what).run bytes = .ok value rest) :
    bytes = Bytes.ofWord value ++ rest := by
  obtain ⟨digits, rfl, taken⟩ := run_map_eq_ok accepted
  obtain ⟨rfl, length⟩ := eq_append_of_take taken
  have bound := Bytes.ofLittleEndian_lt digits
  have written := Bytes.littleEndian_ofLittleEndian digits
  rw [length] at bound written
  rw [Bytes.ofWord, UInt64.toNat_ofNat_of_lt' bound, written]

theorem eq_append_of_field {content : Bytes}
    (accepted : (field what).run bytes = .ok content rest) :
    bytes = Frame.field content ++ rest ∧ content.length ≤ Invocation.maxFieldLength := by
  obtain ⟨length, middle, counted, taken⟩ := run_bind_eq_ok accepted
  obtain ⟨rfl, fits⟩ := eq_append_of_halfWord counted
  obtain ⟨rfl, rfl⟩ := eq_append_of_take taken
  exact ⟨by rw [Frame.field, List.append_assoc], fits⟩

theorem eq_append_of_fields {count : Nat} {contents : List Bytes}
    (accepted : (fields what count).run bytes = .ok contents rest) :
    bytes = Frame.fields contents ++ rest ∧ contents.length = count ∧
      ∀ content ∈ contents, content.length ≤ Invocation.maxFieldLength := by
  induction count generalizing bytes contents with
  | zero =>
      obtain ⟨rfl, rfl⟩ := eq_of_run_pure accepted
      exact ⟨rfl, rfl, nofun⟩
  | succ count ih =>
      obtain ⟨first, middle, taken, accepted⟩ := run_bind_eq_ok accepted
      obtain ⟨others, rfl, takenOthers⟩ := run_map_eq_ok accepted
      obtain ⟨rfl, firstFits⟩ := eq_append_of_field taken
      obtain ⟨rfl, rfl, othersFit⟩ := ih takenOthers
      refine ⟨by simp [Frame.fields], rfl, ?_⟩
      intro content member
      rcases List.mem_cons.mp member with rfl | member
      · exact firstFits
      · exact othersFit content member

theorem eq_append_of_delimited {delimiter : UInt8} {text : String}
    (accepted : (delimited what delimiter).run bytes = .ok text rest) :
    bytes = Bytes.ofText text ++ delimiter :: rest ∧ delimiter ∉ Bytes.ofText text := by
  simp only [delimited, EStateM.run] at accepted
  split at accepted
  next => cases accepted
  next first others split =>
    split at accepted
    next name decoded =>
      cases accepted
      -- The bytes fall apart at the first delimiter.
      have found := List.head?_dropWhile_not (· != delimiter) bytes
      rw [split, List.head?_cons] at found
      have isDelimiter : first = delimiter := by simpa using found
      rw [← Utf8.decode_eq_ok_iff.mp decoded, ← isDelimiter, ← split, isDelimiter]
      refine ⟨List.takeWhile_append_dropWhile.symm, ?_⟩
      intro member
      simpa using List.mem_takeWhile_imp member
    next => cases accepted

theorem eq_append_of_header {kind : FrameKind}
    (accepted : (header kind).run bytes = .ok () rest) : bytes = kind.header ++ rest := by
  simp only [header, EStateM.run] at accepted
  split at accepted
  next found peeked =>
    split at accepted
    next same =>
      cases accepted
      exact FrameKind.eq_header_append_of_peek (same ▸ peeked)
    next => cases accepted
  next => cases accepted

theorem eq_nil_of_finish (accepted : finish.run bytes = .ok () rest) : bytes = [] := by
  simp only [finish, EStateM.run] at accepted
  split at accepted
  next empty => exact List.isEmpty_iff.mp empty
  next => cases accepted

theorem run_of_decode {reader : Reader α} {value : α} (decoded : reader.decode bytes = .ok value) :
    ∃ rest, reader.run bytes = .ok value rest := by
  simp only [decode] at decoded
  split at decoded
  next value rest accepted => cases decoded; exact ⟨rest, accepted⟩
  next => cases decoded

end Reader

namespace Invocation

variable {frame : Bytes} {invocation : Invocation}

/-- Bytes that are accepted are the frame of an invocation that fits the format. -/
theorem encode_eq_of_reader {rest : Bytes} (accepted : reader.run frame = .ok invocation rest) :
    invocation.Admissible ∧ invocation.encode = frame := by
  obtain ⟨⟨⟩, afterHeader, header, accepted⟩ := Reader.run_bind_eq_ok accepted
  obtain ⟨id, afterId, word, accepted⟩ := Reader.run_bind_eq_ok accepted
  obtain ⟨name, afterName, delimited, accepted⟩ := Reader.run_bind_eq_ok accepted
  obtain ⟨count, afterCount, byte, accepted⟩ := Reader.run_bind_eq_ok accepted
  obtain ⟨params, afterParams, fields, accepted⟩ := Reader.run_bind_eq_ok accepted
  obtain ⟨⟨⟩, afterAll, finish, returned⟩ := Reader.run_bind_eq_ok accepted
  obtain ⟨rfl, rfl⟩ := Reader.eq_of_run_pure returned
  have isHeader := Reader.eq_append_of_header header
  have isWord := Reader.eq_append_of_word word
  obtain ⟨isName, nameFits⟩ := Reader.eq_append_of_delimited delimited
  have isCount := Reader.eq_cons_of_byte byte
  obtain ⟨isFields, length, lengths⟩ := Reader.eq_append_of_fields fields
  have isEnd := Reader.eq_nil_of_finish finish
  refine ⟨⟨nameFits, ?_, lengths⟩, ?_⟩
  · have below := count.toNat_lt
    simp only [maxParams, length]
    omega
  · have sameCount : UInt8.ofNat params.length = count := by rw [length, UInt8.ofNat_toNat]
    simp [encode, isHeader, isWord, isName, isCount, isFields, isEnd, sameCount]

theorem encode_eq_of_decode (decoded : decode frame = .ok invocation) :
    invocation.Admissible ∧ invocation.encode = frame := by
  obtain ⟨rest, accepted⟩ := Reader.run_of_decode decoded
  exact encode_eq_of_reader accepted

/-- The frames that are accepted are those of invocations that fit the format. -/
theorem decode_eq_ok_iff :
    decode frame = .ok invocation ↔ invocation.Admissible ∧ invocation.encode = frame := by
  constructor
  · exact encode_eq_of_decode
  · rintro ⟨admissible, rfl⟩
    exact decode_encode admissible

/-- Bytes are read as an invocation exactly if the invocation can be made and is written
as these bytes. Then the front of the bytes tells the kind of the frame and the id, and no
other bytes are read as the same invocation. -/
theorem decode_exact (frame : Bytes) (invocation : Invocation) :
    (decode frame = .ok invocation ↔
      make invocation.id invocation.name invocation.params = .ok invocation ∧
        invocation.encode = frame) ∧
    (decode frame = .ok invocation →
      FrameKind.peek frame = some .method ∧ peekId frame = some invocation.id ∧
        ∀ other, decode other = .ok invocation → other = frame) := by
  constructor
  · rw [decode_eq_ok_iff, make_eq_ok_iff]
    simp
  · intro decoded
    obtain ⟨_, rfl⟩ := encode_eq_of_decode decoded
    refine ⟨invocation.peek_encode, invocation.peekId_encode, ?_⟩
    intro other decodedOther
    exact (encode_eq_of_decode decodedOther).2.symm

/-- A frame with two parameters, one of them empty. -/
theorem decode_exact_divide :
    decode [0x31, 0x4d, 2, 1, 0, 0, 0, 0, 0, 0, 0x64, 0x3b, 2, 1, 0, 0, 0, 7, 0, 0, 0, 0] =
      .ok ⟨258, "d", [[7], []]⟩ ∧
    peekId [0x31, 0x4d, 2, 1, 0, 0, 0, 0, 0, 0, 0x64, 0x3b, 2, 1, 0, 0, 0, 7, 0, 0, 0, 0] =
      some 258 := by
  have decoded := (decode_exact _ ⟨258, "d", [[7], []]⟩).1.mpr ⟨rfl, rfl⟩
  exact ⟨decoded, ((decode_exact _ _).2 decoded).2.1⟩

end Invocation

namespace Verdict

variable {bytes rest : Bytes}

theorem eq_append_of_message {message : String}
    (accepted : messageReader.run bytes = .ok message rest) :
    bytes = Frame.field (Bytes.ofText message) ++ rest ∧
      (Bytes.ofText message).length ≤ Invocation.maxFieldLength := by
  obtain ⟨content, middle, taken, accepted⟩ := Reader.run_bind_eq_ok accepted
  split at accepted
  next text decoded =>
    obtain ⟨rfl, rfl⟩ := Reader.eq_of_run_pure accepted
    rw [← Utf8.decode_eq_ok_iff.mp decoded]
    exact Reader.eq_append_of_field taken
  next => cases accepted

/-- A failure is written with the name of its kind and in no other way. -/
theorem eq_append_of_failure {verdict : Verdict}
    (accepted : failureReader.run bytes = .ok verdict rest) :
    failureTag :: bytes = verdict.encode ++ rest ∧ verdict.Fits := by
  obtain ⟨name, middle, delimited, accepted⟩ := Reader.run_bind_eq_ok accepted
  split at accepted
  next => cases accepted
  next kind found =>
    obtain ⟨message, rfl, taken⟩ := Reader.run_map_eq_ok accepted
    have isName := (Reader.eq_append_of_delimited delimited).1
    obtain ⟨isMessage, fits⟩ := eq_append_of_message taken
    rw [← FailureKind.ofName?_eq_some_iff.mp found] at isName
    constructor
    · rw [isName, isMessage]
      simp [encode]
    · exact fits

/-- What is accepted as a verdict begins with the bytes of that verdict. -/
theorem eq_append_of_reader {verdict : Verdict}
    (accepted : reader.run bytes = .ok verdict rest) :
    bytes = verdict.encode ++ rest ∧ verdict.Fits := by
  obtain ⟨tag, middle, byte, accepted⟩ := Reader.run_bind_eq_ok accepted
  have isTag := Reader.eq_cons_of_byte byte
  split at accepted
  next isSuccess =>
    obtain ⟨value, rfl, taken⟩ := Reader.run_map_eq_ok accepted
    obtain ⟨isValue, fits⟩ := Reader.eq_append_of_field taken
    constructor
    · rw [isTag, isSuccess, isValue]
      rfl
    · exact fits
  next =>
    split at accepted
    next isFailure =>
      rw [isTag, isFailure]
      exact eq_append_of_failure accepted
    next => cases accepted

end Verdict

namespace Reply

variable {frame : Bytes} {reply : Reply}

/-- A frame that is accepted is the frame of a reply that fits the format. -/
theorem encode_eq_of_decode (decoded : decode frame = .ok reply) :
    reply.verdict.Fits ∧ reply.encode = frame := by
  obtain ⟨rest, accepted⟩ := Reader.run_of_decode decoded
  obtain ⟨⟨⟩, afterHeader, header, accepted⟩ := Reader.run_bind_eq_ok accepted
  obtain ⟨id, afterId, word, accepted⟩ := Reader.run_bind_eq_ok accepted
  obtain ⟨verdict, afterVerdict, taken, accepted⟩ := Reader.run_bind_eq_ok accepted
  obtain ⟨⟨⟩, afterAll, finish, returned⟩ := Reader.run_bind_eq_ok accepted
  obtain ⟨rfl, rfl⟩ := Reader.eq_of_run_pure returned
  have isHeader := Reader.eq_append_of_header header
  have isWord := Reader.eq_append_of_word word
  obtain ⟨isVerdict, fits⟩ := Verdict.eq_append_of_reader taken
  have isEnd := Reader.eq_nil_of_finish finish
  constructor
  · exact fits
  · simp [encode, isHeader, isWord, isVerdict, isEnd]

/-- A reply that is read has the id in the front of its frame. -/
theorem peekId_of_decode (decoded : decode frame = .ok reply) : peekId frame = some reply.id := by
  rw [← (encode_eq_of_decode decoded).2]
  exact reply.peekId_encode

/-- Bytes are read as a reply exactly if its value or message fits a field and it is written as
these bytes. Then the front of the bytes tells the kind of the frame and the id, and it still
does if something else follows the id, readable or not. -/
theorem decode_iff_encode (frame : Bytes) (reply : Reply) :
    (decode frame = .ok reply ↔ reply.verdict.Fits ∧ reply.encode = frame) ∧
    (decode frame = .ok reply → ∀ body,
      FrameKind.peek frame = some .result ∧ peekId frame = some reply.id ∧
        FrameKind.peek (frame.take 10 ++ body) = some .result ∧
          peekId (frame.take 10 ++ body) = some reply.id) := by
  constructor
  · constructor
    · exact encode_eq_of_decode
    · rintro ⟨fits, rfl⟩
      exact decode_encode fits
  · intro decoded body
    have front : frame.take 10 = FrameKind.result.header ++ Bytes.ofWord reply.id := by
      have length : (FrameKind.result.header ++ Bytes.ofWord reply.id).length = 10 := by
        simp [FrameKind.header]
      rw [← (encode_eq_of_decode decoded).2, encode, ← length, List.take_left]
    refine ⟨?_, peekId_of_decode decoded, ?_, ?_⟩
    · rw [← (encode_eq_of_decode decoded).2]
      exact reply.peek_encode
    · rw [front, List.append_assoc, FrameKind.peek_header_append]
    · rw [front, peekId_append]

/-- The frame of a failure whose message has the byte that ends a name. -/
def refusal : Bytes :=
  [0x31, 0x52, 2, 1, 0, 0, 0, 0, 0, 0, 0x46, 0x4f, 0x74, 0x68, 0x65, 0x72, 0x3b, 3, 0, 0, 0,
    0x61, 0x3b, 0x62]

theorem decode_iff_encode_refusal :
    decode refusal = .ok (failure 258 .other "a;b") ∧
    decode (refusal.take 10 ++ [0x46, 0x3b]) = .error (.unknownFailure "") ∧
    peekId (refusal.take 10 ++ [0x46, 0x3b]) = some 258 := by
  have fits : (failure 258 .other "a;b").verdict.Fits := by
    simp only [Verdict.Fits, failure]
    decide
  have decoded := (decode_iff_encode refusal _).1.mpr ⟨fits, by decide⟩
  exact ⟨decoded, by rfl, ((decode_iff_encode _ _).2 decoded _).2.2.2⟩

end Reply

end PeerCalls
