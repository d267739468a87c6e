import Mathlib.Data.List.TakeWhile
import PeerCalls.Frame.Invocation
import PeerCalls.Frame.Reply

/-!
# Reading what was written

A reader reads a value from some bytes if it takes exactly these bytes and leaves
whatever follows them. Readers that do so one after the other read what was written
one after the other; so calls and replies are read from their frames.
-/

namespace PeerCalls

namespace Reader

variable {α β : Type}

/-- After a reader that takes a value, the next one reads what is left. -/
theorem run_bind_of_ok {first : Reader α} {next : α → Reader β} {bytes rest : Bytes} {value : α}
    (taken : first.run bytes = .ok value rest) :
    (first >>= next).run bytes = (next value).run rest := by
  simp only [EStateM.run, Bind.bind, EStateM.bind] at taken ⊢
  rw [taken]

/-- A reader takes a value from bytes and leaves what follows. -/
def Reads (reader : Reader α) (written : Bytes) (value : α) : Prop :=
  ∀ rest, reader.run (written ++ rest) = .ok value rest

theorem reads_pure (value : α) : Reads (pure value) [] value := fun _ => rfl

theorem Reads.bind {first : Reader α} {next : α → Reader β} {left right : Bytes} {value : α}
    {result : β} (reads : Reads first left value) (goesOn : Reads (next value) right result) :
    Reads (first >>= next) (left ++ right) result := by
  intro rest
  rw [List.append_assoc, run_bind_of_ok (reads (right ++ rest))]
  exact goesOn rest

theorem Reads.map {first : Reader α} {written : Bytes} {value : α} (change : α → β)
    (reads : Reads first written value) :
    Reads (do return change (← first)) written (change value) := by
  have mapped := @Reads.bind α β first (fun value => pure (change value)) written [] value _ reads
    (reads_pure (change value))
  rwa [List.append_nil] at mapped

theorem reads_take (what : String) (written : Bytes) :
    Reads (take what written.length) written written := by
  intro rest
  simp [take, EStateM.run]

theorem reads_byte (what : String) (value : UInt8) : Reads (byte what) [value] value :=
  fun _ => rfl

theorem reads_halfWord (what : String) {number : Nat}
    (fits : number ≤ Invocation.maxFieldLength) :
    Reads (halfWord what) (Bytes.littleEndian 4 number) number := by
  have taken := reads_take what (Bytes.littleEndian 4 number)
  rw [Bytes.length_littleEndian] at taken
  have reads := taken.map Bytes.ofLittleEndian
  have same : number % Bytes.capacity 4 = number := by
    apply Nat.mod_eq_of_lt
    exact Nat.lt_succ_of_le fits
  rwa [Bytes.ofLittleEndian_littleEndian, same] at reads

theorem ofNat_ofLittleEndian_ofWord (word : UInt64) :
    UInt64.ofNat (Bytes.ofLittleEndian (Bytes.ofWord word)) = word := by
  have same : word.toNat % Bytes.capacity 8 = word.toNat := Nat.mod_eq_of_lt word.toNat_lt
  rw [Bytes.ofWord, Bytes.ofLittleEndian_littleEndian, same]
  exact UInt64.ofNat_toNat

theorem reads_word (what : String) (value : UInt64) :
    Reads (word what) (Bytes.ofWord value) value := by
  have taken := reads_take what (Bytes.ofWord value)
  rw [Bytes.length_ofWord] at taken
  have reads := taken.map fun bytes => UInt64.ofNat (Bytes.ofLittleEndian bytes)
  rwa [ofNat_ofLittleEndian_ofWord] at reads

theorem reads_field (what : String) {content : Bytes}
    (fits : content.length ≤ Invocation.maxFieldLength) :
    Reads (field what) (Frame.field content) content :=
  (reads_halfWord what fits).bind (reads_take what content)

theorem reads_fields (what : String) {contents : List Bytes}
    (fits : ∀ content ∈ contents, content.length ≤ Invocation.maxFieldLength) :
    Reads (fields what contents.length) (Frame.fields contents) contents := by
  induction contents with
  | nil => exact reads_pure []
  | cons first rest ih =>
      have readsFirst := reads_field what (fits first List.mem_cons_self)
      have readsRest := ih fun content member => fits content (List.mem_cons_of_mem first member)
      exact readsFirst.bind (readsRest.map (first :: ·))

theorem bne_of_not_mem {delimiter : UInt8} {bytes : Bytes} (absent : delimiter ∉ bytes) :
    ∀ byte ∈ bytes, (byte != delimiter) = true := by
  intro byte member
  rw [bne_iff_ne]
  rintro rfl
  exact absent member

theorem run_delimited_of_not_mem (what : String) {delimiter : UInt8} {bytes : Bytes}
    (absent : delimiter ∉ bytes) :
    (delimited what delimiter).run bytes = .error (.missingDelimiter delimiter what) bytes := by
  have after := List.dropWhile_eq_nil_iff.mpr (bne_of_not_mem absent)
  simp only [delimited, EStateM.run, after]

/-- What stands in front of the first delimiter is a text or it is not. -/
theorem run_delimited_append (what : String) {delimiter : UInt8} {front : Bytes}
    (absent : delimiter ∉ front) (behind : Bytes) :
    (delimited what delimiter).run (front ++ delimiter :: behind) =
      match Utf8.decode front with
      | .ok text => .ok text behind
      | .error fault => .error (.notText fault) (front ++ delimiter :: behind) := by
  have after : (front ++ delimiter :: behind).dropWhile (· != delimiter) =
      delimiter :: behind := by
    rw [List.dropWhile_append_of_pos (bne_of_not_mem absent)]
    simp
  have before : (front ++ delimiter :: behind).takeWhile (· != delimiter) = front := by
    rw [List.takeWhile_append_of_pos (bne_of_not_mem absent)]
    simp
  cases decoded : Utf8.decode front with
  | ok text => simp only [delimited, EStateM.run, after, before, decoded]
  | error fault => simp only [delimited, EStateM.run, after, before, decoded]

theorem reads_delimited (what : String) {delimiter : UInt8} {text : String}
    (absent : delimiter ∉ Bytes.ofText text) :
    Reads (delimited what delimiter) (Bytes.ofText text ++ [delimiter]) text := by
  intro rest
  rw [List.append_assoc, List.singleton_append, run_delimited_append what absent,
    Utf8.decode_ofText]

theorem reads_header (kind : FrameKind) : Reads (header kind) kind.header () := by
  intro rest
  simp only [header, EStateM.run, FrameKind.peek_header_append, if_true]
  rfl

/-- A reader takes a value from bytes and finds nothing after them. -/
def Ends (reader : Reader α) (written : Bytes) (value : α) : Prop :=
  reader.run written = .ok value []

theorem Reads.ends {first : Reader α} {next : α → Reader β} {left right : Bytes} {value : α}
    {result : β} (reads : Reads first left value) (ends : Ends (next value) right result) :
    Ends (first >>= next) (left ++ right) result :=
  (run_bind_of_ok (reads right)).trans ends

theorem Ends.map {first : Reader α} {written : Bytes} {value : α} (change : α → β)
    (ends : Ends first written value) :
    Ends (do return change (← first)) written (change value) :=
  run_bind_of_ok ends

theorem ends_finish (value : α) : Ends (do finish; return value) [] value := rfl

theorem Ends.decode {reader : Reader α} {written : Bytes} {value : α}
    (ends : Ends reader written value) : reader.decode written = .ok value := by
  have ended : reader.run written = .ok value [] := ends
  simp only [Reader.decode, ended]

end Reader

/-! ## Frames -/

/-- The id of a call or a reply stands after the header. -/
theorem peekId_append (kind : FrameKind) (id : UInt64) (rest : Bytes) :
    peekId (kind.header ++ Bytes.ofWord id ++ rest) = some id := by
  have length : kind.header.length = 2 := rfl
  rw [List.append_assoc, peekId, FrameKind.peek_header_append]
  simp only [← length, List.drop_left, ← Bytes.length_ofWord id, List.take_left, if_true]
  rw [Reader.ofNat_ofLittleEndian_ofWord]

namespace Invocation

theorem ends_encode {invocation : Invocation} (admissible : invocation.Admissible) :
    Reader.Ends reader invocation.encode invocation := by
  have count : (UInt8.ofNat invocation.params.length).toNat = invocation.params.length := by
    have fits := admissible.params
    rw [UInt8.toNat_ofNat']
    apply Nat.mod_eq_of_lt
    simp only [maxParams] at fits
    omega
  have fields := Reader.reads_fields "parameter" admissible.lengths
  rw [← count] at fields
  have written : invocation.encode = FrameKind.method.header ++ (Bytes.ofWord invocation.id ++
      ((Bytes.ofText invocation.name ++ [delimiter]) ++
        ([UInt8.ofNat invocation.params.length] ++ (Frame.fields invocation.params ++ [])))) := by
    simp [encode]
  rw [written]
  exact (Reader.reads_header .method).ends <|
    (Reader.reads_word "method id" invocation.id).ends <|
    (Reader.reads_delimited "method name" admissible.name).ends <|
    (Reader.reads_byte "parameter count" _).ends <|
    fields.ends (Reader.ends_finish invocation)

/-- The call in a frame is the one that was written. -/
theorem decode_encode {invocation : Invocation} (admissible : invocation.Admissible) :
    decode invocation.encode = .ok invocation :=
  (ends_encode admissible).decode

theorem peek_encode (invocation : Invocation) :
    FrameKind.peek invocation.encode = some .method := by
  simp only [encode, List.append_assoc, FrameKind.peek_header_append]

theorem peekId_encode (invocation : Invocation) : peekId invocation.encode = some invocation.id := by
  rw [encode, List.append_assoc, peekId_append]

theorem id_eq_of_encode_eq {left right : Invocation} (same : left.encode = right.encode) :
    left.id = right.id := by
  have ids := left.peekId_encode
  rw [same, right.peekId_encode] at ids
  exact (Option.some.inj ids).symm

end Invocation

/-- A value or a message whose length fits four bytes. -/
def Verdict.Fits : Verdict → Prop
  | .success value => value.length ≤ Invocation.maxFieldLength
  | .failure _ message => (Bytes.ofText message).length ≤ Invocation.maxFieldLength

namespace Reply

theorem reads_message {message : String}
    (fits : (Bytes.ofText message).length ≤ Invocation.maxFieldLength) :
    Reader.Reads Verdict.messageReader (Frame.field (Bytes.ofText message)) message := by
  intro rest
  have field := Reader.reads_field "failure message" fits rest
  rw [Verdict.messageReader, Reader.run_bind_of_ok field]
  simp only [Utf8.decode_ofText]
  rfl

theorem reads_verdict {verdict : Verdict} (fits : verdict.Fits) :
    Reader.Reads Verdict.reader verdict.encode verdict := by
  cases verdict with
  | success value =>
      have field := Reader.reads_field "return value" fits
      exact (Reader.reads_byte "outcome tag" Verdict.successTag).bind
        (field.map Verdict.success)
  | failure kind message =>
      have nameFits : Invocation.delimiter ∉ Bytes.ofText kind.name := by
        cases kind <;> decide
      have name := Reader.reads_delimited "failure kind" nameFits
      have found : FailureKind.ofName? kind.name = some kind :=
        FailureKind.ofName?_eq_some_iff.mpr rfl
      have failure : Reader.Reads Verdict.failureReader
          ((Bytes.ofText kind.name ++ [Invocation.delimiter]) ++
            Frame.field (Bytes.ofText message)) (.failure kind message) := by
        refine name.bind ?_
        simp only [found]
        exact (reads_message fits).map (Verdict.failure kind)
      have written : (Verdict.failure kind message).encode = [Verdict.failureTag] ++
          ((Bytes.ofText kind.name ++ [Invocation.delimiter]) ++
            Frame.field (Bytes.ofText message)) := by
        simp [Verdict.encode]
      rw [written]
      exact (Reader.reads_byte "outcome tag" Verdict.failureTag).bind failure

/-- The reply in a frame is the one that was written. -/
theorem decode_encode {reply : Reply} (fits : reply.verdict.Fits) :
    decode reply.encode = .ok reply := by
  have written : reply.encode = FrameKind.result.header ++ (Bytes.ofWord reply.id ++
      (reply.verdict.encode ++ [])) := by
    simp [encode]
  rw [written]
  apply Reader.Ends.decode
  exact (Reader.reads_header .result).ends <|
    (Reader.reads_word "method id" reply.id).ends <|
    (reads_verdict fits).ends (Reader.ends_finish reply)

theorem length_encode_success (id : UInt64) (value : Bytes) :
    (success id value).encode.length = 15 + value.length := by
  simp only [encode, success, Verdict.encode, Frame.field, List.length_append, List.length_cons,
    Bytes.length_ofWord, Bytes.length_littleEndian, FrameKind.header, List.length_nil]
  omega

theorem length_encode_failure (id : UInt64) (kind : FailureKind) (message : String) :
    (failure id kind message).encode.length =
      16 + (Bytes.ofText kind.name).length + (Bytes.ofText message).length := by
  simp only [encode, failure, Verdict.encode, Frame.field, List.length_append, List.length_cons,
    Bytes.length_ofWord, Bytes.length_littleEndian, FrameKind.header, List.length_nil]
  omega

theorem peek_encode (reply : Reply) : FrameKind.peek reply.encode = some .result := by
  simp only [encode, List.append_assoc, FrameKind.peek_header_append]

theorem peekId_encode (reply : Reply) : peekId reply.encode = some reply.id := by
  rw [encode, peekId_append]

end Reply

end PeerCalls
