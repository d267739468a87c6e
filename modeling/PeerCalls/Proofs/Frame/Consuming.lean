import PeerCalls.Proofs.Frame.Cutting

/-!
# What reading consumes

Readers are used one after the other, and the next one goes on where the last one stopped, also
if that one failed. So what a reader consumes has to be known in either case: `Consumes` says it
for each of the five ways to read from the front of a byte string, and `Accounts` for any number
of them, whatever became of those before. A value that is read takes the bytes that are written
for it and no others. A reader that fails takes nothing, except that a field whose content is
cut off has lost its length.
-/

namespace PeerCalls.Reader

/-! ## What is read and how it is written -/

/-- A way to read from the front of a byte string. -/
inductive Shape where
  | byte
  | halfWord
  | word
  | field
  | text (delimiter : UInt8)
  deriving Repr, DecidableEq

/-- How many bytes there have to be before a reader looks at them. A text has no such number:
it ends where its delimiter is. -/
def Shape.width? : Shape → Option Nat
  | byte => some 1
  | halfWord => some 4
  | word => some 8
  | field => some 4
  | text _ => none

/-- Something that stands in a byte string. -/
inductive Part where
  | byte (value : UInt8)
  | halfWord (value : Nat)
  | word (value : UInt64)
  | field (content : Bytes)
  | text (delimiter : UInt8) (content : String)
  deriving Repr, DecidableEq

namespace Part

def shape : Part → Shape
  | byte _ => .byte
  | halfWord _ => .halfWord
  | word _ => .word
  | field _ => .field
  | text delimiter _ => .text delimiter

/-- The bytes that are written for a part. -/
def written : Part → Bytes
  | byte value => [value]
  | halfWord value => Bytes.littleEndian 4 value
  | word value => Bytes.ofWord value
  | field content => Frame.field content
  | text delimiter content => Bytes.ofText content ++ [delimiter]

/-- What may be written as a part. The writers do not look at it: whoever calls them sees to it
that numbers and lengths fit four bytes, and that a text is without its delimiter. -/
def Fits : Part → Prop
  | byte _ => True
  | halfWord value => value ≤ Invocation.maxFieldLength
  | word _ => True
  | field content => content.length ≤ Invocation.maxFieldLength
  | text delimiter content => delimiter ∉ Bytes.ofText content

end Part

/-- Something to be read, and what a fault calls it. -/
structure Request where
  shape : Shape
  what : String
  deriving Repr, DecidableEq

/-- A part that was read, or why there is none. -/
abbrev Outcome := Except Frame.Fault Part

/-- Take a part of a shape. -/
def Shape.reader (what : String) : Shape → Reader Part
  | byte => do return .byte (← Reader.byte what)
  | halfWord => do return .halfWord (← Reader.halfWord what)
  | word => do return .word (← Reader.word what)
  | field => do return .field (← Reader.field what)
  | text delimiter => do return .text delimiter (← delimited what delimiter)

/-- How a request ends, and what it leaves. -/
def Request.answer (request : Request) (bytes : Bytes) : Outcome × Bytes :=
  match (request.shape.reader request.what).run bytes with
  | .ok part left => (.ok part, left)
  | .error fault left => (.error fault, left)

/-- How requests end that are made one after the other, each of what the one before it left,
and what the last one leaves. -/
def answers : List Request → Bytes → List Outcome × Bytes
  | [], bytes => ([], bytes)
  | request :: requests, bytes =>
    let (outcome, middle) := request.answer bytes
    let (outcomes, left) := answers requests middle
    (outcome :: outcomes, left)

/-! ## What is consumed -/

/-- What a request consumes and what it leaves, by how it ends. -/
inductive Consumes : Request → (consumed left : Bytes) → Outcome → Prop
  /-- A part that is read takes what is written for it. -/
  | part {part : Part} (fits : part.Fits) (what : String) (left : Bytes) :
      Consumes ⟨part.shape, what⟩ part.written left (.ok part)
  /-- Too few bytes for a number, or for the length of a field, stay where they are. -/
  | tooShort {shape : Shape} {width : Nat} {left : Bytes} (wide : shape.width? = some width)
      (short : left.length < width) (what : String) :
      Consumes ⟨shape, what⟩ [] left (.error (.tooShort what width left.length))
  /-- The length of a field is gone if its content is cut off. -/
  | cutOff {length : Nat} {left : Bytes} (fits : length ≤ Invocation.maxFieldLength)
      (short : left.length < length) (what : String) :
      Consumes ⟨.field, what⟩ (Bytes.littleEndian 4 length) left
        (.error (.tooShort what length left.length))
  | undelimited {delimiter : UInt8} {left : Bytes} (absent : delimiter ∉ left) (what : String) :
      Consumes ⟨.text delimiter, what⟩ [] left (.error (.missingDelimiter delimiter what))
  /-- Bytes in front of the first delimiter that are no text stay, and so does the delimiter. -/
  | notText {delimiter : UInt8} {front : Bytes} (absent : delimiter ∉ front)
      (noText : ∀ text, front ≠ Bytes.ofText text) (what : String) (behind : Bytes) :
      Consumes ⟨.text delimiter, what⟩ [] (front ++ delimiter :: behind)
        (.error (.notText (Utf8.faultOf front)))

/-- What requests consume one after the other is all that is missing in the end, and each of them
consumes what it should of what the one before it left. -/
inductive Accounts : List Request → Bytes → List Outcome → (left : Bytes) → Prop
  | nil (bytes : Bytes) : Accounts [] bytes [] bytes
  | cons {request : Request} {consumed middle : Bytes} {outcome : Outcome}
      {requests : List Request} {outcomes : List Outcome} {left : Bytes}
      (first : Consumes request consumed middle outcome)
      (others : Accounts requests middle outcomes left) :
      Accounts (request :: requests) (consumed ++ middle) (outcome :: outcomes) left

variable {what : String} {bytes left : Bytes} {fault : Frame.Fault}

/-! ## Parts that are read -/

theorem reads_part {part : Part} (fits : part.Fits) (what : String) :
    Reads (part.shape.reader what) part.written part := by
  cases part with
  | byte value => exact (reads_byte what value).map Part.byte
  | halfWord value => exact (reads_halfWord what fits).map Part.halfWord
  | word value => exact (reads_word what value).map Part.word
  | field content => exact (reads_field what fits).map Part.field
  | text delimiter content => exact (reads_delimited what fits).map (Part.text delimiter)

/-- A part that is read has the shape that was asked for, and its bytes were in front. -/
theorem eq_written_append {shape : Shape} {part : Part}
    (accepted : (shape.reader what).run bytes = .ok part left) :
    part.shape = shape ∧ part.Fits ∧ bytes = part.written ++ left := by
  cases shape with
  | byte =>
      obtain ⟨value, rfl, taken⟩ := run_map_eq_ok accepted
      exact ⟨rfl, trivial, eq_cons_of_byte taken⟩
  | halfWord =>
      obtain ⟨value, rfl, taken⟩ := run_map_eq_ok accepted
      obtain ⟨isNumber, fits⟩ := eq_append_of_halfWord taken
      exact ⟨rfl, fits, isNumber⟩
  | word =>
      obtain ⟨value, rfl, taken⟩ := run_map_eq_ok accepted
      exact ⟨rfl, trivial, eq_append_of_word taken⟩
  | field =>
      obtain ⟨content, rfl, taken⟩ := run_map_eq_ok accepted
      obtain ⟨isField, fits⟩ := eq_append_of_field taken
      exact ⟨rfl, fits, isField⟩
  | text delimiter =>
      obtain ⟨content, rfl, taken⟩ := run_map_eq_ok accepted
      obtain ⟨isText, absent⟩ := eq_append_of_delimited taken
      refine ⟨rfl, absent, ?_⟩
      rw [isText, Part.written, List.append_assoc, List.singleton_append]

/-! ## Readers that fail -/

theorem take_eq_error_iff {count : Nat} : (take what count).run bytes = .error fault left ↔
    bytes.length < count ∧ fault = .tooShort what count bytes.length ∧ left = bytes := by
  simp only [take, EStateM.run]
  split
  next short => simp [short, eq_comm]
  next enough => simp [enough]

theorem byte_eq_error_iff : (byte what).run bytes = .error fault left ↔
    bytes.length < 1 ∧ fault = .tooShort what 1 bytes.length ∧ left = bytes := by
  cases bytes with
  | nil => simp [byte, EStateM.run, eq_comm]
  | cons first others => simp [byte, EStateM.run]

theorem halfWord_eq_error_iff : (halfWord what).run bytes = .error fault left ↔
    bytes.length < 4 ∧ fault = .tooShort what 4 bytes.length ∧ left = bytes :=
  run_map_eq_error_iff.trans take_eq_error_iff

theorem word_eq_error_iff : (word what).run bytes = .error fault left ↔
    bytes.length < 8 ∧ fault = .tooShort what 8 bytes.length ∧ left = bytes :=
  run_map_eq_error_iff.trans take_eq_error_iff

/-- A field fails at its length or, with the length gone, at its content. -/
theorem field_eq_error_iff : (field what).run bytes = .error fault left ↔
    (bytes.length < 4 ∧ fault = .tooShort what 4 bytes.length ∧ left = bytes) ∨
      ∃ length, length ≤ Invocation.maxFieldLength ∧ bytes = Bytes.littleEndian 4 length ++ left ∧
        left.length < length ∧ fault = .tooShort what length left.length := by
  constructor
  · intro failed
    rcases run_bind_eq_error failed with failed | ⟨length, middle, counted, failed⟩
    · exact .inl (halfWord_eq_error_iff.mp failed)
    · obtain ⟨isLength, fits⟩ := eq_append_of_halfWord counted
      obtain ⟨short, isFault, rfl⟩ := take_eq_error_iff.mp failed
      exact .inr ⟨length, fits, isLength, short, isFault⟩
  · rintro (short | ⟨length, fits, rfl, short, isFault⟩)
    · exact run_bind_of_error (halfWord_eq_error_iff.mpr short)
    · rw [field, run_bind_of_ok (reads_halfWord what fits left)]
      exact take_eq_error_iff.mpr ⟨short, isFault, rfl⟩

/-- A text fails without its delimiter, or in front of it. -/
theorem delimited_eq_error_iff {delimiter : UInt8} :
    (delimited what delimiter).run bytes = .error fault left ↔ left = bytes ∧
      ((delimiter ∉ bytes ∧ fault = .missingDelimiter delimiter what) ∨
        ∃ front behind, bytes = front ++ delimiter :: behind ∧ delimiter ∉ front ∧
          (∀ text, front ≠ Bytes.ofText text) ∧ fault = .notText (Utf8.faultOf front)) := by
  constructor
  · intro failed
    by_cases present : delimiter ∈ bytes
    · obtain ⟨front, behind, rfl, absent⟩ := List.eq_append_cons_of_mem present
      rw [run_delimited_append what absent] at failed
      split at failed
      next => cases failed
      next invalid refused =>
        cases failed
        obtain ⟨noText, rfl⟩ := Utf8.decode_eq_error_iff.mp refused
        exact ⟨rfl, .inr ⟨front, behind, rfl, absent, noText, rfl⟩⟩
    · rw [run_delimited_of_not_mem what present] at failed
      cases failed
      exact ⟨rfl, .inl ⟨present, rfl⟩⟩
  · rintro ⟨rfl, ⟨absent, rfl⟩ | ⟨front, behind, rfl, absent, noText, rfl⟩⟩
    · exact run_delimited_of_not_mem what absent
    · rw [run_delimited_append what absent, Utf8.decode_eq_error_iff.mpr ⟨noText, rfl⟩]

/-- Wherever a reader needs a number of bytes and finds fewer, it says so and takes none. -/
theorem run_reader_of_length_lt {shape : Shape} {width : Nat} (wide : shape.width? = some width)
    (short : bytes.length < width) :
    (shape.reader what).run bytes = .error (.tooShort what width bytes.length) bytes := by
  cases shape with
  | byte =>
      cases wide
      exact run_map_eq_error_iff.mpr (byte_eq_error_iff.mpr ⟨short, rfl, rfl⟩)
  | halfWord =>
      cases wide
      exact run_map_eq_error_iff.mpr (halfWord_eq_error_iff.mpr ⟨short, rfl, rfl⟩)
  | word =>
      cases wide
      exact run_map_eq_error_iff.mpr (word_eq_error_iff.mpr ⟨short, rfl, rfl⟩)
  | field =>
      cases wide
      exact run_map_eq_error_iff.mpr (field_eq_error_iff.mpr (.inl ⟨short, rfl, rfl⟩))
  | text delimiter => cases wide

/-- A reader that fails consumes what it should. -/
theorem consumes_of_error {shape : Shape} (failed : (shape.reader what).run bytes =
    .error fault left) :
    ∃ consumed, bytes = consumed ++ left ∧ Consumes ⟨shape, what⟩ consumed left (.error fault) := by
  cases shape with
  | byte =>
      obtain ⟨short, rfl, rfl⟩ := byte_eq_error_iff.mp (run_map_eq_error_iff.mp failed)
      exact ⟨[], rfl, .tooShort rfl short what⟩
  | halfWord =>
      obtain ⟨short, rfl, rfl⟩ := halfWord_eq_error_iff.mp (run_map_eq_error_iff.mp failed)
      exact ⟨[], rfl, .tooShort rfl short what⟩
  | word =>
      obtain ⟨short, rfl, rfl⟩ := word_eq_error_iff.mp (run_map_eq_error_iff.mp failed)
      exact ⟨[], rfl, .tooShort rfl short what⟩
  | field =>
      rcases field_eq_error_iff.mp (run_map_eq_error_iff.mp failed) with
        ⟨short, rfl, rfl⟩ | ⟨length, fits, rfl, short, rfl⟩
      · exact ⟨[], rfl, .tooShort rfl short what⟩
      · exact ⟨_, rfl, .cutOff fits short what⟩
  | text delimiter =>
      obtain ⟨rfl, ⟨absent, rfl⟩ | ⟨front, behind, rfl, absent, noText, rfl⟩⟩ :=
        delimited_eq_error_iff.mp (run_map_eq_error_iff.mp failed)
      · exact ⟨[], rfl, .undelimited absent what⟩
      · exact ⟨[], rfl, .notText absent noText what behind⟩

/-! ## One request after the other -/

variable {request : Request} {requests : List Request} {outcome : Outcome}
  {outcomes : List Outcome}

theorem Request.answer_of_ok {part : Part}
    (accepted : (request.shape.reader request.what).run bytes = .ok part left) :
    request.answer bytes = (.ok part, left) := by
  rw [answer, accepted]

theorem Request.answer_of_error
    (failed : (request.shape.reader request.what).run bytes = .error fault left) :
    request.answer bytes = (.error fault, left) := by
  rw [answer, failed]

theorem Consumes.answer {consumed : Bytes} (consumes : Consumes request consumed left outcome) :
    request.answer (consumed ++ left) = (outcome, left) := by
  cases consumes with
  | part fits what left => exact Request.answer_of_ok (reads_part fits what left)
  | tooShort wide short what => exact Request.answer_of_error (run_reader_of_length_lt wide short)
  | cutOff fits short what =>
      apply Request.answer_of_error
      apply run_map_eq_error_iff.mpr
      exact field_eq_error_iff.mpr (.inr ⟨_, fits, rfl, short, rfl⟩)
  | undelimited absent what =>
      apply Request.answer_of_error
      apply run_map_eq_error_iff.mpr
      exact delimited_eq_error_iff.mpr ⟨rfl, .inl ⟨absent, rfl⟩⟩
  | notText absent noText what behind =>
      apply Request.answer_of_error
      apply run_map_eq_error_iff.mpr
      exact delimited_eq_error_iff.mpr ⟨rfl, .inr ⟨_, behind, rfl, absent, noText, rfl⟩⟩

/-- A request ends in a way, and leaves something, exactly if this is what it should do. -/
theorem answer_eq_iff : request.answer bytes = (outcome, left) ↔
    ∃ consumed, bytes = consumed ++ left ∧ Consumes request consumed left outcome := by
  constructor
  · intro answered
    cases run : (request.shape.reader request.what).run bytes with
    | ok part rest =>
        rw [Request.answer_of_ok run] at answered
        cases answered
        -- The shape that was asked for becomes the shape of the part.
        obtain ⟨shape, what⟩ := request
        obtain ⟨rfl, fits, isPart⟩ := eq_written_append run
        exact ⟨part.written, isPart, .part fits what left⟩
    | error fault rest =>
        rw [Request.answer_of_error run] at answered
        cases answered
        exact consumes_of_error run
  · rintro ⟨consumed, rfl, consumes⟩
    exact consumes.answer

/-- Requests end in some ways, and leave something, exactly if each of them does what it should
with what the one before it left. -/
theorem answers_eq_iff : answers requests bytes = (outcomes, left) ↔
    Accounts requests bytes outcomes left := by
  induction requests generalizing bytes outcomes with
  | nil =>
      constructor
      · intro answered
        cases answered
        exact .nil left
      · rintro ⟨⟩
        rfl
  | cons request requests ih =>
      constructor
      · intro answered
        rcases first : request.answer bytes with ⟨outcome, middle⟩
        rcases others : answers requests middle with ⟨later, rest⟩
        simp only [answers, first, others] at answered
        cases answered
        obtain ⟨consumed, rfl, consumes⟩ := answer_eq_iff.mp first
        exact .cons consumes (ih.mp others)
      · intro accounts
        cases accounts with
        | cons first others => simp only [answers, first.answer, ih.mpr others]

/-- Parts that fit are read again, one after the other. -/
theorem accounts_written (what : String) {parts : List Part} (fits : ∀ part ∈ parts, part.Fits)
    (left : Bytes) :
    Accounts (parts.map fun part => ⟨part.shape, what⟩) (parts.flatMap Part.written ++ left)
      (parts.map .ok) left := by
  induction parts with
  | nil => exact .nil left
  | cons part parts ih =>
      have others := ih fun other member => fits other (List.mem_cons_of_mem part member)
      rw [List.flatMap_cons, List.append_assoc]
      exact .cons (.part (fits part List.mem_cons_self) what _) others

/-- Whatever is read could be written. -/
theorem Accounts.fits (accounts : Accounts requests bytes outcomes left) {part : Part}
    (member : .ok part ∈ outcomes) : part.Fits := by
  induction accounts with
  | nil => cases member
  | cons first others ih =>
      rcases List.mem_cons.mp member with isFirst | member
      · cases isFirst
        cases first with
        | part fits => exact fits
      · exact ih member

/-- Requests of any shapes on any bytes, made one after the other, consume what they should and
nothing else, whichever of them fail: what is written for a part that is read, the length of a
field whose content is cut off, and nothing at any other failure. Fields that were written one
after the other are read again, and what follows them is left, exactly if their lengths fit four
bytes, as whoever writes a field sees to. -/
theorem accountsForBytes_answers :
    (∀ requests bytes outcomes left,
      answers requests bytes = (outcomes, left) ↔ Accounts requests bytes outcomes left) ∧
    ∀ what contents left,
      answers (contents.map fun _ => ⟨.field, what⟩) (Frame.fields contents ++ left) =
          (contents.map fun content => .ok (.field content), left) ↔
        ∀ content ∈ contents, content.length ≤ Invocation.maxFieldLength := by
  constructor
  · intro requests bytes outcomes left
    exact answers_eq_iff
  · intro what contents left
    rw [answers_eq_iff]
    constructor
    · intro accounts content member
      have isRead : (.ok (.field content) : Outcome) ∈
          contents.map fun content => .ok (.field content) := List.mem_map_of_mem member
      exact accounts.fits isRead
    · intro fit
      have partsFit : ∀ part ∈ contents.map Part.field, part.Fits := by
        rw [List.forall_mem_map]
        exact fit
      have accounts := accounts_written what partsFit left
      rw [List.flatMap_map, List.map_map, List.map_map] at accounts
      exact accounts

/-- A field whose content was cut off inside a name. -/
def tornField : Bytes := [3, 0, 0, 0, 0xff, 0x3b]

/-- The length of the torn field is lost. What follows it is no text and stays, so that it is
found byte by byte. Whole fields in front of the torn one are read. -/
theorem accountsForBytes_answers_tornField :
    Accounts
      [⟨.word, "id"⟩, ⟨.field, "value"⟩, ⟨.text 0x3b, "name"⟩, ⟨.byte, "tag"⟩, ⟨.byte, "flag"⟩,
        ⟨.halfWord, "count"⟩]
      tornField
      [.error (.tooShort "id" 8 6), .error (.tooShort "value" 3 2), .error (.notText ⟨0, some 1⟩),
        .ok (.byte 0xff), .ok (.byte 0x3b), .error (.tooShort "count" 4 0)]
      [] ∧
    answers [⟨.field, "value"⟩, ⟨.field, "value"⟩] (Frame.fields [[7], []] ++ tornField) =
      ([.ok (.field [7]), .ok (.field [])], tornField) := by
  constructor
  · exact (accountsForBytes_answers.1 _ _ _ _).mp rfl
  · have fit : ∀ content ∈ ([[7], []] : List Bytes),
        content.length ≤ Invocation.maxFieldLength := by decide
    exact (accountsForBytes_answers.2 "value" [[7], []] tornField).mpr fit

end PeerCalls.Reader
