import PeerCalls.Channel.Stream

/-!
# Frames are received as they were sent

A stream is read as if all its bytes were in one piece: what a receiver does depends only on the
bytes that have arrived, and on whether more may come. Frames that were sent are therefore
received in their order and as they are, however their bytes arrive and whenever the receiver
asks for them. If the stream ends, then the frames before its end are received, and what is left
decides how it goes on: the stream is closed if that is not even a length, and else the next
frame is incomplete.
-/

namespace PeerCalls.Stream

open Link (Received standardMaxFrameLength)

/-! ## What receiving does -/

/-- The bytes that have arrived. -/
def arrived (stream : Stream) : Bytes := stream.incoming.flatten

/-- The other end sends no more, and what it sent can be read. -/
def HasEnded (stream : Stream) : Prop :=
  stream.presence = .finished ∨ stream.presence = .gone false

theorem HasEnded.ne_present {stream : Stream} (hasEnded : stream.HasEnded) :
    stream.presence ≠ .present := by
  cases hasEnded with
  | inl finished => simp [finished]
  | inr gone => simp [gone]

/-- How reading some bytes ends. -/
inductive Reads (stream : Stream) (count : Nat) : Reading → Stream → Prop where
  | complete {pieces : List Bytes} : count ≤ stream.arrived.length →
      pieces.flatten = stream.arrived.drop count →
      Reads stream count (.complete (stream.arrived.take count)) { stream with incoming := pieces }
  | ended : stream.arrived.length < count → stream.HasEnded →
      Reads stream count .ended { stream with incoming := [] }
  | reset : stream.arrived.length < count → stream.presence = .gone true →
      Reads stream count .reset { stream with incoming := [], presence := .gone false }
  | pending : stream.arrived.length < count → stream.presence = .present →
      Reads stream count .pending stream

theorem reads (stream : Stream) (count : Nat) :
    Reads stream count (stream.read count).1 (stream.read count).2 := by
  have isArrived : stream.incoming.flatten = stream.arrived := rfl
  simp only [read, takePieces_flatten, isArrived, List.length_take]
  split
  next isWhole =>
    exact .complete (by omega) (dropPieces_flatten count stream.incoming)
  next isShort =>
    have short : stream.arrived.length < count := by omega
    split
    next present => exact .pending short present
    next finished => exact .ended short (.inl finished)
    next gone => exact .ended short (.inr gone)
    next isReset => exact .reset short isReset

/-- The length of the next frame, as its first four bytes say. -/
def nextLength (stream : Stream) : Nat := Bytes.ofLittleEndian (stream.arrived.take 4)

/-- The next frame has not arrived completely. -/
def IsPartial (stream : Stream) : Prop :=
  stream.arrived.length < 4 ∨
    stream.nextLength ≤ standardMaxFrameLength ∧ stream.arrived.length < 4 + stream.nextLength

/-- How receiving a frame ends. -/
inductive Receives (stream : Stream) : Except Fault Received → Stream → Prop where
  | frame {pieces : List Bytes} : stream.nextLength ≤ standardMaxFrameLength →
      4 + stream.nextLength ≤ stream.arrived.length →
      pieces.flatten = stream.arrived.drop (4 + stream.nextLength) →
      Receives stream (.ok (.frame ((stream.arrived.drop 4).take stream.nextLength)))
        { stream with incoming := pieces }
  | longFrame {pieces : List Bytes} : 4 ≤ stream.arrived.length →
      standardMaxFrameLength < stream.nextLength →
      Receives stream (.error (.longFrame stream.nextLength))
        { stream with isOpen := false, incoming := pieces }
  | pending : stream.IsPartial → stream.presence = .present →
      Receives stream (.ok .pending) stream
  | closed : stream.arrived.length < 4 → stream.HasEnded →
      Receives stream (.ok .closed) { stream with isOpen := false, incoming := [] }
  | incomplete : 4 ≤ stream.arrived.length → stream.nextLength ≤ standardMaxFrameLength →
      stream.arrived.length < 4 + stream.nextLength → stream.HasEnded →
      Receives stream (.error (.incomplete stream.nextLength false))
        { stream with isOpen := false, incoming := [] }
  | reset {fault : Fault} : stream.IsPartial → stream.presence = .gone true →
      Receives stream (.error fault)
        { stream with isOpen := false, incoming := [], presence := .gone false }

theorem receives (stream : Stream) :
    Receives stream stream.receive.1 stream.receive.2 := by
  unfold receive
  have first := reads stream 4
  generalize stream.read 4 = result at first
  obtain ⟨reading, rest⟩ := result
  cases first with
  | pending short present => exact .pending (.inl short) present
  | ended short hasEnded => exact .closed short hasEnded
  | reset short isReset => exact .reset (.inl short) isReset
  | @complete pieces enough isRest =>
      simp only
      split
      next long => exact .longFrame enough long
      next short =>
        have fits : stream.nextLength ≤ standardMaxFrameLength := Nat.le_of_not_lt short
        unfold receiveContent
        have second := reads { stream with incoming := pieces } stream.nextLength
        have isArrived : arrived { stream with incoming := pieces } = stream.arrived.drop 4 :=
          isRest
        rw [← nextLength]
        generalize read { stream with incoming := pieces } stream.nextLength = result at second
        obtain ⟨reading, later⟩ := result
        cases second with
        | pending short present =>
            rw [isArrived, List.length_drop] at short
            exact .pending (.inr ⟨fits, by omega⟩) present
        | ended short hasEnded =>
            rw [isArrived, List.length_drop] at short
            exact .incomplete enough fits (by omega) hasEnded
        | reset short isReset =>
            rw [isArrived, List.length_drop] at short
            exact .reset (.inr ⟨fits, by omega⟩) isReset
        | complete enoughMore isLater =>
            rw [isArrived] at enoughMore isLater ⊢
            rw [List.length_drop] at enoughMore
            rw [List.drop_drop] at isLater
            exact .frame fits (by omega) isLater

/-- A stream on which a frame could not be received is of no more use. -/
theorem isOpen_receive {stream : Stream}
    (ends : stream.receive.1 = .ok .closed ∨ ∃ fault, stream.receive.1 = .error fault) :
    stream.receive.2.isOpen = false := by
  have received := receives stream
  generalize stream.receive = result at received ends
  obtain ⟨answer, after⟩ := result
  cases received with
  | frame | pending => simp at ends
  | longFrame | closed | incomplete | reset => rfl

/-- A length that is too long is not waited for. -/
theorem receive_longFrame {stream : Stream} (enough : 4 ≤ stream.arrived.length)
    (long : standardMaxFrameLength < stream.nextLength) :
    stream.receive.1 = .error (.longFrame stream.nextLength) := by
  have received := receives stream
  generalize stream.receive = result at received
  obtain ⟨answer, after⟩ := result
  have whole : ¬ stream.IsPartial := by
    unfold IsPartial
    omega
  cases received with
  | longFrame => rfl
  | frame fits | incomplete _ fits => exact absurd long (Nat.not_lt.mpr fits)
  | pending isPartial | reset isPartial => exact absurd isPartial whole
  | closed short => exact absurd enough (Nat.not_le.mpr short)

/-! ## Sending -/

/-- Send one frame after the other. -/
def sendAll (stream : Stream) : List Bytes → List (Except Fault Unit) × Stream
  | [] => ([], stream)
  | frame :: rest =>
    let (result, stream) := stream.send frame
    let (results, stream) := stream.sendAll rest
    (result :: results, stream)

theorem send_eq_ok {stream : Stream} {frame : Bytes} (isOpen : stream.isOpen = true)
    (present : stream.presence = .present) (fits : frame.length ≤ standardMaxFrameLength) :
    stream.send frame =
      (.ok (), { stream with outgoing := stream.outgoing ++ Frame.field frame }) := by
  simp [send, isOpen, present, Nat.not_lt.mpr fits]

theorem sendAll_eq_ok {stream : Stream} {frames : List Bytes} (isOpen : stream.isOpen = true)
    (present : stream.presence = .present)
    (fit : ∀ frame ∈ frames, frame.length ≤ standardMaxFrameLength) :
    stream.sendAll frames = (List.replicate frames.length (.ok ()),
      { stream with outgoing := stream.outgoing ++ Frame.fields frames }) := by
  induction frames generalizing stream with
  | nil => simp [sendAll, Frame.fields]
  | cons frame rest ih =>
      rw [List.forall_mem_cons] at fit
      have others : sendAll { stream with outgoing := stream.outgoing ++ Frame.field frame } rest =
          _ := ih isOpen present fit.2
      simp only [sendAll, send_eq_ok isOpen present fit.1, others]
      simp [Frame.fields, List.replicate_succ]

/-! ## Receiving what was sent -/

theorem field_append (frame : Bytes) (rest : List Bytes) :
    Frame.fields (frame :: rest) = Frame.field frame ++ Frame.fields rest :=
  List.flatMap_cons

theorem fields_append (first rest : List Bytes) :
    Frame.fields (first ++ rest) = Frame.fields first ++ Frame.fields rest :=
  List.flatMap_append

theorem length_field (frame : Bytes) : (Frame.field frame).length = 4 + frame.length := by
  simp [Frame.field]

/-- How receiving ends if what has arrived was sent as frames. -/
inductive Gets (frames : List Bytes) (stream : Stream) : Except Fault Received → Stream → Prop where
  | frame {frame : Bytes} {rest : List Bytes} {pieces : List Bytes} : frames = frame :: rest →
      stream.arrived = Frame.field frame ++ pieces.flatten →
      Gets frames stream (.ok (.frame frame)) { stream with incoming := pieces }
  | pending : stream.presence = .present → Gets frames stream (.ok .pending) stream
  | closed : stream.arrived.length < 4 → stream.HasEnded →
      Gets frames stream (.ok .closed) { stream with isOpen := false, incoming := [] }
  | incomplete {frame : Bytes} {rest : List Bytes} : frames = frame :: rest →
      4 ≤ stream.arrived.length → stream.arrived.length < (Frame.field frame).length →
      stream.HasEnded →
      Gets frames stream (.error (.incomplete frame.length false))
        { stream with isOpen := false, incoming := [] }

theorem nextLength_eq {stream : Stream} {frame : Bytes} {rest : List Bytes}
    (isPrefix : stream.arrived <+: Frame.fields (frame :: rest))
    (fits : frame.length ≤ standardMaxFrameLength) (enough : 4 ≤ stream.arrived.length) :
    stream.nextLength = frame.length := by
  have first : stream.arrived.take 4 = Bytes.littleEndian 4 frame.length := by
    have sent : Bytes.littleEndian 4 frame.length <+: Frame.fields (frame :: rest) := by
      rw [field_append, Frame.field, List.append_assoc]
      exact List.prefix_append _ _
    have taken := (List.take_prefix 4 stream.arrived).trans isPrefix
    have lengths : (stream.arrived.take 4).length = (Bytes.littleEndian 4 frame.length).length := by
      rw [List.length_take, Bytes.length_littleEndian, Nat.min_eq_left enough]
    exact (List.prefix_of_prefix_length_le taken sent (Nat.le_of_eq lengths)).eq_of_length lengths
  rw [nextLength, first, Bytes.ofLittleEndian_littleEndian]
  exact Nat.mod_eq_of_lt (Nat.lt_of_le_of_lt fits (by decide))

theorem gets {stream : Stream} {frames : List Bytes}
    (fit : ∀ frame ∈ frames, frame.length ≤ standardMaxFrameLength)
    (isPrefix : stream.arrived <+: Frame.fields frames)
    (expected : stream.presence = .present ∨ stream.HasEnded) :
    Gets frames stream stream.receive.1 stream.receive.2 := by
  have received := receives stream
  generalize stream.receive = result at received
  obtain ⟨answer, after⟩ := result
  cases frames with
  | nil =>
      have nothing : stream.arrived.length = 0 := by
        rw [List.prefix_nil.mp isPrefix]
        rfl
      cases received with
      | frame _ enough | longFrame enough | incomplete enough => omega
      | pending _ present => exact .pending present
      | closed short hasEnded => exact .closed short hasEnded
      | reset _ isReset => simp [HasEnded, isReset] at expected
  | cons frame rest =>
      rw [List.forall_mem_cons] at fit
      have isNext := nextLength_eq isPrefix fit.1
      cases received with
      | @frame pieces _ enough isRest =>
          rw [isNext (by omega)] at enough isRest ⊢
          have first : Frame.field frame <+: Frame.fields (frame :: rest) :=
            field_append frame rest ▸ List.prefix_append _ _
          have whole : Frame.field frame <+: stream.arrived :=
            List.prefix_of_prefix_length_le first isPrefix (by rwa [length_field])
          obtain ⟨later, isArrived⟩ := whole
          have isLater : pieces.flatten = later := by
            rw [isRest, ← isArrived, ← length_field, List.drop_left]
          have content : (stream.arrived.drop 4).take frame.length = frame := by
            rw [← isArrived, Frame.field, List.append_assoc, List.drop_left' (by simp),
              List.take_left]
          rw [content]
          exact .frame rfl (by rw [isLater, isArrived])
      | longFrame enough long =>
          rw [isNext enough] at long
          exact absurd long (Nat.not_lt.mpr fit.1)
      | pending _ present => exact .pending present
      | closed short hasEnded => exact .closed short hasEnded
      | incomplete enough _ short hasEnded =>
          rw [isNext enough] at short ⊢
          rw [← length_field] at short
          exact .incomplete rfl enough short hasEnded
      | reset _ isReset => simp [HasEnded, isReset] at expected

/-! ## Receiving again and again -/

/-- What happens at the receiving end of a stream. -/
inductive Event where
  | arrive (piece : Bytes)
  | receive
  deriving Repr, DecidableEq

/-- The bytes that arrive meanwhile. -/
def arrivals : List Event → Bytes
  | [] => []
  | .arrive piece :: rest => piece ++ arrivals rest
  | .receive :: rest => arrivals rest

/-- The answers to all attempts to receive a frame but those that must wait, which are made
again. -/
def run (stream : Stream) : List Event → List (Except Fault Received) × Stream
  | [] => ([], stream)
  | .arrive piece :: rest => (stream.arrive piece).run rest
  | .receive :: rest =>
    match stream.receive with
    | (.ok .pending, stream) => stream.run rest
    | (answer, stream) => (answer :: (stream.run rest).1, (stream.run rest).2)

theorem run_receive {stream after : Stream} {answer : Except Fault Received}
    (received : stream.receive = (answer, after)) (isAnswer : answer ≠ .ok .pending)
    (rest : List Event) :
    stream.run (.receive :: rest) = (answer :: (after.run rest).1, (after.run rest).2) := by
  rw [run, received]
  split
  next same => exact absurd (congrArg Prod.fst same) isAnswer
  next same =>
    cases same
    rfl

/-- As long as more bytes may come, frames are received, and nothing else. -/
theorem exists_run_present {stream : Stream} {frames : List Bytes} {schedule : List Event}
    (fit : ∀ frame ∈ frames, frame.length ≤ standardMaxFrameLength)
    (isPrefix : stream.arrived ++ arrivals schedule <+: Frame.fields frames)
    (present : stream.presence = .present) :
    ∃ taken rest, frames = taken ++ rest ∧
      (stream.run schedule).1 = taken.map (.ok <| .frame ·) ∧
      (stream.run schedule).2.presence = .present ∧
      (stream.run schedule).2.outgoing = stream.outgoing ∧
      Frame.fields taken ++ (stream.run schedule).2.arrived =
        stream.arrived ++ arrivals schedule := by
  induction schedule generalizing stream frames with
  | nil => exact ⟨[], frames, rfl, rfl, present, rfl, by simp [run, arrivals, Frame.fields]⟩
  | cons event others ih =>
      cases event with
      | arrive piece =>
          have isArrived : (stream.arrive piece).arrived = stream.arrived ++ piece := by
            simp [arrived, arrive]
          rw [arrivals, ← List.append_assoc, ← isArrived] at isPrefix ⊢
          exact ih fit isPrefix present
      | receive =>
          have received := gets fit ((List.prefix_append _ _).trans isPrefix) (.inl present)
          rw [arrivals] at isPrefix ⊢
          cases result : stream.receive with
          | mk answer after =>
              rw [result] at received
              cases received with
              | pending =>
                  rw [run, result]
                  exact ih fit isPrefix present
              | closed _ hasEnded | incomplete _ _ _ hasEnded =>
                  exact absurd present hasEnded.ne_present
              | @frame frame rest pieces isFrames isArrived =>
                  subst isFrames
                  have bytes : stream.arrived ++ arrivals others = Frame.field frame ++
                      (arrived { stream with incoming := pieces } ++ arrivals others) := by
                    rw [isArrived, List.append_assoc]
                    rfl
                  rw [bytes, field_append, List.prefix_append_right_inj] at isPrefix
                  rw [List.forall_mem_cons] at fit
                  obtain ⟨taken, left, rfl, answers, stays, silent, later⟩ :=
                    @ih { stream with incoming := pieces } rest fit.2 isPrefix present
                  rw [run_receive result (by simp)]
                  refine ⟨frame :: taken, left, rfl, congrArg _ answers, stays, silent, ?_⟩
                  rw [bytes, field_append, List.append_assoc, later]

/-- How receiving goes on after the last whole frame, given what is left of the others. -/
inductive Ends (others : List Bytes) (left : Bytes) : Except Fault Received → Prop where
  | closed : left.length < 4 → Ends others left (.ok .closed)
  | incomplete {frame : Bytes} {rest : List Bytes} : others = frame :: rest → 4 ≤ left.length →
      left.length < (Frame.field frame).length →
      Ends others left (.error (.incomplete frame.length false))

/-- A stream that has ended is closed if not even a length is left. -/
theorem receive_closed {stream : Stream} (short : stream.arrived.length < 4)
    (hasEnded : stream.HasEnded) :
    stream.receive = (.ok .closed, { stream with isOpen := false, incoming := [] }) := by
  have received := receives stream
  cases result : stream.receive with
  | mk answer after =>
      rw [result] at received
      cases received with
      | closed => rfl
      | frame _ enough | longFrame enough | incomplete enough => omega
      | pending _ present => exact absurd present hasEnded.ne_present
      | reset _ isReset => simp [HasEnded, isReset] at hasEnded

theorem run_closed {stream : Stream} (nothing : stream.arrived = []) (hasEnded : stream.HasEnded)
    (count : Nat) : (stream.run (List.replicate count .receive)).1 =
      List.replicate count (.ok .closed) := by
  induction count generalizing stream with
  | zero => rfl
  | succ count ih =>
      have received := receive_closed (by rw [nothing]; decide) hasEnded
      rw [List.replicate_succ, run_receive received (by simp), List.replicate_succ]
      exact congrArg _ (@ih { stream with isOpen := false, incoming := [] } rfl hasEnded)

/-- The answers are these and then always that the stream is closed. -/
def Continues (answers : List (Except Fault Received)) (stream : Stream) : Prop :=
  ∀ count, (stream.run (List.replicate count .receive)).1.length = count ∧
    (stream.run (List.replicate count .receive)).1 <+:
      answers ++ List.replicate count (.ok .closed)

theorem continues_closed {stream : Stream} (nothing : stream.arrived = [])
    (hasEnded : stream.HasEnded) : Continues [] stream := by
  intro count
  rw [run_closed nothing hasEnded, List.length_replicate]
  exact ⟨rfl, List.prefix_rfl⟩

theorem Continues.receive {stream after : Stream} {answer : Except Fault Received}
    {answers : List (Except Fault Received)} (received : stream.receive = (answer, after))
    (isAnswer : answer ≠ .ok .pending) (continues : Continues answers after) :
    Continues (answer :: answers) stream := by
  intro count
  cases count with
  | zero => exact ⟨rfl, List.nil_prefix⟩
  | succ count =>
      obtain ⟨length, isPrefix⟩ := continues count
      rw [List.replicate_succ, run_receive received isAnswer, List.replicate_succ']
      constructor
      · exact congrArg (· + 1) length
      · rw [List.cons_append, List.cons_prefix_cons, ← List.append_assoc]
        exact ⟨rfl, isPrefix.trans (List.prefix_append _ _)⟩

/-- When no more bytes come, each attempt to receive a frame has an answer: the whole frames,
then how the stream ends, and after this that it is closed. -/
theorem exists_continues {stream : Stream} {frames : List Bytes}
    (fit : ∀ frame ∈ frames, frame.length ≤ standardMaxFrameLength)
    (isPrefix : stream.arrived <+: Frame.fields frames) (hasEnded : stream.HasEnded) :
    ∃ whole others left ending, frames = whole ++ others ∧
      stream.arrived = Frame.fields whole ++ left ∧ Ends others left ending ∧
      Continues (whole.map (.ok <| .frame ·) ++ [ending]) stream := by
  -- A stream on which a frame could not be received has no bytes any more.
  have drained : Continues [] { stream with isOpen := false, incoming := [] } :=
    continues_closed rfl hasEnded
  induction frames generalizing stream with
  | nil =>
      have short : stream.arrived.length < 4 := by
        rw [List.prefix_nil.mp isPrefix]
        decide
      exact ⟨[], [], stream.arrived, _, rfl, rfl, .closed short,
        drained.receive (receive_closed short hasEnded) (by simp)⟩
  | cons frame rest ih =>
      have received := gets fit isPrefix (.inr hasEnded)
      cases result : stream.receive with
      | mk answer after =>
          rw [result] at received
          cases received with
          | pending present => exact absurd present hasEnded.ne_present
          | closed short =>
              exact ⟨[], _, stream.arrived, _, rfl, rfl, .closed short,
                drained.receive result (by simp)⟩
          | incomplete isFrames enough short =>
              exact ⟨[], _, stream.arrived, _, rfl, rfl, .incomplete isFrames enough short,
                drained.receive result (by simp)⟩
          | @frame first others pieces isFrames isArrived =>
              cases isFrames
              rw [isArrived, field_append, List.prefix_append_right_inj] at isPrefix
              rw [List.forall_mem_cons] at fit
              obtain ⟨whole, others, left, ending, rfl, bytes, ends, continues⟩ :=
                @ih { stream with incoming := pieces } fit.2 isPrefix hasEnded drained
              refine ⟨frame :: whole, others, left, ending, rfl, ?_, ends,
                continues.receive result (by simp)⟩
              rw [isArrived, field_append, List.append_assoc, ← bytes]
              rfl

/-! ## From one end to the other -/

/-- What becomes of frames that are sent, if this is what happens at the receiving end before the
stream ends there. -/
structure Delivers (frames : List Bytes) (schedule : List Event) (ending : Stream → Stream) :
    Prop where
  sends : (new.sendAll frames).1 = List.replicate frames.length (.ok ())
  receives : ∃ whole others left outcome, frames = whole ++ others ∧
    arrivals schedule = Frame.fields whole ++ left ∧ Ends others left outcome ∧ ∀ count,
      let early := new.run schedule
      let late := (ending early.2).run (List.replicate count .receive)
      late.1.length = count ∧ early.1 ++ late.1 <+:
        whole.map (.ok <| .frame ·) ++ outcome :: List.replicate count (.ok .closed)

/-- What receiving a frame does to a stream that is of no more use. -/
structure Abandons (stream : Stream) : Prop where
  longFrame : 4 ≤ stream.arrived.length → standardMaxFrameLength < stream.nextLength →
    stream.receive.1 = .error (.longFrame stream.nextLength)
  closes : (stream.receive.1 = .ok .closed ∨ ∃ fault, stream.receive.1 = .error fault) →
    stream.receive.2.isOpen = false

theorem hasEnded_ending {stream : Stream} {ending : Stream → Stream}
    (ends : ending = finishPeer ∨ ending = dropPeer) (present : stream.presence = .present)
    (silent : stream.outgoing = []) :
    (ending stream).HasEnded ∧ (ending stream).arrived = stream.arrived := by
  cases ends with
  | inl finishes =>
      rw [finishes, finishPeer, present]
      exact ⟨.inl rfl, rfl⟩
  | inr drops =>
      rw [drops, dropPeer, silent]
      exact ⟨.inr rfl, rfl⟩

/-- Whatever is sent, however it arrives and wherever it ends, the whole frames are received. -/
theorem delivers_of_sent {frames : List Bytes} {schedule : List Event} {ending : Stream → Stream}
    (fit : ∀ frame ∈ frames, frame.length ≤ standardMaxFrameLength)
    (sent : arrivals schedule <+: (new.sendAll frames).2.outgoing)
    (ends : ending = finishPeer ∨ ending = dropPeer) :
    Delivers frames schedule ending ∧ ∀ stream : Stream, stream.Abandons := by
  have sends : new.sendAll frames = _ := sendAll_eq_ok rfl rfl fit
  refine ⟨⟨congrArg Prod.fst sends, ?_⟩, fun stream => ⟨receive_longFrame, isOpen_receive⟩⟩
  rw [sends] at sent
  have isPrefix : new.arrived ++ arrivals schedule <+: Frame.fields frames := sent
  obtain ⟨taken, rest, rfl, answers, present, silent, bytes⟩ :=
    exists_run_present fit isPrefix rfl
  obtain ⟨hasEnded, sameBytes⟩ := hasEnded_ending ends present silent
  have isRest : (ending (new.run schedule).2).arrived <+: Frame.fields rest := by
    rw [← bytes, fields_append, List.prefix_append_right_inj] at isPrefix
    rwa [sameBytes]
  rw [List.forall_mem_append] at fit
  obtain ⟨whole, others, left, outcome, rfl, isArrived, goesOn, continues⟩ :=
    exists_continues fit.2 isRest hasEnded
  refine ⟨taken ++ whole, others, left, outcome, (List.append_assoc _ _ _).symm, ?_, goesOn, ?_⟩
  · rw [fields_append, List.append_assoc, ← isArrived, sameBytes]
    exact bytes.symm
  · intro count
    obtain ⟨length, late⟩ := continues count
    refine ⟨length, ?_⟩
    rw [answers, List.map_append, List.append_assoc, List.prefix_append_right_inj]
    simpa using late

/-- Pieces of two frames and the beginning of a third one. -/
def brokenFrames : List Event :=
  [.receive, .arrive [1, 0], .receive, .arrive [0, 0, 7, 0, 0, 0], .receive, .receive,
    .arrive [0, 2, 0, 0, 0, 8]]

theorem delivers_of_sent_brokenFrames : Delivers [[7], [], [8, 9]] brokenFrames finishPeer ∧
    (receive { new with incoming := [[1, 0, 0], [1, 5]] }).1 = .error (.longFrame 16777217) := by
  have delivered : Delivers [[7], [], [8, 9]] brokenFrames finishPeer ∧ ∀ stream : Stream, _ :=
    delivers_of_sent (by decide) (by decide +kernel) (.inl rfl)
  exact ⟨delivered.1, (delivered.2 _).longFrame (by decide) (by decide)⟩

example : (new.run brokenFrames).1 = [.ok (.frame [7])] := rfl

example : ((new.run brokenFrames).2.finishPeer.run (List.replicate 3 .receive)).1 =
    [.ok (.frame []), .error (.incomplete 2 false), .ok .closed] := rfl

end PeerCalls.Stream
