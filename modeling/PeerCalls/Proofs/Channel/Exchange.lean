import PeerCalls.Proofs.Channel.Link

/-!
# Exchanges on a link

Both ends of a link are used at the same time: several sends of one end overlap, and an end
closes while it sends and while it looks for a frame. So an operation is taken apart into the
steps between which something else can happen. Whatever the order of the steps is, the frames
that one end receives are the first of those that the other end has sent, and an end finds the
link closed only if it has received all of them. Once one end has closed, no end sends any
more, and an end that has stopped sending never sends again.
-/

namespace PeerCalls

theorem Side.eq_other_of_ne {side one : Side} (distinct : side ≠ one) : side = one.other := by
  cases side <;> cases one <;> first | rfl | exact absurd rfl distinct

namespace Link

variable {link next : Link} {side : Side} {frame : Bytes}

/-! ## The parts of an operation -/

/-- What is checked before a frame is sent. -/
def check (link : Link) (side : Side) (frame : Bytes) : Except Fault Unit :=
  if frame.length > link.maxFrameLength then
    .error (.tooLong frame.length link.maxFrameLength)
  else if !link.isOpen side then .error .closed
  else .ok ()

/-- An admitted frame comes to the other end, unless that one does not take it. -/
def push (link : Link) (side : Side) (frame : Bytes) : Except Fault Unit × Link :=
  if !(link.atSide side.other).isListening then (.error .closedByPeer, link)
  else
    (.ok (), link.modify side.other fun linkEnd =>
      { linkEnd with inbox := linkEnd.inbox ++ [frame] })

/-- An end looks for a frame, while sends of the other end may be admitted. -/
def poll (link : Link) (side : Side) (isAwaited : Bool) : Received × Link :=
  match (link.atSide side).inbox with
  | frame :: rest => (.frame frame, link.modify side fun linkEnd => { linkEnd with inbox := rest })
  | [] =>
    if (link.atSide side).isListening && (link.isOpen side.other || isAwaited) then
      (.pending, link)
    else (.closed, link)

theorem send_eq (link : Link) (side : Side) (frame : Bytes) :
    link.send side frame =
      match link.check side frame with
      | .error fault => (.error fault, link)
      | .ok () =>
        match link.push side frame with
        | (.error fault, next) => (.error fault, next.stopSending side)
        | sent => sent := by
  unfold send check push
  split
  · rfl
  · split
    · rfl
    · split <;> rfl

theorem receive_eq (link : Link) (side : Side) :
    link.receive side =
      match link.poll side false with
      | (.closed, next) => (.closed, next.stopSending side)
      | received => received := by
  unfold receive poll
  cases (link.atSide side).inbox with
  | cons frame rest => rfl
  | nil =>
      rw [Bool.or_false]
      cases (link.atSide side).isListening && link.isOpen side.other <;> rfl

theorem close_stopSending (link : Link) (side : Side) :
    (link.stopSending side).close side = link.close side := by
  cases side <;> rfl

/-- What does not send or listen does not begin to. -/
structure Fades (before after : Link) : Prop where
  isOpen : ∀ {side : Side}, before.isOpen side = false → after.isOpen side = false
  isListening : ∀ {side : Side},
    (before.atSide side).isListening = false → (after.atSide side).isListening = false

theorem Fades.refl (link : Link) : Fades link link := ⟨id, id⟩

theorem Fades.trans {first second third : Link} (before : Fades first second)
    (after : Fades second third) : Fades first third :=
  ⟨after.isOpen ∘ before.isOpen, after.isListening ∘ before.isListening⟩

theorem fades_modify {change : LinkEnd → LinkEnd}
    (isOpen : ∀ linkEnd, linkEnd.isOpen = false → (change linkEnd).isOpen = false)
    (isListening : ∀ linkEnd,
      linkEnd.isListening = false → (change linkEnd).isListening = false) :
    Fades link (link.modify side change) where
  isOpen {other} stopped := by
    unfold Link.isOpen at *
    rw [atSide_modify]
    split
    · exact isOpen _ stopped
    · exact stopped
  isListening {other} deaf := by
    rw [atSide_modify]
    split
    · exact isListening _ deaf
    · exact deaf

theorem fades_stopSending (link : Link) (side : Side) : Fades link (link.stopSending side) :=
  fades_modify (fun _ _ => rfl) (fun _ deaf => deaf)

theorem fades_close (link : Link) (side : Side) : Fades link (link.close side) :=
  fades_modify (fun _ _ => rfl) (fun _ _ => rfl)

theorem fades_drop (link : Link) (side : Side) : Fades link (link.drop side) :=
  fades_modify (fun _ _ => rfl) (fun _ _ => rfl)

@[simp] theorem inbox_stopSending (link : Link) (side other : Side) :
    ((link.stopSending side).atSide other).inbox = (link.atSide other).inbox := by
  rw [stopSending, atSide_modify]
  split <;> rfl

@[simp] theorem inbox_close (link : Link) (side other : Side) :
    ((link.close side).atSide other).inbox = (link.atSide other).inbox := by
  rw [close, atSide_modify]
  split <;> rfl

end Link

/-- A send that was admitted, and has not put its frame into the link yet. -/
structure Sending where
  side : Side
  number : Nat
  frame : Bytes
  deriving Repr, DecidableEq

namespace Exchange

/-- What is seen of an exchange. -/
inductive Event where
  /-- A send ended. Sends have numbers, in the order in which they begin. -/
  | answered (side : Side) (number : Nat) (frame : Bytes) (result : Except Link.Fault Unit)
  | received (side : Side) (frame : Bytes)
  /-- An end found the link closed. -/
  | ended (side : Side)
  /-- An end has closed, or is gone. -/
  | closed (side : Side)

end Exchange

/-- A link that both ends use, with the sends that are under way, the number of sends that
have begun, the ends that are gone, and what was seen. -/
structure Exchange where
  link : Link
  sending : List Sending
  begun : Nat
  gone : List Side
  log : List Exchange.Event

namespace Exchange

/-- A step of an operation. An end stops sending when it begins to close, when a send finds
that the other end does not take its frame, and when it has found the link closed. -/
inductive Use where
  | send (side : Side) (frame : Bytes)
  | push (number : Nat)
  | receive (side : Side)
  | stopSending (side : Side)
  | close (side : Side)
  | drop (side : Side)

def new (maxFrameLength : Nat) : Exchange := ⟨.new maxFrameLength, [], 0, [], []⟩

/-- A send of an end is under way. -/
def isAwaited (exchange : Exchange) (side : Side) : Bool :=
  exchange.sending.any (fun sending => sending.side == side)

/-- A send begins. -/
def send (exchange : Exchange) (side : Side) (frame : Bytes) : Exchange :=
  let number := exchange.begun
  match exchange.link.check side frame with
  | .error fault => { exchange with
      begun := number + 1
      log := exchange.log ++ [.answered side number frame (.error fault)] }
  | .ok () => { exchange with
      begun := number + 1
      sending := ⟨side, number, frame⟩ :: exchange.sending }

/-- A send that is under way ends. -/
def push (exchange : Exchange) (number : Nat) : Exchange :=
  match exchange.sending.find? (fun sending => sending.number == number) with
  | none => exchange
  | some sending =>
    let pushed := exchange.link.push sending.side sending.frame
    { exchange with
      link := pushed.2
      sending := exchange.sending.eraseP (fun sending => sending.number == number)
      log := exchange.log ++ [.answered sending.side number sending.frame pushed.1] }

def receive (exchange : Exchange) (side : Side) : Exchange :=
  match exchange.link.poll side (exchange.isAwaited side.other) with
  | (.frame content, link) =>
    { exchange with link, log := exchange.log ++ [.received side content] }
  | (.closed, link) => { exchange with link, log := exchange.log ++ [.ended side] }
  | (.pending, link) => { exchange with link }

def close (exchange : Exchange) (side : Side) : Exchange :=
  { exchange with
    link := exchange.link.close side
    log := exchange.log ++ [.closed side] }

/-- An end goes away. It does not as long as it is in use. -/
def drop (exchange : Exchange) (side : Side) : Exchange :=
  if exchange.isAwaited side then exchange
  else
    { exchange with
      link := exchange.link.drop side
      gone := side :: exchange.gone
      log := exchange.log ++ [.closed side] }

/-- The end that a step needs. -/
def Use.side? : Use → Option Side
  | .push _ => none
  | .send side _ | .receive side | .stopSending side | .close side | .drop side => some side

/-- One step. An end that is gone is not used any more. -/
def step (exchange : Exchange) (use : Use) : Exchange :=
  if use.side?.any (fun side => decide (side ∈ exchange.gone)) then exchange
  else
    match use with
    | .send side frame => exchange.send side frame
    | .push number => exchange.push number
    | .receive side => exchange.receive side
    | .stopSending side => { exchange with link := exchange.link.stopSending side }
    | .close side => exchange.close side
    | .drop side => exchange.drop side

def run (exchange : Exchange) (uses : List Use) : Exchange := uses.foldl step exchange

/-! ## One step -/

variable {exchange next : Exchange} {side : Side} {frame : Bytes}

/-- The sends that are under way after one of them ended. -/
structure Leaves (ended : Sending) (before after : List Sending) : Prop where
  fewer : after ⊆ before
  others : ∀ sending ∈ before, sending.number ≠ ended.number → sending ∈ after

/-- What a step can do. -/
inductive Change (exchange : Exchange) : Exchange → Prop where
  | stay : Change exchange exchange
  | refuse {side : Side} {frame : Bytes} {fault : Link.Fault} :
      Change exchange { exchange with
        begun := exchange.begun + 1
        log := exchange.log ++ [.answered side exchange.begun frame (.error fault)] }
  | begin {side : Side} {frame : Bytes} :
      side ∉ exchange.gone → exchange.link.isOpen side = true →
      Change exchange { exchange with
        begun := exchange.begun + 1
        sending := ⟨side, exchange.begun, frame⟩ :: exchange.sending }
  | bounce {sending : Sending} {rest : List Sending} :
      sending ∈ exchange.sending → Leaves sending exchange.sending rest →
      (exchange.link.atSide sending.side.other).isListening = false →
      Change exchange { exchange with
        sending := rest
        log := exchange.log ++
          [.answered sending.side sending.number sending.frame (.error .closedByPeer)] }
  | deliver {sending : Sending} {rest : List Sending} :
      sending ∈ exchange.sending → Leaves sending exchange.sending rest →
      (exchange.link.atSide sending.side.other).isListening = true →
      Change exchange { exchange with
        link := exchange.link.modify sending.side.other fun linkEnd =>
          { linkEnd with inbox := linkEnd.inbox ++ [sending.frame] }
        sending := rest
        log := exchange.log ++
          [.answered sending.side sending.number sending.frame (.ok ())] }
  | take {side : Side} {frame : Bytes} {rest : List Bytes} :
      side ∉ exchange.gone → (exchange.link.atSide side).inbox = frame :: rest →
      Change exchange { exchange with
        link := exchange.link.modify side fun linkEnd => { linkEnd with inbox := rest }
        log := exchange.log ++ [.received side frame] }
  | finish {side : Side} :
      side ∉ exchange.gone → (exchange.link.atSide side).inbox = [] →
      ((exchange.link.atSide side).isListening = false ∨
        exchange.link.isOpen side.other = false ∧ exchange.isAwaited side.other = false) →
      Change exchange { exchange with log := exchange.log ++ [.ended side] }
  | stop {side : Side} :
      Change exchange { exchange with link := exchange.link.stopSending side }
  | close {side : Side} :
      side ∉ exchange.gone →
      Change exchange { exchange with
        link := exchange.link.close side
        log := exchange.log ++ [.closed side] }
  | drop {side : Side} :
      exchange.isAwaited side = false →
      Change exchange { exchange with
        link := exchange.link.drop side
        gone := side :: exchange.gone
        log := exchange.log ++ [.closed side] }

theorem change_send (exchange : Exchange) {side : Side} (frame : Bytes)
    (present : side ∉ exchange.gone) : Change exchange (exchange.send side frame) := by
  unfold send Link.check
  split
  next => exact .refuse
  next admitted =>
    split at admitted
    · cases admitted
    · split at admitted
      · cases admitted
      next isOpen => exact .begin present (by simpa using isOpen)

theorem change_push (exchange : Exchange) (number : Nat) :
    Change exchange (exchange.push number) := by
  unfold push
  split
  next => exact .stay
  next sending found =>
    have member := List.mem_of_find?_eq_some found
    have same : sending.number = number := by simpa using List.find?_some found
    have leaves : Leaves sending exchange.sending
        (exchange.sending.eraseP (fun sending => sending.number == number)) :=
      ⟨List.eraseP_subset, fun other member differs =>
        (List.mem_eraseP_of_neg (by simpa [same] using differs)).mpr member⟩
    rw [← same] at leaves ⊢
    cases listening : (exchange.link.atSide sending.side.other).isListening with
    | false =>
        have pushed : exchange.link.push sending.side sending.frame =
            (.error .closedByPeer, exchange.link) := by
          simp [Link.push, listening]
        rw [pushed]
        exact .bounce member leaves listening
    | true =>
        rw [Link.push, listening]
        exact .deliver member leaves listening

theorem change_receive (exchange : Exchange) {side : Side} (present : side ∉ exchange.gone) :
    Change exchange (exchange.receive side) := by
  unfold receive Link.poll
  cases inbox : (exchange.link.atSide side).inbox with
  | cons frame rest => exact .take present inbox
  | nil =>
      cases waits : (exchange.link.atSide side).isListening &&
          (exchange.link.isOpen side.other || exchange.isAwaited side.other) with
      | true => simpa only [waits, if_true] using .stay
      | false =>
          rw [Bool.and_eq_false_iff, Bool.or_eq_false_iff] at waits
          exact .finish present inbox waits

theorem change_step (exchange : Exchange) (use : Use) : Change exchange (exchange.step use) := by
  unfold step
  split
  · exact .stay
  next present =>
    cases use with
    | push number => exact exchange.change_push number
    | send side frame => exact exchange.change_send frame (by simpa [Use.side?] using present)
    | receive side => exact exchange.change_receive (by simpa [Use.side?] using present)
    | stopSending side => exact .stop
    | close side => exact .close (by simpa [Use.side?] using present)
    | drop side =>
        change Change exchange (exchange.drop side)
        unfold drop
        split
        · exact .stay
        next unused => exact .drop (by simpa using unused)

/-! ## What is over -/

theorem Change.fades (change : Change exchange next) : exchange.link.Fades next.link := by
  cases change with
  | stay | refuse | begin _ _ | bounce _ _ _ | finish _ _ _ => exact .refl exchange.link
  | deliver _ _ _ | take _ _ =>
      dsimp only
      exact Link.fades_modify (fun _ stopped => stopped) (fun _ deaf => deaf)
  | stop => exact exchange.link.fades_stopSending _
  | close _ => exact exchange.link.fades_close _
  | drop _ => exact exchange.link.fades_drop _

theorem isAwaited_eq_false_iff :
    exchange.isAwaited side = false ↔ ∀ sending ∈ exchange.sending, sending.side ≠ side := by
  simp [isAwaited]

/-- No more sends are under way at an end that does not send. -/
theorem Change.isAwaited_eq_false (change : Change exchange next)
    (stopped : exchange.link.isOpen side = false) (unused : exchange.isAwaited side = false) :
    next.isAwaited side = false := by
  rw [isAwaited_eq_false_iff] at *
  cases change with
  | stay | refuse | take _ _ | finish _ _ _ | stop | close _ | drop _ => exact unused
  | bounce _ leaves _ | deliver _ leaves _ =>
      exact fun sending member => unused sending (leaves.fewer member)
  | begin _ isOpen =>
      intro sending member
      rcases List.mem_cons.mp member with rfl | member
      · rintro rfl
        rw [isOpen] at stopped
        cases stopped
      · exact unused sending member

/-! ## What was sent and received -/

def Event.sentBy (side : Side) : Event → List Bytes
  | .answered other _ frame (.ok ()) => if other = side then [frame] else []
  | _ => []

def Event.receivedBy (side : Side) : Event → List Bytes
  | .received other frame => if other = side then [frame] else []
  | _ => []

/-- The frames that an end has sent. -/
def sent (exchange : Exchange) (side : Side) : List Bytes :=
  exchange.log.flatMap (Event.sentBy side)

/-- The frames that an end has received. -/
def received (exchange : Exchange) (side : Side) : List Bytes :=
  exchange.log.flatMap (Event.receivedBy side)

/-! What a step adds to what was sent and received. -/

theorem Change.log_prefix (change : Change exchange next) : exchange.log <+: next.log := by
  cases change with
  | stay | begin _ _ | stop => exact List.prefix_rfl
  | refuse | bounce _ _ _ | deliver _ _ _ | take _ _ | finish _ _ _ | close _ | drop _ =>
      exact List.prefix_append _ _

theorem Change.sent_prefix (change : Change exchange next) (side : Side) :
    exchange.sent side <+: next.sent side := by
  obtain ⟨events, appended⟩ := change.log_prefix
  rw [sent, sent, ← appended, List.flatMap_append]
  exact List.prefix_append _ _

/-- An end that is gone receives nothing, nor does one for which nothing has arrived. -/
theorem Change.received_eq (change : Change exchange next)
    (nothing : side ∈ exchange.gone ∨ (exchange.link.atSide side).inbox = []) :
    next.received side = exchange.received side := by
  cases change with
  | @take taker frame rest present inbox =>
      have others : taker ≠ side := by
        rintro rfl
        rcases nothing with gone | isEmpty
        · exact present gone
        · rw [isEmpty] at inbox
          cases inbox
      simp [received, Event.receivedBy, others]
  | stay | begin _ _ | stop => rfl
  | refuse | bounce _ _ _ | deliver _ _ _ | finish _ _ _ | close _ | drop _ =>
      simp [received, Event.receivedBy]

/-- Nothing is sent to an end that does not listen, nor by one without a send under way. -/
theorem Change.sent_eq (change : Change exchange next)
    (nothing : (exchange.link.atSide side).isListening = false ∨
      exchange.isAwaited side.other = false) :
    next.sent side.other = exchange.sent side.other := by
  cases change with
  | @deliver sending rest member fewer listening =>
      have others : sending.side ≠ side.other := by
        intro same
        rcases nothing with deaf | unused
        · rw [same, Side.other_other, deaf] at listening
          cases listening
        · exact isAwaited_eq_false_iff.mp unused sending member same
      simp [sent, Event.sentBy, others]
  | stay | begin _ _ | stop => rfl
  | refuse | bounce _ _ _ | take _ _ | finish _ _ _ | close _ | drop _ =>
      simp [sent, Event.sentBy]

/-! ## The balance -/

/-- What the log has to do with the link. -/
structure Balances (exchange : Exchange) : Prop where
  /-- What an end has not received waits for it, as long as it is there. -/
  present : ∀ side, side ∉ exchange.gone →
    exchange.sent side.other = exchange.received side ++ (exchange.link.atSide side).inbox
  /-- An end that is gone may have left frames behind. -/
  gone : ∀ side, side ∈ exchange.gone → exchange.received side <+: exchange.sent side.other
  closed : ∀ side, .closed side ∈ exchange.log → exchange.link.isOpen side = false ∧
    (exchange.link.atSide side).isListening = false
  ended : ∀ side, .ended side ∈ exchange.log →
    exchange.received side = exchange.sent side.other ∧
    ((exchange.link.atSide side).isListening = false ∨
      exchange.link.isOpen side.other = false ∧ exchange.isAwaited side.other = false)

namespace Balances

theorem new (maxFrameLength : Nat) : (new maxFrameLength).Balances := by
  constructor <;> intro side <;> simp [Exchange.new, Link.new, sent, received]
  cases side <;> rfl

theorem present_change (balances : exchange.Balances) (change : Change exchange next)
    (stays : side ∉ next.gone) :
    next.sent side.other = next.received side ++ (next.link.atSide side).inbox := by
  cases change with
  | stay | begin _ _ => exact balances.present side stays
  | refuse | bounce _ _ _ | finish _ _ _ | stop | close _ =>
      simpa [sent, received, Event.sentBy, Event.receivedBy] using balances.present side stays
  | @deliver sending _ _ _ _ =>
      have conserved := balances.present side stays
      by_cases toSide : sending.side = side.other
      · simp [sent, received, Event.sentBy, Event.receivedBy, Link.atSide_modify, toSide] at *
        rw [conserved, List.append_assoc]
      · have elsewhere : side ≠ sending.side.other := by
          rintro rfl
          exact toSide (Side.other_other _).symm
        simpa [sent, received, Event.sentBy, Event.receivedBy, Link.atSide_modify, toSide,
          elsewhere] using conserved
  | @take taker _ _ _ inbox =>
      have conserved := balances.present side stays
      by_cases same : side = taker
      · subst same
        simpa [sent, received, Event.sentBy, Event.receivedBy, Link.atSide_modify, inbox]
          using conserved
      · simpa [sent, received, Event.sentBy, Event.receivedBy, Link.atSide_modify, same,
          Ne.symm same] using conserved
  | drop _ =>
      obtain ⟨others, stays⟩ := not_or.mp (mt List.mem_cons.mpr stays)
      simpa [sent, received, Event.sentBy, Event.receivedBy, Link.drop, Link.atSide_modify,
        others] using balances.present side stays

/-- What an end has received is the beginning of what was sent to it. -/
theorem received_prefix (balances : exchange.Balances) (side : Side) :
    exchange.received side <+: exchange.sent side.other := by
  by_cases gone : side ∈ exchange.gone
  · exact balances.gone side gone
  · rw [balances.present side gone]
    exact List.prefix_append _ _

theorem gone_change (balances : exchange.Balances) (change : Change exchange next)
    (gone : side ∈ next.gone) : next.received side <+: next.sent side.other := by
  by_cases before : side ∈ exchange.gone
  · rw [change.received_eq (.inl before)]
    exact (balances.gone side before).trans (change.sent_prefix side.other)
  · cases change with
    | drop _ =>
        simpa [sent, received, Event.sentBy, Event.receivedBy]
          using balances.received_prefix side
    | stay | refuse | begin _ _ | bounce _ _ _ | deliver _ _ _ | take _ _ | finish _ _ _ | stop
    | close _ => exact absurd gone before

theorem closed_change (balances : exchange.Balances) (change : Change exchange next)
    (closed : .closed side ∈ next.log) : next.link.isOpen side = false ∧
      (next.link.atSide side).isListening = false := by
  by_cases before : .closed side ∈ exchange.log
  · obtain ⟨stopped, deaf⟩ := balances.closed side before
    exact ⟨change.fades.isOpen stopped, change.fades.isListening deaf⟩
  · cases change with
    | @close closing _ | @drop closing _ =>
        have same : side = closing := by simpa [before] using closed
        simp [Link.close, Link.drop, Link.isOpen, Link.atSide_modify, same]
    | stay | begin _ _ | stop => exact absurd closed before
    | refuse | bounce _ _ _ | deliver _ _ _ | take _ _ | finish _ _ _ =>
        simp [before] at closed

theorem ended_change (balances : exchange.Balances) (change : Change exchange next)
    (ended : .ended side ∈ next.log) :
    next.received side = next.sent side.other ∧
      ((next.link.atSide side).isListening = false ∨
        next.link.isOpen side.other = false ∧ next.isAwaited side.other = false) := by
  by_cases before : .ended side ∈ exchange.log
  · obtain ⟨all, nothingComes⟩ := balances.ended side before
    have nothing : side ∈ exchange.gone ∨ (exchange.link.atSide side).inbox = [] := by
      by_cases gone : side ∈ exchange.gone
      · exact .inl gone
      · have conserved := balances.present side gone
        rw [← all, List.self_eq_append_right] at conserved
        exact .inr conserved
    rw [change.received_eq nothing, change.sent_eq (nothingComes.imp_right And.right)]
    refine ⟨all, nothingComes.imp change.fades.isListening ?_⟩
    rintro ⟨stopped, unused⟩
    exact ⟨change.fades.isOpen stopped, change.isAwaited_eq_false stopped unused⟩
  · cases change with
    | @finish ender present inbox gone =>
        have same : side = ender := by simpa [before] using ended
        subst same
        refine ⟨?_, gone⟩
        have conserved := balances.present side present
        rw [inbox, List.append_nil] at conserved
        simpa [sent, received, Event.sentBy, Event.receivedBy] using conserved.symm
    | stay | begin _ _ | stop => exact absurd ended before
    | refuse | bounce _ _ _ | deliver _ _ _ | take _ _ | close _ | drop _ =>
        simp [before] at ended

theorem change (balances : exchange.Balances) (change : Change exchange next) : next.Balances where
  present _ := balances.present_change change
  gone _ := balances.gone_change change
  closed _ := balances.closed_change change
  ended _ := balances.ended_change change

end Balances

/-! ## The numbers of sends -/

/-- The number of the send that is answered. -/
def Event.number? : Event → Option Nat
  | .answered _ number _ _ => some number
  | _ => none

def IsAnswered (log : List Event) (number : Nat) : Prop :=
  ∃ event ∈ log, event.number? = some number

@[simp] theorem isAnswered_concat {log : List Event} {event : Event} {number : Nat} :
    IsAnswered (log ++ [event]) number ↔ IsAnswered log number ∨ event.number? = some number := by
  simp [IsAnswered, or_and_right, exists_or]

/-- The sends that have begun are those that are under way or answered. -/
structure Numbers (exchange : Exchange) : Prop where
  sending : ∀ sending ∈ exchange.sending, sending.number < exchange.begun
  answered : ∀ number, IsAnswered exchange.log number → number < exchange.begun
  settled : ∀ number < exchange.begun, IsAnswered exchange.log number ∨
    ∃ sending ∈ exchange.sending, sending.number = number

theorem Change.maxFrameLength_eq (change : Change exchange next) :
    next.link.maxFrameLength = exchange.link.maxFrameLength := by
  cases change with
  | stay | refuse | begin _ _ | bounce _ _ _ | finish _ _ _ => rfl
  | deliver _ _ _ | take _ _ | stop | close _ | drop _ => exact Link.maxFrameLength_modify _ _ _

theorem Numbers.new (maxFrameLength : Nat) : (new maxFrameLength).Numbers := by
  constructor <;> simp [Exchange.new, IsAnswered]

theorem Numbers.change (numbers : exchange.Numbers) (change : Change exchange next) :
    next.Numbers := by
  obtain ⟨sending, answered, settled⟩ := numbers
  cases change with
  | stay | stop => exact ⟨sending, answered, settled⟩
  | take _ _ | finish _ _ _ | close _ | drop _ =>
      exact ⟨sending, by simpa [Event.number?] using answered,
        by simpa [Event.number?] using settled⟩
  | refuse =>
      refine ⟨fun other member => Nat.lt_succ_of_lt (sending other member), ?_, ?_⟩
      · intro number known
        rw [isAnswered_concat] at known
        rcases known with known | same
        · exact Nat.lt_succ_of_lt (answered number known)
        · cases same
          exact Nat.lt_succ_self _
      · intro number begun
        rw [isAnswered_concat]
        rcases Nat.lt_succ_iff_lt_or_eq.mp begun with begun | rfl
        · exact (settled number begun).imp_left .inl
        · exact .inl (.inr rfl)
  | begin _ _ =>
      refine ⟨?_, fun number known => Nat.lt_succ_of_lt (answered number known), ?_⟩
      · intro other member
        rcases List.mem_cons.mp member with rfl | member
        · exact Nat.lt_succ_self _
        · exact Nat.lt_succ_of_lt (sending other member)
      · intro number begun
        rcases Nat.lt_succ_iff_lt_or_eq.mp begun with begun | rfl
        · refine (settled number begun).imp_right ?_
          rintro ⟨other, member, same⟩
          exact ⟨other, List.mem_cons_of_mem _ member, same⟩
        · exact .inr ⟨_, List.mem_cons_self, rfl⟩
  | @bounce ended _ member leaves _ | @deliver ended _ member leaves _ =>
      refine ⟨fun other stays => sending other (leaves.fewer stays), ?_, ?_⟩
      · intro number known
        rw [isAnswered_concat] at known
        rcases known with known | same
        · exact answered number known
        · cases same
          exact sending ended member
      · intro number begun
        rw [isAnswered_concat]
        rcases settled number begun with known | ⟨other, member, rfl⟩
        · exact .inl (.inl known)
        · by_cases same : other.number = ended.number
          · exact .inl (.inr (congrArg some same.symm))
          · exact .inr ⟨other, leaves.others other member same, rfl⟩

/-! ## After an end has closed -/

/-- One end has closed, after so many sends had begun. -/
structure HasClosed (closing : Side) (count : Nat) (exchange : Exchange) : Prop where
  stopped : exchange.link.isOpen closing = false
  deaf : (exchange.link.atSide closing).isListening = false
  begun : count ≤ exchange.begun
  late : ∀ sending ∈ exchange.sending, count ≤ sending.number → sending.side = closing.other
  refused : ∀ side number frame, .answered side number frame (.ok ()) ∈ exchange.log →
    number < count

theorem HasClosed.change {closing : Side} {count : Nat} (closed : exchange.HasClosed closing count)
    (change : Change exchange next) : next.HasClosed closing count := by
  have stopped := change.fades.isOpen closed.stopped
  have deaf := change.fades.isListening closed.deaf
  obtain ⟨wasStopped, wasDeaf, begun, late, refused⟩ := closed
  cases change with
  | stay | stop => exact ⟨stopped, deaf, begun, late, refused⟩
  | take _ _ | finish _ _ _ | close _ | drop _ =>
      exact ⟨stopped, deaf, begun, late, by simpa using refused⟩
  | refuse => exact ⟨stopped, deaf, Nat.le_succ_of_le begun, late, by simpa using refused⟩
  | begin _ isOpen =>
      refine ⟨stopped, deaf, Nat.le_succ_of_le begun, fun sending member atLeast => ?_, refused⟩
      rcases List.mem_cons.mp member with rfl | member
      · apply Side.eq_other_of_ne
        rintro rfl
        rw [wasStopped] at isOpen
        cases isOpen
      · exact late sending member atLeast
  | bounce _ leaves _ =>
      exact ⟨stopped, deaf, begun, fun sending member => late sending (leaves.fewer member),
        by simpa using refused⟩
  | @deliver sending _ member leaves listening =>
      refine ⟨stopped, deaf, begun, fun sending member => late sending (leaves.fewer member), ?_⟩
      intro side number frame answered
      rcases List.mem_append.mp answered with answered | answered
      · exact refused side number frame answered
      · cases List.mem_singleton.mp answered
        -- A later send would come from the other end, to which nothing can be sent.
        apply Nat.lt_of_not_le
        intro atLeast
        rw [late sending member atLeast, Side.other_other, wasDeaf] at listening
        cases listening

/-! ## Runs -/

/-- What every step keeps holds after a run. -/
theorem run_induction (property : Exchange → Prop)
    (keeps : ∀ {exchange next}, Change exchange next → property exchange → property next)
    (uses : List Use) (holds : property exchange) : property (exchange.run uses) := by
  induction uses generalizing exchange with
  | nil => exact holds
  | cons use rest ih => exact ih (keeps (exchange.change_step use) holds)

theorem balances_run (maxFrameLength : Nat) (uses : List Use) :
    ((new maxFrameLength).run uses).Balances :=
  run_induction Balances (fun change balances => balances.change change) uses
    (.new maxFrameLength)

theorem fades_run (exchange : Exchange) (uses : List Use) :
    exchange.link.Fades (exchange.run uses).link :=
  run_induction (fun later => exchange.link.Fades later.link)
    (fun change fades => fades.trans change.fades) uses (.refl exchange.link)

theorem numbers_run (maxFrameLength : Nat) (uses : List Use) :
    ((new maxFrameLength).run uses).Numbers :=
  run_induction Numbers (fun change numbers => numbers.change change) uses
    (.new maxFrameLength)

theorem maxFrameLength_run (exchange : Exchange) (uses : List Use) :
    (exchange.run uses).link.maxFrameLength = exchange.link.maxFrameLength :=
  run_induction (fun later => later.link.maxFrameLength = exchange.link.maxFrameLength)
    (fun change same => change.maxFrameLength_eq.trans same) uses rfl

theorem hasClosed_run {closing : Side} (balances : exchange.Balances) (numbers : exchange.Numbers)
    (closed : .closed closing ∈ exchange.log) (later : List Use) :
    (exchange.run later).HasClosed closing exchange.begun := by
  obtain ⟨stopped, deaf⟩ := balances.closed closing closed
  refine run_induction (HasClosed closing exchange.begun)
    (fun change closed => closed.change change) later
    ⟨stopped, deaf, Nat.le_refl _, fun sending member atLeast => ?_,
      fun side number frame answered => ?_⟩
  · exact absurd (numbers.sending sending member) (Nat.not_lt.mpr atLeast)
  · exact numbers.answered number ⟨_, answered, rfl⟩

/-- A frame that is too long is refused, and nothing else changes. -/
theorem step_send_of_length_lt (present : side ∉ exchange.gone)
    (tooLong : exchange.link.maxFrameLength < frame.length) :
    exchange.step (.send side frame) = { exchange with
      begun := exchange.begun + 1
      log := exchange.log ++ [.answered side exchange.begun frame
        (.error (.tooLong frame.length exchange.link.maxFrameLength))] } := by
  simp [step, Use.side?, present, send, Link.check, tooLong]

/-- What an exchange makes of the frames, in whatever order its steps come. -/
structure Delivers (maxFrameLength : Nat) (exchange : Exchange) : Prop where
  inOrder : ∀ side, exchange.received side <+: exchange.sent side.other
  complete : ∀ side, .ended side ∈ exchange.log →
    exchange.received side = exchange.sent side.other
  /-- The sends that have begun have the numbers below `begun`. -/
  settled : ∀ number, number < exchange.begun ↔ IsAnswered exchange.log number ∨
    ∃ sending ∈ exchange.sending, sending.number = number
  refuses : ∀ closing, .closed closing ∈ exchange.log →
    ∀ later side number frame result,
      .answered side number frame result ∈ (exchange.run later).log →
      exchange.begun ≤ number → ∃ fault, result = .error fault
  staysClosed : ∀ side, exchange.link.isOpen side = false →
    ∀ later, (exchange.run later).link.isOpen side = false
  rejects : ∀ side frame, side ∉ exchange.gone → maxFrameLength < frame.length →
    exchange.step (.send side frame) = { exchange with
      begun := exchange.begun + 1
      log := exchange.log ++ [.answered side exchange.begun frame
        (.error (.tooLong frame.length maxFrameLength))] }

theorem delivers_run (maxFrameLength : Nat) (uses : List Use) :
    Delivers maxFrameLength ((new maxFrameLength).run uses) := by
  have balances := balances_run maxFrameLength uses
  have numbers := numbers_run maxFrameLength uses
  have limit : ((new maxFrameLength).run uses).link.maxFrameLength = maxFrameLength :=
    maxFrameLength_run (new maxFrameLength) uses
  generalize (new maxFrameLength).run uses = exchange at balances numbers limit
  constructor
  · exact balances.received_prefix
  · exact fun side ended => (balances.ended side ended).1
  · intro number
    refine ⟨numbers.settled number, ?_⟩
    rintro (answered | ⟨sending, member, rfl⟩)
    · exact numbers.answered number answered
    · exact numbers.sending sending member
  · intro closing closed later side number frame result answered atLeast
    cases result with
    | error fault => exact ⟨fault, rfl⟩
    | ok _ =>
        have closed := hasClosed_run balances numbers closed later
        exact absurd (closed.refused side number frame answered) (Nat.not_lt.mpr atLeast)
  · exact fun side stopped later => (exchange.fades_run later).isOpen stopped
  · intro side frame present tooLong
    rw [← limit] at tooLong
    rw [step_send_of_length_lt present tooLong, limit]

/-! ## Whole operations -/

/-- A send with nothing in between is one of the link. -/
theorem exists_run_eq_send (exchange : Exchange) (present : side ∉ exchange.gone)
    (frame : Bytes) : ∃ uses, exchange.run uses = { exchange with
      link := (exchange.link.send side frame).2
      begun := exchange.begun + 1
      log := exchange.log ++
        [.answered side exchange.begun frame (exchange.link.send side frame).1] } := by
  rw [Link.send_eq]
  cases admitted : exchange.link.check side frame with
  | error fault =>
      refine ⟨[.send side frame], ?_⟩
      simp [run, step, Use.side?, present, send, admitted]
  | ok _ =>
      cases pushed : exchange.link.push side frame with
      | mk result next =>
          cases result with
          | ok _ =>
              refine ⟨[.send side frame, .push exchange.begun], ?_⟩
              simp [run, step, Use.side?, present, send, push, admitted, pushed]
          | error fault =>
              refine ⟨[.send side frame, .push exchange.begun, .stopSending side], ?_⟩
              simp [run, step, Use.side?, present, send, push, admitted, pushed]

/-- What is seen of an end that looks for a frame. -/
def looked (side : Side) : Link.Received → List Event
  | .frame content => [.received side content]
  | .closed => [.ended side]
  | .pending => []

/-- Looking for a frame with no send under way is the same as on the link. -/
theorem exists_run_eq_receive (exchange : Exchange) (present : side ∉ exchange.gone)
    (unused : exchange.isAwaited side.other = false) :
    ∃ uses, exchange.run uses = { exchange with
      link := (exchange.link.receive side).2
      log := exchange.log ++ looked side (exchange.link.receive side).1 } := by
  rw [Link.receive_eq]
  cases polled : exchange.link.poll side false with
  | mk found next =>
      cases found with
      | frame content | pending =>
          refine ⟨[.receive side], ?_⟩
          simp [run, step, Use.side?, present, receive, unused, polled, looked]
      | closed =>
          refine ⟨[.receive side, .stopSending side], ?_⟩
          simp [run, step, Use.side?, present, receive, unused, polled, looked]

/-- A close in two steps is one of the link. -/
theorem run_stopSending_close (exchange : Exchange) (present : side ∉ exchange.gone) :
    exchange.run [.stopSending side, .close side] = { exchange with
      link := exchange.link.close side
      log := exchange.log ++ [.closed side] } := by
  simp [run, step, Use.side?, present, close, Link.close_stopSending]

end Exchange

end PeerCalls
