import PeerCalls.Channel.Link

/-!
# What happens to frames on a link

A link only loses frames, unless one is sent. A frame that is sent arrives at the
other end and nowhere else, and it is not longer than the link permits.
-/

namespace PeerCalls

@[simp] theorem Side.other_other (side : Side) : side.other.other = side := by
  cases side <;> rfl

namespace Link

/-- A link carries frames of the same length as another one. -/
def IsAlike (link other : Link) : Prop := other.maxFrameLength = link.maxFrameLength

theorem IsAlike.refl (link : Link) : link.IsAlike link := rfl

theorem IsAlike.trans {first second third : Link} (left : first.IsAlike second)
    (right : second.IsAlike third) : first.IsAlike third :=
  Eq.trans right left

/-- A link after it may have lost frames and may have been closed. -/
structure Loses (before after : Link) : Prop where
  limit : after.maxFrameLength = before.maxFrameLength
  frames : ∀ {side : Side} {frame : Bytes}, frame ∈ (after.atSide side).inbox →
    frame ∈ (before.atSide side).inbox

variable {link next : Link} {side : Side} {frame : Bytes}

theorem Loses.refl (link : Link) : Loses link link := ⟨rfl, fun member => member⟩

theorem atSide_modify (link : Link) (side other : Side) (change : LinkEnd → LinkEnd) :
    (link.modify side change).atSide other =
      if other = side then change (link.atSide other) else link.atSide other := by
  cases side <;> cases other <;> rfl

theorem maxFrameLength_modify (link : Link) (side : Side) (change : LinkEnd → LinkEnd) :
    (link.modify side change).maxFrameLength = link.maxFrameLength := by
  cases side <;> rfl

theorem loses_modify {change : LinkEnd → LinkEnd}
    (loses : ∀ frame ∈ (change (link.atSide side)).inbox, frame ∈ (link.atSide side).inbox) :
    Loses link (link.modify side change) where
  limit := maxFrameLength_modify link side change
  frames {other frame} member := by
    rw [atSide_modify] at member
    split at member
    next same =>
      subst same
      exact loses frame member
    next => exact member

theorem loses_close (link : Link) (side : Side) : Loses link (link.close side) :=
  loses_modify fun _ member => member

theorem loses_drop (link : Link) (side : Side) : Loses link (link.drop side) :=
  loses_modify fun _ member => by cases member

theorem loses_stopSending (link : Link) (side : Side) : Loses link (link.stopSending side) :=
  loses_modify fun _ member => member

theorem loses_of_receive {received : Received} (taken : link.receive side = (received, next)) :
    Loses link next := by
  simp only [receive] at taken
  split at taken
  next frame rest inbox =>
    cases taken
    apply loses_modify
    intro other member
    rw [inbox]
    exact List.mem_cons_of_mem frame member
  next =>
    split at taken
    · cases taken
      exact .refl link
    · cases taken
      exact loses_stopSending link side

theorem mem_inbox_of_receive (taken : link.receive side = (.frame frame, next)) :
    frame ∈ (link.atSide side).inbox := by
  simp only [receive] at taken
  split at taken
  next inbox =>
    cases taken
    rw [inbox]
    exact List.mem_cons_self
  next =>
    split at taken <;> cases taken

/-- An end that takes a frame stays open. -/
theorem isOpen_of_receive (taken : link.receive side = (.frame frame, next)) :
    next.isOpen side = link.isOpen side := by
  simp only [receive] at taken
  split at taken
  next =>
    cases taken
    rw [isOpen, atSide_modify, if_pos rfl, isOpen]
  next =>
    split at taken <;> cases taken

theorem loses_of_send_error {fault : Fault} (failed : link.send side frame = (.error fault, next)) :
    Loses link next := by
  simp only [send] at failed
  split at failed
  · cases failed
    exact .refl link
  · split at failed
    · cases failed
      exact .refl link
    · split at failed
      · cases failed
        exact loses_stopSending link side
      · cases failed

/-- A link after a frame was sent from one end. -/
structure Takes (side : Side) (frame : Bytes) (before after : Link) : Prop where
  limit : after.maxFrameLength = before.maxFrameLength
  fits : frame.length ≤ before.maxFrameLength
  frames : ∀ {other : Side} {content : Bytes}, content ∈ (after.atSide other).inbox →
    content ∈ (before.atSide other).inbox ∨ other = side.other ∧ content = frame

theorem takes_of_send (sent : link.send side frame = (.ok (), next)) :
    Takes side frame link next := by
  simp only [send] at sent
  split at sent
  · cases sent
  next fits =>
    split at sent
    · cases sent
    · split at sent
      · cases sent
      · cases sent
        refine ⟨maxFrameLength_modify _ _ _, Nat.le_of_not_lt fits, ?_⟩
        intro other content member
        rw [atSide_modify] at member
        split at member
        next same =>
          rcases List.mem_append.mp member with old | new
          · exact Or.inl old
          · exact Or.inr ⟨same, List.mem_singleton.mp new⟩
        next => exact Or.inl member

/-- Whether a frame is sent or not, the limit stays. -/
theorem maxFrameLength_send (link : Link) (side : Side) (frame : Bytes) :
    (link.send side frame).2.maxFrameLength = link.maxFrameLength := by
  rcases sent : link.send side frame with ⟨_ | _, next⟩
  · exact (loses_of_send_error sent).limit
  · exact (takes_of_send sent).limit

end Link

end PeerCalls
