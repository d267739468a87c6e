import PeerCalls.Proofs.Channel.Fitting
import PeerCalls.Proofs.Network.Endings

/-!
# Channels send what fits their links

In no run does a channel hand a call to its link that is too long. Such a call fails at once
instead, and it is with this failure that it ends. A reply that is too long is replaced by a
failure, and here is the only frame that a link may refuse for its length: that failure has
more than 80 bytes, and nothing checks whether the link takes as many.
-/

namespace PeerCalls.Network

variable {network before after : Network} {happening : Happening} {channel limit : Nat}
  {place later : ChannelPlace}

/-- The link of a channel has this limit and no other, if it is there. -/
def Permits (network : Network) (place : ChannelPlace) (limit : Nat) : Prop :=
  ∀ link, network.links[place.link]? = some link → link.maxFrameLength = limit

/-- A link that is there keeps its limit, so what is permitted now was permitted before. -/
theorem KeepsPlaces.permits (keeps : KeepsPlaces before after) (same : later.link = place.link)
    (permits : after.Permits later limit) : before.Permits place limit := by
  intro link found
  obtain ⟨now, foundNow, alike⟩ := keeps.links.kept found
  exact alike.symm.trans (permits now (same ▸ foundNow))

/-- Every channel sends what fits, or a failure instead, and every call that is too long has
ended with a failure. -/
structure Fits (network : Network) : Prop where
  channels : ∀ {channel limit : Nat} {place : ChannelPlace},
    network.channels[channel]? = some place → network.Permits place limit →
      place.channel.SendsWithin limit
  logged : network.LogsChannels
  ended : ∀ {channel limit : Nat} {place : ChannelPlace} {call : Call} {reply : Reply},
    network.channels[channel]? = some place → network.Permits place limit →
      .ended channel call reply ∈ network.events → limit < call.invocation.encode.length →
        ∃ message, reply = .failure call.id .other message

namespace Fits

/-- What a turn sends fits as well. -/
theorem turn (fits : network.Fits) {station : Station} {next : Station × List Report}
    (found : network.channels[channel]? = some place) (permits : network.Permits place limit)
    (there : network.station? channel = some station) (turn : station.Turn next.1 next.2) :
    next.1.channel.SendsWithin limit ∧ ∀ call reply, .ended call reply ∈ next.2 →
      limit < call.invocation.encode.length →
        ∃ message, reply = .failure call.id .other message := by
  obtain ⟨other, _, _, link, foundOther, _, _, foundLink, rfl⟩ := station?_eq_some_iff.mp there
  cases foundOther.symm.trans found
  exact turn.sendsWithin (permits link foundLink) (fits.channels found permits)

theorem takes (fits : before.Fits) (takes : Takes before happening after)
    (awake : happening.sleeps = false) : after.Fits where
  channels {channel limit place} found permits := by
    have keeps := takes.keepsPlaces awake
    rcases Grows.cases keeps.channels found with ⟨old, foundOld, goes⟩ | ⟨_, contact, side, isNew⟩
    · have permitted := keeps.permits goes.link permits
      have sends := fits.channels foundOld permitted
      cases goes with
      | stays stays =>
          rcases stays.channel with same | stopped
          · exact same ▸ sends
          · exact stopped ▸ sends.stop
      | turns foundTurning there turn => exact (fits.turn foundTurning permitted there turn).1
      | replies => exact sends.of_eq rfl rfl
    · have starts := Channel.SendsWithin.start limit contact side
      rcases isNew with started | started
      · exact started ▸ starts
      · exact started ▸ starts.stop
  logged := fits.logged.takes takes awake
  ended found permits ended long := by
    have keeps := takes.keepsPlaces awake
    obtain ⟨others, events, reported⟩ := takes.events awake
    -- Whoever has reported an end was there before, and so was its link.
    have earlier {channel : Nat} {place : ChannelPlace}
        (found : after.channels[channel]? = some place) (size : channel < before.channels.size) :
        ∃ old, before.channels[channel]? = some old ∧ place.link = old.link := by
      rcases Grows.cases keeps.channels found with ⟨old, foundOld, goes⟩ | ⟨missing, _⟩
      · exact ⟨old, foundOld, goes.link⟩
      · simp [size] at missing
    rw [events, List.mem_append] at ended
    rcases ended with told | tells
    · obtain ⟨old, foundOld, same⟩ := earlier found (fits.logged told)
      exact fits.ended foundOld (keeps.permits same permits) told long
    · have reports := reported _ _ _ tells
      obtain ⟨old, foundOld, same⟩ := earlier found reports.lt_size
      obtain ⟨station, next, there, turn, told⟩ := reports
      exact (fits.turn foundOld (keeps.permits same permits) there turn).2 _ _ told long

theorem happen (fits : network.Fits) (happening : Happening) : (network.happen happening).Fits :=
  happen_preserves (fun takes awake fits => fits.takes takes awake) fits happening

theorem run (fits : network.Fits) (happenings : List Happening) : (network.run happenings).Fits :=
  (obeys_true network happenings).preserves (fun _ happening _ fits => fits.happen happening) fits

/-- A channel with all that it works on sends what fits the link. -/
theorem of_station (fits : network.Fits) {station : Station}
    (there : network.station? channel = some station) :
    station.channel.SendsWithin station.link.maxFrameLength ∧
      ∃ place, network.channels[channel]? = some place ∧
        network.Permits place station.link.maxFrameLength := by
  obtain ⟨place, _, _, link, found, _, _, foundLink, rfl⟩ := station?_eq_some_iff.mp there
  have permits : network.Permits place link.maxFrameLength := fun other foundOther =>
    congrArg _ (Option.some.inj (foundOther.symm.trans foundLink))
  exact ⟨fits.channels found permits, place, found, permits⟩

end Fits

theorem fits_empty : empty.Fits where
  channels found := by cases found
  logged _ _ _ member := by cases member
  ended found := by cases found

/-- What the channels of a network send, and how they go on, as the limits of their links
permit. -/
structure SendsWhatFits (network : Network) : Prop where
  /-- A call that is sent fits. -/
  call : ∀ {channel : Nat} {station : Station} {frame : Bytes},
    network.station? channel = some station → station.channel.sender = .sendingCall frame →
      frame.length ≤ station.link.maxFrameLength
  /-- A reply is sent as it is if it fits, and as a failure otherwise, which may not fit. -/
  reply : ∀ {channel : Nat} {station : Station} {frame : Bytes},
    network.station? channel = some station → station.channel.sender = .sendingReply frame →
      ∃ reply : Reply, frame = reply.frameWithin station.link.maxFrameLength ∧
        (frame.length ≤ station.link.maxFrameLength ↔
          reply.encode.length ≤ station.link.maxFrameLength ∨
            80 + (toString reply.encode.length).utf8ByteSize ≤ station.link.maxFrameLength)
  /-- What comes into the hands of a channel are the replies and calls that are to be sent, and
  a channel does not end because of the length of a frame, unless it is that of a failure. -/
  step : ∀ {channel : Nat} {station : Station} {drops : Bool} {next : Station × List Report},
    network.station? channel = some station → station.sendStep drops = some next →
      station.Leads next.1
  /-- A call that is too long ends with a failure. -/
  ended : ∀ {channel : Nat} {station : Station} {call : Call} {reply : Reply},
    network.station? channel = some station → .ended channel call reply ∈ network.events →
      station.link.maxFrameLength < call.invocation.encode.length →
        ∃ message, reply = .failure call.id .other message
  /-- A call that is too long lets others pass. -/
  skips : ∀ {channel : Nat} {station : Station},
    network.station? channel = some station → station.IsConnected →
      (∀ frame ∈ station.replyFrames, frame.length ≤ station.link.maxFrameLength) →
        station.SkipsLongHeads

/-- Whatever happens, calls that are too long for a link are not sent but end with a failure
and let others pass, and replies that are too long are replaced by a failure. If that does
not fit either, the channel ends. -/
theorem sendsWhatFits_run (happenings : List Happening) :
    (empty.run happenings).SendsWhatFits := by
  have fits := fits_empty.run happenings
  constructor
  · intro channel station frame there sending
    exact (fits.of_station there).1.call frame sending
  · intro channel station frame there sending
    obtain ⟨reply, rfl⟩ := (fits.of_station there).1.reply frame sending
    exact ⟨reply, rfl, Reply.length_frameWithin_le_iff⟩
  · intro channel station drops next there stepped
    exact Station.leads_sendStep (fits.of_station there).1 stepped
  · intro channel station call reply there ended long
    obtain ⟨place, found, permits⟩ := (fits.of_station there).2
    exact fits.ended found permits ended long
  · intro channel station _ connected fitting
    exact connected.skipsLongHeads fitting

/-- Every frame in the hands of a channel fits its link. -/
def HoldsWhatFits (network : Network) : Prop :=
  ∀ channel station frame, network.station? channel = some station → station.Holds frame →
    frame.length ≤ station.link.maxFrameLength

/-- A call arrives on a link that takes 60 bytes at most, and its reply has more than 100. -/
def longReply : List Happening :=
  [.addOutbox .server none Settings.standard, .addAnswers 10, .addLink 60,
    .startChannel ⟨.server, none⟩ .left 0 0 0 fun _ _ => ⟨⟨0⟩, .value (List.replicate 100 7)⟩,
    .act (.send 0 .right (Invocation.encode ⟨5, "Long", []⟩)), .move (.receive 0),
    .move (.execute 0), .move (.execute 0), .move (.send 0 false)]

/-- The failure instead of the reply is in hand, but it does not fit. Both ends of the link
are there, and the channel ends nevertheless. -/
theorem not_holdsWhatFits_longReply :
    ¬ (empty.run longReply).HoldsWhatFits ∧
    ∃ station next, (empty.run longReply).station? 0 = some station ∧ station.IsConnected ∧
      station.sendStep false = some next ∧ next.1.channel.sender = .ended := by
  let failure : Reply :=
    .failure 5 .remoteException "result of 115 bytes exceeds the maximum frame length"
  have facts : ((empty.run longReply).station? 0).any fun station =>
      station.channel.sender = .sendingReply failure.encode ∧
        station.link.maxFrameLength < failure.encode.length ∧
        station.channel.isStopped = false ∧ station.isLinkOpen = true ∧
        (station.link.atSide station.channel.side.other).isListening = true ∧
        (station.sendStep false).any fun next => next.1.channel.sender = .ended := by
    decide +kernel
  obtain ⟨station, there, facts⟩ := (Option.any_eq_true _ _).mp facts
  obtain ⟨sending, long, running, isOpen, isHeard, ends⟩ := of_decide_eq_true facts
  obtain ⟨next, stepped, ended⟩ := (Option.any_eq_true _ _).mp ends
  refine ⟨fun holds => ?_, station, next, there, ⟨running, isOpen, isHeard⟩, stepped,
    of_decide_eq_true ended⟩
  exact absurd (holds 0 station _ there (Or.inl sending)) (Nat.not_le.mpr long)

end PeerCalls.Network
