import ReliableUdp.ReliableSender

/-! Two channels that differ only in the receives parked on them, run over different transports:
every operation does the same to both and sends and hands over the same. -/
namespace ReliableUdp.ChannelTwins
open Protocol ChannelCommon ReliableChannel OrderedReceiver ReliableSender

variable {C : Type} {ordered : Bool} {W : Window}

structure SameTracking (ch ch' : Channel C ordered W) : Prop where
  id : ch'.id = ch.id
  expectedRecvSeq : ch'.expectedRecvSeq = ch.expectedRecvSeq
  receiveBuffer : ch'.receiveBuffer = ch.receiveBuffer
  recvAckTracker : ch'.recvAckTracker = ch.recvAckTracker

lemma SameTracking.refl (ch : Channel C ordered W) : SameTracking ch ch := ⟨rfl, rfl, rfl, rfl⟩

lemma SameTracking.trans {a b c : Channel C ordered W} (h : SameTracking a b)
    (h' : SameTracking b c) : SameTracking a c :=
  ⟨h'.id.trans h.id, h'.expectedRecvSeq.trans h.expectedRecvSeq,
    h'.receiveBuffer.trans h.receiveBuffer, h'.recvAckTracker.trans h.recvAckTracker⟩

lemma sameTracking_of_receiver {ch ch' : Channel C ordered W} (h : SameReceiver ch ch') :
    SameTracking ch ch' :=
  ⟨h.id, h.expectedRecvSeq, h.receiveBuffer, h.recvAckTracker⟩

lemma SameTracking.buildAck {ch ch' : Channel C ordered W} (h : SameTracking ch ch') :
    ch'.buildAck = ch.buildAck := by
  unfold Channel.buildAck
  rw [h.recvAckTracker, h.id]

/-- The channels differ at most in the queue of receives. -/
structure Twins (ch ch' : Channel C ordered W) : Prop where
  sender : SameSender ch ch'
  tracking : SameTracking ch ch'

lemma twins_recvQueue (ch : Channel C ordered W) (q : RecvQueue) :
    Twins ch { ch with recvQueue := q } :=
  ⟨⟨rfl, rfl, rfl, rfl, rfl, rfl⟩, ⟨rfl, rfl, rfl, rfl⟩⟩

lemma Twins.refl (ch : Channel C ordered W) : Twins ch ch :=
  ⟨SameSender.refl ch, SameTracking.refl ch⟩

lemma Twins.trans {a b c : Channel C ordered W} (h : Twins a b) (h' : Twins b c) : Twins a c :=
  ⟨⟨h'.sender.id.trans h.sender.id, h'.sender.retxTimeout.trans h.sender.retxTimeout,
    h'.sender.nextSeq.trans h.sender.nextSeq, h'.sender.sentPackets.trans h.sender.sentPackets,
    h'.sender.inFlightCount.trans h.sender.inFlightCount, h'.sender.cc.trans h.sender.cc⟩,
    h.tracking.trans h'.tracking⟩

lemma Twins.eq {ch ch' : Channel C ordered W} (h : Twins ch ch') :
    ch' = { ch with recvQueue := ch'.recvQueue } := by
  obtain ⟨⟨h1, h2, h3, h4, h5, h6⟩, ⟨_, h7, h8, h9⟩⟩ := h
  cases ch
  cases ch'
  simp only at h1 h2 h3 h4 h5 h6 h7 h8 h9
  subst h1 h2 h3 h4 h5 h6 h7 h8 h9
  rfl

structure Gains (io io' : Transport) (datagrams : List (List Byte))
    (completions : List Completion) : Prop where
  transmitted : transmitted io'.log = transmitted io.log ++ datagrams
  pending : io'.pending = io.pending ++ completions

lemma gains_nothing {io io' : Transport}
    (hlog : Protocol.transmitted io'.log = Protocol.transmitted io.log)
    (hpending : io'.pending = io.pending) : Gains io io' [] [] :=
  ⟨by rw [hlog, List.append_nil], by rw [hpending, List.append_nil]⟩

/-- The outstanding completions of Data packets of slot `k` are the same, up to their order. -/
def SamePending (k : ℕ) (io io' : Transport) : Prop :=
  ∀ ch sequenceNumber handler, ch.toNat = k →
    io'.pending.count (.data ch sequenceNumber handler) =
      io.pending.count (.data ch sequenceNumber handler)

lemma SamePending.trans {k : ℕ} {a b c : Transport} (h : SamePending k a b)
    (h' : SamePending k b c) : SamePending k a c :=
  fun ch sequenceNumber handler hk =>
    (h' ch sequenceNumber handler hk).trans (h ch sequenceNumber handler hk)

lemma samePending_of_eq {k : ℕ} {io io' : Transport} (h : io'.pending = io.pending) :
    SamePending k io io' := by
  intro ch sequenceNumber handler _
  rw [h]

lemma samePending_append {k : ℕ} {io io' : Transport} {completions : List Completion}
    (h : io'.pending = io.pending ++ completions)
    (hother : ∀ ch sequenceNumber handler, ch.toNat = k →
      .data ch sequenceNumber handler ∉ completions) : SamePending k io io' := by
  intro ch sequenceNumber handler hk
  rw [h, List.count_append, List.count_eq_zero_of_not_mem (hother ch sequenceNumber handler hk),
    Nat.add_zero]

section Sending
variable [CongestionCtrl C]

theorem asyncSend_twins {ch ch' : Channel C ordered W} (h : Twins ch ch') (codec : PacketCodec)
    (payload : List Byte) (handler : ℕ) (now : Time) (io io' : Transport) :
    Twins (ch.asyncSend codec payload handler now io).1
        (ch'.asyncSend codec payload handler now io').1 ∧
      ∃ datagrams completions,
        Gains io (ch.asyncSend codec payload handler now io).2 datagrams completions ∧
        Gains io' (ch'.asyncSend codec payload handler now io').2 datagrams completions := by
  rw [h.eq]
  generalize ch'.recvQueue = q
  have hpacket : ∀ cc : C, ({ ch with cc := cc, recvQueue := q } : Channel C ordered W).dataPacket
      payload = ch.dataPacket payload := fun _ => rfl
  have hpacket' : ∀ cc : C, ({ ch with cc := cc } : Channel C ordered W).dataPacket payload =
      ch.dataPacket payload := fun _ => rfl
  have hwindow : ({ ch with recvQueue := q } : Channel C ordered W).effectiveSendWindow now =
      ch.effectiveSendWindow now := rfl
  unfold Channel.asyncSend
  simp only [hwindow, hpacket, hpacket']
  split_ifs with hfull hempty
  · exact ⟨twins_recvQueue _ q, [], [], gains_nothing (by simp [transmitted]) rfl,
      gains_nothing (by simp [transmitted]) rfl⟩
  · exact ⟨twins_recvQueue _ q, [], [], gains_nothing (by simp [transmitted]) rfl,
      gains_nothing (by simp [transmitted]) rfl⟩
  · unfold Channel.storeSentPacket
    dsimp only
    cases ch.sentPackets.get (ch.dataPacket payload).seq.toNat with
    | some old =>
      exact ⟨twins_recvQueue _ q, [], [], gains_nothing (by simp [transmitted]) rfl,
        gains_nothing (by simp [transmitted]) rfl⟩
    | none =>
      exact ⟨twins_recvQueue _ q, _, _, ⟨transmitted_sendEncoded _ _ _, rfl⟩,
        ⟨transmitted_sendEncoded _ _ _, rfl⟩⟩

theorem sendCompleted_twins {ch ch' : Channel C ordered W} (h : Twins ch ch')
    (sequenceNumber : Seq) (handler : ℕ) (ec : ErrorCode) (now : Time) (io io' : Transport) :
    Twins (ch.sendCompleted sequenceNumber handler ec now io).1
      (ch'.sendCompleted sequenceNumber handler ec now io').1 := by
  rw [h.eq]
  generalize ch'.recvQueue = q
  have herase : ({ ch with recvQueue := q } : Channel C ordered W).eraseSentPacket sequenceNumber =
      { ch.eraseSentPacket sequenceNumber with recvQueue := q } := by
    unfold Channel.eraseSentPacket
    dsimp only
    cases ch.sentPackets.get sequenceNumber.toNat with
    | none => rfl
    | some sp =>
      dsimp only
      split_ifs <;> rfl
  unfold Channel.sendCompleted
  rw [herase]
  split_ifs <;> exact twins_recvQueue _ q

theorem onTick_twins {ch ch' : Channel C ordered W} (h : Twins ch ch') (now : Time)
    (io io' : Transport) : Twins (ch.onTick now io).1 (ch'.onTick now io').1 := by
  have hdue : dueAt ch' now = dueAt ch now := by
    unfold dueAt
    rw [h.sender.sentPackets]
  refine ⟨⟨h.sender.id, h.sender.retxTimeout, h.sender.nextSeq, ?_, h.sender.inFlightCount, ?_⟩,
    ⟨h.tracking.id, h.tracking.expectedRecvSeq, h.tracking.receiveBuffer,
      h.tracking.recvAckTracker⟩⟩
  · rw [onTick_map, onTick_map, h.sender.sentPackets, h.sender.retxTimeout]
  · rw [onTick_cc, onTick_cc, hdue, h.sender.cc]

lemma processAck_twins {ch ch' : Channel C ordered W} (h : Twins ch ch') (ack : Seq)
    (ackBits : AckBits) (now : Time) (io io' : Transport) :
    Twins (ch.processAck ack ackBits now io).1 (ch'.processAck ack ackBits now io').1 := by
  have hacked : ackedBy ch' ack ackBits = ackedBy ch ack ackBits := by
    unfold ackedBy
    rw [h.sender.sentPackets]
  refine ⟨⟨h.sender.id, h.sender.retxTimeout, h.sender.nextSeq, ?_, ?_, ?_⟩,
    ⟨h.tracking.id, h.tracking.expectedRecvSeq, h.tracking.receiveBuffer,
      h.tracking.recvAckTracker⟩⟩
  · rw [processAck_map, processAck_map, h.sender.sentPackets]
  · rw [processAck_inFlightCount, processAck_inFlightCount, hacked, h.sender.inFlightCount]
  · rw [(processAck_samples ch' ack ackBits now io').2,
      (processAck_samples ch ack ackBits now io).2, hacked, h.sender.cc]

end Sending

section Receiving
variable {ch ch' : Channel C ordered W} {io io' : Transport}

structure SameArrival (io io' : Transport) (r r' : Channel C ordered W × Transport) : Prop where
  tracking : SameTracking r.1 r'.1
  payloads : ∃ xs, delivered r.2.log = delivered io.log ++ xs ∧
    delivered r'.2.log = delivered io'.log ++ xs

lemma sameArrival_refl (h : SameTracking ch ch') (io io' : Transport) :
    SameArrival io io' (ch, io) (ch', io') :=
  ⟨h, [], by simp, by simp⟩

lemma SameArrival.cons {a a' : Transport} {payload : List Byte}
    {r r' : Channel C ordered W × Transport} (h : SameArrival a a' r r')
    (ha : delivered a.log = delivered io.log ++ [payload])
    (ha' : delivered a'.log = delivered io'.log ++ [payload]) : SameArrival io io' r r' := by
  obtain ⟨xs, hx, hx'⟩ := h.payloads
  refine ⟨h.tracking, payload :: xs, ?_, ?_⟩
  · rw [hx, ha, List.append_assoc]
    rfl
  · rw [hx', ha', List.append_assoc]
    rfl

lemma drainReadyPackets_tracking (h : SameTracking ch ch') (fuel : ℕ) (io io' : Transport) :
    SameArrival io io' (Channel.drainReadyPackets fuel ch io)
      (Channel.drainReadyPackets fuel ch' io') := by
  induction fuel generalizing ch ch' io io' with
  | zero => exact sameArrival_refl h io io'
  | succ fuel ih =>
    unfold Channel.drainReadyPackets
    rw [h.receiveBuffer, h.expectedRecvSeq]
    cases ch.receiveBuffer.get ch.expectedRecvSeq.toNat with
    | none => exact sameArrival_refl h io io'
    | some b =>
      dsimp only
      split_ifs with hown
      · exact sameArrival_refl h io io'
      · have hround : SameTracking (drainRound ch b.payload io) (drainRound ch' b.payload io') := by
          refine ⟨h.id, congrArg (· + 1) h.expectedRecvSeq, ?_, h.recvAckTracker⟩
          simp only [drainRound, h.receiveBuffer, h.expectedRecvSeq]
        have hrest := ih hround (ch.deliver b.payload io).2 (ch'.deliver b.payload io').2
        have hcons := hrest.cons (delivered_deliver ch b.payload io)
          (delivered_deliver ch' b.payload io')
        unfold drainRound at hcons
        rwa [h.receiveBuffer, h.expectedRecvSeq] at hcons

lemma receiveOrdered_tracking (h : SameTracking ch ch') (packet : Packet) (io io' : Transport) :
    SameArrival io io' (ch.receiveOrdered packet io) (ch'.receiveOrdered packet io') := by
  have hwindow : ch'.isInOrderedReceiveWindow packet.seq =
      ch.isInOrderedReceiveWindow packet.seq := by
    unfold Channel.isInOrderedReceiveWindow
    rw [h.expectedRecvSeq]
  unfold Channel.receiveOrdered
  rw [hwindow]
  split_ifs
  · exact sameArrival_refl h io io'
  · dsimp only
    rw [h.receiveBuffer, h.recvAckTracker]
    cases ch.receiveBuffer.get packet.seq.toNat with
    | some b =>
      refine sameArrival_refl ?_ io io'
      exact ⟨h.id, h.expectedRecvSeq, rfl, rfl⟩
    | none =>
      refine drainReadyPackets_tracking ?_ W.size io io'
      exact ⟨h.id, h.expectedRecvSeq, rfl, rfl⟩

lemma receiveUnordered_tracking (h : SameTracking ch ch') (packet : Packet) (io io' : Transport) :
    SameArrival io io' (ch.receiveUnordered packet io) (ch'.receiveUnordered packet io') := by
  have hstale : ch'.isDuplicateOrStaleUnordered packet.seq =
      ch.isDuplicateOrStaleUnordered packet.seq := by
    unfold Channel.isDuplicateOrStaleUnordered
    rw [h.recvAckTracker]
  unfold Channel.receiveUnordered
  rw [hstale, h.recvAckTracker]
  split_ifs
  · exact sameArrival_refl h io io'
  · exact ⟨⟨h.id, h.expectedRecvSeq, h.receiveBuffer, rfl⟩, [packet.payload],
      delivered_deliver _ _ _, delivered_deliver _ _ _⟩

variable [CongestionCtrl C]

theorem onRecv_tracking (h : SameTracking ch ch') {packet : Packet} (hack : packet.type ≠ .ack)
    (now : Time) (io io' : Transport) :
    SameArrival io io' (ch.onRecv packet now io) (ch'.onRecv packet now io') := by
  unfold Channel.onRecv
  rw [if_neg hack, if_neg hack]
  split_ifs
  · exact sameArrival_refl h io io'
  · exact receiveOrdered_tracking h packet io io'
  · exact receiveUnordered_tracking h packet io io'

theorem onRecv_twins (h : Twins ch ch') (packet : Packet) (now : Time) (io io' : Transport) :
    Twins (ch.onRecv packet now io).1 (ch'.onRecv packet now io').1 := by
  by_cases hack : packet.type = .ack
  · unfold Channel.onRecv
    rw [if_pos hack, if_pos hack]
    exact processAck_twins h packet.ack packet.ackBits now io io'
  · have hs := (onRecv_receiveOnly ch hack now io).sender
    have hs' := (onRecv_receiveOnly ch' hack now io').sender
    refine ⟨⟨?_, ?_, ?_, ?_, ?_, ?_⟩, (onRecv_tracking h.tracking hack now io io').tracking⟩
    · rw [hs'.id, hs.id, h.sender.id]
    · rw [hs'.retxTimeout, hs.retxTimeout, h.sender.retxTimeout]
    · rw [hs'.nextSeq, hs.nextSeq, h.sender.nextSeq]
    · rw [hs'.sentPackets, hs.sentPackets, h.sender.sentPackets]
    · rw [hs'.inFlightCount, hs.inFlightCount, h.sender.inFlightCount]
    · rw [hs'.cc, hs.cc, h.sender.cc]

end Receiving

end ReliableUdp.ChannelTwins
