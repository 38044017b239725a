import ReliableUdp.SessionMoves
import ReliableUdp.DefaultCodec
import ReliableUdp.WeightedAverage

/-! The averaged round-trip time of a session over all its channels: after any events it is the
weighted average of the samples that acknowledgements gave. -/
namespace ReliableUdp.RoundTripAverage
open Protocol ChannelCommon ReliableChannel OrderedReceiver ReliableSender Session SessionSteps
open SessionMoves WeightedAverage

section Channels
variable {C : Type} {ordered : Bool} {W : Window}

/-- The round-trip times a packet gives on a reliable channel. -/
def sampledBy (ch : Channel C ordered W) (packet : Packet) (now : Time) : List ℚ :=
  if packet.type = .ack then
    ((ackedBy ch packet.ack packet.ackBits).filter fun sp => decide (sp.retxCount = 0)).map
      fun sp => (rttUs now sp : ℚ)
  else []

lemma updateRttEstimate_eq (rttUs : ℚ) (stats : SocketStats) :
    (Channel.updateRttEstimate rttUs stats).avgRttUs = smooth (1 / 8) stats.avgRttUs rttUs := by
  unfold Channel.updateRttEstimate smooth
  norm_num

lemma receiveOrdered_average (ch : Channel C ordered W) (packet : Packet) (io : Transport) :
    (ch.receiveOrdered packet io).2.stats.avgRttUs = io.stats.avgRttUs :=
  receiveOrdered_invariant (P := fun _ io' => io'.stats.avgRttUs = io.stats.avgRttUs)
    (fun _ _ _ _ h => h) (fun _ _ _ h => h) packet rfl

variable [CongestionCtrl C]

theorem reliable_onRecv_average (ch : Channel C ordered W) (packet : Packet) (now : Time)
    (io : Transport) : (ch.onRecv packet now io).2.stats.avgRttUs =
      average (1 / 8) io.stats.avgRttUs (sampledBy ch packet now) := by
  unfold Channel.onRecv sampledBy
  split_ifs with hack hdata hordered
  · rw [(processAck_samples ch packet.ack packet.ackBits now io).1, average, List.foldl_map]
    exact (List.foldl_hom SocketStats.avgRttUs fun stats sp =>
      (updateRttEstimate_eq (rttUs now sp) stats).symm).symm
  · rfl
  · exact receiveOrdered_average ch packet io
  · unfold Channel.receiveUnordered
    split_ifs <;> rfl

end Channels

section Session
variable {O U : Type}

def measuredOn (packet : Packet) (now : Time) : ChannelVar O U → List ℚ
  | .unreliable _ => []
  | .ordered _ ch => sampledBy ch packet now
  | .unordered _ ch => sampledBy ch packet now

lemma measuredOn_of_not_forChannel {packet : Packet} (h : ¬ ForChannel packet) (now : Time)
    (c : ChannelVar O U) : measuredOn packet now c = [] := by
  have hack : packet.type ≠ .ack := by
    intro hack
    refine h ?_
    unfold ForChannel
    rw [hack]
    decide
  cases c <;> simp [measuredOn, sampledBy, hack]

def measured (codec : PacketCodec) (s : BasicSession O U) : Event → List ℚ
  | .onSocketRecv ec sender datagram now =>
    if s.receiving = true ∧ s.closed = false ∧ ec.failed = false ∧ sender = s.io.remote then
      match codec.decode datagram with
      | .error _ => []
      | .ok packet => (s.channel? packet.channel).elim [] (measuredOn packet now)
    else []
  | _ => []

lemma sendPacket_average (codec : PacketCodec) (s : BasicSession O U) (packet : Packet) :
    (s.sendPacket codec packet).io.stats = s.io.stats := by
  unfold BasicSession.sendPacket
  dsimp only
  split_ifs <;> rfl

variable [CongestionCtrl O] [CongestionCtrl U] (codec : PacketCodec)

lemma onRecv_average (c : ChannelVar O U) (packet : Packet) (now : Time) (io : Transport) :
    (c.onRecv packet now io).2.stats.avgRttUs =
      average (1 / 8) io.stats.avgRttUs (measuredOn packet now c) := by
  cases c with
  | unreliable ch =>
    simp only [ChannelVar.onRecv, UnreliableChannel.Channel.onRecv]
    split_ifs <;> rfl
  | ordered W ch => exact reliable_onRecv_average ch packet now io
  | unordered W ch => exact reliable_onRecv_average ch packet now io

lemma call_average (c : ChannelVar O U) (io : Transport) {call : Call}
    (h : ∀ packet now, call ≠ .onRecv packet now) :
    (call.run codec c io).2.stats.avgRttUs = io.stats.avgRttUs := by
  have hsend : ∀ {C : Type} [CongestionCtrl C] {ordered : Bool} {W : Window}
      (ch : Channel C ordered W) (payload : List Byte) (handler : ℕ) (now : Time),
      (ch.asyncSend codec payload handler now io).2.stats.avgRttUs = io.stats.avgRttUs := by
    intro C _ ordered W ch payload handler now
    unfold Channel.asyncSend
    dsimp only
    split_ifs
    · rfl
    · rfl
    · split <;> rfl
  have hcompleted : ∀ {C : Type} [CongestionCtrl C] {ordered : Bool} {W : Window}
      (ch : Channel C ordered W) (sequenceNumber : Seq) (handler : ℕ) (ec : ErrorCode) (now : Time),
      (ch.sendCompleted sequenceNumber handler ec now io).2.stats.avgRttUs =
        io.stats.avgRttUs := by
    intro C _ ordered W ch sequenceNumber handler ec now
    unfold Channel.sendCompleted
    split_ifs <;> rfl
  have htick : ∀ {C : Type} [CongestionCtrl C] {ordered : Bool} {W : Window}
      (ch : Channel C ordered W) (now : Time),
      (ch.onTick now io).2.stats.avgRttUs = io.stats.avgRttUs := by
    intro C _ ordered W ch now
    have hfold := congrArg Prod.snd (onTick_fold ch now io)
    rw [hfold]
    exact List.foldlRecOn _ (resend now)
      (motive := fun acc : C × Transport => acc.2.stats.avgRttUs = io.stats.avgRttUs) rfl
      fun _ hacc _ _ => hacc
  cases call with
  | asyncSend payload handler now =>
    cases c with
    | unreliable ch =>
      simp only [Call.run, ChannelVar.asyncSend, UnreliableChannel.Channel.asyncSend]
      split_ifs <;> rfl
    | ordered W ch => exact hsend ch payload handler now
    | unordered W ch => exact hsend ch payload handler now
  | sendCompleted sequenceNumber handler ec now =>
    cases c with
    | unreliable ch => rfl
    | ordered W ch => exact hcompleted ch sequenceNumber handler ec now
    | unordered W ch => exact hcompleted ch sequenceNumber handler ec now
  | asyncRecv buf handler => simp only [Call.run, (variant_asyncRecv c buf handler io).2,
      Transport.emit_stats]
  | onTick now =>
    cases c with
    | unreliable ch => rfl
    | ordered W ch => exact htick ch now
    | unordered W ch => exact htick ch now
  | onRecv packet now => exact absurd rfl (h packet now)
  | flush =>
    simp only [Call.run, variant_flush]
    rfl
  | close reason => simp only [Call.run, (variant_close c reason io).2, Transport.emit_stats]

lemma step_average_of_quiet (s : BasicSession O U) (e : Event)
    (h : ∀ ec datagram now packet, e = .onSocketRecv ec s.io.remote datagram now →
      s.closed = false → ec.failed = false → codec.decode datagram = .ok packet →
      ¬ ForChannel packet) : (s.step codec e).io.stats.avgRttUs = s.io.stats.avgRttUs := by
  refine step_keeps codec (P := fun t => t.io.stats.avgRttUs = s.io.stats.avgRttUs) ?_ rfl
  intro t t' ht hmove
  cases hmove with
  | call k hk c hc call cause =>
    refine (call_average codec c t.io ?_).trans ht
    rintro packet now rfl
    cases cause with
    | onRecv ec datagram _ _ hopen hec hdec htype =>
      exact h ec datagram now packet rfl hopen hec hdec htype
  | send packet completion hown hne => exact ht
  | report effect hreport => exact ht
  | bookkeeping _ hbook =>
    rw [hbook.stats]
    exact ht

lemma channelPacket_average (s : BasicSession O U) (packet : Packet) (now : Time) :
    (s.channelPacket codec packet now).io.stats.avgRttUs = average (1 / 8) s.io.stats.avgRttUs
      ((s.channel? packet.channel).elim [] (measuredOn packet now)) := by
  unfold BasicSession.channelPacket
  cases s.channel? packet.channel with
  | none => rfl
  | some c =>
    have hrecv := onRecv_average c packet now s.io
    dsimp only
    split_ifs
    · exact hrecv
    · cases (c.onRecv packet now s.io).1.buildAck with
      | none => exact hrecv
      | some ack =>
        dsimp only
        rw [sendPacket_average]
        exact hrecv

theorem step_average (s : BasicSession O U) (e : Event) : (s.step codec e).io.stats.avgRttUs =
    average (1 / 8) s.io.stats.avgRttUs (measured codec s e) := by
  by_cases hheard : ∃ ec datagram now packet, e = .onSocketRecv ec s.io.remote datagram now ∧
      s.receiving = true ∧ s.closed = false ∧ ec.failed = false ∧
      codec.decode datagram = .ok packet ∧ ForChannel packet
  · obtain ⟨ec, datagram, now, packet, rfl, hreceiving, hopen, hec, hdec, hfor⟩ := hheard
    obtain ⟨hd, hk, hi, ha⟩ := hfor
    have hpacket := channelPacket_average codec
      { s with receiving := false, lastRecv := now } packet now
    have hsamples : measured codec s (.onSocketRecv ec s.io.remote datagram now) =
        (s.channel? packet.channel).elim [] (measuredOn packet now) := by
      simp only [measured, hreceiving, hopen, hec, hdec, and_self, if_true]
    rw [hsamples]
    simp only [BasicSession.step]
    unfold BasicSession.onSocketRecv BasicSession.handlePacket
    rw [if_neg (by simp [hreceiving]), hdec]
    dsimp only
    rw [if_neg (by simp [hopen]), if_neg (by simp [hec]), if_pos rfl, if_neg hd, if_neg hk,
      if_neg hi, if_neg ha]
    split_ifs <;> exact hpacket
  · have hnone : measured codec s e = [] := by
      cases e with
      | onSocketRecv ec sender datagram now =>
        simp only [measured]
        split_ifs with hcond
        · obtain ⟨hreceiving, hopen, hec, rfl⟩ := hcond
          cases hdec : codec.decode datagram with
          | error err => rfl
          | ok packet =>
            have hfor : ¬ ForChannel packet := fun hfor =>
              hheard ⟨ec, datagram, now, packet, rfl, hreceiving, hopen, hec, hdec, hfor⟩
            cases hc : s.channel? packet.channel with
            | none => simp [hc]
            | some c => simp [hc, measuredOn_of_not_forChannel hfor]
        · rfl
      | _ => rfl
    rw [hnone]
    by_cases hidle : s.receiving = true
    · refine step_average_of_quiet codec s e ?_
      intro ec datagram now packet he hopen hec hdec hfor
      exact hheard ⟨ec, datagram, now, packet, he, hidle, hopen, hec, hdec, hfor⟩
    · cases e with
      | onSocketRecv ec sender datagram now =>
        simp only [BasicSession.step]
        unfold BasicSession.onSocketRecv
        rw [if_pos (by simpa using hidle)]
        rfl
      | _ => exact step_average_of_quiet codec s _ fun _ _ _ _ he => by cases he

def samples (s : BasicSession O U) : List Event → List ℚ
  | [] => []
  | e :: events => measured codec s e ++ samples (s.step codec e) events

theorem run_average (s : BasicSession O U) (events : List Event) :
    (events.foldl (BasicSession.step codec) s).io.stats.avgRttUs =
      average (1 / 8) s.io.stats.avgRttUs (samples codec s events) := by
  induction events generalizing s with
  | nil => rfl
  | cons e events ih => rw [List.foldl_cons, ih, step_average, samples, average_append]

/-- Whatever happens to a session, the averaged round-trip time is the weighted average of its
samples in order: while they lie in a range, each of them shrinks the distance to this range to
seven eighths, and an average that starts with them never leaves the range. -/
theorem average_follows_samples (s : BasicSession O U) (events : List Event) (lo hi : ℚ)
    (h : ∀ x ∈ samples codec s events, lo ≤ x ∧ x ≤ hi) :
    (events.foldl (BasicSession.step codec) s).io.stats.avgRttUs =
        average (1 / 8) s.io.stats.avgRttUs (samples codec s events) ∧
      gap lo hi (events.foldl (BasicSession.step codec) s).io.stats.avgRttUs ≤
        (7 / 8) ^ (samples codec s events).length * gap lo hi s.io.stats.avgRttUs ∧
      (s.io.stats.avgRttUs = 0 → samples codec s events ≠ [] →
        lo ≤ (events.foldl (BasicSession.step codec) s).io.stats.avgRttUs ∧
          (events.foldl (BasicSession.step codec) s).io.stats.avgRttUs ≤ hi) := by
  rw [run_average]
  refine ⟨rfl, ?_, ?_⟩
  · have hgap := gap_average (w := 1 / 8) (by norm_num) (by norm_num) h s.io.stats.avgRttUs
    norm_num at hgap ⊢
    exact hgap
  · intro hstart hne
    rw [hstart]
    exact average_within (by norm_num) (by norm_num) h hne

end Session

/-- Two messages are acknowledged after five and nine milliseconds. -/
def pingRun : List Event :=
  [.start ⟨1, 7#16⟩ 0, .asyncSend 0 [7#8] 0 0,
    .onSocketRecv .none ⟨1, 7#16⟩ (DefaultCodec.defaultCodec.encodePacket { type := .ack })
      (milliseconds 5),
    .asyncSend 0 [8#8] 1 (milliseconds 10),
    .onSocketRecv .none ⟨1, 7#16⟩ (DefaultCodec.defaultCodec.encodePacket { type := .ack, ack := 1 })
      (milliseconds 19)]

def pingStart : BasicSession Null Null := BasicSession.create {} ⟨⟩ ⟨⟩

theorem average_follows_samples_ping :
    samples DefaultCodec.defaultCodec.toPacketCodec pingStart pingRun = [5000, 9000] ∧
      (pingRun.foldl (BasicSession.step DefaultCodec.defaultCodec.toPacketCodec)
        pingStart).io.stats.avgRttUs = 5500 ∧
      5000 ≤ (pingRun.foldl (BasicSession.step DefaultCodec.defaultCodec.toPacketCodec)
        pingStart).io.stats.avgRttUs ∧
      (pingRun.foldl (BasicSession.step DefaultCodec.defaultCodec.toPacketCodec)
        pingStart).io.stats.avgRttUs ≤ 9000 := by
  have hsamples : samples DefaultCodec.defaultCodec.toPacketCodec pingStart pingRun =
      [5000, 9000] := by decide +kernel
  have hrange : ∀ x ∈ samples DefaultCodec.defaultCodec.toPacketCodec pingStart pingRun,
      5000 ≤ x ∧ x ≤ 9000 := by
    rw [hsamples]
    norm_num
  obtain ⟨haverage, _, hwithin⟩ := average_follows_samples DefaultCodec.defaultCodec.toPacketCodec
    pingStart pingRun 5000 9000 hrange
  refine ⟨hsamples, ?_, hwithin rfl (by simp [hsamples])⟩
  have hstart : pingStart.io.stats.avgRttUs = 0 := rfl
  rw [haverage, hsamples, hstart]
  norm_num [average, smooth]

end ReliableUdp.RoundTripAverage
