import ReliableUdp.SenderRun

/-! The calls a reliable channel makes of its congestion controller: sends ask for the window,
failed sends and ticks report losses, acknowledgements report packets. -/
namespace ReliableUdp.ControllerCalls
open Protocol ReliableChannel ReliableSender SenderRun

def reading : Event → Option Time
  | .asyncSend _ _ now => some now
  | .sendCompleted _ _ now => some now
  | .onTick now => some now
  | .flush => none
  | .onRecv _ now => some now

variable {C : Type} [CongestionCtrl C] {ordered : Bool} {W : Window} {P : C → Prop} {now : Time}

lemma asyncSend_cc (ch : Channel C ordered W) (codec : PacketCodec) (payload : List Byte)
    (handler : ℕ) (now : Time) (io : Transport) :
    (ch.asyncSend codec payload handler now io).1.cc =
      (CongestionCtrl.sendWindow ch.cc now).2 := by
  unfold Channel.asyncSend Channel.effectiveSendWindow Channel.storeSentPacket
  dsimp only
  split_ifs
  · rfl
  · rfl
  · cases ch.sentPackets.get _ <;> rfl

lemma sendCompleted_cc (ch : Channel C ordered W) (sequenceNumber : Seq) (handler : ℕ)
    (ec : ErrorCode) (now : Time) (io : Transport) :
    (ch.sendCompleted sequenceNumber handler ec now io).1.cc =
      if ec.failed then CongestionCtrl.onLoss ch.cc now sequenceNumber else ch.cc := by
  have herase : (ch.eraseSentPacket sequenceNumber).cc = ch.cc := by
    unfold Channel.eraseSentPacket
    cases ch.sentPackets.get sequenceNumber.toNat with
    | none => rfl
    | some sp =>
      dsimp only
      split_ifs <;> rfl
  unfold Channel.sendCompleted
  split_ifs
  · dsimp only
    rw [herase]
  · rfl

lemma onRecv_cc (ch : Channel C ordered W) (packet : Packet) (now : Time) (io : Transport) :
    (ch.onRecv packet now io).1.cc =
      if packet.type = .ack then (ackedBy ch packet.ack packet.ackBits).foldl
        (fun cc sp => CongestionCtrl.onAck cc now sp.sequenceNumber (rttUs now sp)) ch.cc
      else ch.cc := by
  by_cases hack : packet.type = .ack
  · rw [if_pos hack, Channel.onRecv, if_pos hack]
    exact (processAck_samples ch packet.ack packet.ackBits now io).2
  · rw [if_neg hack]
    exact (onRecv_receiveOnly ch hack now io).sender.cc

structure KeptBySending (P : C → Prop) (now : Time) : Prop where
  onLoss : ∀ cc sequenceNumber, P cc → P (CongestionCtrl.onLoss cc now sequenceNumber)
  sendWindow : ∀ cc, P cc → P (CongestionCtrl.sendWindow cc now).2

structure Kept (P : C → Prop) (now : Time) : Prop extends KeptBySending P now where
  onAck : ∀ cc sequenceNumber rttUs, P cc → P (CongestionCtrl.onAck cc now sequenceNumber rttUs)

theorem KeptBySending.step (codec : PacketCodec) {s : SendRun C ordered W} (hcc : P s.channel.cc)
    {e : Event} (he : ∀ packet now, e ≠ .onRecv packet now)
    (h : ∀ now, reading e = some now → KeptBySending P now) : P (s.step codec e).channel.cc := by
  cases e with
  | asyncSend payload handler now =>
    simp only [SendRun.step, SendRun.asyncSend, asyncSend_cc]
    exact (h now rfl).sendWindow _ hcc
  | sendCompleted position ec now =>
    simp only [SendRun.step, SendRun.sendCompleted]
    split
    · dsimp only
      rw [sendCompleted_cc]
      split_ifs
      · exact (h now rfl).onLoss _ _ hcc
      · exact hcc
    · exact hcc
  | onTick now =>
    simp only [SendRun.step, SendRun.onTick, onTick_cc]
    exact List.foldlRecOn _ _ hcc fun cc hcc seq _ => (h now rfl).onLoss cc seq hcc
  | flush => exact hcc
  | onRecv packet now => exact absurd rfl (he packet now)

theorem Kept.step (codec : PacketCodec) {s : SendRun C ordered W} (hcc : P s.channel.cc) {e : Event}
    (h : ∀ now, reading e = some now → Kept P now) : P (s.step codec e).channel.cc := by
  cases e with
  | onRecv packet now =>
    simp only [SendRun.step, SendRun.onRecv, onRecv_cc]
    split_ifs
    · exact List.foldlRecOn _ _ hcc fun cc hcc sp _ => (h now rfl).onAck cc _ _ hcc
    · exact hcc
  | asyncSend payload handler now =>
    exact KeptBySending.step codec hcc (by simp) fun now hn => (h now hn).toKeptBySending
  | sendCompleted position ec now =>
    exact KeptBySending.step codec hcc (by simp) fun now hn => (h now hn).toKeptBySending
  | onTick now =>
    exact KeptBySending.step codec hcc (by simp) fun now hn => (h now hn).toKeptBySending
  | flush => exact hcc

end ReliableUdp.ControllerCalls
