import ReliableUdp.ChannelCommon
import ReliableUdp.SlotTable

/-! The reliable channel, ordered or unordered: send window with retransmission store,
acknowledgement processing and the two receive paths. Every reading of the clock within
one call is the argument `now`. -/
namespace ReliableUdp.ReliableChannel
open Protocol ChannelCommon

/-- What a reliable channel calls on its congestion controller. -/
class CongestionCtrl (C : Type) where
  onAck : C → Time → Seq → ℕ → C
  onLoss : C → Time → Seq → C
  sendWindow : C → Time → ℕ × C

/-- The controller without state that admits every packet. -/
structure Null where
  deriving DecidableEq, Repr

instance : CongestionCtrl Null where
  onAck cc _ _ _ := cc
  onLoss cc _ _ := cc
  sendWindow cc _ := (2 ^ 64 - 1, cc)

/-- A configured window after `normalizeWindow`. -/
structure Window where
  size : ℕ
  pos : 0 < size
  le_max : size ≤ 32768
  deriving DecidableEq

def kAckHistorySize : ℕ := 32
def kMaxWindowSize : ℕ := 32768

def normalizeWindow (configuredWindow : BitVec 16) : Window :=
  if h : configuredWindow = 0 then ⟨1, by omega, by omega⟩
  else ⟨min configuredWindow.toNat kMaxWindowSize,
    lt_min (Nat.pos_of_ne_zero fun hz => h (BitVec.eq_of_toNat_eq hz)) (by decide),
    min_le_right _ _⟩

structure ReliableChannelConfig where
  id : Byte := 0
  sendWindow : BitVec 16 := 128
  retxTimeoutMs : BitVec 32 := 200
  deriving DecidableEq, Repr

structure SentPacket where
  sequenceNumber : Seq
  encodedPacket : List Byte
  sendTime : Time
  nextRetx : Time
  retxCount : BitVec 32 := 0
  deriving DecidableEq, Repr

structure BufferedPacket where
  sequenceNumber : Seq
  payload : List Byte
  deriving DecidableEq, Repr

/-- The window never changes after construction, so it is part of the type and sizes both
tables, which `slotIndex` addresses by sequence number modulo the window. Timeouts are in
milliseconds. -/
structure Channel (C : Type) (ordered : Bool) (W : Window) where
  id : Byte := 0
  retxTimeout : ℕ := 200
  nextSeq : Seq := 0
  expectedRecvSeq : Seq := 0
  sentPackets : SlotTable SentPacket W.size := SlotTable.empty _ _
  inFlightCount : ℕ := 0
  receiveBuffer : SlotTable BufferedPacket W.size := SlotTable.empty _ _
  recvAckTracker : ReceiveAckTracker := {}
  recvQueue : RecvQueue := {}
  cc : C

def milliseconds (n : ℕ) : Time := 1000000 * n

namespace Channel

variable {C : Type} {ordered : Bool} {W : Window}

def create (cfg : ReliableChannelConfig) (cc : C) :
    Channel C ordered (normalizeWindow cfg.sendWindow) :=
  { id := cfg.id
    retxTimeout := if cfg.retxTimeoutMs = 0 then 200 else cfg.retxTimeoutMs.toNat
    cc := cc }

/-- `effectiveSendWindow`, with the controller after the query. -/
def effectiveSendWindow [CongestionCtrl C] (ch : Channel C ordered W) (now : Time) : ℕ × C :=
  let r := CongestionCtrl.sendWindow ch.cc now
  (max 1 (min W.size r.1), r.2)

def attachAck (ch : Channel C ordered W) (packet : Packet) : Packet :=
  if ch.recvAckTracker.hasReceived then
    { packet with
      ack := ch.recvAckTracker.latestSequence
      ackBits := ch.recvAckTracker.ackBits }
  else packet

def dataPacket (ch : Channel C ordered W) (payload : List Byte) : Packet :=
  ch.attachAck { type := .data, seq := ch.nextSeq, channel := ch.id, payload := payload }

/-- Fails when the slot is occupied. -/
def storeSentPacket (ch : Channel C ordered W) (sequenceNumber : Seq) (encodedPacket : List Byte)
    (now : Time) : Option (Channel C ordered W) :=
  match ch.sentPackets.get sequenceNumber.toNat with
  | some _ => none
  | none => some { ch with
      sentPackets := ch.sentPackets.set sequenceNumber.toNat (some {
        sequenceNumber := sequenceNumber
        encodedPacket := encodedPacket
        sendTime := now
        nextRetx := now + milliseconds ch.retxTimeout })
      inFlightCount := ch.inFlightCount + 1 }

def eraseSentPacket (ch : Channel C ordered W) (sequenceNumber : Seq) : Channel C ordered W :=
  match ch.sentPackets.get sequenceNumber.toNat with
  | none => ch
  | some sentPacket =>
    if sentPacket.sequenceNumber ≠ sequenceNumber then ch
    else { ch with
      sentPackets := ch.sentPackets.set sequenceNumber.toNat none
      inFlightCount := ch.inFlightCount - 1 }

def asyncSend [CongestionCtrl C] (ch : Channel C ordered W) (codec : PacketCodec) (payload : List Byte)
    (handler : ℕ) (now : Time) (io : Transport) : Channel C ordered W × Transport :=
  let window := ch.effectiveSendWindow now
  let ch := { ch with cc := window.2 }
  if window.1 ≤ ch.inFlightCount then
    (ch, io.emit [.sendDone handler (makeErrorCode .sendWindowFull)])
  else
    let packet := ch.dataPacket payload
    let ch := { ch with nextSeq := ch.nextSeq + 1 }
    let encodedPacket := codec.encodePacket packet
    if encodedPacket = [] then
      (ch, io.emit [.sendDone handler (makeErrorCode .badPacket)])
    else
      match ch.storeSentPacket packet.seq encodedPacket now with
      | none => (ch, io.emit [.sendDone handler (makeErrorCode .sendWindowFull)])
      | some ch =>
        let stats := { io.stats with
          sendWindowUsed := ch.inFlightCount
          packetsSent := io.stats.packetsSent + 1
          bytesSent := io.stats.bytesSent + encodedPacket.length }
        (ch, { io with stats := stats }.sendEncoded encodedPacket
          (.data ch.id packet.seq handler))

/-- The completion of the socket send started by `asyncSend`. -/
def sendCompleted [CongestionCtrl C] (ch : Channel C ordered W) (sequenceNumber : Seq) (handler : ℕ)
    (sendError : ErrorCode) (now : Time) (io : Transport) : Channel C ordered W × Transport :=
  if sendError.failed then
    let ch := ch.eraseSentPacket sequenceNumber
    let stats := { io.stats with sendWindowUsed := ch.inFlightCount }
    ({ ch with cc := CongestionCtrl.onLoss ch.cc now sequenceNumber },
      { io with stats := stats }.emit [.sendDone handler sendError])
  else (ch, io.emit [.sendDone handler sendError])

def asyncRecv (ch : Channel C ordered W) (buf handler : ℕ) (io : Transport) :
    Channel C ordered W × Transport :=
  let r := ch.recvQueue.asyncRecv buf handler
  ({ ch with recvQueue := r.1 }, io.emit r.2)

/-- A stored packet whose deadline has passed, as `onTick` leaves it. -/
def retransmitted (retxTimeout : ℕ) (now : Time) (sentPacket : SentPacket) : SentPacket :=
  { sentPacket with
    nextRetx := now + milliseconds (retxTimeout * 2 ^ min (sentPacket.retxCount + 1).toNat 3)
    retxCount := sentPacket.retxCount + 1 }

def tickSlot [CongestionCtrl C] (retxTimeout : ℕ) (now : Time) :
    Option SentPacket → C × Transport → Option SentPacket × (C × Transport)
  | none, acc => (none, acc)
  | some sentPacket, acc =>
    if sentPacket.nextRetx > now then (some sentPacket, acc)
    else
      let stats := { acc.2.stats with
        packetsLost := acc.2.stats.packetsLost + 1
        packetsSent := acc.2.stats.packetsSent + 1
        bytesSent := acc.2.stats.bytesSent + sentPacket.encodedPacket.length }
      (some (retransmitted retxTimeout now sentPacket),
        (CongestionCtrl.onLoss acc.1 now sentPacket.sequenceNumber,
          { acc.2 with stats := stats }.sendEncoded sentPacket.encodedPacket .ignore))

def onTick [CongestionCtrl C] (ch : Channel C ordered W) (now : Time) (io : Transport) :
    Channel C ordered W × Transport :=
  let r := ch.sentPackets.sweep (tickSlot ch.retxTimeout now) (ch.cc, io)
  ({ ch with sentPackets := r.1, cc := r.2.1 }, r.2.2)

def close (ch : Channel C ordered W) (reason : ErrorCode) (io : Transport) :
    Channel C ordered W × Transport :=
  let r := ch.recvQueue.close reason
  ({ ch with recvQueue := r.1 }, io.emit r.2)

def updateRttEstimate (rttUs : ℚ) (stats : SocketStats) : SocketStats :=
  { stats with
    avgRttUs := if stats.avgRttUs = 0 then rttUs else stats.avgRttUs * (7 / 8) + rttUs * (1 / 8) }

/-- One slot of `processAck`; the accumulator is the in-flight count, the controller and the
transport. Only packets that were never retransmitted give a round-trip sample. -/
def ackSlot [CongestionCtrl C] (ack : Seq) (ackBits : AckBits) (now : Time) :
    Option SentPacket → ℕ × C × Transport → Option SentPacket × (ℕ × C × Transport)
  | none, acc => (none, acc)
  | some sentPacket, acc =>
    if isAcknowledged sentPacket.sequenceNumber ack ackBits = false then (some sentPacket, acc)
    else
      let io := acc.2.2
      if sentPacket.retxCount = 0 then
        let rttUs := (now - sentPacket.sendTime) / 1000
        (none, (acc.1 - 1, CongestionCtrl.onAck acc.2.1 now sentPacket.sequenceNumber rttUs,
          { io with stats := updateRttEstimate rttUs io.stats }))
      else
        (none, (acc.1 - 1, CongestionCtrl.onAck acc.2.1 now sentPacket.sequenceNumber 0, io))

def processAck [CongestionCtrl C] (ch : Channel C ordered W) (ack : Seq) (ackBits : AckBits) (now : Time)
    (io : Transport) : Channel C ordered W × Transport :=
  let r := ch.sentPackets.sweep (ackSlot ack ackBits now) (ch.inFlightCount, ch.cc, io)
  let io := r.2.2.2
  ({ ch with sentPackets := r.1, inFlightCount := r.2.1, cc := r.2.2.1 },
    { io with stats := { io.stats with sendWindowUsed := r.2.1 } })

def recordRecv (io : Transport) (payloadSize : ℕ) : Transport :=
  { io with stats := { io.stats with
      packetsRecv := io.stats.packetsRecv + 1
      bytesRecv := io.stats.bytesRecv + payloadSize } }

/-- `recordRecv` followed by `recvQueue_.deliver`. -/
def deliver (ch : Channel C ordered W) (payload : List Byte) (io : Transport) :
    Channel C ordered W × Transport :=
  let r := ch.recvQueue.deliver payload
  ({ ch with recvQueue := r.1 },
    (recordRecv io payload.length).emit (.deliver ch.id payload :: r.2))

def isDuplicateOrStaleUnordered (ch : Channel C ordered W) (sequenceNumber : Seq) : Bool :=
  let t := ch.recvAckTracker
  if t.hasReceived = false then false
  else if isNewerSequence sequenceNumber t.latestSequence then false
  else
    decide ((t.latestSequence - sequenceNumber).toNat > kAckHistorySize) ||
      isAcknowledged sequenceNumber t.latestSequence t.ackBits

def receiveUnordered (ch : Channel C ordered W) (packet : Packet) (io : Transport) :
    Channel C ordered W × Transport :=
  if ch.isDuplicateOrStaleUnordered packet.seq then (ch, io)
  else
    { ch with recvAckTracker := ch.recvAckTracker.markReceived packet.seq }.deliver
      packet.payload io

def isInOrderedReceiveWindow (ch : Channel C ordered W) (sequenceNumber : Seq) : Bool :=
  let delta := (sequenceNumber - ch.expectedRecvSeq).toNat
  decide (delta < max 1 W.size ∧ delta < 32768)

/-- The `while` loop of `drainReadyPackets`. Every round empties a slot, so as many rounds as
there are slots are enough. -/
def drainReadyPackets : ℕ → Channel C ordered W → Transport → Channel C ordered W × Transport
  | 0, ch, io => (ch, io)
  | fuel + 1, ch, io =>
    match ch.receiveBuffer.get ch.expectedRecvSeq.toNat with
    | none => (ch, io)
    | some bufferedPacket =>
      if bufferedPacket.sequenceNumber ≠ ch.expectedRecvSeq then (ch, io)
      else
        let r := ch.deliver bufferedPacket.payload io
        drainReadyPackets fuel { r.1 with
          receiveBuffer := ch.receiveBuffer.set ch.expectedRecvSeq.toNat none
          expectedRecvSeq := ch.expectedRecvSeq + 1 } r.2

def receiveOrdered (ch : Channel C ordered W) (packet : Packet) (io : Transport) :
    Channel C ordered W × Transport :=
  if ch.isInOrderedReceiveWindow packet.seq = false then (ch, io)
  else
    let ch := { ch with recvAckTracker := ch.recvAckTracker.markReceived packet.seq }
    match ch.receiveBuffer.get packet.seq.toNat with
    | some _ => (ch, io)
    | none =>
      drainReadyPackets W.size { ch with
        receiveBuffer := ch.receiveBuffer.set packet.seq.toNat
          (some ⟨packet.seq, packet.payload⟩) } io

def onRecv [CongestionCtrl C] (ch : Channel C ordered W) (packet : Packet) (now : Time) (io : Transport) :
    Channel C ordered W × Transport :=
  if packet.type = .ack then ch.processAck packet.ack packet.ackBits now io
  else if packet.type ≠ .data then (ch, io)
  else if ordered then ch.receiveOrdered packet io
  else ch.receiveUnordered packet io

def flush (ch : Channel C ordered W) (io : Transport) : Transport :=
  ch.sentPackets.entries.foldl (fun io sentPacket => io.sendEncoded sentPacket.encodedPacket .flush) io

def buildAck (ch : Channel C ordered W) : Option Packet :=
  if ch.recvAckTracker.hasReceived = false then none
  else some {
    type := .ack
    channel := ch.id
    ack := ch.recvAckTracker.latestSequence
    ackBits := ch.recvAckTracker.ackBits }

end Channel
end ReliableUdp.ReliableChannel
