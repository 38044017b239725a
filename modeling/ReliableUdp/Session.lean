import ReliableUdp.ReliableChannel
import ReliableUdp.UnreliableChannel

/-! The session: eight channel slots, the receive loop, the two timers and the teardown. Handlers
of the application are effects; the events are what the strand runs one after the other. -/
namespace ReliableUdp.Session
open Protocol ChannelCommon ReliableChannel

inductive ChannelMode
  | reliableOrdered
  | reliableUnordered
  | unreliableSequenced
  deriving DecidableEq, Repr

structure ChannelConfig where
  id : Byte := 0
  mode : ChannelMode := .reliableOrdered
  sendWindow : BitVec 16 := 128
  retxTimeoutMs : BitVec 32 := 200
  deriving DecidableEq, Repr

def ChannelConfig.reliableOptions (cfg : ChannelConfig) : ReliableChannelConfig :=
  { id := cfg.id, sendWindow := cfg.sendWindow, retxTimeoutMs := cfg.retxTimeoutMs }

structure SessionConfig where
  mtu : ℕ := 1400
  timeoutMs : BitVec 32 := 30000
  maxHandshakeMs : BitVec 32 := 5000
  recvBufSize : ℕ := 65536
  channels : List ChannelConfig := [{}]
  deriving DecidableEq, Repr

/-- `ChannelVariant` over the congestion controllers of ordered and unordered channels. -/
inductive ChannelVar (O U : Type)
  | unreliable (ch : UnreliableChannel.Channel)
  | ordered (W : Window) (ch : Channel O true W)
  | unordered (W : Window) (ch : Channel U false W)

namespace ChannelVar

variable {O U : Type}

def recvQueue : ChannelVar O U → RecvQueue
  | .unreliable ch => ch.recvQueue
  | .ordered _ ch => ch.recvQueue
  | .unordered _ ch => ch.recvQueue

def asyncRecv (buf handler : ℕ) (io : Transport) : ChannelVar O U → ChannelVar O U × Transport
  | .unreliable ch => let r := ch.asyncRecv buf handler io; (.unreliable r.1, r.2)
  | .ordered W ch => let r := ch.asyncRecv buf handler io; (.ordered W r.1, r.2)
  | .unordered W ch => let r := ch.asyncRecv buf handler io; (.unordered W r.1, r.2)

def close (reason : ErrorCode) (io : Transport) : ChannelVar O U → ChannelVar O U × Transport
  | .unreliable ch => let r := ch.close reason io; (.unreliable r.1, r.2)
  | .ordered W ch => let r := ch.close reason io; (.ordered W r.1, r.2)
  | .unordered W ch => let r := ch.close reason io; (.unordered W r.1, r.2)

/-- Unreliable channels have nothing to resend. -/
def flush (io : Transport) : ChannelVar O U → Transport
  | .unreliable _ => io
  | .ordered _ ch => ch.flush io
  | .unordered _ ch => ch.flush io

/-- Unreliable channels never acknowledge. -/
def buildAck : ChannelVar O U → Option Packet
  | .unreliable _ => none
  | .ordered _ ch => ch.buildAck
  | .unordered _ ch => ch.buildAck

variable [CongestionCtrl O] [CongestionCtrl U]

def asyncSend (codec : PacketCodec) (payload : List Byte) (handler : ℕ) (now : Time)
    (io : Transport) : ChannelVar O U → ChannelVar O U × Transport
  | .unreliable ch => let r := ch.asyncSend codec payload handler io; (.unreliable r.1, r.2)
  | .ordered W ch => let r := ch.asyncSend codec payload handler now io; (.ordered W r.1, r.2)
  | .unordered W ch => let r := ch.asyncSend codec payload handler now io; (.unordered W r.1, r.2)

/-- The completion of a reliable send; unreliable channels have no completion of their own. -/
def sendCompleted (sequenceNumber : Seq) (handler : ℕ) (ec : ErrorCode) (now : Time)
    (io : Transport) : ChannelVar O U → ChannelVar O U × Transport
  | .unreliable ch => (.unreliable ch, io)
  | .ordered W ch =>
    let r := ch.sendCompleted sequenceNumber handler ec now io; (.ordered W r.1, r.2)
  | .unordered W ch =>
    let r := ch.sendCompleted sequenceNumber handler ec now io; (.unordered W r.1, r.2)

def onTick (now : Time) (io : Transport) : ChannelVar O U → ChannelVar O U × Transport
  | .unreliable ch => (.unreliable ch, io)
  | .ordered W ch => let r := ch.onTick now io; (.ordered W r.1, r.2)
  | .unordered W ch => let r := ch.onTick now io; (.unordered W r.1, r.2)

def onRecv (packet : Packet) (now : Time) (io : Transport) :
    ChannelVar O U → ChannelVar O U × Transport
  | .unreliable ch => let r := ch.onRecv packet io; (.unreliable r.1, r.2)
  | .ordered W ch => let r := ch.onRecv packet now io; (.ordered W r.1, r.2)
  | .unordered W ch => let r := ch.onRecv packet now io; (.unordered W r.1, r.2)

end ChannelVar

def kMaxChannels : ℕ := 8

lemma kMaxChannels_pos : 0 < kMaxChannels := by decide

/-- A slot is occupied when its channel is open. `receiving`, `retransmitting` and `keepingAlive`
tell whether a socket receive and the waits on the two timers are outstanding. -/
structure BasicSession (O U : Type) where
  config : SessionConfig
  io : Transport := {}
  channels : SlotTable (ChannelVar O U) kMaxChannels := SlotTable.empty _ _
  started : Bool := false
  closed : Bool := false
  receiving : Bool := false
  retransmitting : Bool := false
  keepingAlive : Bool := false
  lastRecv : Time := 0

namespace BasicSession

variable {O U : Type}

def openChannel (orderedCc : O) (unorderedCc : U) (channels : SlotTable (ChannelVar O U) kMaxChannels)
    (cfg : ChannelConfig) : SlotTable (ChannelVar O U) kMaxChannels :=
  if kMaxChannels ≤ cfg.id.toNat then channels
  else
    channels.set cfg.id.toNat (some (match cfg.mode with
      | .reliableOrdered => .ordered _ (.create cfg.reliableOptions orderedCc)
      | .reliableUnordered => .unordered _ (.create cfg.reliableOptions unorderedCc)
      | .unreliableSequenced => .unreliable { id := cfg.id }))

def create (config : SessionConfig) (orderedCc : O) (unorderedCc : U) : BasicSession O U :=
  { config := config
    channels := config.channels.foldl (openChannel orderedCc unorderedCc) (SlotTable.empty _ _) }

/-- Granularity of the retransmit timer in milliseconds: half the smallest timeout configured for a
reliable channel, clamped. -/
def retransmitTick (config : SessionConfig) : ℕ :=
  let smallest := config.channels.foldl (fun smallest cfg =>
    if cfg.mode ≠ .unreliableSequenced ∧ cfg.retxTimeoutMs > 0 then
      min smallest cfg.retxTimeoutMs.toNat
    else smallest) 200
  min (max (smallest / 2) 10) 500

def channel? (s : BasicSession O U) (ch : Byte) : Option (ChannelVar O U) :=
  if ch.toNat < kMaxChannels then s.channels.get ch.toNat else none

def update (s : BasicSession O U) (ch : Byte) (r : ChannelVar O U × Transport) : BasicSession O U :=
  { s with channels := s.channels.set ch.toNat (some r.1), io := r.2 }

def emit (s : BasicSession O U) (effects : List Effect) : BasicSession O U :=
  { s with io := s.io.emit effects }

def sendPacket (codec : PacketCodec) (s : BasicSession O U) (packet : Packet) : BasicSession O U :=
  let encoded := codec.encodePacket packet
  if encoded = [] then s else { s with io := s.io.sendEncoded encoded .ignore }

/-- The reason handed to the channels by a teardown. -/
def channelReason (reason : ErrorCode) : ErrorCode :=
  if reason.failed then reason else makeErrorCode .channelClosed

def closeSlot (reason : ErrorCode) :
    Option (ChannelVar O U) → Transport → Option (ChannelVar O U) × Transport
  | none, io => (none, io)
  | some c, io => let r := c.close reason io; (some r.1, r.2)

def close (s : BasicSession O U) (reason : ErrorCode) : BasicSession O U :=
  if s.closed then s
  else
    let r := s.channels.sweep (closeSlot (channelReason reason)) s.io
    { s with closed := true, channels := r.1, io := r.2.emit [.onDisconnected reason] }

def start (s : BasicSession O U) (remote : Endpoint) (now : Time) : BasicSession O U :=
  if s.started = true ∨ s.closed = true then s
  else
    { s with
      started := true
      io := { s.io with remote := remote }.emit [.onConnected]
      lastRecv := now
      receiving := true
      retransmitting := true
      keepingAlive := true }

def cancel (s : BasicSession O U) : BasicSession O U := s.close operationAborted

def asyncRecv (s : BasicSession O U) (ch : Byte) (buf handler : ℕ) : BasicSession O U :=
  match s.channel? ch with
  | none => s.emit [.recvDone handler (makeErrorCode .channelClosed) []]
  | some c => s.update ch (c.asyncRecv buf handler s.io)

def asyncFlush (s : BasicSession O U) (handler : ℕ) : BasicSession O U :=
  if s.closed then s.emit [.sendDone handler (makeErrorCode .channelClosed)]
  else
    { s with io := s.channels.entries.foldl (fun io c => ChannelVar.flush io c) s.io }.emit
      [.sendDone handler .none]

def asyncDisconnect (codec : PacketCodec) (s : BasicSession O U) (handler : ℕ) : BasicSession O U :=
  if s.closed then s.emit [.sendDone handler .none]
  else
    let encoded := codec.encodePacket { type := .disconnect }
    if encoded = [] then
      (s.close (makeErrorCode .badPacket)).emit [.sendDone handler (makeErrorCode .badPacket)]
    else { s with io := s.io.sendEncoded encoded (.disconnect handler) }

variable [CongestionCtrl O] [CongestionCtrl U]

def asyncSend (codec : PacketCodec) (s : BasicSession O U) (ch : Byte) (payload : List Byte)
    (handler : ℕ) (now : Time) : BasicSession O U :=
  if s.closed then s.emit [.sendDone handler (makeErrorCode .channelClosed)]
  else
    match s.channel? ch with
    | none => s.emit [.sendDone handler (makeErrorCode .channelClosed)]
    | some c =>
      if payload.length + codec.maxOverhead > s.config.mtu then
        s.emit [.sendDone handler (makeErrorCode .messageTooLarge)]
      else s.update ch (c.asyncSend codec payload handler now s.io)

/-- What a Data or Ack packet, or one of unknown type, does to its channel. -/
def channelPacket (codec : PacketCodec) (s : BasicSession O U) (packet : Packet) (now : Time) :
    BasicSession O U :=
  match s.channel? packet.channel with
  | none => s
  | some c =>
    let r := c.onRecv packet now s.io
    let s := s.update packet.channel r
    if packet.type ≠ .data then s
    else
      match r.1.buildAck with
      | none => s
      | some ack => s.sendPacket codec ack

def handlePacket (codec : PacketCodec) (s : BasicSession O U) (datagram : List Byte) (now : Time) :
    BasicSession O U :=
  match codec.decode datagram with
  | .error _ => s
  | .ok packet =>
    let s := { s with lastRecv := now }
    if packet.type = .disconnect then s.close (makeErrorCode .connectionReset)
    else if packet.type = .keepalive then s
    else if packet.type = .handshakeInit then
      s.sendPacket codec { type := .handshakeAck, ack := packet.seq }
    else if packet.type = .handshakeAck then s
    else s.channelPacket codec packet now

def onSocketRecv (codec : PacketCodec) (s : BasicSession O U) (ec : ErrorCode) (sender : Endpoint)
    (datagram : List Byte) (now : Time) : BasicSession O U :=
  if s.receiving = false then s
  else
    let s := { s with receiving := false }
    if s.closed then s
    else if ec.failed then s.close ec
    else
      let s := if sender = s.io.remote then s.handlePacket codec datagram now else s
      if s.closed then s else { s with receiving := true }

def tickSlot (now : Time) :
    Option (ChannelVar O U) → Transport → Option (ChannelVar O U) × Transport
  | none, io => (none, io)
  | some c, io => let r := c.onTick now io; (some r.1, r.2)

def retransmitTimer (s : BasicSession O U) (ec : ErrorCode) (now : Time) : BasicSession O U :=
  if s.retransmitting = false then s
  else if ec.failed = true ∨ s.closed = true then { s with retransmitting := false }
  else
    let r := s.channels.sweep (tickSlot now) s.io
    { s with channels := r.1, io := r.2 }

def keepaliveTimer (codec : PacketCodec) (s : BasicSession O U) (ec : ErrorCode) (now : Time) :
    BasicSession O U :=
  if s.keepingAlive = false then s
  else if ec.failed = true ∨ s.closed = true then { s with keepingAlive := false }
  else if now - s.lastRecv > milliseconds s.config.timeoutMs.toNat then
    { s with keepingAlive := false }.close (makeErrorCode .timeout)
  else s.sendPacket codec { type := .keepalive }

/-- The completion of a socket send. -/
def sendCompleted (s : BasicSession O U) (position : ℕ) (ec : ErrorCode) (now : Time) :
    BasicSession O U :=
  let rest := { s with io := { s.io with pending := s.io.pending.eraseIdx position } }
  match s.io.pending[position]? with
  | some (.data ch sequenceNumber handler) =>
    match rest.channel? ch with
    | none => rest
    | some c => rest.update ch (c.sendCompleted sequenceNumber handler ec now rest.io)
  | some (.sequenced handler) => rest.emit [.sendDone handler ec]
  | some (.disconnect handler) => (rest.close .none).emit [.sendDone handler ec]
  | some .flush | some .ignore | none => rest

end BasicSession

inductive Event
  | start (remote : Endpoint) (now : Time)
  | onSocketRecv (ec : ErrorCode) (sender : Endpoint) (datagram : List Byte) (now : Time)
  | retransmitTimer (ec : ErrorCode) (now : Time)
  | keepaliveTimer (ec : ErrorCode) (now : Time)
  | sendCompleted (position : ℕ) (ec : ErrorCode) (now : Time)
  | cancel
  | asyncDisconnect (handler : ℕ)
  | asyncSend (ch : Byte) (payload : List Byte) (handler : ℕ) (now : Time)
  | asyncRecv (ch : Byte) (buf handler : ℕ)
  | asyncFlush (handler : ℕ)
  deriving DecidableEq, Repr

def BasicSession.step {O U : Type} [CongestionCtrl O] [CongestionCtrl U] (codec : PacketCodec)
    (s : BasicSession O U) : Event → BasicSession O U
  | .start remote now => s.start remote now
  | .onSocketRecv ec sender datagram now => s.onSocketRecv codec ec sender datagram now
  | .retransmitTimer ec now => s.retransmitTimer ec now
  | .keepaliveTimer ec now => s.keepaliveTimer codec ec now
  | .sendCompleted position ec now => s.sendCompleted position ec now
  | .cancel => s.cancel
  | .asyncDisconnect handler => s.asyncDisconnect codec handler
  | .asyncSend ch payload handler now => s.asyncSend codec ch payload handler now
  | .asyncRecv ch buf handler => s.asyncRecv ch buf handler
  | .asyncFlush handler => s.asyncFlush handler

end ReliableUdp.Session
